import ScriptLang.Proofs.Program.Phrases

/-!
What stands for a value is read as that value, whatever comes behind it, as long as the next token
cannot continue it. So readers do not stop before the end of a phrase, and they choose among the
rules of the grammar by the next token alone.
-/

set_option autoImplicit false
set_option relaxedAutoImplicit false

namespace ScriptLang

open Grammar

/-- The next token is none of the words. -/
def Clear (words : List String) (tokens : List Token) : Prop :=
  ∀ token ∈ tokens.head?, ∀ word ∈ words, token.isWord word = false

section

variable {words : List String} {token : Token} {tokens rest : List Token}

theorem Clear.nil : Clear words [] := nofun

theorem Clear.mono {fewer : List String} (h : Clear words tokens) (hsub : fewer ⊆ words) :
    Clear fewer tokens := fun token htoken word hword ↦ h token htoken word (hsub hword)

/-- A token that is a word is none of the others. -/
theorem Token.Is.clear {word : String} (h : token.Is word) (hword : word ∉ words) :
    Clear words (token :: rest) := by
  intro next hnext other hother
  cases hnext
  rw [h.isWord_eq, beq_eq_false_iff_ne]
  exact fun heq ↦ hword (heq ▸ hother)

theorem Token.Is.isWord {word : String} (h : token.Is word) : token.isWord word = true := by
  rw [h.isWord_eq, beq_self_eq_true]

/-- A token that begins an operand is no other word than those that do. -/
theorem Token.WellFormed.clear (h : token.WellFormed) (hopens : token.opensOperand = true)
    (hwords : ∀ word ∈ words, word ∈ keywords ++ operators ∧ word ∉ openers) :
    Clear words (token :: rest) := by
  intro next hnext word hword
  cases hnext
  obtain ⟨hlisted, hopener⟩ := hwords word hword
  cases hfound : token.isWord word with
  | false => rfl
  | true =>
    have hopening : ∀ word ∈ keywords ++ operators, Token.opensOperand
        ⟨if word ∈ keywords then .identifier else .operator, word, 0⟩ = true → word ∈ openers := by
      decide
    obtain ⟨htext, hkind⟩ := h.is_of_isWord hlisted hfound
    refine (hopener (hopening word hlisted ?_)).elim
    rw [← hopens, ← hkind, ← htext]
    rfl

/-- A part that is left out lets the next token through, and one that is there begins with its own
word. -/
theorem Clear.maybe {α : Type} {phrase : Phrase α} {word : String} {value : Option α}
    (h : Clear words rest) (hphrase : Maybe (Behind phrase word) tokens value)
    (hword : word ∉ words) : Clear words (tokens ++ rest) := by
  cases hphrase with
  | none => exact h
  | some hphrase =>
    cases hphrase with
    | intro htoken _ => exact htoken.clear hword

/-- Parts that each begin with a word let the next token through if there are none. -/
theorem Clear.many {α : Type} {phrase : Phrase α} {word : String} {values : List α}
    (h : Clear words rest) (hphrase : Many (Behind phrase word) tokens values)
    (hword : word ∉ words) : Clear words (tokens ++ rest) := by
  cases hphrase with
  | nil => exact h
  | cons hfirst _ =>
    cases hfirst with
    | intro htoken _ => exact htoken.clear hword

end

namespace Reader

variable {α : Type} {stop size : Nat} {words : List String} {used rest : List Token}

/-- Tokens that fit and stand for a value are read as that value, if they are in front of tokens
that do not begin with one of `words`. -/
def Accepts (size : Nat) (words : List String) (reader : Reader α) (phrase : Phrase α) : Prop :=
  ∀ used value rest, Fits size used → phrase used value → Clear words rest →
    reader (used ++ rest) = .ok value rest

theorem expectWord_of_is {token : Token} {text : String} (h : token.Is text) :
    expectWord stop text (token :: rest) = .ok () rest :=
  Stateful.bind_of_ok (accept_of_isWord h.isWord)

/-- A word that is not next is not read, and nothing is lost. -/
theorem accept_of_clear {text : String} (h : Clear words rest) (htext : text ∈ words) :
    accept text rest = .ok false rest := by
  cases rest with
  | nil => rfl
  | cons token rest => exact accept_of_not_isWord (h token rfl text htext)

/-- Of two readers, the one behind the word is chosen by it. -/
theorem choose_of_is {token : Token} {tokens : List Token} {text : String} {first second : Reader α}
    (h : token.Is text) : (accept text >>= fun found ↦ if found = true then first else second)
      (token :: tokens) = first tokens :=
  Stateful.bind_of_ok (accept_of_isWord h.isWord)

/-- The second of two ways is taken when the word of the first is not next. -/
theorem choose_of_clear {tokens : List Token} {text : String} {first second : Reader α}
    (h : Clear words tokens) (htext : text ∈ words) :
    (accept text >>= fun found ↦ if found = true then first else second) tokens = second tokens :=
  Stateful.bind_of_ok (accept_of_clear h htext)

theorem following_of_clear {reader : Reader α} {text : String} (h : Clear words rest)
    (htext : text ∈ words) : following text reader rest = .ok none rest :=
  Stateful.bind_of_ok (accept_of_clear h htext)

/-- A part behind a word is read when the word is next. -/
theorem following_of_is {reader : Reader α} {token : Token} {tokens : List Token} {text : String}
    {value : α} (h : token.Is text) (hread : reader tokens = .ok value rest) :
    following text reader (token :: tokens) = .ok (some value) rest := by
  refine (Stateful.bind_of_ok (accept_of_isWord h.isWord)).trans ?_
  rw [if_pos rfl, Stateful.map_eq]
  exact Stateful.bind_of_ok hread

/-- `ready` holds in front of each item, and behind the last one nothing is found. -/
theorem many_of_phrases {item : Reader (Option α)} {phrase : Phrase α} {values : List α}
    (ready : List Token → Prop) (h : Many phrase used values) (hready : ready rest)
    (hend : item rest = .ok none rest)
    (hitem : ∀ first head later, first.Sublist used → phrase first head → ready later →
      first ≠ [] ∧ ready (first ++ later) ∧ item (first ++ later) = .ok (some head) later) :
    many item (used ++ rest) = .ok values rest := by
  have hwithin (bound : List Token) (hbound : (used ++ rest).length ≤ bound.length) :
      ready (used ++ rest) ∧ manyWithin item bound (used ++ rest) = .ok values rest := by
    induction h generalizing bound with
    | nil => exact ⟨hready, manyWithin_of_none hend⟩
    | @cons first tail head values hfirst _ ih =>
      have htail := ih fun item head later hsub ↦
        hitem item head later (hsub.trans (List.sublist_append_right first tail))
      obtain ⟨hlater, -⟩ := htail (tail ++ rest) (Nat.le_refl _)
      obtain ⟨hne, hnow, hread⟩ :=
        hitem first head (tail ++ rest) (List.sublist_append_left first tail) hfirst hlater
      rw [List.append_assoc] at hbound ⊢
      obtain ⟨shorter, hshorter, hrun⟩ := manyWithin_of_some hread hne hbound
      rw [hrun]
      exact ⟨hnow, Stateful.bind_of_ok (htail shorter hshorter).2⟩
  exact (hwithin (used ++ rest) (Nat.le_refl _)).2

/-! ### Expressions -/

section

variable {reader : Reader Expr} {tokens : List Token}

/-- An operator of the tier that is next is read with its position. -/
theorem acceptOperator_of_is {ops : List BinaryOp} {op : BinaryOp} {token : Token}
    (h : token.Is op.lexeme) (hop : op ∈ ops) :
    acceptOperator ops (token :: rest) = .ok (some (op, token.offset)) rest := by
  rw [acceptOperator_cons]
  cases hfound : ops.find? fun op ↦ token.isWord op.lexeme with
  | none =>
    have hmissing := List.find?_eq_none.mp hfound op hop
    rw [h.isWord] at hmissing
    exact (hmissing rfl).elim
  | some other =>
    have hword : token.isWord other.lexeme = true := by simpa using List.find?_some hfound
    rw [h.isWord_eq, beq_iff_eq] at hword
    rw [BinaryOp.lexeme_injective op other hword]

/-- No operator of the tier is read when none is next. -/
theorem acceptOperator_of_clear {ops : List BinaryOp} (h : Clear (ops.map BinaryOp.lexeme) rest) :
    acceptOperator ops rest = .ok none rest := by
  cases rest with
  | nil => rfl
  | cons token rest =>
    have hnone : (ops.find? fun op ↦ token.isWord op.lexeme) = none := by
      refine List.find?_eq_none.mpr fun op hop ↦ ?_
      rw [h token rfl op.lexeme (List.mem_map_of_mem hop)]
      exact Bool.false_ne_true
    rw [acceptOperator_cons, hnone]

/-- The operators of a tier join operands that cannot be continued by them. -/
theorem level_accepts {ops : List BinaryOp} {others : List (List BinaryOp)}
    (hops : ∀ op ∈ ops, op.lexeme ∉ words) (h : Accepts size words reader (Expression others)) :
    Accepts size (ops.map BinaryOp.lexeme ++ words) (level ops reader)
      (Expression (ops :: others)) := by
  intro used expr rest hfits hphrase hclear
  obtain ⟨first, second, left, operations, rfl, hfirst, hsecond, rfl⟩ := hphrase.chain
  have hrest : Clear words rest := hclear.mono (List.subset_append_right _ _)
  have hend : operation ops reader rest = .ok none rest :=
    Stateful.bind_of_ok (acceptOperator_of_clear (hclear.mono (List.subset_append_left _ _)))
  -- Behind an operand there is an operator of this tier or `rest`, and neither continues it.
  have hmany := many_of_phrases (Clear words) hsecond hrest hend
    fun inner operation later hsub hinner hlater ↦ by
      cases hinner with
      | @intro op token tokens right hop htoken hright =>
        have hread : reader (tokens ++ later) = .ok right later :=
          h tokens right later (hfits.right.sublist hsub).behind hright hlater
        refine ⟨nofun, htoken.clear (hops op hop), ?_⟩
        exact (Stateful.bind_of_ok (acceptOperator_of_is htoken hop)).trans
          (Stateful.bind_of_ok hread)
  have hleft : reader (first ++ (second ++ rest)) = .ok left (second ++ rest) := by
    refine h first left _ hfits.left hfirst ?_
    cases hsecond with
    | nil => exact hrest
    | cons hhead _ =>
      cases hhead with
      | intro hop htoken _ => exact htoken.clear (hops _ hop)
  rw [List.append_assoc]
  exact (Stateful.bind_of_ok hleft).trans (Stateful.bind_of_ok hmany)

/-- The words that can continue an expression. -/
def followers : List String :=
  BinaryOp.logical.map BinaryOp.lexeme ++ (BinaryOp.comparisons.map BinaryOp.lexeme ++
    (BinaryOp.additive.map BinaryOp.lexeme ++ (BinaryOp.multiplicative.map BinaryOp.lexeme ++
      [".", "("])))

theorem nextArgument_of_clear (h : Clear [","] rest) :
    nextArgument stop reader rest = .ok none rest :=
  nextArgument_of_not_isWord fun token htoken ↦ h token htoken "," List.mem_cons_self

/-- Arguments in parentheses are read to their closing parenthesis, whatever comes behind. -/
theorem arguments_accepts (h : Accepts (size - 1) followers reader (Expression tiers))
    {args : List Expr} (hfits : Fits size tokens) (hargs : Arguments tokens args) :
    following "(" (arguments stop reader) (tokens ++ rest) = .ok (some args) rest := by
  cases hargs with
  | none hopening hclosing =>
    refine following_of_is hopening ?_
    exact Stateful.bind_of_ok (accept_of_isWord hclosing.isWord)
  | @some opening closing first others head tail hopening hfirst hothers hclosing =>
    have hinner := hfits.tail
    have hlast : Clear followers (closing :: rest) := hclosing.clear (by decide)
    have hclear {inner later : List Token} {expr : Expr} (hinner : Fits (size - 1) inner)
        (hexpr : Expression tiers inner expr) : Clear [")"] (inner ++ later) := by
      obtain ⟨token, inner, rfl, hopens⟩ := hexpr.opens
      exact hinner.head.clear hopens (by decide)
    have hend : nextArgument stop reader (closing :: rest) = .ok none (closing :: rest) :=
      nextArgument_of_clear (hclosing.clear (by decide))
    have hmany := many_of_phrases (Clear followers) hothers hlast hend
      fun inner expr later hsub hexpr hlater ↦ by
        cases hexpr with
        | @intro comma inner _ hcomma hexpr =>
          have hsize := (hinner.right.left.sublist hsub).behind
          refine ⟨nofun, hcomma.clear (by decide), ?_⟩
          rw [List.cons_append, nextArgument_of_comma hcomma.isWord
            fun token htoken ↦ hclear hsize hexpr token htoken ")" List.mem_cons_self]
          rw [Stateful.map_eq]
          exact Stateful.bind_of_ok (h inner expr later hsize hexpr hlater)
    have hread : reader (first ++ (others ++ closing :: rest)) =
        .ok head (others ++ closing :: rest) :=
      h first head _ hinner.left hfirst (hlast.many hothers (by decide))
    have hnone : accept ")" (first ++ (others ++ closing :: rest)) = .ok false _ :=
      accept_of_clear (hclear hinner.left hfirst) List.mem_cons_self
    simp only [List.cons_append, List.append_assoc, List.nil_append]
    refine following_of_is hopening ((Stateful.bind_of_ok hnone).trans ?_)
    refine (Stateful.bind_of_ok hread).trans ((Stateful.bind_of_ok hmany).trans ?_)
    exact Stateful.bind_of_ok (accept_of_isWord hclosing.isWord)

/-- A member or a call of a method behind a dot is read to its end; without arguments the next token
must not open any. -/
theorem suffix_accepts (h : Accepts (size - 1) followers reader (Expression tiers)) {found : Suffix}
    (hfits : Fits size tokens) (hphrase : Behind Attachment "." tokens found)
    (hclear : Clear ["("] rest) : suffix stop reader (tokens ++ rest) = .ok (some found) rest := by
  cases hphrase with
  | intro hpoint hattachment =>
    refine following_of_is hpoint ?_
    cases hattachment with
    | member hname =>
      refine (Stateful.bind_of_ok rfl).trans ((Stateful.bind_of_ok (name_of_isName hname)).trans ?_)
      exact Stateful.bind_of_ok (following_of_clear hclear List.mem_cons_self)
    | invoke hname hargs =>
      refine (Stateful.bind_of_ok rfl).trans ((Stateful.bind_of_ok (name_of_isName hname)).trans ?_)
      exact Stateful.bind_of_ok (arguments_accepts h hfits.behind.behind hargs)

/-- An operand is read to its end: a group to its parenthesis, a name with its arguments if it has
some, a literal by itself. -/
theorem operand_accepts (h : Accepts (size - 1) followers reader (Expression tiers)) :
    Accepts size ["("] (operand stop reader) Operand := by
  intro used expr rest hfits hphrase hclear
  cases hphrase with
  | constant hvalue => exact congrFun (operandFrom_of_constant hvalue) rest
  | literal hvalue => exact congrFun (operandFrom_of_literal hvalue) rest
  | @group opening closing tokens inner hopening hinner hclosing =>
    have hread : reader (tokens ++ closing :: rest) = .ok inner (closing :: rest) :=
      h tokens inner _ hfits.tail.left hinner (hclosing.clear (by decide))
    simp only [List.cons_append, List.append_assoc, List.nil_append]
    refine (congrFun (operandFrom_of_opening hopening) _).trans ?_
    exact (Stateful.bind_of_ok hread).trans (Stateful.bind_of_ok (expectWord_of_is hclosing))
  | access hname =>
    refine (congrFun (operandFrom_of_name hname) _).trans ?_
    exact Stateful.bind_of_ok (following_of_clear hclear List.mem_cons_self)
  | call hname hargs =>
    refine (congrFun (operandFrom_of_name hname) _).trans ?_
    exact Stateful.bind_of_ok (arguments_accepts h hfits.behind hargs)

/-- An operand is read with everything that is attached to it by dots. -/
theorem suffixed_accepts (h : Accepts (size - 1) followers reader (Expression tiers)) :
    Accepts size [".", "("] (suffixed stop reader) (Expression []) := by
  intro used expr rest hfits hphrase hclear
  obtain ⟨first, second, left, suffixes, rfl, hfirst, hsecond, rfl⟩ := hphrase.attachments
  have hend : suffix stop reader rest = .ok none rest :=
    following_of_clear hclear List.mem_cons_self
  have hrest : Clear ["("] rest := hclear.mono (by decide)
  have hmany := many_of_phrases (Clear ["("]) hsecond hrest hend
    fun inner found later hsub hinner hlater ↦ by
      have hread : suffix stop reader (inner ++ later) = .ok (some found) later :=
        suffix_accepts h (hfits.right.sublist hsub) hinner hlater
      cases hinner with
      | intro hpoint _ => exact ⟨nofun, hpoint.clear (by decide), hread⟩
  have hleft : operand stop reader (first ++ (second ++ rest)) = .ok left (second ++ rest) :=
    operand_accepts h first left _ hfits.left hfirst (hrest.many hsecond (by decide))
  rw [List.append_assoc]
  exact (Stateful.bind_of_ok hleft).trans (Stateful.bind_of_ok hmany)

/-- Tiers of operators are read from the outermost on, each with the tier below as its operands. -/
theorem levels_accepts (h : Accepts (size - 1) followers reader (Expression tiers)) :
    Accepts size followers (levels stop reader) (Expression tiers) :=
  level_accepts (by decide) (level_accepts (by decide) (level_accepts (by decide)
    (level_accepts (by decide) (suffixed_accepts h))))

end

/-- An expression is read to its end if what comes behind cannot continue it. The induction is on
the number of tokens that it stands for. -/
theorem expression_accepts (stop size : Nat) :
    Accepts size followers (expression stop) (Expression tiers) := by
  induction size with
  | zero =>
    intro used expr rest hfits hphrase _
    obtain ⟨token, tokens, rfl, -⟩ := hphrase.opens
    cases hfits.1
  | succ size ih =>
    rw [expression_eq]
    exact levels_accepts ih

/-! ### Statements -/

section

variable {reader : Reader Stmt} {tokens : List Token}

/-- A type behind a colon is read, or left out if no colon is next. -/
theorem following_typeName_accepts {typeName : Option String} (hclear : Clear [":"] rest)
    (h : Maybe (Behind TypeName ":") tokens typeName) :
    following ":" (Reader.name stop) (tokens ++ rest) = .ok typeName rest := by
  cases h with
  | none => exact following_of_clear hclear List.mem_cons_self
  | some h =>
    cases h with
    | intro hcolon hname =>
      cases hname with
      | intro hname => exact following_of_is hcolon (name_of_isName hname)

/-- An expression behind an equals sign, in front of a semicolon. -/
theorem following_value_accepts {value : Option Expr} {last : Token} (hfits : Fits size tokens)
    (hlast : last.Is ";") (h : Maybe (Behind (Expression tiers) "=") tokens value) :
    following "=" (expression stop) (tokens ++ last :: rest) = .ok value (last :: rest) := by
  have hclear : Clear ["="] (last :: rest) := hlast.clear (by decide)
  cases h with
  | none => exact following_of_clear hclear List.mem_cons_self
  | some h =>
    cases h with
    | intro hsign hvalue =>
      refine following_of_is hsign ?_
      exact expression_accepts stop size _ _ _ hfits.behind hvalue (hlast.clear (by decide))

/-- A declaration is read to its semicolon. -/
theorem binding_accepts : Accepts size [] (binding stop) Declaration := by
  intro used value rest hfits hphrase _
  cases hphrase with
  | @intro name last typing initial typeName value hname htype hvalue hlast =>
    have hinner := hfits.behind
    have hclear : Clear [":"] (initial ++ last :: rest) :=
      (hlast.clear (by decide) : Clear [":"] (last :: rest)).maybe hvalue (by decide)
    simp only [List.cons_append, List.append_assoc, List.nil_append]
    refine (Stateful.bind_of_ok rfl).trans ((Stateful.bind_of_ok (name_of_isName hname)).trans ?_)
    refine (Stateful.bind_of_ok (following_typeName_accepts hclear htype)).trans ?_
    refine (Stateful.bind_of_ok (following_value_accepts hinner.right.left hlast hvalue)).trans ?_
    exact Stateful.bind_of_ok (expectWord_of_is hlast)

/-- A call or an assignment is read to its semicolon, and which of the two it is shows in the token
behind the target. -/
theorem expressionStatement_accepts {last : Token} {first second : List Token} {target : Expr}
    {value : Option Expr} (hfits : Fits size (first ++ second))
    (htarget : Expression tiers first target)
    (hvalue : Maybe (Behind (Expression tiers) "=") second value) (hlast : last.Is ";") :
    expressionStatement stop (first ++ (second ++ last :: rest)) =
      .ok (target.assigned value) rest := by
  have hclear : Clear followers (second ++ last :: rest) :=
    (hlast.clear (by decide) : Clear followers (last :: rest)).maybe hvalue (by decide)
  have hread := expression_accepts stop size first target _ hfits.left htarget hclear
  rw [expressionStatement_eq]
  refine (Stateful.bind_of_ok hread).trans ?_
  refine (Stateful.bind_of_ok (following_value_accepts hfits.right hlast hvalue)).trans ?_
  exact Stateful.bind_of_ok (expectWord_of_is hlast)

/-- A statement begins with a word of its own or with an operand. -/
theorem statement_clear {statement : Stmt} (hfits : Fits size tokens)
    (h : Statement tokens statement) (hwords : ∀ word ∈ words, word ∈ keywords ++ operators ∧
      word ∉ openers ∧ word ∉ ["LET", "IF", "FOR", "WHILE", "RETURN"]) :
    tokens ≠ [] ∧ ∀ rest, Clear words (tokens ++ rest) := by
  have hnone {word : String} (hword : word ∈ ["LET", "IF", "FOR", "WHILE", "RETURN"]) :
      word ∉ words := fun hmem ↦ (hwords word hmem).2.2 hword
  cases h with
  | declare hword _ | branch hword _ _ _ _ _ | forEach hword _ _ _ _ _ _ | loop hword _ _ _ _
  | ret hword _ _ => exact ⟨nofun, fun rest ↦ hword.clear (hnone (by decide))⟩
  | assign htarget _ _ _ | expr htarget _ =>
    obtain ⟨token, inner, rfl, hopens⟩ := htarget.opens
    exact ⟨nofun, fun rest ↦ hfits.head.clear hopens fun word hword ↦
      ⟨(hwords word hword).1, (hwords word hword).2.1⟩⟩

/-- A block is read up to the word that closes it. -/
theorem block_accepts {closers : List String} {closing : Token} {body : List Stmt}
    (hclosers : closers ⊆ ["ELSE", "END"]) (h : Accepts size [] reader Statement)
    (hfits : Fits size tokens) (hbody : Many Statement tokens body) {word : String}
    (hclosing : closing.Is word) (hword : word ∈ closers) :
    block reader closers (tokens ++ closing :: rest) = .ok body (closing :: rest) := by
  have hwords : ∀ word ∈ ["ELSE", "END"], word ∈ keywords ++ operators ∧
      word ∉ openers ∧ word ∉ ["LET", "IF", "FOR", "WHILE", "RETURN"] := by decide
  have hpeek (token : Token) (rest : List Token) : nextIsAny closers (token :: rest) =
      .ok (closers.any token.isWord) (token :: rest) := rfl
  refine many_of_phrases (fun _ ↦ True) hbody trivial ?_ ?_
  · have hfound : closers.any closing.isWord = true :=
      List.any_eq_true.mpr ⟨word, hword, hclosing.isWord⟩
    refine (Stateful.bind_of_ok rfl).trans ((Stateful.bind_of_ok (hpeek closing rest)).trans ?_)
    rw [hfound]
    rfl
  · intro first statement later hsub hstatement _
    have hfirst := hfits.sublist hsub
    obtain ⟨hne, hclear⟩ :=
      statement_clear hfirst hstatement fun word hword ↦ hwords word (hclosers hword)
    refine ⟨hne, trivial, ?_⟩
    have hread := h first statement later hfirst hstatement nofun
    cases first with
    | nil => exact (hne rfl).elim
    | cons token first =>
      have hmissing : closers.any token.isWord = false :=
        List.any_eq_false.mpr fun word hword ↦ by
          rw [hclear later token rfl word hword]
          exact Bool.false_ne_true
      refine (Stateful.bind_of_ok rfl).trans ((Stateful.bind_of_ok (hpeek token _)).trans ?_)
      rw [hmissing, if_neg Bool.false_ne_true, Stateful.map_eq]
      exact Stateful.bind_of_ok hread

/-- A block between DO and END is read. -/
theorem body_accepts {opening closing : Token} {body : List Stmt}
    (h : Accepts size [] reader Statement) (hfits : Fits size tokens) (hopening : opening.Is "DO")
    (hbody : Many Statement tokens body) (hclosing : closing.Is "END") :
    Reader.body stop reader (opening :: (tokens ++ closing :: rest)) = .ok body rest := by
  have hblock : block reader ["END"] (tokens ++ closing :: rest) = .ok body (closing :: rest) :=
    block_accepts (by decide) h hfits hbody hclosing (by decide)
  refine (Stateful.bind_of_ok (expectWord_of_is hopening)).trans ?_
  refine (Stateful.bind_of_ok hblock).trans ?_
  exact Stateful.bind_of_ok (expectWord_of_is hclosing)

/-- A conditional is read with the alternative that it has or has not. -/
theorem branch_accepts {opening closing : Token} {inner thenTokens elseTokens : List Token}
    {condition : Expr} {thenBody : List Stmt} {elseBody : Option (List Stmt)}
    (h : Accepts size [] reader Statement)
    (hfits : Fits size (inner ++ opening :: (thenTokens ++ (elseTokens ++ [closing]))))
    (hcondition : Expression tiers inner condition) (hopening : opening.Is "DO")
    (hthen : Many Statement thenTokens thenBody)
    (helse : Maybe (Behind (Many Statement) "ELSE") elseTokens elseBody)
    (hclosing : closing.Is "END") :
    branch stop reader (inner ++ opening :: (thenTokens ++ (elseTokens ++ closing :: rest))) =
      .ok (.branch condition thenBody (elseBody.getD [])) rest := by
  have hblocks := hfits.right.behind
  have hread := expression_accepts stop size inner condition
    (opening :: (thenTokens ++ (elseTokens ++ closing :: rest))) hfits.left hcondition
    (hopening.clear (by decide))
  have hblock : block reader ["ELSE", "END"] (thenTokens ++ (elseTokens ++ closing :: rest)) =
      .ok thenBody (elseTokens ++ closing :: rest) := by
    cases helse with
    | none => exact block_accepts (by decide) h hblocks.left hthen hclosing (by decide)
    | some helse =>
      cases helse with
      | intro hword _ => exact block_accepts (by decide) h hblocks.left hthen hword (by decide)
  have hfollowing : following "ELSE" (block reader ["END"]) (elseTokens ++ closing :: rest) =
      .ok elseBody (closing :: rest) := by
    have hclear : Clear ["ELSE"] (closing :: rest) := hclosing.clear (by decide)
    cases helse with
    | none => exact following_of_clear hclear List.mem_cons_self
    | some helse =>
      cases helse with
      | intro hword helse =>
        exact following_of_is hword
          (block_accepts (by decide) h hblocks.right.left.behind helse hclosing (by decide))
  refine (Stateful.bind_of_ok hread).trans ?_
  refine (Stateful.bind_of_ok (expectWord_of_is hopening)).trans ?_
  refine (Stateful.bind_of_ok hblock).trans ?_
  refine (Stateful.bind_of_ok hfollowing).trans ?_
  exact Stateful.bind_of_ok (expectWord_of_is hclosing)

/-- A loop over a range is read from its name to END. -/
theorem forEach_accepts {name preposition opening closing : Token} {inner block : List Token}
    {iterable : Expr} {body : List Stmt} (h : Accepts size [] reader Statement)
    (hfits : Fits size (inner ++ opening :: (block ++ [closing]))) (hname : name.isName = true)
    (hpreposition : preposition.Is "IN") (hiterable : Expression tiers inner iterable)
    (hopening : opening.Is "DO") (hbody : Many Statement block body) (hclosing : closing.Is "END") :
    forEach stop reader (name :: preposition :: (inner ++ opening :: (block ++ closing :: rest))) =
      .ok (.forEach name.offset name.text iterable body) rest := by
  have hread := expression_accepts stop size inner iterable (opening :: (block ++ closing :: rest))
    hfits.left hiterable (hopening.clear (by decide))
  refine (Stateful.bind_of_ok rfl).trans ((Stateful.bind_of_ok (name_of_isName hname)).trans ?_)
  refine (Stateful.bind_of_ok (expectWord_of_is hpreposition)).trans ?_
  refine (Stateful.bind_of_ok hread).trans ?_
  exact Stateful.bind_of_ok (body_accepts h hfits.right.behind.left hopening hbody hclosing)

/-- A conditional loop is read from its condition to END. -/
theorem loop_accepts {opening closing : Token} {inner block : List Token} {condition : Expr}
    {body : List Stmt} (h : Accepts size [] reader Statement)
    (hfits : Fits size (inner ++ opening :: (block ++ [closing])))
    (hcondition : Expression tiers inner condition) (hopening : opening.Is "DO")
    (hbody : Many Statement block body) (hclosing : closing.Is "END") :
    loop stop reader (inner ++ opening :: (block ++ closing :: rest)) =
      .ok (.loop condition body) rest := by
  have hread := expression_accepts stop size inner condition (opening :: (block ++ closing :: rest))
    hfits.left hcondition (hopening.clear (by decide))
  refine (Stateful.bind_of_ok hread).trans ?_
  exact Stateful.bind_of_ok (body_accepts h hfits.right.behind.left hopening hbody hclosing)

/-- A statement that begins with an expression is an assignment or the expression alone. -/
theorem nested_of_expression {expr : Expr} (hfits : Fits size tokens)
    (hexpr : Expression tiers tokens expr) :
    nested stop reader (tokens ++ rest) = expressionStatement stop (tokens ++ rest) := by
  obtain ⟨token, inner, rfl, hopens⟩ := hexpr.opens
  have hclear : Clear ["LET", "IF", "FOR", "WHILE", "RETURN"] (token :: inner ++ rest) :=
    hfits.head.clear hopens (by decide)
  refine (choose_of_clear hclear (by decide)).trans ?_
  refine (choose_of_clear hclear (by decide)).trans ?_
  refine (choose_of_clear hclear (by decide)).trans ?_
  refine (choose_of_clear hclear (by decide)).trans ?_
  exact choose_of_clear hclear (by decide)

/-- A statement that begins with a word is read by the rule of this word. -/
theorem nested_accepts (h : Accepts (size - 1) [] reader Statement) :
    Accepts size [] (nested stop reader) Statement := by
  intro used statement rest hfits hphrase _
  cases hphrase with
  | declare hword hbinding =>
    refine (choose_of_is hword).trans ?_
    exact Stateful.bind_of_ok (binding_accepts _ _ rest hfits.behind hbinding nofun)
  | @branch word _ _ tokens _ _ _ _ _ hword hcondition hopening hthen helse hclosing =>
    have hclear {tokens : List Token} : Clear ["LET"] (word :: tokens) := hword.clear (by decide)
    simp only [List.cons_append, List.append_assoc, List.nil_append]
    refine (choose_of_clear hclear (by decide)).trans ((choose_of_is hword).trans ?_)
    exact branch_accepts h hfits.tail hcondition hopening hthen helse hclosing
  | @forEach word _ _ _ _ _ _ _ _ hword hname hpreposition hiterable hopening hbody hclosing =>
    have hclear {tokens : List Token} : Clear ["LET", "IF"] (word :: tokens) :=
      hword.clear (by decide)
    simp only [List.cons_append, List.append_assoc, List.nil_append]
    refine (choose_of_clear hclear (by decide)).trans ?_
    refine (choose_of_clear hclear (by decide)).trans ((choose_of_is hword).trans ?_)
    exact forEach_accepts h hfits.tail.behind.behind hname hpreposition hiterable hopening hbody
      hclosing
  | @loop word _ _ _ _ _ _ hword hcondition hopening hbody hclosing =>
    have hclear {tokens : List Token} : Clear ["LET", "IF", "FOR"] (word :: tokens) :=
      hword.clear (by decide)
    simp only [List.cons_append, List.append_assoc, List.nil_append]
    refine (choose_of_clear hclear (by decide)).trans ?_
    refine (choose_of_clear hclear (by decide)).trans ?_
    refine (choose_of_clear hclear (by decide)).trans ((choose_of_is hword).trans ?_)
    exact loop_accepts h hfits.tail hcondition hopening hbody hclosing
  | @ret word last tokens value hword hvalue hlast =>
    have hclear {tokens : List Token} : Clear ["LET", "IF", "FOR", "WHILE"] (word :: tokens) :=
      hword.clear (by decide)
    have hread := expression_accepts stop size tokens value (last :: rest) hfits.behind.left hvalue
      (hlast.clear (by decide))
    simp only [List.cons_append, List.append_assoc, List.nil_append]
    refine (choose_of_clear hclear (by decide)).trans ?_
    refine (choose_of_clear hclear (by decide)).trans ?_
    refine (choose_of_clear hclear (by decide)).trans ?_
    refine (choose_of_clear hclear (by decide)).trans ?_
    refine (choose_of_is hword).trans ((Stateful.bind_of_ok hread).trans ?_)
    exact Stateful.bind_of_ok (expectWord_of_is hlast)
  -- The last two forms begin with no word of their own; they are told apart behind the expression.
  | @assign sign last first second target value htarget hsign hvalue hlast =>
    have hsecond : Maybe (Behind (Expression tiers) "=") (sign :: second) (some value) :=
      .some (.intro hsign hvalue)
    have hinner : Fits size (first ++ sign :: second) := hfits.sublist (by simp)
    rw [List.append_assoc, nested_of_expression hfits.left htarget]
    simp only [List.cons_append, List.append_assoc, List.nil_append]
    exact expressionStatement_accepts hinner htarget hsecond hlast
  | @expr last tokens value htarget hlast =>
    rw [List.append_assoc, nested_of_expression hfits.left htarget]
    have hinner : Fits size (tokens ++ []) := by rw [List.append_nil]; exact hfits.left
    exact expressionStatement_accepts hinner htarget .none hlast

end

/-- A statement is read to its end. The induction is on the number of tokens that it stands for. -/
theorem statement_accepts (stop size : Nat) : Accepts size [] (statement stop) Statement := by
  induction size with
  | zero =>
    intro used value rest hfits hphrase _
    obtain rfl := List.eq_nil_of_length_eq_zero (Nat.le_zero.mp hfits.1)
    exact (Statement.ne_nil hphrase).elim
  | succ size ih =>
    rw [statement_eq]
    exact nested_accepts ih

/-! ### Programs -/

section

variable {tokens : List Token}

/-- A parameter is read with its type. -/
theorem parameter_accepts {param : String × String} (h : Parameter tokens param) :
    parameter stop (tokens ++ rest) = .ok param rest := by
  cases h with
  | intro hname hcolon htype =>
    refine (Stateful.bind_of_ok (name_of_isName hname)).trans ?_
    refine (Stateful.bind_of_ok (expectWord_of_is hcolon)).trans ?_
    exact Stateful.bind_of_ok (name_of_isName htype)

/-- Parameters in parentheses are read to the closing one. -/
theorem parameters_accepts (stop : Nat) {params : List (String × String)} (hfits : Fits size tokens)
    (h : Parameters tokens params) : ∃ opening inner, tokens = opening :: inner ∧
      opening.Is "(" ∧ ∀ rest, parameters stop (inner ++ rest) = .ok params rest := by
  cases h with
  | none hopening hclosing => exact ⟨_, _, rfl, hopening, fun rest ↦ choose_of_is hclosing⟩
  | @some opening closing first others head tail hopening hfirst hothers hclosing =>
    refine ⟨opening, _, rfl, hopening, fun rest ↦ ?_⟩
    have hclear : Clear [")"] (first ++ (others ++ closing :: rest)) := by
      cases hfirst with
      | intro hname _ _ =>
        exact hfits.tail.left.head.clear (Token.opensOperand_of_isName hname) (by decide)
    have hcomma : Clear [","] (closing :: rest) := hclosing.clear (by decide)
    have hmany := many_of_phrases (fun _ ↦ True) hothers trivial
      (following_of_clear hcomma List.mem_cons_self : following "," (parameter stop) _ = _)
      fun inner param later _ hinner _ ↦ by
        cases hinner with
        | intro hcomma hparam =>
          exact ⟨nofun, trivial, following_of_is hcomma (parameter_accepts hparam)⟩
    simp only [List.append_assoc, List.singleton_append]
    refine (choose_of_clear hclear List.mem_cons_self).trans ?_
    refine (Stateful.bind_of_ok (parameter_accepts hfirst)).trans ?_
    refine (Stateful.bind_of_ok hmany).trans ?_
    exact Stateful.bind_of_ok (expectWord_of_is hclosing)

/-- A method is read from its name to END. -/
theorem method_accepts : Accepts size [] (method stop) Definition := by
  intro used value rest hfits hphrase _
  cases hphrase with
  | @intro name opening closing tokens result inner params returnType body hname hparams hresult
      hopening hbody hclosing =>
    have hsize := hfits.behind
    obtain ⟨bracket, tokens, rfl, hbracket, hread⟩ := parameters_accepts stop hsize.left hparams
    have hclear : Clear [":"] (opening :: (inner ++ closing :: rest)) := hopening.clear (by decide)
    have hblock : Reader.body stop (statement stop) (opening :: (inner ++ closing :: rest)) =
        .ok body rest := body_accepts (statement_accepts stop size)
      hsize.right.right.behind.left hopening hbody hclosing
    simp only [List.cons_append, List.append_assoc, List.nil_append]
    refine (Stateful.bind_of_ok rfl).trans ((Stateful.bind_of_ok (name_of_isName hname)).trans ?_)
    refine (Stateful.bind_of_ok (expectWord_of_is hbracket)).trans ?_
    refine (Stateful.bind_of_ok (hread _)).trans ?_
    refine (Stateful.bind_of_ok (following_typeName_accepts hclear hresult)).trans ?_
    exact Stateful.bind_of_ok hblock

/-- A part behind its word is read as the part is. -/
theorem following_accepts {α : Type} {reader : Reader α} {phrase : Phrase α} {word : String}
    {value : α} (h : Accepts size [] reader phrase) (hfits : Fits size tokens)
    (hphrase : Behind phrase word tokens value) :
    following word reader (tokens ++ rest) = .ok (some value) rest := by
  cases hphrase with
  | intro hword hphrase =>
    exact following_of_is hword (h _ _ rest hfits.behind hphrase nofun)

theorem behind_ne_nil {α : Type} {phrase : Phrase α} {word : String} {value : α}
    (h : Behind phrase word tokens value) : tokens ≠ [] := by
  cases h
  exact nofun

/-- A program is read up to the end. -/
theorem program_accepts {program : Program} (hwell : ∀ token ∈ tokens, token.WellFormed)
    (h : Source tokens program) : Reader.program stop tokens = .ok program [] := by
  have hfits : Fits tokens.length tokens := ⟨Nat.le_refl _, hwell⟩
  generalize tokens.length = size at hfits
  cases h with
  | @intro first second fields methods hfields hmethods =>
    have hclear : Clear ["LET"] second := by
      have hnone := (Clear.nil : Clear ["LET"] []).many hmethods (by decide)
      rwa [List.append_nil] at hnone
    have hfirst := many_of_phrases (fun _ ↦ True) hfields trivial
      (following_of_clear hclear List.mem_cons_self : following "LET" (binding stop) _ = _)
      fun inner field later hsub hinner _ ↦ ⟨behind_ne_nil hinner, trivial,
        following_accepts binding_accepts (hfits.left.sublist hsub) hinner⟩
    have hsecond := many_of_phrases (fun _ ↦ True) hmethods trivial
      (rfl : following "DEF" (method stop) [] = _) fun inner found later hsub hinner _ ↦
        ⟨behind_ne_nil hinner, trivial,
          following_accepts method_accepts (hfits.right.sublist hsub) hinner⟩
    rw [List.append_nil] at hsecond
    exact (Stateful.bind_of_ok hfirst).trans (Stateful.bind_of_ok hsecond)

end

end Reader

end ScriptLang
