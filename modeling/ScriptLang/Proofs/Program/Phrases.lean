import ScriptLang.Proofs.Program.Operands
import ScriptLang.Proofs.Program.Reads

/-!
The readers of the grammar read its phrases. Parentheses and blocks are read by induction on the
count of the tokens, since the readers inside of them have fewer.
-/

set_option autoImplicit false
set_option relaxedAutoImplicit false

namespace ScriptLang

open Grammar

namespace Reader

/-! ### Expressions -/

section

variable {stop size : Nat} {reader : Reader Expr} {comma closing : Token} {tokens : List Token}

/-- Without a comma there is no further argument. -/
theorem nextArgument_of_not_isWord (h : ∀ token ∈ tokens.head?, token.isWord "," = false) :
    nextArgument stop reader tokens = .ok none tokens := by
  cases tokens with
  | nil => rfl
  | cons token tokens =>
    exact (Stateful.bind_of_ok rfl).trans
      (Stateful.bind_of_ok (accept_of_not_isWord (h token rfl)))

/-- A comma in front of the closing parenthesis is a fault. -/
theorem nextArgument_of_trailing (hcomma : comma.isWord "," = true)
    (hclosing : closing.isWord ")" = true) :
    nextArgument stop reader (comma :: closing :: tokens) =
      .error (.trailingComma comma.offset) (closing :: tokens) := by
  refine (Stateful.bind_of_ok rfl).trans ((Stateful.bind_of_ok (accept_of_isWord hcomma)).trans ?_)
  refine (Stateful.bind_of_ok rfl).trans ?_
  simp [hclosing]
  rfl

/-- Behind a comma that is no such fault the next argument is read. -/
theorem nextArgument_of_comma (hcomma : comma.isWord "," = true)
    (h : ∀ token ∈ tokens.head?, token.isWord ")" = false) :
    nextArgument stop reader (comma :: tokens) = (some <$> reader) tokens := by
  refine (Stateful.bind_of_ok rfl).trans ((Stateful.bind_of_ok (accept_of_isWord hcomma)).trans ?_)
  refine (Stateful.bind_of_ok rfl).trans ?_
  have hnone : (tokens.head?.any fun token ↦ [")"].any token.isWord) = false := by
    cases tokens with
    | nil => rfl
    | cons token tokens => simpa using h token rfl
  rw [hnone]
  rfl

/-- The next token is no comma, a comma with more behind it, or a comma in front of the closing
parenthesis. -/
theorem comma_cases (tokens : List Token) :
    (∀ token ∈ tokens.head?, token.isWord "," = false) ∨
      ∃ comma rest, tokens = comma :: rest ∧ comma.isWord "," = true ∧
        ((∀ token ∈ rest.head?, token.isWord ")" = false) ∨
          ∃ closing last, rest = closing :: last ∧ closing.isWord ")" = true) := by
  obtain hnone | ⟨comma, rest, rfl, hcomma⟩ := next_cases (fun token ↦ token.isWord ",") tokens
  · exact .inl hnone
  · exact .inr ⟨comma, rest, rfl, hcomma, next_cases (fun token ↦ token.isWord ")") rest⟩

/-- Behind a comma there is an argument, and not the closing parenthesis. -/
theorem nextArgument_reads {phrase : Phrase Expr} (h : Reads stop (size - 1) reader phrase) :
    Reads stop size (nextArgument stop reader) (Maybe (Behind phrase ",")) := by
  -- The error about a trailing comma is about the token before, so no rule for readers applies.
  have hread := h.map some
  constructor
  · intro tokens value rest hfits hok
    obtain hnone | ⟨comma, tokens, rfl, hcomma, hclear | ⟨closing, last, rfl, hclosing⟩⟩ :=
      comma_cases tokens
    · rw [nextArgument_of_not_isWord hnone] at hok
      cases hok
      exact ⟨[], rfl, .none, fun other hother ↦ nextArgument_of_not_isWord (hother ▸ hnone)⟩
    · rw [nextArgument_of_comma hcomma hclear] at hok
      obtain ⟨used, rfl, ⟨hphrase, ⟨⟩⟩, hlocal⟩ := hread.ok tokens value rest hfits.tail hok
      refine ⟨comma :: _, rfl, .some (.intro (hfits.head.is_of_isWord (by decide) hcomma) ?_), ?_⟩
      · rwa [List.append_nil]
      · intro other hother
        rw [List.cons_append, nextArgument_of_comma hcomma]
        · exact hlocal other hother
        · rwa [head?_append_congr _ hother]
    · rw [nextArgument_of_trailing hcomma hclosing] at hok
      cases hok
  · intro tokens cause rest hfits herror
    obtain hnone | ⟨comma, tokens, rfl, hcomma, hclear | ⟨closing, last, rfl, hclosing⟩⟩ :=
      comma_cases tokens
    · rw [nextArgument_of_not_isWord hnone] at herror
      cases herror
    · rw [nextArgument_of_comma hcomma hclear] at herror
      obtain ⟨used, tail, rfl, hblames, ⟨more, value, hmore, hvalue⟩, hlocal⟩ :=
        hread.error tokens cause rest hfits.tail herror
      refine ⟨comma :: used, tail, rfl, hblames.append [comma], ⟨more, value, hmore, ?_⟩, ?_⟩
      · rw [List.cons_append]
        generalize used ++ more = whole at hvalue
        obtain ⟨hphrase, ⟨⟩⟩ := hvalue
        rw [List.append_nil]
        exact .some (.intro (hfits.head.is_of_isWord (by decide) hcomma) hphrase)
      · intro htail other hother
        obtain ⟨failure, left, hfailure⟩ := hlocal htail other hother
        refine ⟨failure, left, ?_⟩
        rw [List.cons_append, nextArgument_of_comma hcomma]
        · exact hfailure
        · rwa [head?_append_congr _ hother]
    · rw [nextArgument_of_trailing hcomma hclosing] at herror
      cases herror
      have hcomma' := hfits.head.is_of_isWord (by decide) hcomma
      have hclosing' := hfits.tail.head.is_of_isWord (by decide) hclosing
      obtain ⟨more, value, hmore, hphrase⟩ := h.inhabited
      refine ⟨[comma], closing :: last, rfl,
        .comma last (List.nil_append _).symm hcomma' hclosing',
        ⟨more, some value, hmore, .some (.intro hcomma' hphrase)⟩, fun _ other hother ↦ ?_⟩
      cases other with
      | nil => cases hother
      | cons token other =>
        cases hother
        exact ⟨_, _, nextArgument_of_trailing hcomma hclosing⟩

/-- Arguments are read up to the closing parenthesis, given the opening one before them. -/
theorem arguments_reads (h : Reads stop size reader (Expression tiers)) :
    Reads stop size (arguments stop reader) fun tokens args ↦
      ∀ opening : Token, opening.Is "(" → Arguments (opening :: tokens) args := by
  have hothers : Reads stop size (many (nextArgument stop reader))
      (Many (Behind (Expression tiers) ",")) :=
    (nextArgument_reads (h.mono (Nat.sub_le size 1))).many nofun rfl
  have hclosing : Completes (Word ")") [] :=
    (Reads.expectWord (by decide) : Reads stop size (expectWord stop ")") _).inhabited
  refine (Reads.accept_then (by decide) (.pure []) (h.bind fun head ↦ hothers.bind fun tail ↦
    .accept_then (by decide) (.pure (head :: tail))
      ((Reads.expected _ hclosing).bind fun _ ↦ .pure (head :: tail)))).imp ?_
  rintro tokens args (⟨hclosing, ⟨⟩⟩ | ⟨hfirst, ⟨hrest, ⟨hclosing, ⟨⟩⟩ | ⟨⟨hclosing⟩, ⟨⟩⟩⟩⟩)
    opening hopening
  · exact .none hopening hclosing
  · exact .some hopening hfirst hrest hclosing
  · exact .some hopening hfirst hrest hclosing

/-- A member or a call of a method is read behind a dot, or nothing if no dot is next. -/
theorem suffix_reads (h : Reads stop (size - 1) reader (Expression tiers)) :
    Reads stop size (suffix stop reader) (Maybe (Behind Attachment ".")) := by
  have hargs := (arguments_reads h).mono (Nat.sub_le (size - 1) 1)
  refine .following (by decide) ((Reads.positioned fun name ↦
    (Reads.following (by decide) (hargs.mono (Nat.sub_le _ 1))).bind fun args ↦ .pure _).imp ?_)
  rintro tokens value ⟨name, rest, rfl, hname, ⟨hargs, ⟨⟩⟩⟩
  cases hargs with
  | none => exact .member hname
  | some hargs =>
    cases hargs with
    | intro hopening hargs =>
      rw [List.append_nil]
      exact .invoke hname (hargs _ hopening)

/-- A name is a call if an opening parenthesis is next. -/
theorem name_reads (h : Reads stop size reader (Expression tiers)) {token : Token}
    (hname : token.isName = true) :
    Reads stop size (operandFrom stop reader token) fun tokens expr ↦
      Operand (token :: tokens) expr := by
  have hargs := (arguments_reads h).mono (Nat.sub_le size 1)
  rw [operandFrom_of_name hname]
  refine ((Reads.following (by decide) hargs).bind fun args ↦ .pure _).imp ?_
  rintro tokens expr ⟨hargs, ⟨⟩⟩
  cases hargs with
  | none => exact .access hname
  | some hargs =>
    cases hargs with
    | intro hopening hargs =>
      rw [List.append_nil]
      exact .call hname (hargs _ hopening)

/-- A group is read up to its closing parenthesis. -/
theorem group_reads (h : Reads stop size reader (Expression tiers)) {token : Token}
    (hopening : token.Is "(") :
    Reads stop size (operandFrom stop reader token) fun tokens expr ↦
      Operand (token :: tokens) expr := by
  rw [operandFrom_of_opening hopening]
  refine (h.bind fun inner ↦ (Reads.expectWord (by decide)).bind fun _ ↦ .pure _).imp ?_
  rintro tokens expr ⟨hinner, ⟨⟨hclosing⟩, ⟨⟩⟩⟩
  exact .group hopening hinner hclosing

/-- The kind of the first token decides how an operand is read. -/
theorem operandFrom_reads (h : Reads stop size reader (Expression tiers)) {token : Token}
    (hwell : token.WellFormed) (hopens : token.opensOperand = true) :
    Reads stop size (operandFrom stop reader token) fun tokens expr ↦
      Operand (token :: tokens) expr := by
  cases hkind : token.kind with
  | identifier =>
    cases hvalue : Literal.ofKeyword? token.text with
    | some value =>
      have hconstant : Constant token value := constant_iff.mpr ⟨hkind, hvalue⟩
      rw [operandFrom_of_constant hconstant]
      refine (Reads.pure _).imp ?_
      rintro tokens expr ⟨⟩
      exact .constant hconstant
    | none =>
      simp only [Token.opensOperand, hkind, hvalue] at hopens
      exact name_reads h (by simpa [Token.isName, hkind] using hopens)
  | operator =>
    simp only [Token.opensOperand, hkind] at hopens
    have hword : token.isWord "(" = true := by simp [Token.isWord, hkind, hopens]
    exact group_reads h (hwell.is_of_isWord (by decide) hword)
  | integer | decimal | character | string =>
    have hspelled : ∃ value, Literal.Spelled token.kind token.text.toList value := by
      unfold Token.WellFormed at hwell
      rw [hkind] at hwell ⊢
      exact hwell
    obtain ⟨value, hvalue⟩ := hspelled
    rw [operandFrom_of_literal hvalue]
    refine (Reads.pure _).imp ?_
    rintro tokens expr ⟨⟩
    exact .literal hvalue

/-- An operand is read by the rule that its first token chooses. -/
theorem operand_reads (h : Reads stop (size - 1) reader (Expression tiers)) :
    Reads stop size (operand stop reader) Operand := by
  have hother : Reads stop size (refuseOperand stop) Operand := by
    refine .failing (fun tokens ↦ ?_) ?_
    · cases tokens with
      | nil => exact ⟨_, _, rfl, .ended _⟩
      | cons token tokens => exact ⟨_, _, rfl, .expression token tokens⟩
    · obtain ⟨token, hname, hwell⟩ := Token.exists_isName
      exact ⟨[token], _, by simpa using hwell, .access hname⟩
  refine (Reads.of_token Token.opensOperand (operandFrom stop reader) _ (fun _ _ _ ↦ rfl) ?_
    (fun token hwell hopens ↦ operandFrom_reads h hwell hopens) hother).imp ?_
  · intro tokens hnone
    cases tokens with
    | nil => rfl
    | cons token tokens => exact operandFrom_of_not_opens (hnone token rfl) tokens
  · rintro tokens expr (⟨token, rest, rfl, -, -, hoperand⟩ | hoperand)
    · exact hoperand
    · exact hoperand

/-- An operator of the tier is read with its right operand, or nothing if none is next. -/
theorem operation_reads {ops : List BinaryOp} {others : List (List BinaryOp)}
    (hops : ∀ op ∈ ops, op.lexeme ∈ keywords ++ operators)
    (h : Reads stop size reader (Expression others)) :
    Reads stop size (operation ops reader) (Maybe (Continuation ops others)) := by
  have hsome {token : Token}
      (hfound : (ops.find? fun op ↦ token.isWord op.lexeme).isSome = true) :
      ∃ op ∈ ops, token.isWord op.lexeme = true ∧
        (ops.find? fun op ↦ token.isWord op.lexeme) = some op := by
    obtain ⟨op, hop⟩ := Option.isSome_iff_exists.mp hfound
    exact ⟨op, List.mem_of_find?_eq_some hop, by simpa using List.find?_some hop, hop⟩
  refine (Reads.of_token (fun token ↦ (ops.find? fun op ↦ token.isWord op.lexeme).isSome)
    (fun token ↦ match ops.find? fun op ↦ token.isWord op.lexeme with
      | none => pure none
      | some op => reader >>= fun right ↦ pure (some ⟨token.offset, op, right⟩))
    (fun token tokens found ↦ token.WellFormed →
      Maybe (Continuation ops others) (token :: tokens) found)
    ?_ ?_ ?_ (.pure none)).imp ?_
  · intro token tokens hfound
    obtain ⟨op, -, -, hop⟩ := hsome hfound
    have haccept : acceptOperator ops (token :: tokens) = .ok (some (op, token.offset)) tokens := by
      rw [acceptOperator_cons, hop]
    rw [hop]
    exact Stateful.bind_of_ok haccept
  · intro tokens hnone
    cases tokens with
    | nil => rfl
    | cons token tokens =>
      have hop := Option.not_isSome_iff_eq_none.mp (Bool.eq_false_iff.mp (hnone token rfl))
      have haccept : acceptOperator ops (token :: tokens) = .ok none (token :: tokens) := by
        rw [acceptOperator_cons, hop]
      exact Stateful.bind_of_ok haccept
  · intro token _ hfound
    obtain ⟨op, hmem, hword, hop⟩ := hsome hfound
    rw [hop]
    refine ((h.mono (Nat.sub_le size 1)).bind fun right ↦ .pure _).imp ?_
    rintro tokens found ⟨hright, ⟨⟩⟩ hwell
    rw [List.append_nil]
    exact .some (.intro hmem (hwell.is_of_isWord (hops op hmem) hword) hright)
  · rintro tokens found (⟨token, rest, rfl, hwell, -, hphrase⟩ | hnothing)
    · exact hphrase hwell
    · cases hnothing
      exact .none

/-- A tier is read as a first operand with any number of operators, which the grammar groups to the
left. -/
theorem level_reads {ops : List BinaryOp} {others : List (List BinaryOp)}
    (hops : ∀ op ∈ ops, op.lexeme ∈ keywords ++ operators)
    (h : Reads stop size reader (Expression others)) :
    Reads stop size (level ops reader) (Expression (ops :: others)) := by
  have hoperations : Reads stop size (many (operation ops reader))
      (Many (Continuation ops others)) := (operation_reads hops h).many nofun rfl
  refine (h.bind fun left ↦ hoperations.bind fun operations ↦ .pure _).imp ?_
  rintro tokens expr ⟨hleft, ⟨hrest, ⟨⟩⟩⟩
  rw [List.append_nil]
  exact .of_chain (.tighter hleft) hrest

/-- An operand is read with everything attached to it by dots. -/
theorem suffixed_reads (h : Reads stop (size - 1) reader (Expression tiers)) :
    Reads stop size (suffixed stop reader) (Expression []) := by
  have hsuffixes : Reads stop size (many (suffix stop reader)) (Many (Behind Attachment ".")) :=
    (suffix_reads h).many nofun rfl
  refine ((operand_reads h).bind fun left ↦ hsuffixes.bind fun suffixes ↦ .pure _).imp ?_
  rintro tokens expr ⟨hleft, ⟨hrest, ⟨⟩⟩⟩
  rw [List.append_nil]
  exact .of_attachments (.operand hleft) hrest

/-- The tiers are read from the tightest to the loosest. -/
theorem levels_reads (h : Reads stop (size - 1) reader (Expression tiers)) :
    Reads stop size (levels stop reader) (Expression tiers) :=
  level_reads (by decide) (level_reads (by decide) (level_reads (by decide)
    (level_reads (by decide) (suffixed_reads h))))

end

/-- Expressions are read as the grammar has them, with errors at the first token that no expression
can go on with. The induction is on the number of tokens. -/
theorem expression_reads (stop size : Nat) :
    Reads stop size (expression stop) (Expression tiers) := by
  induction size with
  | zero =>
    obtain ⟨token, hname, hwell⟩ := Token.exists_isName
    exact .of_nil (expressionWithin_nil []) ⟨[token], _, by simpa using hwell,
      .tighter (.tighter (.tighter (.tighter (.operand (.access hname)))))⟩
  | succ size ih =>
    rw [expression_eq]
    exact levels_reads ih

/-! ### Statements -/

section

variable {stop size : Nat} {reader : Reader Stmt}

theorem following_typeName : Reads stop size (following ":" (Reader.name stop))
    (Maybe (Behind TypeName ":")) := .following (by decide) .name

theorem following_value : Reads stop size (following "=" (expression stop))
    (Maybe (Behind (Expression tiers) "=")) := .following (by decide) (expression_reads stop _)

/-- A declaration is read with the type and the value that it has. -/
theorem binding_reads : Reads stop size (binding stop) Declaration := by
  refine (Reads.positioned fun name ↦ following_typeName.bind fun typeName ↦
    following_value.bind fun value ↦ (Reads.expectWord (by decide)).bind fun _ ↦ .pure _).imp ?_
  rintro tokens binding ⟨name, rest, rfl, hname, ⟨htype, ⟨hvalue, ⟨⟨hlast⟩, ⟨⟩⟩⟩⟩⟩
  exact .intro hname htype hvalue hlast

/-- A call and an assignment begin alike, and which of them it is shows behind the first
expression. -/
theorem expressionStatement_eq : expressionStatement stop = do
    let target ← expression stop
    let value ← following "=" (expression stop)
    expectWord stop ";"
    return target.assigned value := by
  refine congrArg (expression stop >>= ·) (funext fun target ↦ ?_)
  refine congrArg (following "=" (expression stop) >>= ·) (funext fun value ↦ ?_)
  cases value <;> rfl

/-- An expression with a semicolon is a call or an assignment. -/
theorem expressionStatement_reads : Reads stop size (expressionStatement stop) Statement := by
  rw [expressionStatement_eq]
  refine ((expression_reads stop size).bind fun target ↦ following_value.bind fun value ↦
    (Reads.expectWord (by decide)).bind fun _ ↦ .pure _).imp ?_
  rintro tokens statement ⟨htarget, ⟨hvalue, ⟨⟨hlast⟩, ⟨⟩⟩⟩⟩
  cases hvalue with
  | none => exact .expr htarget hlast
  | some hvalue =>
    cases hvalue with
    | intro hsign hvalue => exact .assign htarget hsign hvalue hlast

/-- A block is read as the statements up to one of the closing words. -/
theorem block_reads (closers : List String) (h : Reads stop size reader Statement) :
    Reads stop size (block reader closers) (Many Statement) := by
  have hitem : Reads stop size (some <$> reader) (Maybe Statement) := by
    refine (h.map some).imp ?_
    rintro tokens value ⟨hvalue, ⟨⟩⟩
    rw [List.append_nil]
    exact .some hvalue
  refine Reads.many (.peek_then ?_ (.peek_then ?_ hitem)) (fun _ ↦ Statement.ne_nil) rfl
  · intro first second hhead
    cases first <;> cases second <;> first | rfl | cases hhead
  · intro first second hhead
    rw [hhead]

/-- A block is read between DO and END. -/
theorem body_reads (h : Reads stop size reader Statement) :
    Reads stop size (body stop reader) fun tokens body ↦ ∃ opening closing inner,
      tokens = opening :: (inner ++ [closing]) ∧ Token.Is opening "DO" ∧
        Many Statement inner body ∧ Token.Is closing "END" := by
  refine ((Reads.expectWord (by decide)).bind fun _ ↦ (block_reads _ h).bind fun statements ↦
    (Reads.expectWord (by decide)).bind fun _ ↦ .pure statements).imp ?_
  rintro tokens body ⟨⟨hopening⟩, ⟨hinner, ⟨⟨hclosing⟩, ⟨⟩⟩⟩⟩
  exact ⟨_, _, _, rfl, hopening, hinner, hclosing⟩

/-- A conditional is read behind IF, with or without ELSE. -/
theorem branch_reads (h : Reads stop size reader Statement) :
    Reads stop size (branch stop reader) fun tokens statement ↦
      ∀ word : Token, word.Is "IF" → Statement (word :: tokens) statement := by
  have helse : Reads stop size (following "ELSE" (block reader ["END"]))
      (Maybe (Behind (Many Statement) "ELSE")) :=
    .following (by decide) ((block_reads _ h).mono (Nat.sub_le size 1))
  refine ((expression_reads stop size).bind fun condition ↦ (Reads.expectWord (by decide)).bind
    fun _ ↦ (block_reads _ h).bind fun thenBody ↦ helse.bind fun elseBody ↦
      (Reads.expectWord (by decide)).bind fun _ ↦ .pure _).imp ?_
  rintro tokens statement ⟨hcondition, ⟨⟨hopening⟩, ⟨hthen, ⟨helse, ⟨⟨hclosing⟩, ⟨⟩⟩⟩⟩⟩⟩ word hword
  exact .branch hword hcondition hopening hthen helse hclosing

/-- A loop over a range is read behind FOR. -/
theorem forEach_reads (h : Reads stop size reader Statement) :
    Reads stop size (forEach stop reader) fun tokens statement ↦
      ∀ word : Token, word.Is "FOR" → Statement (word :: tokens) statement := by
  refine (Reads.positioned fun name ↦ (Reads.expectWord (by decide)).bind fun _ ↦
    (expression_reads stop _).bind fun iterable ↦
      ((body_reads h).mono (Nat.sub_le size 1)).bind fun body ↦ .pure _).imp ?_
  rintro tokens statement ⟨name, rest, rfl, hname, ⟨⟨hpreposition⟩, ⟨hiterable,
    ⟨⟨opening, closing, inner, rfl, hopening, hbody, hclosing⟩, ⟨⟩⟩⟩⟩⟩ word hword
  rw [List.append_nil]
  exact .forEach hword hname hpreposition hiterable hopening hbody hclosing

/-- A conditional loop is read behind WHILE. -/
theorem loop_reads (h : Reads stop size reader Statement) :
    Reads stop size (loop stop reader) fun tokens statement ↦
      ∀ word : Token, word.Is "WHILE" → Statement (word :: tokens) statement := by
  refine ((expression_reads stop size).bind fun condition ↦ (body_reads h).bind fun body ↦
    .pure _).imp ?_
  rintro tokens statement ⟨hcondition,
    ⟨⟨opening, closing, inner, rfl, hopening, hbody, hclosing⟩, ⟨⟩⟩⟩ word hword
  rw [List.append_nil]
  exact .loop hword hcondition hopening hbody hclosing

theorem ret_reads : Reads stop size (ret stop) fun tokens statement ↦
    ∀ word : Token, word.Is "RETURN" → Statement (word :: tokens) statement := by
  refine ((expression_reads stop size).bind fun value ↦ (Reads.expectWord (by decide)).bind
    fun _ ↦ .pure _).imp ?_
  rintro tokens statement ⟨hvalue, ⟨⟨hlast⟩, ⟨⟩⟩⟩ word hword
  exact .ret hword hvalue hlast

/-- A statement is read by the rule that its first token chooses. -/
theorem nested_reads (h : Reads stop (size - 1) reader Statement) :
    Reads stop size (nested stop reader) Statement := by
  refine (Reads.accept_then (by decide) (binding_reads.bind fun binding ↦ .pure _)
    (.accept_then (by decide) (branch_reads h) (.accept_then (by decide) (forEach_reads h)
      (.accept_then (by decide) (loop_reads h) (.accept_then (by decide) ret_reads
        expressionStatement_reads))))).imp ?_
  rintro tokens statement (⟨hword, ⟨hbinding, ⟨⟩⟩⟩ | ⟨hword, hphrase⟩ | ⟨hword, hphrase⟩ |
    ⟨hword, hphrase⟩ | ⟨hword, hphrase⟩ | hphrase)
  · rw [List.append_nil]
    exact .declare hword hbinding
  · exact hphrase _ hword
  · exact hphrase _ hword
  · exact hphrase _ hword
  · exact hphrase _ hword
  · exact hphrase

end

/-- Statements are read as the grammar has them. The induction is on the number of tokens. -/
theorem statement_reads (stop size : Nat) : Reads stop size (statement stop) Statement := by
  induction size with
  | zero =>
    exact .of_nil (statementWithin_nil [])
      (expressionStatement_reads : Reads stop 0 (expressionStatement stop) Statement).inhabited
  | succ size ih =>
    rw [statement_eq]
    exact nested_reads ih

/-! ### Programs -/

section

variable {stop size : Nat}

theorem parameter_reads : Reads stop size (parameter stop) Parameter := by
  refine (Reads.name.bind fun param ↦ (Reads.expectWord (by decide)).bind fun _ ↦
    Reads.name.bind fun type ↦ .pure (param, type)).imp ?_
  rintro tokens value ⟨⟨hname⟩, ⟨⟨hcolon⟩, ⟨⟨htype⟩, ⟨⟩⟩⟩⟩
  exact .intro hname hcolon htype

/-- Parameters are read up to the closing parenthesis, given the opening one before them. -/
theorem parameters_reads : Reads stop size (parameters stop) fun tokens params ↦
    ∀ opening : Token, opening.Is "(" → Parameters (opening :: tokens) params := by
  have hothers : Reads stop size (many (following "," (parameter stop)))
      (Many (Behind Parameter ",")) :=
    (Reads.following (by decide) parameter_reads).many nofun rfl
  refine (Reads.accept_then (by decide) (.pure []) (parameter_reads.bind fun head ↦
    hothers.bind fun tail ↦ (Reads.expectWord (by decide)).bind fun _ ↦
      .pure (head :: tail))).imp ?_
  rintro tokens params (⟨hclosing, ⟨⟩⟩ | ⟨hfirst, ⟨hrest, ⟨⟨hclosing⟩, ⟨⟩⟩⟩⟩) opening hopening
  · exact .none hopening hclosing
  · exact .some hopening hfirst hrest hclosing

/-- A method is read from its name to END. -/
theorem method_reads : Reads stop size (method stop) Definition := by
  refine (Reads.positioned fun name ↦ (Reads.expectWord (by decide)).bind fun _ ↦
    parameters_reads.bind fun params ↦ following_typeName.bind fun returnType ↦
      (body_reads (statement_reads stop _)).bind fun body ↦ .pure _).imp ?_
  rintro tokens value ⟨name, rest, rfl, hname, ⟨⟨hopening⟩, ⟨hparams, ⟨htype,
    ⟨⟨opening, closing, inner, rfl, hdo, hbody, hclosing⟩, ⟨⟩⟩⟩⟩⟩⟩
  rw [List.append_nil]
  exact .intro hname (hparams _ hopening) htype hdo hbody hclosing

/-- Only the end is behind a program. -/
theorem finish_reads (program : Program) : Reads stop size
    (atEnd >>= fun ended ↦ if ended = true then pure program
      else Reader.expected stop "'DEF' or end of input" >>= fun _ : Unit ↦ pure program)
    (Nothing program) := by
  constructor
  · intro tokens value rest _ hread
    cases tokens with
    | nil =>
      cases hread
      refine ⟨[], rfl, .intro, fun other hother ↦ ?_⟩
      cases other with
      | nil => rfl
      | cons token other => cases hother
    | cons token tokens => cases hread
  · intro tokens cause rest _ hread
    cases tokens with
    | nil => cases hread
    | cons token tokens =>
      cases hread
      refine ⟨[], _, rfl, .token _ token tokens, ⟨[], program, nofun, .intro⟩,
        fun _ other hother ↦ ?_⟩
      cases other with
      | nil => cases hother
      | cons token other => exact ⟨_, _, rfl⟩

/-- A program is read as fields and methods, in any order, to the last token. -/
theorem program_reads : Reads stop size (program stop) Source := by
  have hfields : Reads stop size (many (following "LET" (binding stop)))
      (Many (Behind Declaration "LET")) :=
    (Reads.following (by decide) binding_reads).many nofun rfl
  have hmethods : Reads stop size (many (following "DEF" (method stop)))
      (Many (Behind Definition "DEF")) :=
    (Reads.following (by decide) method_reads).many nofun rfl
  refine (hfields.bind fun fields ↦ hmethods.bind fun methods ↦
    finish_reads { fields, methods }).imp ?_
  rintro tokens value ⟨hfields, ⟨hmethods, ⟨⟩⟩⟩
  rw [List.append_nil]
  exact .intro hfields hmethods

end

end Reader

end ScriptLang
