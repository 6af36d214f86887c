import ScriptLang.Program.Erasure
import ScriptLang.Proofs.Program.Parsing
import ScriptLang.Proofs.Program.Writable
import ScriptLang.Session

/-!
Programs that are written as text are read back. Scanning gives tokens of the words that were
written; from such tokens each phrase of the grammar gives back the tree its words were taken from,
with positions of its own and without annotations.
-/

set_option autoImplicit false
set_option relaxedAutoImplicit false

namespace ScriptLang

open Grammar

/-- A well-formed token with the text of a keyword or an operator is that word. -/
theorem Token.WellFormed.is {token : Token} (h : token.WellFormed) {word : String}
    (hword : word ∈ keywords ++ operators) (htext : token.text = word) : token.Is word := by
  have hother : Token.Is ⟨if word ∈ keywords then .identifier else .operator, word, 0⟩ word :=
    ⟨rfl, rfl⟩
  exact ⟨htext, h.kind_eq (hother.wellFormed hword) htext⟩

/-- The tokens are well formed and have the texts `words`. -/
structure Spells (tokens : List Token) (words : List String) : Prop where
  texts : tokens.map Token.text = words
  wellFormed : ∀ token ∈ tokens, token.WellFormed

namespace Spells

variable {tokens : List Token} {word : String} {first second words : List String}

theorem eq_nil (h : Spells tokens []) : tokens = [] := List.map_eq_nil_iff.mp h.texts

/-- Tokens that spell a word and more begin with a token of this word. -/
theorem cons (h : Spells tokens (word :: words)) : ∃ token rest, tokens = token :: rest ∧
    token.text = word ∧ token.WellFormed ∧ Spells rest words := by
  obtain ⟨token, rest, rfl, htext, hrest⟩ := List.map_eq_cons_iff.mp h.texts
  have hwell := List.forall_mem_cons.mp h.wellFormed
  exact ⟨token, rest, rfl, htext, hwell.1, hrest, hwell.2⟩

/-- Tokens that spell two lists of words can be cut between them. -/
theorem append (h : Spells tokens (first ++ second)) : ∃ left right, tokens = left ++ right ∧
    Spells left first ∧ Spells right second := by
  obtain ⟨left, right, rfl, hleft, hright⟩ := List.map_eq_append_iff.mp h.texts
  have hwell := List.forall_mem_append.mp h.wellFormed
  exact ⟨left, right, rfl, ⟨hleft, hwell.1⟩, hright, hwell.2⟩

/-- A keyword or operator that is spelled is one token that is this word. -/
theorem mark (h : Spells tokens (word :: words)) (hword : word ∈ keywords ++ operators) :
    ∃ token rest, tokens = token :: rest ∧ token.Is word ∧ Spells rest words := by
  obtain ⟨token, rest, rfl, htext, hwell, hrest⟩ := h.cons
  exact ⟨token, rest, rfl, hwell.is hword htext, hrest⟩

theorem last (h : Spells tokens [word]) (hword : word ∈ keywords ++ operators) :
    ∃ token, tokens = [token] ∧ token.Is word := by
  obtain ⟨token, rest, rfl, htoken, hrest⟩ := h.mark hword
  obtain rfl := hrest.eq_nil
  exact ⟨token, rfl, htoken⟩

/-- A block between the words that open and close it. -/
theorem enclosed (h : Spells tokens ("DO" :: words ++ ["END"])) : ∃ opening inner closing,
    tokens = opening :: (inner ++ [closing]) ∧ opening.Is "DO" ∧ Spells inner words ∧
      closing.Is "END" := by
  obtain ⟨first, rest, rfl, hfirst, hrest⟩ := h.append
  obtain ⟨opening, inner, rfl, hopening, hinner⟩ := hfirst.mark (by decide)
  obtain ⟨closing, rfl, hclosing⟩ := hrest.last (by decide)
  exact ⟨opening, inner, closing, rfl, hopening, hinner, hclosing⟩

/-- A name that is spelled is one token that is a name. -/
theorem name (h : Spells tokens (word :: words)) (hname : isNameText word = true) :
    ∃ token rest, tokens = token :: rest ∧ token.isName = true ∧ token.text = word ∧
      Spells rest words := by
  obtain ⟨token, rest, rfl, rfl, hwell, hrest⟩ := h.cons
  rw [isNameText, Bool.and_eq_true] at hname
  have hkind : token.kind = .identifier :=
    hwell.kind_eq (wellFormed_of_isIdentifierText hname.1) rfl
  refine ⟨token, rest, rfl, ?_, rfl, hrest⟩
  rw [Token.isName, hkind, hname.2]
  rfl

end Spells

section

variable {α : Type}

/-- What is read has the structure of the original and no annotations. -/
def Restores (relocate : (Nat → Nat) → α → α) (found original : α) : Prop :=
  relocate (fun _ ↦ 0) found = relocate (fun _ ↦ 0) original ∧ relocate id found = found

/-- All tokens of the words stand for the original, up to positions and annotations. -/
def ReadsBack (phrase : Phrase α) (relocate : (Nat → Nat) → α → α) (words : List String)
    (original : α) : Prop :=
  ∀ tokens, Spells tokens words → ∃ found, phrase tokens found ∧ Restores relocate found original

variable {phrase : Phrase α} {relocate : (Nat → Nat) → α → α} {word : String}

/-- What reads back as a narrower phrase reads back as the phrase. -/
theorem ReadsBack.imp {stronger : Phrase α} {words : List String} {original : α}
    (h : ReadsBack stronger relocate words original)
    (himp : ∀ tokens value, stronger tokens value → phrase tokens value) :
    ReadsBack phrase relocate words original := by
  intro tokens htokens
  obtain ⟨found, hfound, hrestores⟩ := h tokens htokens
  exact ⟨found, himp tokens found hfound, hrestores⟩

/-- A part reads back behind the word that leads to it. -/
theorem ReadsBack.behind {words : List String} {original : α}
    (hword : word ∈ keywords ++ operators) (h : ReadsBack phrase relocate words original) :
    ReadsBack (Behind phrase word) relocate (word :: words) original := by
  intro tokens htokens
  obtain ⟨token, rest, rfl, htoken, hrest⟩ := htokens.mark hword
  obtain ⟨found, hfound, hrestores⟩ := h rest hrest
  exact ⟨found, .intro htoken hfound, hrestores⟩

/-- A part that may be left out reads back, be it there or not. -/
theorem ReadsBack.maybe {lexemes : α → List String} {item : Option α}
    (hword : word ∈ keywords ++ operators)
    (h : ∀ value ∈ item, ReadsBack phrase relocate (lexemes value) value) :
    ReadsBack (Maybe (Behind phrase word)) (fun move ↦ Option.map (relocate move))
      (optionalLexemes word (item.map lexemes)) item := by
  intro tokens htokens
  cases item with
  | none =>
    obtain rfl := htokens.eq_nil
    exact ⟨none, .none, rfl, rfl⟩
  | some value =>
    obtain ⟨found, hfound, hstructure, hplain⟩ := (h value rfl).behind hword tokens htokens
    exact ⟨some found, .some hfound, congrArg some hstructure, congrArg some hplain⟩

/-- A repetition reads back if each of its items does. -/
theorem ReadsBack.many {lexemes : α → List String} {items : List α}
    (h : ∀ item ∈ items, ReadsBack phrase relocate (lexemes item) item) :
    ReadsBack (Many phrase) (fun move ↦ List.map (relocate move)) (items.flatMap lexemes)
      items := by
  induction items with
  | nil =>
    intro tokens htokens
    obtain rfl := htokens.eq_nil
    exact ⟨[], .nil, rfl, rfl⟩
  | cons head tail ih =>
    intro tokens htokens
    rw [List.forall_mem_cons] at h
    obtain ⟨first, rest, rfl, hfirst, hrest⟩ := htokens.append
    obtain ⟨head', hhead, hstructure, hplain⟩ := h.1 first hfirst
    obtain ⟨tail', htail, hstructures, hplains⟩ := ih h.2 rest hrest
    exact ⟨head' :: tail', .cons hhead htail, congrArg₂ List.cons hstructure hstructures,
      congrArg₂ List.cons hplain hplains⟩

/-- Names have neither positions nor annotations. -/
theorem ReadsBack.typeName {name : String} (h : isNameText name = true) :
    ReadsBack TypeName (fun _ ↦ id) [name] name := by
  intro tokens htokens
  obtain ⟨token, rest, rfl, hname, rfl, hrest⟩ := htokens.name h
  obtain rfl := hrest.eq_nil
  exact ⟨token.text, .intro hname, rfl, rfl⟩

end

/-! ### Expressions -/

/-- A literal that can be written is read from its own lexeme. -/
theorem Literal.operand {value : Literal} (h : value.isWritable = true) {token : Token}
    (hwell : token.WellFormed) (htext : token.text = value.lexeme) :
    Operand [token] (.literal ⟨token.offset, none⟩ value) := by
  obtain ⟨hkeyword, hconstant⟩ | ⟨kind, hspelled⟩ := Literal.spelled_lexeme h
  · exact .constant (hconstant token (hwell.is (List.mem_append_left operators hkeyword) htext))
  · have hkind : token.kind = kind := hwell.kind_eq hspelled.wellFormed htext
    refine .literal ?_
    rw [hkind, htext]
    exact hspelled

theorem BinaryOp.lexeme_mem (op : BinaryOp) : op.lexeme ∈ keywords ++ operators := by
  cases op <;> decide

theorem BinaryOp.tiers_drop_strength (op : BinaryOp) :
    ∃ ops, tiers.drop op.strength = ops :: tiers.drop (op.strength + 1) ∧ op ∈ ops := by
  cases op <;> exact ⟨_, rfl, by decide⟩

/-- An expression of tighter tiers is one of all tiers. -/
theorem Grammar.Expression.of_drop {tokens : List Token} {expr : Expr} {count : Nat} :
    ∀ {others : List (List BinaryOp)}, Expression (others.drop count) tokens expr →
      Expression others tokens expr := by
  induction count with
  | zero => exact id
  | succ count ih =>
    intro others h
    cases others with
    | nil => exact h
    | cons ops others => exact .tighter (ih h)

/-- An operand that holds together tightly may stand where less is asked for. -/
theorem Grammar.Expression.loosen {tokens : List Token} {expr : Expr} {tight loose : Nat}
    (h : Expression (tiers.drop tight) tokens expr) (hle : loose ≤ tight) :
    Expression (tiers.drop loose) tokens expr := by
  have hdrop : Expression ((tiers.drop loose).drop (tight - loose)) tokens expr := by
    rwa [List.drop_drop, Nat.add_sub_cancel' hle]
  exact hdrop.of_drop

mutual

/-- An expression is read back in the tier of its own strength. -/
theorem Expr.readsBack : ∀ expr : Expr, expr.isWritable = true →
    ReadsBack (Expression (tiers.drop expr.strength)) Expr.relocate expr.lexemes expr
  | .literal mark value, h => by
    intro tokens htokens
    obtain ⟨token, rest, rfl, htext, hwell, hrest⟩ := htokens.cons
    obtain rfl := hrest.eq_nil
    exact ⟨_, .operand (Literal.operand h hwell htext), rfl, rfl⟩
  | .group mark inner, h => by
    intro tokens htokens
    obtain ⟨first, rest, rfl, hfirst, hrest⟩ := htokens.append
    obtain ⟨opening, between, rfl, hopening, hbetween⟩ := hfirst.mark (by decide)
    obtain ⟨closing, rfl, hclosing⟩ := hrest.last (by decide)
    obtain ⟨inner', hinner, hstructure, hplain⟩ := inner.readsBack h between hbetween
    exact ⟨_, .operand (.group hopening (hinner.loosen (Nat.zero_le _)) hclosing),
      congrArg (Expr.group ⟨0, none⟩) hstructure,
      congrArg (Expr.group ⟨opening.offset, none⟩) hplain⟩
  | .binary mark op left right, h => by
    simp only [Expr.isWritable, Bool.and_eq_true, decide_eq_true_eq] at h
    obtain ⟨⟨⟨hleftStrength, hrightStrength⟩, hleftWritable⟩, hrightWritable⟩ := h
    intro tokens htokens
    obtain ⟨first, rest, rfl, hfirst, hrest⟩ := htokens.append
    obtain ⟨token, second, rfl, htoken, hsecond⟩ := hrest.mark op.lexeme_mem
    obtain ⟨left', hleft, hleftStructure, hleftPlain⟩ := left.readsBack hleftWritable first hfirst
    obtain ⟨right', hright, hrightStructure, hrightPlain⟩ :=
      right.readsBack hrightWritable second hsecond
    -- The left operand may be as strong as the operator, the right one has to be stronger.
    obtain ⟨ops, htiers, hop⟩ := op.tiers_drop_strength
    have hleft := hleft.loosen hleftStrength
    rw [htiers] at hleft
    refine ⟨.binary ⟨token.offset, none⟩ op left' right', ?_, ?_⟩
    · rw [Expr.strength, htiers]
      exact .binary hleft hop htoken (hright.loosen hrightStrength)
    · exact ⟨congrArg₂ (Expr.binary ⟨0, none⟩ op) hleftStructure hrightStructure,
        congrArg₂ (Expr.binary ⟨token.offset, none⟩ op) hleftPlain hrightPlain⟩
  | .access mark name _, h => by
    intro tokens htokens
    obtain ⟨token, rest, rfl, hname, rfl, hrest⟩ := htokens.name h
    obtain rfl := hrest.eq_nil
    exact ⟨_, .operand (.access hname), rfl, rfl⟩
  | .member mark receiver name _, h => by
    simp only [Expr.isWritable, Bool.and_eq_true, beq_iff_eq] at h
    obtain ⟨⟨hstrength, hreceiver⟩, hwritable⟩ := h
    intro tokens htokens
    obtain ⟨first, suffix, rfl, hfirst, hsuffix⟩ := htokens.append
    obtain ⟨point, named, rfl, hpoint, hnamed⟩ := hsuffix.mark (by decide)
    obtain ⟨token, rest, rfl, hname, rfl, hrest⟩ := hnamed.name hwritable
    obtain rfl := hrest.eq_nil
    obtain ⟨receiver', hfound, hstructure, hplain⟩ := receiver.readsBack hreceiver first hfirst
    rw [hstrength] at hfound
    exact ⟨_, .member hfound hpoint hname,
      congrArg (Expr.member ⟨0, none⟩ · token.text none) hstructure,
      congrArg (Expr.member ⟨token.offset, none⟩ · token.text none) hplain⟩
  | .call mark name args _, h => by
    simp only [Expr.isWritable, Bool.and_eq_true] at h
    obtain ⟨hwritable, hargs⟩ := h
    intro tokens htokens
    obtain ⟨token, rest, rfl, hname, rfl, hrest⟩ := htokens.name hwritable
    obtain ⟨args', hfound, hstructure, hplain⟩ := readsBack_arguments args hargs rest hrest
    exact ⟨_, .operand (.call hname hfound),
      congrArg (Expr.call ⟨0, none⟩ token.text · none) hstructure,
      congrArg (Expr.call ⟨token.offset, none⟩ token.text · none) hplain⟩
  | .invoke mark receiver name args _, h => by
    simp only [Expr.isWritable, Bool.and_eq_true, beq_iff_eq] at h
    obtain ⟨⟨⟨hstrength, hreceiver⟩, hwritable⟩, hargs⟩ := h
    intro tokens htokens
    rw [Expr.lexemes, List.append_assoc] at htokens
    obtain ⟨first, suffix, rfl, hfirst, hsuffix⟩ := htokens.append
    obtain ⟨point, named, rfl, hpoint, hnamed⟩ := hsuffix.mark (by decide)
    obtain ⟨token, rest, rfl, hname, rfl, hrest⟩ := hnamed.name hwritable
    obtain ⟨receiver', hfound, hstructure, hplain⟩ := receiver.readsBack hreceiver first hfirst
    obtain ⟨args', hfound', hstructures, hplains⟩ := readsBack_arguments args hargs rest hrest
    rw [hstrength] at hfound
    exact ⟨_, .invoke hfound hpoint hname hfound',
      congrArg₂ (Expr.invoke ⟨0, none⟩ · token.text · none) hstructure hstructures,
      congrArg₂ (Expr.invoke ⟨token.offset, none⟩ · token.text · none) hplain hplains⟩

/-- The arguments of a call are read back with their parentheses. -/
theorem readsBack_arguments : ∀ args : List Expr, areWritable args = true →
    ReadsBack Arguments relocateArgs ("(" :: (argLexemes args).drop 1 ++ [")"]) args
  | [], _ => by
    intro tokens htokens
    obtain ⟨opening, rest, rfl, hopening, hrest⟩ := htokens.mark (by decide)
    obtain ⟨closing, rfl, hclosing⟩ := hrest.last (by decide)
    exact ⟨[], .none hopening hclosing, rfl, rfl⟩
  | head :: tail, h => by
    simp only [areWritable, Bool.and_eq_true] at h
    obtain ⟨hhead, htail⟩ := h
    intro tokens htokens
    change Spells tokens ("(" :: (head.lexemes ++ argLexemes tail ++ [")"])) at htokens
    rw [List.append_assoc] at htokens
    obtain ⟨opening, rest, rfl, hopening, hrest⟩ := htokens.mark (by decide)
    obtain ⟨first, rest, rfl, hfirst, hrest⟩ := hrest.append
    obtain ⟨others, rest, rfl, hothers, hrest⟩ := hrest.append
    obtain ⟨closing, rfl, hclosing⟩ := hrest.last (by decide)
    obtain ⟨head', hfound, hstructure, hplain⟩ := head.readsBack hhead first hfirst
    obtain ⟨tail', hfound', hstructures, hplains⟩ := readsBack_others tail htail others hothers
    exact ⟨_, .some hopening (hfound.loosen (Nat.zero_le _)) hfound' hclosing,
      congrArg₂ List.cons hstructure hstructures, congrArg₂ List.cons hplain hplains⟩

/-- Further arguments read back behind their commas. -/
theorem readsBack_others : ∀ args : List Expr, areWritable args = true →
    ReadsBack (Many (Behind (Expression tiers) ",")) relocateArgs (argLexemes args) args
  | [], _ => by
    intro tokens htokens
    obtain rfl := htokens.eq_nil
    exact ⟨[], .nil, rfl, rfl⟩
  | head :: tail, h => by
    simp only [areWritable, Bool.and_eq_true] at h
    obtain ⟨hhead, htail⟩ := h
    intro tokens htokens
    obtain ⟨first, rest, rfl, hfirst, hrest⟩ := htokens.append
    obtain ⟨comma, first, rfl, hcomma, hfirst⟩ := hfirst.mark (by decide)
    obtain ⟨head', hfound, hstructure, hplain⟩ := head.readsBack hhead first hfirst
    obtain ⟨tail', hfound', hstructures, hplains⟩ := readsBack_others tail htail rest hrest
    exact ⟨_, .cons (.intro hcomma (hfound.loosen (Nat.zero_le _))) hfound',
      congrArg₂ List.cons hstructure hstructures, congrArg₂ List.cons hplain hplains⟩

end

/-- An expression is read back where all operators may stand. -/
theorem Expr.readsBack_tiers (expr : Expr) (h : expr.isWritable = true) :
    ReadsBack (Expression tiers) Expr.relocate expr.lexemes expr :=
  (expr.readsBack h).imp fun _ _ hexpr ↦ hexpr.loosen (Nat.zero_le _)

/-! ### Declarations, statements and methods -/

/-- A declaration that can be written reads back behind LET. -/
theorem Binding.readsBack {binding : Binding} (h : binding.isWritable = true) :
    ReadsBack (Behind Declaration "LET") Binding.relocate binding.lexemes binding := by
  simp only [Binding.isWritable, Bool.and_eq_true, Option.all_eq_true] at h
  obtain ⟨⟨hwritable, htype⟩, hvalue⟩ := h
  intro tokens htokens
  rw [Binding.lexemes, List.append_assoc] at htokens
  obtain ⟨first, rest, rfl, hfirst, hrest⟩ := htokens.append
  obtain ⟨word, named, rfl, hword, hnamed⟩ := hfirst.mark (by decide)
  obtain ⟨token, typing, rfl, hname, htext, htyping⟩ := hnamed.name hwritable
  obtain ⟨initial, rest, rfl, hinitial, hrest⟩ := hrest.append
  obtain ⟨last, rfl, hlast⟩ := hrest.last (by decide)
  obtain ⟨typeName, hfoundType, htypeName, -⟩ :=
    ReadsBack.maybe (by decide) (fun name hmem ↦ .typeName (htype name hmem)) typing htyping
  obtain ⟨value, hfound, hstructure, hplain⟩ :=
    ReadsBack.maybe (by decide) (fun value hmem ↦ value.readsBack_tiers (hvalue value hmem)) initial
      hinitial
  have hnames : typeName = binding.typeName := by simpa using htypeName
  refine ⟨_, .intro hword (.intro hname hfoundType hfound hlast), ?_, ?_⟩
  · simp only [Binding.relocate, htext, hnames, hstructure]
  · simp only [Binding.relocate, hplain, id]

mutual

/-- A statement that can be written reads back. The recursion follows the tree, as the words do. -/
theorem Stmt.readsBack : ∀ stmt : Stmt, stmt.isWritable = true →
    ReadsBack Statement Stmt.relocate stmt.lexemes stmt
  | .expr value, h => by
    intro tokens htokens
    obtain ⟨first, rest, rfl, hfirst, hrest⟩ := htokens.append
    obtain ⟨last, rfl, hlast⟩ := hrest.last (by decide)
    obtain ⟨value', hfound, hstructure, hplain⟩ := value.readsBack_tiers h first hfirst
    exact ⟨_, .expr hfound hlast, congrArg Stmt.expr hstructure, congrArg Stmt.expr hplain⟩
  | .declare binding, h => by
    intro tokens htokens
    obtain ⟨_, ⟨hword, hfound⟩, hstructure, hplain⟩ := Binding.readsBack h tokens htokens
    exact ⟨_, .declare hword hfound, congrArg Stmt.declare hstructure,
      congrArg Stmt.declare hplain⟩
  | .assign target value, h => by
    simp only [Stmt.isWritable, Bool.and_eq_true] at h
    obtain ⟨htarget, hvalue⟩ := h
    intro tokens htokens
    rw [Stmt.lexemes, List.append_assoc] at htokens
    obtain ⟨first, rest, rfl, hfirst, hrest⟩ := htokens.append
    obtain ⟨sign, rest, rfl, hsign, hrest⟩ := hrest.mark (by decide)
    obtain ⟨second, rest, rfl, hsecond, hrest⟩ := hrest.append
    obtain ⟨last, rfl, hlast⟩ := hrest.last (by decide)
    obtain ⟨target', hfound, hstructure, hplain⟩ := target.readsBack_tiers htarget first hfirst
    obtain ⟨value', hfound', hstructure', hplain'⟩ := value.readsBack_tiers hvalue second hsecond
    exact ⟨_, .assign hfound hsign hfound' hlast, congrArg₂ Stmt.assign hstructure hstructure',
      congrArg₂ Stmt.assign hplain hplain'⟩
  | .branch condition thenBody elseBody, h => by
    simp only [Stmt.isWritable, Bool.and_eq_true] at h
    obtain ⟨⟨hcondition, hthen⟩, helse⟩ := h
    intro tokens htokens
    rw [Stmt.lexemes, List.append_assoc, List.append_assoc] at htokens
    obtain ⟨first, rest, rfl, hfirst, hrest⟩ := htokens.append
    obtain ⟨word, first, rfl, hword, hfirst⟩ := hfirst.mark (by decide)
    obtain ⟨second, after, rfl, hsecond, hafter⟩ := hrest.append
    obtain ⟨opening, second, rfl, hopening, hsecond⟩ := hsecond.mark (by decide)
    obtain ⟨third, last, rfl, hthird, hlast⟩ := hafter.append
    obtain ⟨closing, rfl, hclosing⟩ := hlast.last (by decide)
    obtain ⟨condition', hfound, hstructure, hplain⟩ :=
      condition.readsBack_tiers hcondition first hfirst
    obtain ⟨thenBody', hfoundThen, hthenStructure, hthenPlain⟩ :=
      readsBack_block thenBody hthen second hsecond
    -- An empty ELSE branch is written as none at all.
    obtain ⟨elseBody', hfoundElse, helseStructure, helsePlain⟩ : ∃ found,
        Maybe (Behind (Many Statement) "ELSE") third found ∧
          Restores relocateAll (found.getD []) elseBody := by
      cases elseBody with
      | nil =>
        obtain rfl := hthird.eq_nil
        exact ⟨none, .none, rfl, rfl⟩
      | cons head tail =>
        obtain ⟨found, hfound, hrestores⟩ :=
          (readsBack_block (head :: tail) helse).behind (by decide) third hthird
        exact ⟨some found, .some hfound, hrestores⟩
    exact ⟨_, .branch hword hfound hopening hfoundThen hfoundElse hclosing,
      by simp only [Stmt.relocate, hstructure, hthenStructure, helseStructure],
      by simp only [Stmt.relocate, hplain, hthenPlain, helsePlain]⟩
  | .forEach offset name iterable body, h => by
    simp only [Stmt.isWritable, Bool.and_eq_true] at h
    obtain ⟨⟨hwritable, hiterable⟩, hbody⟩ := h
    intro tokens htokens
    rw [Stmt.lexemes, List.append_assoc] at htokens
    obtain ⟨first, rest, rfl, hfirst, hrest⟩ := htokens.append
    obtain ⟨word, named, rfl, hword, hnamed⟩ := hfirst.mark (by decide)
    obtain ⟨token, after, rfl, hname, rfl, hafter⟩ := hnamed.name hwritable
    obtain ⟨preposition, first, rfl, hpreposition, hfirst⟩ := hafter.mark (by decide)
    obtain ⟨opening, inner, closing, rfl, hopening, hinner, hclosing⟩ := hrest.enclosed
    obtain ⟨iterable', hfound, hstructure, hplain⟩ :=
      iterable.readsBack_tiers hiterable first hfirst
    obtain ⟨body', hfound', hstructures, hplains⟩ := readsBack_block body hbody inner hinner
    exact ⟨_, .forEach hword hname hpreposition hfound hopening hfound' hclosing,
      congrArg₂ (Stmt.forEach 0 token.text) hstructure hstructures,
      congrArg₂ (Stmt.forEach token.offset token.text) hplain hplains⟩
  | .loop condition body, h => by
    simp only [Stmt.isWritable, Bool.and_eq_true] at h
    obtain ⟨hcondition, hbody⟩ := h
    intro tokens htokens
    rw [Stmt.lexemes, List.append_assoc] at htokens
    obtain ⟨first, rest, rfl, hfirst, hrest⟩ := htokens.append
    obtain ⟨word, first, rfl, hword, hfirst⟩ := hfirst.mark (by decide)
    obtain ⟨opening, inner, closing, rfl, hopening, hinner, hclosing⟩ := hrest.enclosed
    obtain ⟨condition', hfound, hstructure, hplain⟩ :=
      condition.readsBack_tiers hcondition first hfirst
    obtain ⟨body', hfound', hstructures, hplains⟩ := readsBack_block body hbody inner hinner
    exact ⟨_, .loop hword hfound hopening hfound' hclosing,
      congrArg₂ Stmt.loop hstructure hstructures, congrArg₂ Stmt.loop hplain hplains⟩
  | .ret value, h => by
    intro tokens htokens
    obtain ⟨first, rest, rfl, hfirst, hrest⟩ := htokens.append
    obtain ⟨word, first, rfl, hword, hfirst⟩ := hfirst.mark (by decide)
    obtain ⟨last, rfl, hlast⟩ := hrest.last (by decide)
    obtain ⟨value', hfound, hstructure, hplain⟩ := value.readsBack_tiers h first hfirst
    exact ⟨_, .ret hword hfound hlast, congrArg Stmt.ret hstructure, congrArg Stmt.ret hplain⟩

/-- The statements of a block read back one after another. -/
theorem readsBack_block : ∀ body : List Stmt, isWritableBlock body = true →
    ReadsBack (Many Statement) relocateAll (blockLexemes body) body
  | [], _ => by
    intro tokens htokens
    obtain rfl := htokens.eq_nil
    exact ⟨[], .nil, rfl, rfl⟩
  | head :: tail, h => by
    simp only [isWritableBlock, Bool.and_eq_true] at h
    obtain ⟨hhead, htail⟩ := h
    intro tokens htokens
    obtain ⟨first, rest, rfl, hfirst, hrest⟩ := htokens.append
    obtain ⟨head', hfound, hstructure, hplain⟩ := head.readsBack hhead first hfirst
    obtain ⟨tail', hfound', hstructures, hplains⟩ := readsBack_block tail htail rest hrest
    exact ⟨_, .cons hfound hfound', congrArg₂ List.cons hstructure hstructures,
      congrArg₂ List.cons hplain hplains⟩

end

/-- A parameter reads back with its type. -/
theorem readsBack_parameter {param : String × String} (hname : isNameText param.1 = true)
    (htype : isNameText param.2 = true) :
    ReadsBack Parameter (fun _ ↦ id) [param.1, ":", param.2] param := by
  intro tokens htokens
  obtain ⟨name, rest, rfl, hname, hnameText, hrest⟩ := htokens.name hname
  obtain ⟨colon, rest, rfl, hcolon, hrest⟩ := hrest.mark (by decide)
  obtain ⟨type, rest, rfl, htype, htypeText, hrest⟩ := hrest.name htype
  obtain rfl := hrest.eq_nil
  exact ⟨_, .intro hname hcolon htype, Prod.ext hnameText htypeText, rfl⟩

/-- The parameters of a method are read back with their parentheses. -/
theorem readsBack_parameters {params : List (String × String)}
    (h : ∀ param ∈ params, isNameText param.1 = true ∧ isNameText param.2 = true) :
    ReadsBack Parameters (fun _ ↦ id) ("(" :: (paramLexemes params).drop 1 ++ [")"]) params := by
  intro tokens htokens
  cases params with
  | nil =>
    obtain ⟨opening, rest, rfl, hopening, hrest⟩ := htokens.mark (by decide)
    obtain ⟨closing, rfl, hclosing⟩ := hrest.last (by decide)
    exact ⟨[], .none hopening hclosing, rfl, rfl⟩
  | cons head tail =>
    rw [List.forall_mem_cons] at h
    change Spells tokens ("(" :: ([head.1, ":", head.2] ++ paramLexemes tail ++ [")"])) at htokens
    rw [List.append_assoc] at htokens
    obtain ⟨opening, rest, rfl, hopening, hrest⟩ := htokens.mark (by decide)
    obtain ⟨first, rest, rfl, hfirst, hrest⟩ := hrest.append
    obtain ⟨others, rest, rfl, hothers, hrest⟩ := hrest.append
    obtain ⟨closing, rfl, hclosing⟩ := hrest.last (by decide)
    obtain ⟨head', hfound, hhead, -⟩ := readsBack_parameter h.1.1 h.1.2 first hfirst
    obtain ⟨tail', hfound', htail, -⟩ := ReadsBack.many (fun param hmem ↦
      (readsBack_parameter (h.2 param hmem).1 (h.2 param hmem).2).behind (by decide)) others hothers
    have htail : tail' = tail := by simpa using htail
    exact ⟨_, .some hopening hfound hfound' hclosing, congrArg₂ List.cons hhead htail, rfl⟩

/-- A method that can be written reads back behind DEF. -/
theorem Method.readsBack {method : Method} (h : method.isWritable = true) :
    ReadsBack (Behind Definition "DEF") Method.relocate method.lexemes method := by
  simp only [Method.isWritable, Bool.and_eq_true, Option.all_eq_true, List.all_eq_true,
    beq_iff_eq] at h
  obtain ⟨⟨⟨⟨⟨hwritable, hparams⟩, htypes⟩, hpaired⟩, hreturn⟩, hbody⟩ := h
  have hnames : ∀ param ∈ method.params.zip method.paramTypes,
      isNameText param.1 = true ∧ isNameText param.2 = true := fun param hmem ↦
    ⟨hparams _ (List.of_mem_zip hmem).1, htypes _ (List.of_mem_zip hmem).2⟩
  have hlexemes : method.lexemes = "DEF" :: method.name ::
      ("(" :: (paramLexemes (method.params.zip method.paramTypes)).drop 1 ++ [")"] ++
        (optionalLexemes ":" (method.returnType.map ([·])) ++
          ("DO" :: blockLexemes method.body ++ ["END"]))) := by
    simp [Method.lexemes]
  rw [hlexemes]
  intro tokens htokens
  obtain ⟨word, named, rfl, hword, hnamed⟩ := htokens.mark (by decide)
  obtain ⟨token, rest, rfl, hname, htext, hrest⟩ := hnamed.name hwritable
  obtain ⟨first, rest, rfl, hfirst, hrest⟩ := hrest.append
  obtain ⟨second, rest, rfl, hsecond, hrest⟩ := hrest.append
  obtain ⟨opening, inner, closing, rfl, hopening, hinner, hclosing⟩ := hrest.enclosed
  obtain ⟨params, hfoundParams, hparamsEq, -⟩ := readsBack_parameters hnames first hfirst
  obtain ⟨returnType, hfoundReturn, hreturnEq, -⟩ :=
    ReadsBack.maybe (by decide) (fun name hmem ↦ .typeName (hreturn name hmem)) second hsecond
  obtain ⟨body, hfound, hstructure, hplain⟩ := readsBack_block method.body hbody inner hinner
  have hparamsEq : params = method.params.zip method.paramTypes := hparamsEq
  have hreturnEq : returnType = method.returnType := by simpa using hreturnEq
  refine ⟨_, .intro hword (.intro hname hfoundParams hfoundReturn hopening hfound hclosing), ?_, ?_⟩
  · simp only [Method.relocate, htext, hparamsEq, hreturnEq, hstructure,
      List.map_fst_zip (Nat.le_of_eq hpaired), List.map_snd_zip (Nat.le_of_eq hpaired.symm)]
  · simp only [Method.relocate, hplain, id]

/-- A program that can be written reads back: its fields first and then its methods. -/
theorem Program.readsBack {program : Program} (h : program.isWritable = true) :
    ReadsBack Source Program.relocate program.lexemes program := by
  rw [Program.isWritable, Bool.and_eq_true, List.all_eq_true, List.all_eq_true] at h
  intro tokens htokens
  obtain ⟨first, second, rfl, hfirst, hsecond⟩ := htokens.append
  obtain ⟨fields, hfields, hstructure, hplain⟩ :=
    ReadsBack.many (fun binding hmem ↦ Binding.readsBack (h.1 binding hmem)) first hfirst
  obtain ⟨methods, hmethods, hstructures, hplains⟩ :=
    ReadsBack.many (fun method hmem ↦ Method.readsBack (h.2 method hmem)) second hsecond
  exact ⟨_, .intro hfields hmethods, congrArg₂ Program.mk hstructure hstructures,
    congrArg₂ Program.mk hplain hplains⟩

/-- A program whose names are names and whose operands bind tightly enough is written as text, with
a blank between each two words, that reads back as the same tree, with positions of its own and no
annotations. -/
theorem Program.ofText_render {program : Program} (h : program.isWritable = true) :
    ∃ read, Program.ofText program.render = .ok read ∧ read.skeleton = program.skeleton ∧
      read.erase = read := by
  obtain ⟨tokens, hscan, htexts⟩ := scan_intercalate (Program.areWords_lexemes h)
  have hwell := scan_wellFormed hscan
  obtain ⟨read, hsource, hstructure, hplain⟩ := Program.readsBack h tokens ⟨htexts, hwell⟩
  refine ⟨read, ?_, hstructure, hplain⟩
  have hread : Program.ofTokens tokens = .ok read :=
    ofTokens_eq_ok.mpr (Reader.program_accepts hwell hsource)
  rw [Program.ofText, Program.render, hscan]
  change (Program.ofTokens tokens).mapError _ = _
  rw [hread]
  rfl

/-- A program with negative numbers, an escaped text and a difference. -/
def refund : Program where
  fields := [{
    name := "rate", typeName := some "Decimal", offset := 0,
    value := some (.literal ⟨0, none⟩ (.decimal ⟨-150, 2⟩)) }]
  methods := [{
    name := "main", params := [], paramTypes := [], returnType := some "Integer", offset := 0,
    body := [.ret (.binary ⟨0, none⟩ .sub (.call ⟨0, none⟩ "count"
      [.access ⟨0, none⟩ "rate" none, .literal ⟨0, none⟩ (.string "a\n\"b\"")] none)
        (.literal ⟨0, none⟩ (.integer (-7))))] }]

def refundText : String :=
  "LET rate : Decimal = -1.50 ; DEF main ( ) : Integer DO " ++
    "RETURN count ( rate , \"a\\n\\\"b\\\"\" ) - -7 ; END"

/-- A program with signs, an escaped text and a difference is written and read again. -/
theorem Program.ofText_render_refund : refund.isWritable = true ∧ refund.render = refundText ∧
    ∃ read, Program.ofText refundText = .ok read ∧ read.skeleton = refund.skeleton ∧
      read.erase = read := by
  have hwritable : refund.isWritable = true := by decide
  have hrender : refund.render = refundText := by decide +kernel
  refine ⟨hwritable, hrender, ?_⟩
  rw [← hrender]
  exact Program.ofText_render hwritable

end ScriptLang
