import ScriptLang.Proofs.Program.Chains
import ScriptLang.Proofs.Stateful

/-!
What operands begin with. The first token of an operand decides how the operand is read, and the
tokens that can be first are those that an expression can begin with.
-/

set_option autoImplicit false
set_option relaxedAutoImplicit false

namespace ScriptLang

/-- Whether an operand can begin with the token. -/
def Token.opensOperand (token : Token) : Bool :=
  match token.kind with
  | .identifier => (Literal.ofKeyword? token.text).isSome || !keywords.contains token.text
  | .operator => token.spells "("
  | .integer | .decimal | .character | .string => true

/-- The words an operand can begin with. -/
def openers : List String := ["(", "TRUE", "FALSE", "NIL"]

/-- The operand that a name stands for, which is a call if there are arguments. -/
def Token.named (token : Token) : Option (List Expr) → Expr
  | none => .access ⟨token.offset, none⟩ token.text none
  | some args => .call ⟨token.offset, none⟩ token.text args none

/-- The statement that an expression stands for, which is an assignment if there is a value. -/
def Expr.assigned (target : Expr) : Option Expr → Stmt
  | none => .expr target
  | some value => .assign target value

theorem Token.isName_eq_true {token : Token} :
    token.isName = true ↔ token.kind = .identifier ∧ token.text ∉ keywords := by
  simp [isName]

theorem Token.opensOperand_of_isName {token : Token} (h : token.isName = true) :
    token.opensOperand = true := by
  obtain ⟨hkind, htext⟩ := isName_eq_true.mp h
  simp [opensOperand, hkind, htext]

/-- What is no keyword stands for no value. -/
theorem Literal.ofKeyword?_eq_none {text : String} (h : text ∉ keywords) :
    Literal.ofKeyword? text = none := by
  have htrue : text ≠ "TRUE" := fun heq ↦ h (heq ▸ by decide)
  have hfalse : text ≠ "FALSE" := fun heq ↦ h (heq ▸ by decide)
  have hnil : text ≠ "NIL" := fun heq ↦ h (heq ▸ by decide)
  simp [ofKeyword?, htrue, hfalse, hnil]

/-- A literal has a kind of its own. -/
theorem Literal.Spelled.kind_ne {kind : TokenKind} {text : List Char} {value : Literal}
    (h : Spelled kind text value) : kind ≠ .identifier ∧ kind ≠ .operator := by
  cases h <;> exact ⟨nofun, nofun⟩

namespace Grammar

/-- The keywords TRUE, FALSE and NIL are the constants of the grammar. -/
theorem constant_iff {token : Token} {value : Literal} :
    Constant token value ↔
      token.kind = .identifier ∧ Literal.ofKeyword? token.text = some value := by
  constructor
  · rintro (⟨htext, hkind⟩ | ⟨htext, hkind⟩ | ⟨htext, hkind⟩) <;> rw [htext] <;>
      exact ⟨hkind, rfl⟩
  · rintro ⟨hkind, hvalue⟩
    unfold Literal.ofKeyword? at hvalue
    split at hvalue
    · rename_i htext
      cases hvalue
      exact .true ⟨htext, hkind⟩
    · split at hvalue
      · rename_i htext
        cases hvalue
        exact .false ⟨htext, hkind⟩
      · split at hvalue
        · rename_i htext
          cases hvalue
          exact .nil ⟨htext, hkind⟩
        · cases hvalue

/-- An operand is not empty, and its first token can begin one. -/
theorem Operand.opens {tokens : List Token} {expr : Expr} (h : Operand tokens expr) :
    ∃ token rest, tokens = token :: rest ∧ token.opensOperand = true := by
  cases h with
  | constant hvalue =>
    obtain ⟨hkind, hvalue⟩ := constant_iff.mp hvalue
    exact ⟨_, [], rfl, by simp [Token.opensOperand, hkind, hvalue]⟩
  | literal hvalue =>
    obtain ⟨hidentifier, hoperator⟩ := hvalue.kind_ne
    exact ⟨_, [], rfl, by unfold Token.opensOperand; split <;> trivial⟩
  | group hopening _ _ =>
    have hkind : _ = TokenKind.operator := hopening.2
    exact ⟨_, _, rfl, by simp [Token.opensOperand, Token.spells, hkind, hopening.1]⟩
  | access hname | call hname _ => exact ⟨_, _, rfl, Token.opensOperand_of_isName hname⟩

/-- An expression is not empty, and its first token can begin an operand. -/
theorem Expression.opens {others : List (List BinaryOp)} {tokens : List Token} {expr : Expr}
    (h : Expression others tokens expr) :
    ∃ token rest, tokens = token :: rest ∧ token.opensOperand = true := by
  induction others generalizing tokens expr with
  | nil =>
    obtain ⟨first, rest, left, suffixes, rfl, hfirst, -, -⟩ := h.attachments
    obtain ⟨token, inner, rfl, hopens⟩ := hfirst.opens
    exact ⟨token, inner ++ rest, rfl, hopens⟩
  | cons ops others ih =>
    obtain ⟨first, rest, left, operations, rfl, hfirst, -, -⟩ := h.chain
    obtain ⟨token, inner, rfl, hopens⟩ := ih hfirst
    exact ⟨token, inner ++ rest, rfl, hopens⟩

/-- A statement is not empty. -/
theorem Statement.ne_nil {value : Stmt} : ¬Statement [] value := by
  intro h
  generalize htokens : ([] : List Token) = tokens at h
  cases h with
  | assign htarget _ _ _ | expr htarget _ =>
    obtain ⟨token, rest, rfl, -⟩ := htarget.opens
    cases htokens
  | _ => cases htokens

end Grammar

namespace Reader

/-- Fails at the next token, which begins no operand. -/
def refuseOperand (stop : Nat) : Reader Expr
  | [] => .error (.unexpectedEnd "an expression" stop) []
  | token :: rest => .error (.expectedExpression token.text token.offset) rest

variable {stop : Nat} {reader : Reader Expr} {token : Token}

/-- A keyword that stands for a value is an operand by itself. -/
theorem operandFrom_of_constant {value : Literal} (h : Grammar.Constant token value) :
    operandFrom stop reader token = pure (.literal ⟨token.offset, none⟩ value) := by
  obtain ⟨hkind, hvalue⟩ := Grammar.constant_iff.mp h
  simp only [operandFrom, hkind, hvalue]

/-- A name is a variable, or a call if arguments follow. -/
theorem operandFrom_of_name (h : token.isName = true) :
    operandFrom stop reader token = do
      let args ← following "(" (arguments stop reader)
      return token.named args := by
  obtain ⟨hkind, htext⟩ := Token.isName_eq_true.mp h
  simp only [operandFrom, hkind, Literal.ofKeyword?_eq_none htext]
  rw [if_neg (by simpa using htext)]
  refine congrArg (following "(" (arguments stop reader) >>= ·) (funext fun args ↦ ?_)
  cases args <;> rfl

/-- An opening parenthesis begins a group. -/
theorem operandFrom_of_opening (h : token.Is "(") :
    operandFrom stop reader token = do
      let inner ← reader
      expectWord stop ")"
      return .group ⟨token.offset, none⟩ inner := by
  have hkind : token.kind = .operator := h.2
  simp [operandFrom, hkind, Token.spells, h.1]

/-- A literal that spells a value is an operand by itself. -/
theorem operandFrom_of_literal {value : Literal}
    (h : Literal.Spelled token.kind token.text.toList value) :
    operandFrom stop reader token = pure (.literal ⟨token.offset, none⟩ value) := by
  have hvalue := h.ofToken?
  obtain ⟨hidentifier, hoperator⟩ := h.kind_ne
  unfold operandFrom
  split <;> first | contradiction | rw [hvalue]

/-- A keyword or an operator that begins no operand is blamed. -/
theorem operandFrom_of_not_opens (h : token.opensOperand = false) (tokens : List Token) :
    operandFrom stop reader token tokens = refuseOperand stop (token :: tokens) := by
  unfold Token.opensOperand at h
  split at h
  · rename_i hkind
    obtain ⟨hvalue, htext⟩ := Bool.or_eq_false_iff.mp h
    rw [Option.isSome_eq_false_iff, Option.isNone_iff_eq_none] at hvalue
    simp only [operandFrom, hkind, hvalue]
    rw [if_pos (by simpa using htext)]
    rfl
  · rename_i hkind
    simp only [operandFrom, hkind, h]
    rfl
  · cases h
  all_goals cases h

end Reader

end ScriptLang
