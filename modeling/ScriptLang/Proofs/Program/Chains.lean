import ScriptLang.Proofs.Program.Grammar

/-!
Expressions as chains. A rule that is recursive on the left says the same as a first part with any
number of continuations, which are attached to it one after the other: operators with their right
operands on one tier, members and calls behind the tiers.
-/

set_option autoImplicit false
set_option relaxedAutoImplicit false

namespace ScriptLang.Grammar

/-- One more item may stand behind a repetition. -/
theorem Many.concat {α : Type} {phrase : Phrase α} {first second : List Token} {values : List α}
    {last : α} (hfirst : Many phrase first values) (hsecond : phrase second last) :
    Many phrase (first ++ second) (values ++ [last]) := by
  induction hfirst with
  | nil =>
    have hone := Many.cons hsecond .nil
    rwa [List.append_nil] at hone
  | cons hhead _ ih =>
    rw [List.append_assoc]
    exact .cons hhead ih

/-- An operator of one tier with an operand of the tiers that bind tighter. -/
inductive Continuation (ops : List BinaryOp) (others : List (List BinaryOp)) : Phrase Operation
  | intro {op : BinaryOp} {token : Token} {tokens : List Token} {right : Expr} (hop : op ∈ ops)
    (htoken : token.Is op.lexeme) (hright : Expression others tokens right) :
    Continuation ops others (token :: tokens) ⟨token.offset, op, right⟩

/-- The name of a member behind its point, and arguments if it is a call. -/
inductive Attachment : Phrase Suffix
  | member {name : Token} (hname : name.isName = true) :
    Attachment [name] ⟨name.offset, name.text, none⟩
  | invoke {name : Token} {tokens : List Token} {args : List Expr} (hname : name.isName = true)
    (hargs : Arguments tokens args) :
    Attachment (name :: tokens) ⟨name.offset, name.text, some args⟩

section

variable {ops : List BinaryOp} {others : List (List BinaryOp)} {first rest tokens : List Token}
  {left expr : Expr}

/-- A first operand with continuations is an expression of its tier, grouped to the left. -/
theorem Expression.of_chain {operations : List Operation}
    (hfirst : Expression (ops :: others) first left)
    (hrest : Many (Continuation ops others) rest operations) :
    Expression (ops :: others) (first ++ rest) (operations.foldl Operation.apply left) := by
  induction hrest generalizing first left with
  | nil => exact (List.append_nil first).symm ▸ hfirst
  | cons hhead _ ih =>
    cases hhead with
    | intro hop htoken hright =>
      rw [← List.append_assoc]
      exact ih (.binary hfirst hop htoken hright)

/-- An expression of a tier is a first operand with continuations, by induction on how it was
formed. -/
theorem Expression.chain : ∀ {tokens : List Token} {expr : Expr},
    Expression (ops :: others) tokens expr → ∃ first rest left operations,
      tokens = first ++ rest ∧ Expression others first left ∧
        Many (Continuation ops others) rest operations ∧
          expr = operations.foldl Operation.apply left
  | tokens, expr, .tighter hexpr =>
    ⟨tokens, [], expr, [], (List.append_nil tokens).symm, hexpr, .nil, rfl⟩
  | _, _, .binary hleft hop htoken hright => by
    obtain ⟨first, rest, left, operations, rfl, hfirst, hrest, rfl⟩ := Expression.chain hleft
    refine ⟨first, _, left, _, List.append_assoc .., hfirst,
      hrest.concat (.intro hop htoken hright), ?_⟩
    rw [List.foldl_append]
    rfl

/-- An operand with attachments is an expression without operators. -/
theorem Expression.of_attachments {suffixes : List Suffix} (hfirst : Expression [] first left)
    (hrest : Many (Behind Attachment ".") rest suffixes) :
    Expression [] (first ++ rest) (suffixes.foldl Suffix.apply left) := by
  induction hrest generalizing first left with
  | nil => exact (List.append_nil first).symm ▸ hfirst
  | cons hhead _ ih =>
    rw [← List.append_assoc]
    cases hhead with
    | intro hpoint hattachment =>
      cases hattachment with
      | member hname => exact ih (.member hfirst hpoint hname)
      | invoke hname hargs => exact ih (.invoke hfirst hpoint hname hargs)

/-- An expression without operators is an operand with attachments. -/
theorem Expression.attachments : ∀ {tokens : List Token} {expr : Expr},
    Expression [] tokens expr → ∃ first rest left suffixes,
      tokens = first ++ rest ∧ Operand first left ∧
        Many (Behind Attachment ".") rest suffixes ∧ expr = suffixes.foldl Suffix.apply left
  | tokens, expr, .operand hexpr =>
    ⟨tokens, [], expr, [], (List.append_nil tokens).symm, hexpr, .nil, rfl⟩
  | _, _, .member hreceiver hpoint hname => by
    obtain ⟨first, rest, left, suffixes, rfl, hfirst, hrest, rfl⟩ :=
      Expression.attachments hreceiver
    refine ⟨first, _, left, _, List.append_assoc .., hfirst,
      hrest.concat (.intro hpoint (.member hname)), ?_⟩
    rw [List.foldl_append]
    rfl
  | _, _, .invoke hreceiver hpoint hname hargs => by
    obtain ⟨first, rest, left, suffixes, rfl, hfirst, hrest, rfl⟩ :=
      Expression.attachments hreceiver
    refine ⟨first, _, left, _, List.append_assoc .., hfirst,
      hrest.concat (.intro hpoint (.invoke hname hargs)), ?_⟩
    rw [List.foldl_append]
    rfl

end

end ScriptLang.Grammar
