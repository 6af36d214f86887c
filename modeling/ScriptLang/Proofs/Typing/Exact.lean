import ScriptLang.Proofs.Typing.Kinds

/-!
Values that are exactly of their types. Without NIL among the values of other types, operators give
exactly what their types say, and only asking for the order of values that have none can fail.
-/

set_option autoImplicit false
set_option relaxedAutoImplicit false

namespace ScriptLang

/-- The types that NIL is of. -/
def Ty.takesNil : Ty → Bool
  | any | nil | comparable => true
  | boolean | integer | decimal | character | string | range | record _ => false

namespace Ty

variable {value : Value}

theorem exactly_nil_iff {type : Ty} : type.Exactly .nil ↔ type.takesNil = true := by
  cases type <;> simp [Exactly, kind?, takesNil, Value.kind]

/-- A value other than NIL that a variable can have is of the kind of its type. -/
theorem Holds.exactly {type : Ty} (h : type.Holds value) (hnil : value ≠ .nil) :
    type.Exactly value :=
  h.resolve_left hnil

/-- A value of the kind of a type that does not take NIL is not NIL. -/
theorem Exactly.ne_nil {type : Ty} (h : type.Exactly value) (htype : type.takesNil = false) :
    value ≠ .nil := by
  rintro rfl
  rw [exactly_nil_iff.mp h] at htype
  cases htype

theorem Exactly.integer (h : Ty.integer.Exactly value) : ∃ n, value = .integer n :=
  (Holds.integer (.inr h)).resolve_left (h.ne_nil rfl)

theorem Exactly.string (h : Ty.string.Exactly value) : ∃ text, value = .string text :=
  (Holds.string (.inr h)).resolve_left (h.ne_nil rfl)

end Ty

namespace BinaryOp

variable {op : BinaryOp} {left right : Value}

theorem arithmetic?_ne_nil : op.arithmetic? left right ≠ some .nil := by
  unfold arithmetic?
  split <;> simp

/-- No operator gives NIL. -/
theorem apply_ne_nil {value : Value} (h : op.apply left right = .ok value) : value ≠ .nil := by
  rintro rfl
  obtain harithmetic | ⟨-, hcompare⟩ := Option.or_eq_some_iff.mp (apply_eq_ok h)
  · exact arithmetic?_ne_nil harithmetic
  · obtain ⟨holds, hvalue⟩ := compare?_eq_some hcompare
    cases hvalue

variable {first second type : Ty} {offsets : OperandOffsets}

/-- An operator on values that are exactly of the types it is checked for gives such a value. -/
theorem apply_exactly {value : Value} (htype : op.type first second offsets = .ok type)
    (hop : op.shortcut? = none) (hleft : first.Exactly left) (hright : second.Exactly right)
    (happly : op.apply left right = .ok value) : type.Exactly value :=
  (apply_holds htype hop (.inr hleft) (.inr hright) happly).exactly (apply_ne_nil happly)

/-- Joining a text to anything gives a text. -/
theorem arithmetic?_join (hstring : Ty.string.Exactly left ∨ Ty.string.Exactly right) :
    ∃ text, arithmetic? .add left right = some (.string text) := by
  obtain h | h := hstring
  · obtain ⟨text, rfl⟩ := h.string
    exact ⟨_, rfl⟩
  · obtain ⟨text, rfl⟩ := h.string
    cases left <;> exact ⟨_, rfl⟩

/-- Only values whose type is not known to have an order have no order. -/
theorem result_eq_none_of_exactly (htype : op.type first second offsets = .ok type)
    (hop : op.shortcut? = none) (hrecord : ∀ record, first ≠ .record record)
    (hleft : first.Exactly left) (hright : second.Exactly right)
    (hnone : (op.arithmetic? left right).or (op.compare? left right) = none) :
    op ∈ orderings ∧ (first.IsUnordered ∨ first = .nil) := by
  obtain ⟨harithmeticNone, hcompareNone⟩ := Option.or_eq_none_iff.mp hnone
  obtain ⟨hlogical, -⟩ | ⟨hcomparison, hassignable, -⟩ | ⟨rfl, hstring, -⟩ |
    ⟨harithmetic, hnumber, hsame, -⟩ := type_cases htype
  · obtain rfl | rfl := hlogical <;> cases hop
  · have hordering := (order?_of_compare? hcomparison hcompareNone).1
    have hunordered (hnil : first.Exactly .nil) : first.IsUnordered ∨ first = .nil := by
      rw [Ty.exactly_nil_iff] at hnil
      cases first <;> simp_all [Ty.takesNil, Ty.IsUnordered]
    obtain rfl | rfl | hfirst := order?_eq_none hassignable hrecord (.inr hleft) (.inr hright)
      (order?_of_compare? hcomparison hcompareNone).2
    · exact ⟨hordering, hunordered hleft⟩
    · exact ⟨hordering, hunordered (.assignable hassignable hright)⟩
    · exact ⟨hordering, .inl hfirst⟩
  · obtain ⟨text, htext⟩ := arithmetic?_join (hstring.imp (· ▸ hleft) (· ▸ hright))
    rw [harithmeticNone] at htext
    cases htext
  · have hright : first.Exactly right := .assignable (by simp [Ty.assignable, hsame]) hright
    have hfirst : first.takesNil = false := by obtain rfl | rfl := hnumber <;> rfl
    obtain ⟨other, hother, -⟩ | ⟨-, hnil⟩ :=
      arithmetic?_cases harithmetic hnumber (.inr hleft) (.inr hright)
    · rw [harithmeticNone] at hother
      cases hother
    · exact (hnil.elim (hleft.ne_nil hfirst) (hright.ne_nil hfirst)).elim

end BinaryOp

end ScriptLang
