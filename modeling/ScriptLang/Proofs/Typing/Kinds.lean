import ScriptLang.Proofs.Typing.Inversion

/-!
The kinds of values that a type stands for. A value of a type is NIL or of its kind; `Any` and
`Comparable` take every value. Operators on such values give values of the type they are checked to
have, or fail because of NIL, because of a zero divisor, or because the kind of values has no order.
-/

set_option autoImplicit false
set_option relaxedAutoImplicit false

namespace ScriptLang

/-- The one kind of the values of a type besides NIL. -/
def Ty.kind? : Ty → Option ValueKind
  | any => none
  | comparable => none
  | nil => some .nil
  | boolean => some .boolean
  | integer => some .integer
  | decimal => some .decimal
  | character => some .character
  | string => some .string
  | range => some .range
  | record _ => some .object

/-- A type that is no record has no members, so all of its members are of such types too. -/
theorem Ty.plain_field? (type : Ty) (name : String) (found : Variable Ty)
    (hplain : ∀ record, type ≠ .record record) (hfound : type.field? name = some found) :
    ∀ record, found.type ≠ .record record := by
  obtain ⟨record, rfl, -⟩ := Ty.field?_eq_some.mp hfound
  exact (hplain record rfl).elim

/-- What is no record has no methods. -/
theorem Ty.plain_method? (type : Ty) (name : String) (arity : Nat) (found : Signature Ty)
    (hplain : ∀ record, type ≠ .record record) (hfound : type.method? name arity = some found) :
    found.arity = arity ∧ ∀ record, found.returns ≠ .record record := by
  obtain ⟨record, rfl, -⟩ := Ty.method?_eq_some.mp hfound
  exact (hplain record rfl).elim

/-- Whether a value is of the kind of a type, where NIL is of the kind of `Nil` alone. -/
def Ty.Exactly (type : Ty) (value : Value) : Prop :=
  ∀ kind, type.kind? = some kind → value.kind = kind

/-- Whether a variable of a type can have a value. -/
def Ty.Holds (type : Ty) (value : Value) : Prop :=
  value = .nil ∨ ∀ kind, type.kind? = some kind → value.kind = kind

/-- The types that pass for comparable and have values without an order. -/
def Ty.IsUnordered (type : Ty) : Prop := type = .any ∨ type = .comparable ∨ type = .range

/-- The operators that ask for the order of their operands. -/
def BinaryOp.orderings : List BinaryOp := [.less, .lessEqual, .greater, .greaterEqual]

namespace Ty.Exactly

variable {value : Value}

/-- The value of a literal is of the kind of its type. -/
theorem literal {literal : Literal} {type : Ty} {offset : Nat}
    (htype : literal.type offset = .ok type) : type.Exactly literal.value := by
  intro kind hkind
  cases literal <;> unfold Literal.type at htype <;> grind [Ty.kind?, Literal.value, Value.kind]

/-- A value of the kind of one type is of the kind of every type that it may be assigned to. -/
theorem assignable {target source : Ty} (htarget : target.assignable source = true)
    (h : source.Exactly value) : target.Exactly value := by
  intro kind hkind
  refine h kind ?_
  rw [← hkind]
  cases target <;> cases source <;> simp_all [Ty.assignable, Ty.same, Ty.isTop, Ty.kind?]

end Ty.Exactly

namespace Ty.Holds

variable {value : Value}

theorem nil (type : Ty) : type.Holds .nil := .inl rfl

/-- A value that is not NIL has the kind of its type. -/
theorem kind_eq {type : Ty} {kind : ValueKind} (h : type.Holds value) (hnil : value ≠ .nil)
    (hkind : type.kind? = some kind) : value.kind = kind := by
  obtain h | h := h
  · exact (hnil h).elim
  · exact h kind hkind

/-- A value that a variable can have and that is not of the kind of its type is NIL. -/
theorem kind_eq_nil {type : Ty} {kind : ValueKind} (h : type.Holds value)
    (hkind : type.kind? = some kind) (hother : value.kind ≠ kind) : value.kind = .nil := by
  obtain rfl | h := h
  · rfl
  · exact (hother (h kind hkind)).elim

theorem integer (h : Ty.integer.Holds value) : value = .nil ∨ ∃ n, value = .integer n := by
  by_cases hnil : value = .nil
  · exact .inl hnil
  · have hkind := h.kind_eq hnil rfl
    cases value <;> simp_all [Value.kind]

theorem decimal (h : Ty.decimal.Holds value) : value = .nil ∨ ∃ x, value = .decimal x := by
  by_cases hnil : value = .nil
  · exact .inl hnil
  · have hkind := h.kind_eq hnil rfl
    cases value <;> simp_all [Value.kind]

theorem string (h : Ty.string.Holds value) : value = .nil ∨ ∃ text, value = .string text := by
  by_cases hnil : value = .nil
  · exact .inl hnil
  · have hkind := h.kind_eq hnil rfl
    cases value <;> simp_all [Value.kind]

/-- The value of a literal is one that a variable of its type can have. -/
theorem literal {literal : Literal} {type : Ty} {offset : Nat}
    (htype : literal.type offset = .ok type) : type.Holds literal.value :=
  .inr (Ty.Exactly.literal htype)

theorem assignable {target source : Ty} (htarget : target.assignable source = true)
    (h : source.Holds value) : target.Holds value :=
  h.imp id (Ty.Exactly.assignable htarget)

end Ty.Holds

namespace BinaryOp

variable {op : BinaryOp} {left right : Value}

/-- The value of an operator, where it has one, is that of arithmetic or of a comparison. -/
theorem apply_eq_ok {value : Value} (h : op.apply left right = .ok value) :
    (op.arithmetic? left right).or (op.compare? left right) = some value := by
  unfold apply at h
  split at h
  · cases h
  · split at h
    · rename_i hvalue
      cases h
      exact hvalue
    · cases h

theorem arithmetic?_of_comparison (hop : op.isComparison = true) :
    op.arithmetic? left right = none := by
  cases op <;> simp [isComparison, comparisons] at hop <;> cases left <;> cases right <;> rfl

theorem compare?_of_arithmetic (hop : op ∈ additive ++ multiplicative) :
    op.compare? left right = none := by
  cases op <;> simp [additive, multiplicative] at hop <;> rfl

/-- A comparison gives a Boolean. -/
theorem compare?_eq_some {value : Value} (h : op.compare? left right = some value) :
    ∃ holds, value = .boolean holds := by
  unfold compare? at h
  split at h
  · cases h
    exact ⟨_, rfl⟩
  · cases h
    exact ⟨_, rfl⟩
  · obtain ⟨order, -, rfl⟩ := Option.map_eq_some_iff.mp h
    exact ⟨_, rfl⟩
  · obtain ⟨order, -, rfl⟩ := Option.map_eq_some_iff.mp h
    exact ⟨_, rfl⟩
  · obtain ⟨order, -, rfl⟩ := Option.map_eq_some_iff.mp h
    exact ⟨_, rfl⟩
  · obtain ⟨order, -, rfl⟩ := Option.map_eq_some_iff.mp h
    exact ⟨_, rfl⟩
  · cases h

/-- Joining a text gives a text, except that NIL may stand in the place of the text. -/
theorem join_cases (hstring : Ty.string.Holds left ∨ Ty.string.Holds right) :
    (∃ text, arithmetic? .add left right = some (.string text)) ∨ left = .nil ∨ right = .nil := by
  obtain h | h := hstring
  · obtain rfl | ⟨text, rfl⟩ := h.string
    · exact .inr (.inl rfl)
    · exact .inl ⟨_, rfl⟩
  · obtain rfl | ⟨text, rfl⟩ := h.string
    · exact .inr (.inr rfl)
    · cases left <;> exact .inl ⟨_, rfl⟩

/-- NIL is only ever added to a string, as its text. -/
theorem add_nil_cases {value : Value} (hnil : left = .nil ∨ right = .nil)
    (h : op.arithmetic? left right = some value) : ∃ text, value = .string text := by
  obtain rfl | rfl := hnil
  · cases right <;> cases op <;> cases h
    exact ⟨_, rfl⟩
  · cases left <;> cases op <;> cases h
    exact ⟨_, rfl⟩

/-- Arithmetic on numbers of one type stays in the type, except that NIL may stand for a number. -/
theorem arithmetic?_cases {type : Ty} (hop : op ∈ additive ++ multiplicative)
    (htype : type = .integer ∨ type = .decimal) (hleft : type.Holds left)
    (hright : type.Holds right) :
    (∃ value, op.arithmetic? left right = some value ∧ type.Holds value) ∨
      op.arithmetic? left right = none ∧ (left = .nil ∨ right = .nil) := by
  obtain rfl | rfl := htype
  · obtain rfl | ⟨first, rfl⟩ := hleft.integer
    · obtain rfl | ⟨second, rfl⟩ := hright.integer <;> exact .inr ⟨rfl, .inl rfl⟩
    · obtain rfl | ⟨second, rfl⟩ := hright.integer
      · exact .inr ⟨rfl, .inr rfl⟩
      · refine .inl ?_
        cases op <;> simp [additive, multiplicative] at hop <;>
          exact ⟨_, rfl, .inr fun _ hkind ↦ Option.some_inj.mp hkind⟩
  · obtain rfl | ⟨first, rfl⟩ := hleft.decimal
    · obtain rfl | ⟨second, rfl⟩ := hright.decimal <;> exact .inr ⟨rfl, .inl rfl⟩
    · obtain rfl | ⟨second, rfl⟩ := hright.decimal
      · exact .inr ⟨rfl, .inr rfl⟩
      · refine .inl ?_
        cases op <;> simp [additive, multiplicative] at hop <;>
          exact ⟨_, rfl, .inr fun _ hkind ↦ Option.some_inj.mp hkind⟩

/-- Values of a type that has an order are ordered, except for NIL. -/
theorem order?_eq_none {first second : Ty} (hassignable : first.assignable second = true)
    (hrecord : ∀ record, first ≠ .record record) (hleft : first.Holds left)
    (hright : second.Holds right) (hnone : left.order? right = none) :
    left = .nil ∨ right = .nil ∨ first.IsUnordered := by
  by_cases hunordered : first.IsUnordered
  · exact .inr (.inr hunordered)
  by_cases hleftNil : left = .nil
  · exact .inl hleftNil
  by_cases hrightNil : right = .nil
  · exact .inr (.inl hrightNil)
  have hright := Ty.Holds.assignable hassignable hright
  cases first with
  | any | comparable | range => simp [Ty.IsUnordered] at hunordered
  | record record => exact (hrecord record rfl).elim
  | nil | boolean | integer | decimal | character | string =>
    have hkind := hleft.kind_eq hleftNil rfl
    have hkind' := hright.kind_eq hrightNil rfl
    cases left <;> simp_all [Value.kind] <;> cases right <;> simp_all [Value.order?]

/-- Only an operator that asks for an order gives nothing, and only where there is no order. -/
theorem order?_of_compare? (hop : op.isComparison = true) (hnone : op.compare? left right = none) :
    op ∈ orderings ∧ left.order? right = none := by
  cases op <;> simp_all [isComparison, comparisons, orderings, compare?]

/-- A comparison that is accepted has no answer if one side is NIL, or if the type of the sides has
no order. -/
theorem compare?_eq_none {first second : Ty} (hop : op.isComparison = true)
    (hassignable : first.assignable second = true) (hrecord : ∀ record, first ≠ .record record)
    (hleft : first.Holds left) (hright : second.Holds right)
    (hnone : op.compare? left right = none) :
    left = .nil ∨ right = .nil ∨ op ∈ orderings ∧ first.IsUnordered := by
  have hordering := order?_of_compare? hop hnone
  obtain hleft | hright | hunordered :=
    order?_eq_none hassignable hrecord hleft hright hordering.2
  · exact .inl hleft
  · exact .inr (.inl hright)
  · exact .inr (.inr ⟨hordering.1, hunordered⟩)

variable {first second type : Ty} {offsets : OperandOffsets}

/-- An operator on values of the types it is checked for gives values of its type only. -/
theorem apply_holds {value : Value} (htype : op.type first second offsets = .ok type)
    (hop : op.shortcut? = none) (hleft : first.Holds left) (hright : second.Holds right)
    (happly : op.apply left right = .ok value) : type.Holds value := by
  have hvalue := apply_eq_ok happly
  obtain ⟨hlogical, -⟩ | ⟨hcomparison, -, rfl⟩ | ⟨rfl, hstring, rfl⟩ |
    ⟨harithmetic, hnumber, hsame, hresult⟩ := type_cases htype
  · obtain rfl | rfl := hlogical <;> cases hop
  · rw [arithmetic?_of_comparison hcomparison, Option.none_or] at hvalue
    obtain ⟨holds, rfl⟩ := compare?_eq_some hvalue
    exact .inr fun _ hkind ↦ Option.some_inj.mp hkind
  · rw [compare?_of_arithmetic (by simp [additive]), Option.or_none] at hvalue
    refine .inr fun _ hkind ↦ ?_
    obtain ⟨text, htext⟩ | hnil := join_cases (hstring.imp (· ▸ hleft) (· ▸ hright))
    · rw [hvalue] at htext
      cases htext
      exact Option.some_inj.mp hkind
    · obtain ⟨text, rfl⟩ := add_nil_cases hnil hvalue
      exact Option.some_inj.mp hkind
  · rw [compare?_of_arithmetic harithmetic, Option.or_none] at hvalue
    have hright : first.Holds right := .assignable (by simp [Ty.assignable, hsame]) hright
    obtain ⟨other, hother, hholds⟩ | ⟨hnone, -⟩ :=
      arithmetic?_cases harithmetic hnumber hleft hright
    · rw [hvalue] at hother
      cases hother
      exact hresult ▸ hholds
    · rw [hvalue] at hnone
      cases hnone

/-- What is left for an operator to fail on. -/
theorem result_eq_none (htype : op.type first second offsets = .ok type)
    (hop : op.shortcut? = none) (hrecord : ∀ record, first ≠ .record record)
    (hleft : first.Holds left) (hright : second.Holds right)
    (hnone : (op.arithmetic? left right).or (op.compare? left right) = none) :
    left = .nil ∨ right = .nil ∨ op ∈ orderings ∧ first.IsUnordered := by
  obtain ⟨harithmeticNone, hcompareNone⟩ := Option.or_eq_none_iff.mp hnone
  obtain ⟨hlogical, -⟩ | ⟨hcomparison, hassignable, -⟩ | ⟨rfl, hstring, -⟩ |
    ⟨harithmetic, hnumber, hsame, -⟩ := type_cases htype
  · obtain rfl | rfl := hlogical <;> cases hop
  · exact compare?_eq_none hcomparison hassignable hrecord hleft hright hcompareNone
  · obtain ⟨text, htext⟩ | hnil := join_cases (hstring.imp (· ▸ hleft) (· ▸ hright))
    · rw [harithmeticNone] at htext
      cases htext
    · exact hnil.imp id .inl
  · have hright : first.Holds right := .assignable (by simp [Ty.assignable, hsame]) hright
    obtain ⟨other, hother, -⟩ | ⟨-, hnil⟩ :=
      arithmetic?_cases harithmetic hnumber hleft hright
    · rw [harithmeticNone] at hother
      cases hother
    · exact hnil.imp id .inl

end BinaryOp

end ScriptLang
