import Mathlib
import ScriptLang.Proofs.Decimal.Value
import ScriptLang.Proofs.Typing.Kinds

/-!
Equality and order of values. Equality is settled for any two values; order is settled for values of
one ordered kind, where both can be read off a key in a linear order, which for decimals is the
number that they stand for.
-/

set_option autoImplicit false
set_option relaxedAutoImplicit false

namespace ScriptLang

/-- The order of decimals is that of the numbers they stand for, whatever their scales are. -/
theorem Decimal.order_eq_cmp (x y : Decimal) : x.order y = cmp x.value y.value := by
  have hpositive : (0 : ℚ) < 10 ^ max x.scale y.scale := by positivity
  rw [order_eq, ← cmp_eq_compare, ← cmp_mul_pos_right hpositive, ← unitsAt_cast (le_max_left _ _),
    ← unitsAt_cast (le_max_right _ _)]
  exact (Int.cast_strictMono.cmp_map_eq _ _).symm

theorem Decimal.sameValue_iff_value (x y : Decimal) : x.sameValue y = true ↔ x.value = y.value := by
  rw [sameValue, order_eq_cmp, beq_iff_eq, cmp_eq_eq_iff]

/-- The kinds whose values are ordered. -/
def ValueKind.ordered : List ValueKind := [.integer, .decimal, .character, .string, .boolean]

namespace Value

/-- The values of a kind are in the order of their keys, and are equal where their keys are. -/
def KeyedBy {α : Type} [LinearOrder α] (kind : ValueKind) (key : Value → α) : Prop :=
  ∀ first second : Value, first.kind = kind → second.kind = kind →
    first.order? second = some (cmp (key first) (key second)) ∧
      (first.same second = true ↔ key first = key second)

/-- The number that a decimal stands for. -/
def number : Value → ℚ
  | decimal x => x.value
  | _ => 0

/-- Decimals are ordered by the numbers they stand for, whatever their scales. -/
theorem keyedBy_number : KeyedBy .decimal number := by
  intro first second hfirst hsecond
  cases first <;> cases hfirst
  cases second <;> cases hsecond
  exact ⟨congrArg some (Decimal.order_eq_cmp _ _), Decimal.sameValue_iff_value _ _⟩

/-- The values of a kind that are made from their keys, and compared like these. -/
theorem keyedBy_of_make {α : Type} [LinearOrder α] {kind : ValueKind} {key : Value → α}
    (make : α → Value) (hmake : ∀ value : Value, value.kind = kind → make (key value) = value)
    (horder : ∀ a b, (make a).order? (make b) = some (compare a b))
    (hsame : ∀ a b, (make a).same (make b) = true ↔ a = b) : KeyedBy kind key := by
  intro first second hfirst hsecond
  rw [← hmake first hfirst, ← hmake second hsecond, horder, hsame, hmake first hfirst,
    hmake second hsecond, cmp_eq_compare]
  exact ⟨rfl, Iff.rfl⟩

def wholeNumber : Value → ℤ
  | integer n => n
  | _ => 0

def letter : Value → Char
  | character c => c
  | _ => default

def text : Value → String
  | string text => text
  | _ => ""

def truth : Value → Bool
  | boolean value => value
  | _ => false

/-- Every ordered kind has keys in a linear order. -/
theorem exists_key {kind : ValueKind} (hkind : kind ∈ ValueKind.ordered) :
    ∃ (α : Type) (_ : LinearOrder α) (key : Value → α), KeyedBy kind key := by
  simp only [ValueKind.ordered, List.mem_cons, List.not_mem_nil, or_false] at hkind
  rcases hkind with rfl | rfl | rfl | rfl | rfl
  · refine ⟨ℤ, inferInstance, wholeNumber, keyedBy_of_make integer (fun value hvalue ↦ ?_)
      (fun _ _ ↦ rfl) fun _ _ ↦ beq_iff_eq⟩
    cases value <;> cases hvalue
    rfl
  · exact ⟨ℚ, inferInstance, number, keyedBy_number⟩
  · refine ⟨Char, inferInstance, letter, keyedBy_of_make character (fun value hvalue ↦ ?_)
      (fun _ _ ↦ rfl) fun _ _ ↦ beq_iff_eq⟩
    cases value <;> cases hvalue
    rfl
  · refine ⟨String, inferInstance, text, keyedBy_of_make string (fun value hvalue ↦ ?_)
      (fun _ _ ↦ rfl) fun _ _ ↦ beq_iff_eq⟩
    cases value <;> cases hvalue
    rfl
  · refine ⟨Bool, inferInstance, truth, keyedBy_of_make boolean (fun value hvalue ↦ ?_)
      (fun _ _ ↦ rfl) fun _ _ ↦ beq_iff_eq⟩
    cases value <;> cases hvalue
    rfl

/-- Values of different kinds, or of a kind without an order, are not compared. -/
theorem order?_of_unordered {first second : Value}
    (hkind : ¬(first.kind = second.kind ∧ first.kind ∈ ValueKind.ordered)) :
    first.order? second = none := by
  have hordered : ∀ kind ∈ ValueKind.ordered, ¬(first.kind = kind ∧ second.kind = kind) := by
    rintro kind hmem ⟨rfl, hsecond⟩
    exact hkind ⟨hsecond.symm, hmem⟩
  simp only [ValueKind.ordered, List.forall_mem_cons] at hordered
  cases first <;> cases second <;> first | rfl | simp [kind] at hordered

/-- What a value stands for. -/
inductive Denotation
  | nil
  | boolean (value : Bool)
  | integer (value : ℤ)
  | decimal (value : ℚ)
  | character (value : Char)
  | string (value : String)
  | range (start stop : ℤ)
  | object (index : ℕ)

/-- Decimals stand for numbers, references for the objects that they lead to. -/
def denotation : Value → Denotation
  | nil => .nil
  | boolean value => .boolean value
  | integer n => .integer n
  | decimal x => .decimal x.value
  | character c => .character c
  | string text => .string text
  | range start stop => .range start stop
  | object ref => .object ref.index

/-- Two values are the same if they denote the same. -/
theorem same_iff {first second : Value} :
    first.same second = true ↔ first.denotation = second.denotation := by
  cases first with
  | decimal x => cases second <;> simp [same, denotation, Decimal.sameValue_iff_value]
  | _ => cases second <;> simp [same, denotation]

end Value

namespace BinaryOp

variable {op : BinaryOp} {left right : Value}

/-- The operator makes a true statement about its operands. -/
def Relates (op : BinaryOp) (left right : Value) : Prop := op.apply left right = .ok (.boolean true)

/-- A comparison gives a Boolean, or the operands are invalid. -/
theorem apply_comparison (hop : op.isComparison = true) : op.apply left right =
    (op.compare? left right).elim (.error (.invalidOperands op left.kind right.kind)) .ok := by
  have hdiv : ¬(op = .div ∧ right.isZero = true) := by
    rintro ⟨rfl, -⟩
    cases hop
  unfold apply
  rw [if_neg hdiv, arithmetic?_of_comparison hop, Option.none_or]
  cases op.compare? left right <;> rfl

theorem relates_equal : Relates .equal left right ↔ left.denotation = right.denotation := by
  rw [Relates, apply_comparison rfl, ← Value.same_iff]
  simp [compare?]

/-- The operator `==` is an equivalence on all values. -/
theorem equal_equivalence : Equivalence (Relates .equal) where
  refl _ := relates_equal.mpr rfl
  symm h := relates_equal.mpr (relates_equal.mp h).symm
  trans h h' := relates_equal.mpr ((relates_equal.mp h).trans (relates_equal.mp h'))

/-- The four orderings answer by the order of their operands. -/
theorem compare?_of_ordering (hop : op ∈ orderings) :
    op.compare? left right = (left.order? right).map fun order ↦ .boolean (op.holds order) := by
  simp only [orderings, List.mem_cons, List.not_mem_nil, or_false] at hop
  rcases hop with rfl | rfl | rfl | rfl <;> rfl

theorem isComparison_of_ordering (hop : op ∈ orderings) : op.isComparison = true := by
  simp only [orderings, List.mem_cons, List.not_mem_nil, or_false] at hop
  rcases hop with rfl | rfl | rfl | rfl <;> rfl

/-- An ordering of values that are not ordered has invalid operands. -/
theorem apply_of_unordered (hop : op ∈ orderings)
    (hkind : ¬(left.kind = right.kind ∧ left.kind ∈ ValueKind.ordered)) :
    op.apply left right = .error (.invalidOperands op left.kind right.kind) := by
  rw [apply_comparison (isComparison_of_ordering hop), compare?_of_ordering hop,
    Value.order?_of_unordered hkind]
  rfl

section

variable {α : Type} [LinearOrder α] {kind : ValueKind} {key : Value → α}
  (hkey : Value.KeyedBy kind key) (hleft : left.kind = kind) (hright : right.kind = kind)
include hkey hleft hright

/-- An ordering of values with keys is the ordering of their keys. -/
theorem apply_of_keyed (hop : op ∈ orderings) :
    op.apply left right = .ok (.boolean (op.holds (cmp (key left) (key right)))) := by
  rw [apply_comparison (isComparison_of_ordering hop), compare?_of_ordering hop,
    (hkey left right hleft hright).1]
  rfl

theorem relates_less : Relates .less left right ↔ key left < key right := by
  rw [Relates, apply_of_keyed hkey hleft hright (by decide)]
  simp [holds, ← cmp_eq_lt_iff]

theorem relates_lessEqual : Relates .lessEqual left right ↔ key left ≤ key right := by
  rw [Relates, apply_of_keyed hkey hleft hright (by decide), ← not_lt, ← cmp_eq_gt_iff]
  simp [holds, Ordering.isLE_iff_ne_gt]

theorem relates_greater : Relates .greater left right ↔ key right < key left := by
  rw [Relates, apply_of_keyed hkey hleft hright (by decide)]
  simp [holds, ← cmp_eq_gt_iff]

theorem relates_greaterEqual : Relates .greaterEqual left right ↔ key right ≤ key left := by
  rw [Relates, apply_of_keyed hkey hleft hright (by decide), ← not_lt, ← cmp_eq_lt_iff]
  simp [holds, Ordering.isGE_iff_ne_lt]

theorem relates_equal_of_keyed : Relates .equal left right ↔ key left = key right := by
  rw [relates_equal, ← Value.same_iff, (hkey left right hleft hright).2]

end

/-- Equality and order of the values of a kind go together. -/
structure Agree (kind : ValueKind) : Prop where
  decided : ∀ {a b : Value}, a.kind = kind → b.kind = kind → ∀ op ∈ orderings,
    ∃ truth, op.apply a b = .ok (.boolean truth)
  exactlyOne : ∀ {a b : Value}, a.kind = kind → b.kind = kind →
    Relates .less a b ∧ ¬Relates .equal a b ∧ ¬Relates .greater a b ∨
      ¬Relates .less a b ∧ Relates .equal a b ∧ ¬Relates .greater a b ∨
      ¬Relates .less a b ∧ ¬Relates .equal a b ∧ Relates .greater a b
  lessEqual_iff : ∀ {a b : Value}, a.kind = kind → b.kind = kind →
    (Relates .lessEqual a b ↔ Relates .less a b ∨ Relates .equal a b)
  greaterEqual_iff : ∀ {a b : Value}, a.kind = kind → b.kind = kind →
    (Relates .greaterEqual a b ↔ Relates .lessEqual b a)
  less_trans : ∀ {a b c : Value}, a.kind = kind → b.kind = kind → c.kind = kind →
    Relates .less a b → Relates .less b c → Relates .less a c

/-- The comparisons of a kind with keys agree with each other. -/
theorem agree_of_keyed {α : Type} [LinearOrder α] {kind : ValueKind} {key : Value → α}
    (hkey : Value.KeyedBy kind key) : Agree kind where
  decided ha hb op hop := ⟨_, apply_of_keyed hkey ha hb hop⟩
  exactlyOne {a b} ha hb := by
    rw [relates_less hkey ha hb, relates_equal_of_keyed hkey ha hb, relates_greater hkey ha hb]
    obtain hlt | heq | hgt := lt_trichotomy (key a) (key b)
    · exact .inl ⟨hlt, hlt.ne, hlt.not_gt⟩
    · exact .inr (.inl ⟨heq.not_lt, heq, heq.not_gt⟩)
    · exact .inr (.inr ⟨hgt.not_gt, hgt.ne', hgt⟩)
  lessEqual_iff ha hb := by
    rw [relates_lessEqual hkey ha hb, relates_less hkey ha hb, relates_equal_of_keyed hkey ha hb]
    exact le_iff_lt_or_eq
  greaterEqual_iff ha hb := by
    rw [relates_greaterEqual hkey ha hb, relates_lessEqual hkey hb ha]
  less_trans ha hb hc := by
    rw [relates_less hkey ha hb, relates_less hkey hb hc, relates_less hkey ha hc]
    exact lt_trans

/-- Any two values are equal or not; values of one ordered kind are in a total order that goes with
equality, decimals in that of the numbers they stand for; all others have no order. -/
theorem comparisons_agree :
    Equivalence (Relates .equal) ∧
    (∀ a b, ∃ truth, apply .equal a b = .ok (.boolean truth) ∧
      apply .notEqual a b = .ok (.boolean !truth)) ∧
    (∀ kind ∈ ValueKind.ordered, Agree kind) ∧
    (∀ x y : Decimal, (Relates .equal (.decimal x) (.decimal y) ↔ x.value = y.value) ∧
      (Relates .less (.decimal x) (.decimal y) ↔ x.value < y.value)) ∧
    ∀ op ∈ orderings, ∀ a b : Value, ¬(a.kind = b.kind ∧ a.kind ∈ ValueKind.ordered) →
      op.apply a b = .error (.invalidOperands op a.kind b.kind) := by
  refine ⟨equal_equivalence, fun a b ↦ ⟨a.same b, apply_comparison rfl, apply_comparison rfl⟩,
    fun kind hkind ↦ ?_, fun x y ↦ ⟨?_, ?_⟩, fun op hop a b ↦ apply_of_unordered hop⟩
  · obtain ⟨α, _, key, hkey⟩ := Value.exists_key hkind
    exact agree_of_keyed hkey
  · exact relates_equal_of_keyed Value.keyedBy_number rfl rfl
  · exact relates_less Value.keyedBy_number rfl rfl

/-- Decimals of different scales, one of them negative, and a pair without an order. -/
theorem comparisons_agree_scales :
    Relates .equal (.decimal ⟨15, -1⟩) (.decimal ⟨15000, 2⟩) ∧
    Relates .less (.decimal ⟨149, 0⟩) (.decimal ⟨15, -1⟩) ∧
    Relates .lessEqual (.string "a") (.string "ab") ∧
    apply .less (.integer 1) (.decimal ⟨2, 0⟩) =
      .error (.invalidOperands .less .integer .decimal) := by
  obtain ⟨-, -, hagree, hdecimals, hothers⟩ := comparisons_agree
  have hstrings : Agree .string := hagree .string (by decide)
  refine ⟨(hdecimals _ _).1.mpr ?_, (hdecimals _ _).2.mpr ?_, ?_,
    hothers .less (by decide) _ _ (by decide)⟩
  · norm_num [Decimal.value]
  · norm_num [Decimal.value]
  · exact (hstrings.lessEqual_iff rfl rfl).mpr (.inl (by rw [Relates]; decide +kernel))

end BinaryOp

end ScriptLang
