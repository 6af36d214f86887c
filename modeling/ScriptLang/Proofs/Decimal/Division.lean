import Mathlib.Algebra.Order.Field.Power
import Mathlib.Tactic.Ring
import ScriptLang.Proofs.Decimal.Value
import ScriptLang.Value.Operation

/-!
What division of decimals computes. A quotient is rounded twice: first it is developed to a hundred
digits, where a half goes away from zero, and the digits are then brought to the scale of the
dividend, where a half goes to the even neighbour. Two roundings are not always one: the result is
the exact quotient rounded once unless the hundred digits end before the places of the dividend do,
or fall on a tie that the quotient itself misses.
-/

set_option autoImplicit false
set_option relaxedAutoImplicit false

namespace ScriptLang.Decimal

/-! ### Digits of a quotient -/

theorem lt_pow_digitCount (n : Nat) : n < 10 ^ digitCount n :=
  (Nat.length_toDigits_le_iff (by decide) Nat.length_toDigits_pos).mp (Nat.le_refl _)

/-- A number is at least the power of ten with one place less than it has digits. -/
theorem pow_digitCount_le {n : Nat} (hn : 0 < n) : 10 ^ (digitCount n - 1) ≤ n := by
  obtain hone | hmore := Nat.eq_zero_or_pos (digitCount n - 1)
  · rw [hone, pow_zero]
    exact hn
  · rw [← not_lt, ← Nat.length_toDigits_le_iff (by decide) hmore]
    change ¬digitCount n ≤ _
    omega

/-- Raising appends zeros, as many as it counts. -/
theorem raise_fst (denominator limit numerator : Nat) :
    (raise denominator limit numerator).1 =
      numerator * 10 ^ (raise denominator limit numerator).2 := by
  induction limit generalizing numerator with
  | zero => simp [raise]
  | succ limit ih =>
    unfold raise
    split
    · rw [ih]
      ring
    · simp

/-- Raising goes on until the denominator is reached, if the limit allows it. -/
theorem le_raise {denominator limit numerator : Nat} (h : denominator ≤ numerator * 10 ^ limit) :
    denominator ≤ (raise denominator limit numerator).1 := by
  induction limit generalizing numerator with
  | zero => simpa [raise] using h
  | succ limit ih =>
    unfold raise
    split
    · refine ih (h.trans_eq ?_)
      ring
    · exact not_lt.mp ‹_›

/-- The digits that were developed and the remainder make up the quotient with its places. -/
structure Expansion.Of (numerator denominator : Nat) (expansion : Expansion) : Prop where
  total : 10 * denominator * expansion.digits + expansion.remainder =
    10 * numerator * 10 ^ expansion.places
  below : expansion.remainder < 10 * denominator

namespace Expansion.Of

variable {numerator denominator : Nat} {expansion : Expansion}

/-- One digit more keeps the digits and the remainder together what the quotient is. -/
theorem step (h : expansion.Of numerator denominator) (hpositive : 0 < denominator) :
    Expansion.Of numerator denominator
      ⟨10 * expansion.digits + expansion.remainder / denominator,
        10 * (expansion.remainder % denominator), expansion.places + 1⟩ := by
  have hsplit := Nat.div_add_mod expansion.remainder denominator
  refine ⟨?_, Nat.mul_lt_mul_of_pos_left (Nat.mod_lt _ hpositive) (by decide)⟩
  calc 10 * denominator * (10 * expansion.digits + expansion.remainder / denominator) +
        10 * (expansion.remainder % denominator)
      = 10 * (10 * denominator * expansion.digits +
          (denominator * (expansion.remainder / denominator) +
            expansion.remainder % denominator)) := by ring
    _ = 10 * (10 * numerator * 10 ^ expansion.places) := by rw [hsplit, h.total]
    _ = 10 * numerator * 10 ^ (expansion.places + 1) := by ring

/-- Any number of digits more keeps the digits and the remainder together what the quotient is. The
induction is on the limit. -/
theorem develop (h : expansion.Of numerator denominator) (hpositive : 0 < denominator)
    (limit : Nat) : (Expansion.develop denominator limit expansion).Of numerator denominator := by
  induction limit generalizing expansion with
  | zero => exact h
  | succ limit ih =>
    unfold Expansion.develop
    split
    · exact h
    · exact ih (h.step hpositive)

end Expansion.Of

/-- The development ends at the exact quotient, or with `limit` digits more. -/
theorem Expansion.develop_digits (denominator limit : Nat) (expansion : Expansion) :
    (Expansion.develop denominator limit expansion).remainder = 0 ∨
      10 ^ limit * expansion.digits ≤ (Expansion.develop denominator limit expansion).digits := by
  induction limit generalizing expansion with
  | zero => exact .inr (by simp [develop])
  | succ limit ih =>
    unfold develop
    split
    · exact .inl ‹_›
    · refine (ih _).imp_right fun hdigits ↦ le_trans ?_ hdigits
      rw [pow_succ, mul_assoc]
      exact Nat.mul_le_mul_left _ (Nat.le_add_right _ _)

/-- What the first rounding makes of a quotient: the nearest number with the places of `first`, a
half away from zero, which is the quotient itself or has a hundred digits. -/
structure Developed (number : ℚ) (first : Decimal) : Prop where
  near : |number * 10 ^ first.scale - first.coefficient| ≤ 1 / 2
  away : |number * 10 ^ first.scale - first.coefficient| = 1 / 2 →
    |number| * 10 ^ first.scale < |(first.coefficient : ℚ)|
  digits : first.value = number ∨ 10 ^ (quotientDigits - 1) ≤ first.coefficient.natAbs

/-- An exact quotient is developed as it is. -/
theorem Developed.of_value {number : ℚ} {first : Decimal} (h : first.value = number) :
    Developed number first := by
  have hzero : number * 10 ^ first.scale - first.coefficient = 0 := by
    rw [← h, value_mul_self, sub_self]
  refine ⟨?_, fun htie ↦ ?_, .inl h⟩
  · rw [hzero, abs_zero]
    norm_num
  · rw [hzero, abs_zero] at htie
    norm_num at htie

/-- The development of a quotient from its integer part on. -/
def expansionOf (numerator denominator : Nat) : Expansion :=
  let raised := raise denominator (digitCount denominator) numerator
  Expansion.develop denominator (quotientDigits - digitCount (raised.1 / denominator))
    ⟨raised.1 / denominator, 10 * (raised.1 % denominator), raised.2⟩

/-- The ratio is the development of the quotient, with its last digit rounded by the remainder. -/
theorem ratio_eq (numerator denominator : Nat) :
    ratio numerator denominator =
      let expansion := expansionOf numerator denominator
      (expansion.digits + if 5 * denominator ≤ expansion.remainder then 1 else 0,
        expansion.places) := rfl

/-- The development of a quotient is one of this quotient. -/
theorem expansionOf_of (numerator : Nat) {denominator : Nat} (hdenominator : 0 < denominator) :
    (expansionOf numerator denominator).Of numerator denominator := by
  refine Expansion.Of.develop ⟨?_, ?_⟩ hdenominator _
  · have hraised := raise_fst denominator (digitCount denominator) numerator
    have hsplit :=
      Nat.div_add_mod (raise denominator (digitCount denominator) numerator).1 denominator
    dsimp only
    rw [mul_assoc 10 denominator, ← mul_add, hsplit, mul_assoc 10 numerator, ← hraised]
  · exact Nat.mul_lt_mul_of_pos_left (Nat.mod_lt _ hdenominator) (by decide)

/-- The development ends without a remainder, or with a hundred digits. -/
theorem expansionOf_digits {numerator denominator : Nat} (hnumerator : 0 < numerator)
    (hdenominator : 0 < denominator) :
    (expansionOf numerator denominator).remainder = 0 ∨
      10 ^ (quotientDigits - 1) ≤ (expansionOf numerator denominator).digits := by
  refine (Expansion.develop_digits _ _ _).imp_right fun hdigits ↦ le_trans ?_ hdigits
  have hreach : denominator ≤ numerator * 10 ^ digitCount denominator :=
    (lt_pow_digitCount denominator).le.trans (Nat.le_mul_of_pos_left _ hnumerator)
  have hfirst : 0 < (raise denominator (digitCount denominator) numerator).1 / denominator :=
    Nat.div_pos (le_raise hreach) hdenominator
  refine le_trans ?_ (Nat.mul_le_mul_left _ (pow_digitCount_le hfirst))
  dsimp only
  rw [← pow_add]
  exact Nat.pow_le_pow_right (by decide) (by omega)

/-- The ratio of two positive numbers is developed: rounded at its last digit, half away from
zero. -/
theorem ratio_developed {numerator denominator : Nat} (hnumerator : 0 < numerator)
    (hdenominator : 0 < denominator) :
    Developed ((numerator : ℚ) / denominator)
      ⟨(ratio numerator denominator).1, (ratio numerator denominator).2⟩ := by
  have hof := expansionOf_of numerator hdenominator
  have hdigits := expansionOf_digits hnumerator hdenominator
  rw [ratio_eq]
  generalize expansionOf numerator denominator = expansion at hof hdigits
  obtain ⟨digits, remainder, places⟩ := expansion
  dsimp only at hof hdigits ⊢
  have hpositive : (0 : ℚ) < denominator := by exact_mod_cast hdenominator
  -- The part of the quotient that the digits leave out, in units of the last digit.
  let part : ℚ := remainder / (10 * denominator)
  have htotal : (numerator : ℚ) / denominator * 10 ^ (places : ℤ) = digits + part := by
    have h : (10 * denominator * digits + remainder : ℚ) = 10 * numerator * 10 ^ places := by
      exact_mod_cast hof.total
    rw [zpow_natCast]
    simp only [part]
    field_simp
    linarith
  have hnonneg : 0 ≤ part := by positivity
  have hsmall : part < 1 := by
    rw [div_lt_one (by positivity)]
    exact_mod_cast hof.below
  by_cases hcarry : 5 * denominator ≤ remainder
  · have hhalf : 1 / 2 ≤ part := by
      have h : (5 * denominator : ℚ) ≤ remainder := by exact_mod_cast hcarry
      rw [div_le_div_iff₀ two_pos (by positivity)]
      linarith
    rw [if_pos hcarry]
    refine ⟨?_, fun _ ↦ ?_, ?_⟩
    · dsimp only
      rw [htotal, Int.cast_natCast, Nat.cast_add, Nat.cast_one, add_sub_add_left_eq_sub, abs_le]
      constructor <;> linarith
    · dsimp only
      rw [abs_of_nonneg (by positivity), htotal, Int.cast_natCast, Nat.abs_cast, Nat.cast_add,
        Nat.cast_one]
      linarith
    · refine .inr ((hdigits.resolve_left ?_).trans (Nat.le_add_right _ _))
      omega
  · have hhalf : part < 1 / 2 := by
      have h : (remainder : ℚ) < 5 * denominator := by exact_mod_cast not_le.mp hcarry
      rw [div_lt_div_iff₀ (by positivity) two_pos]
      linarith
    rw [if_neg hcarry, add_zero]
    have herror :
        |(numerator : ℚ) / denominator * 10 ^ (places : ℤ) - ((digits : ℤ) : ℚ)| = part := by
      rw [htotal, Int.cast_natCast, add_sub_cancel_left, abs_of_nonneg hnonneg]
    refine ⟨herror.trans_le hhalf.le, fun htie ↦ absurd (herror.symm.trans htie) hhalf.ne, ?_⟩
    refine hdigits.imp_left fun hzero ↦ ?_
    have hexact : part = 0 := by simp [part, hzero]
    rw [hexact, add_zero] at htotal
    have hpower : (10 : ℚ) ^ (places : ℤ) ≠ 0 := by positivity
    rw [value, zpow_neg, Int.cast_natCast, ← htotal]
    exact mul_inv_cancel_right₀ hpower _

/-- Signs and scales do not matter to the first rounding. -/
theorem Developed.scaled {number : ℚ} {first : Decimal} (h : Developed number first) {sign : Int}
    (hsign : |sign| = 1) (scale : Int) :
    Developed (sign * number * 10 ^ (-scale)) ⟨sign * first.coefficient, scale + first.scale⟩ := by
  have hten : (10 : ℚ) ≠ 0 := by norm_num
  have hsign' : |(sign : ℚ)| = 1 := by exact_mod_cast hsign
  have hshift (number : ℚ) : number * 10 ^ (-scale) * 10 ^ (scale + first.scale) =
      number * 10 ^ first.scale := by
    rw [mul_assoc, ← zpow_add₀ hten, neg_add_cancel_left]
  have herror : |sign * number * 10 ^ (-scale) * 10 ^ (scale + first.scale) -
      ((sign * first.coefficient : ℤ) : ℚ)| = |number * 10 ^ first.scale - first.coefficient| := by
    rw [hshift, Int.cast_mul, mul_assoc, ← mul_sub, abs_mul, hsign', one_mul]
  refine ⟨herror ▸ h.near, fun htie ↦ ?_, ?_⟩
  · have haway := h.away (herror ▸ htie)
    have hpower : |(10 : ℚ) ^ (-scale)| = 10 ^ (-scale) := abs_of_pos (by positivity)
    rw [Int.cast_mul, abs_mul, abs_mul, abs_mul, hsign', one_mul, one_mul, hpower, hshift]
    exact haway
  · refine h.digits.imp (fun hvalue ↦ ?_) fun hdigits ↦ ?_
    · rw [← hvalue, value, value, Int.cast_mul, neg_add, zpow_add₀ hten]
      ring
    · have hunit : sign.natAbs = 1 := by
        have := Int.natCast_natAbs sign
        omega
      rwa [Int.natAbs_mul, hunit, one_mul]

/-- A quotient of integers is that of their absolute values with the product of their signs. -/
theorem div_eq_sign_mul (n : Int) {m : Int} (hm : m ≠ 0) :
    (n : ℚ) / m = (n.sign * m.sign : ℤ) * ((n.natAbs : ℚ) / m.natAbs) := by
  have hsplit (k : Int) : (k : ℚ) = k.sign * k.natAbs := by
    have h : ((k.sign * k.natAbs : ℤ) : ℚ) = k := congrArg Int.cast (Int.sign_mul_natAbs k)
    rwa [Int.cast_mul, Int.cast_natCast, eq_comm] at h
  have hsign : (m.sign : ℚ) ≠ 0 := by exact_mod_cast mt Int.sign_eq_zero_iff_zero.mp hm
  have hsquare : (m.sign : ℚ) * m.sign = 1 := by
    have h : m.sign * m.sign = 1 := by
      rw [← Int.sign_mul]
      exact Int.sign_eq_one_of_pos (mul_self_pos.mpr hm)
    exact_mod_cast h
  calc (n : ℚ) / m = n.sign * n.natAbs / (m.sign * m.natAbs) := by rw [← hsplit, ← hsplit]
    _ = n.sign / m.sign * (n.natAbs / m.natAbs) := mul_div_mul_comm _ _ _ _
    _ = (n.sign * m.sign : ℤ) * ((n.natAbs : ℚ) / m.natAbs) := by
      rw [(div_eq_iff hsign).mpr (by rw [mul_assoc, hsquare, mul_one]), Int.cast_mul]

/-- The first rounding of a quotient. -/
theorem quotient_developed {x y : Decimal} (hy : y.isZero = false) :
    Developed (x.value / y.value) (quotient x y) := by
  unfold quotient
  split
  next hplain =>
    refine .of_value ?_
    obtain hzero | hunit := Bool.or_eq_true_iff.mp hplain
    · rw [value_of_isZero hzero, zero_div]
    · rw [value_of_isUnit hunit, div_one]
  next hproper =>
    have hx : x.coefficient ≠ 0 :=
      isZero_eq_false.mp (Bool.eq_false_iff.mpr fun h ↦ hproper (by simp [h]))
    have hy : y.coefficient ≠ 0 := isZero_eq_false.mp hy
    have hratio := ratio_developed (Int.natAbs_pos.mpr hx) (Int.natAbs_pos.mpr hy)
    have hsign : |x.coefficient.sign * y.coefficient.sign| = 1 := by
      rw [abs_mul, Int.abs_sign_of_ne_zero hx, Int.abs_sign_of_ne_zero hy, one_mul]
    have hexact : x.value / y.value = (x.coefficient.sign * y.coefficient.sign : ℤ) *
        ((x.coefficient.natAbs : ℚ) / y.coefficient.natAbs) * 10 ^ (-(x.scale - y.scale)) := by
      have hscale : -(x.scale - y.scale) = -x.scale - -y.scale := by ring
      rw [← div_eq_sign_mul _ hy, hscale, zpow_sub₀ (by norm_num), value, value, mul_div_mul_comm]
    rw [hexact]
    exact hratio.scaled hsign (x.scale - y.scale)

/-! ### Two roundings -/

/-- A number in the middle between two integers. -/
def Halfway (number : ℚ) : Prop := ∃ n : ℤ, number = n + 1 / 2

/-- A number is in the middle between two integers if the nearest one is a half away. -/
theorem NearestEven.halfway_iff {number : ℚ} {n : ℤ} (h : NearestEven number n) :
    Halfway number ↔ |number - n| = 1 / 2 := by
  constructor
  · rintro ⟨m, rfl⟩
    have hnear := abs_le.mp h.near
    have hlow : m < n + 1 := by
      have : (m : ℚ) < n + 1 := by linarith
      exact_mod_cast this
    have hhigh : n - 2 < m := by
      have : (n : ℚ) - 2 < m := by linarith
      exact_mod_cast this
    obtain hsame | hbelow : m = n ∨ m = n - 1 := by omega
    · rw [hsame, add_sub_cancel_left]
      norm_num
    · rw [hbelow, Int.cast_sub, Int.cast_one, show (n : ℚ) - 1 + 1 / 2 - n = -(1 / 2) by ring,
        abs_neg]
      norm_num
  · intro htie
    obtain habove | hbelow := eq_or_eq_neg_of_abs_eq htie
    · exact ⟨n, by linarith⟩
    · exact ⟨n - 1, by push_cast; linarith⟩

section

variable {number : ℚ} {digits n : ℤ} {unit : ℕ}

/-- An error in units of an even power is an error of the scaled number. -/
theorem error_scaled (hunit : 0 < unit) (n : ℤ) :
    |number / (2 * unit) - n| = |number - n * (2 * unit)| / (2 * unit) := by
  have hpositive : (0 : ℚ) < 2 * unit := by positivity
  rw [div_sub' hpositive.ne', abs_div, abs_of_pos hpositive, mul_comm (n : ℚ)]

/-- A scaled number is nearest to an integer that it is less than a half away from. -/
theorem NearestEven.of_scaled_lt (hunit : 0 < unit) (h : |number - n * (2 * unit)| < unit) :
    NearestEven (number / (2 * unit)) n := by
  refine .of_lt ?_
  rw [error_scaled hunit, div_lt_div_iff₀ (by positivity) two_pos]
  linarith

/-- Take a number and the integer `digits` that is nearest to it. If `digits` is no tie, counted in
a larger unit, then both go to the same multiple of that unit. -/
theorem NearestEven.of_clear (hunit : 0 < unit) (hnear : |number - digits| ≤ 1 / 2)
    (h : NearestEven (digits / (2 * unit)) n) (hclear : ¬Halfway (digits / (2 * unit))) :
    NearestEven (number / (2 * unit)) n := by
  have hlt := lt_of_le_of_ne h.near (mt h.halfway_iff.mpr hclear)
  rw [error_scaled hunit, div_lt_div_iff₀ (by positivity) two_pos] at hlt
  have hwhole : |digits - n * (2 * unit)| + 1 ≤ (unit : ℤ) := by
    have : |(digits : ℚ) - n * (2 * unit)| < unit := by linarith
    exact_mod_cast this
  have hclose : |(digits : ℚ) - n * (2 * unit)| + 1 ≤ unit := by exact_mod_cast hwhole
  refine .of_scaled_lt hunit ?_
  calc |number - n * (2 * unit)| ≤ |number - digits| + |(digits : ℚ) - n * (2 * unit)| :=
        abs_sub_le _ _ _
    _ < unit := by linarith

/-- At a tie, the even neighbour is the right one if it is on the side of the number itself. -/
theorem NearestEven.of_halfway (hunit : 0 < unit) (hnear : |number - digits| ≤ 1 / 2)
    (h : NearestEven (digits / (2 * unit)) n) (htie : Halfway (digits / (2 * unit)))
    (hne : number ≠ digits) :
    NearestEven (number / (2 * unit)) n ↔ (digits < number ↔ digits < (n * (2 * unit) : ℚ)) := by
  have hone : (1 : ℚ) ≤ unit := by exact_mod_cast hunit
  have hpositive : (0 : ℚ) < 2 * unit := by positivity
  have herror := h.halfway_iff.mp htie
  rw [error_scaled hunit, div_eq_div_iff hpositive.ne' two_ne_zero] at herror
  have hnear := abs_le.mp hnear
  have hwithin : NearestEven (number / (2 * unit)) n → |number - n * (2 * unit)| ≤ unit := by
    intro hnearest
    have := hnearest.near
    rw [error_scaled hunit, div_le_div_iff₀ hpositive two_pos] at this
    linarith
  obtain habove | hbelow := eq_or_eq_neg_of_abs_eq
    (show |(digits : ℚ) - n * (2 * unit)| = unit by linarith)
  · have hside : ¬(digits : ℚ) < n * (2 * unit) := by linarith
    rw [iff_false_right hside, not_lt]
    refine ⟨fun hnearest ↦ ?_, fun hle ↦ .of_scaled_lt hunit ?_⟩
    · have := (abs_le.mp (hwithin hnearest)).2
      linarith
    · have hlt := lt_of_le_of_ne hle hne
      rw [abs_lt]
      constructor <;> linarith
  · have hside : (digits : ℚ) < n * (2 * unit) := by linarith
    rw [iff_true_right hside]
    refine ⟨fun hnearest ↦ ?_, fun hlt ↦ .of_scaled_lt hunit ?_⟩
    · have := (abs_le.mp (hwithin hnearest)).1
      exact lt_of_le_of_ne (by linarith) (Ne.symm hne)
    · rw [abs_lt]
      constructor <;> linarith

end

/-- The decimal of a scale that is nearest to a number, a half going to the even neighbour. -/
structure CorrectlyRounded (number : ℚ) (scale : Int) (result : Decimal) : Prop where
  scale_eq : result.scale = scale
  nearest : NearestEven (number * 10 ^ scale) result.coefficient

/-- Why the first rounding of a quotient, to `first`, does no harm to the second one, to
`result`. -/
inductive Harmless (number : ℚ) (scale : Int) (first result : Decimal) : Prop
  | unrounded (h : first.value = number)
  | clear (hplaces : scale < first.scale) (h : ¬Halfway (first.value * 10 ^ scale))
  | sameSide (hplaces : scale < first.scale) (h : first.value < number ↔ first.value < result.value)
  | padded (hplaces : first.scale ≤ scale)
    (h : NearestEven (number * 10 ^ scale) (first.unitsAt scale))

/-- A power of ten with at least one place is even. -/
theorem exists_even_power {places : Int} (hplaces : 0 < places) :
    ∃ unit : ℕ, 0 < unit ∧ (10 : ℚ) ^ places = 2 * unit := by
  obtain ⟨fewer, hfewer⟩ := Int.eq_ofNat_of_zero_le (Int.le_sub_one_of_lt hplaces)
  refine ⟨5 * 10 ^ fewer, by positivity, ?_⟩
  rw [show places = ((fewer + 1 : ℕ) : ℤ) by omega, zpow_natCast, pow_succ]
  push_cast
  ring

/-- With fewer places a number is the number with more, divided by the power of ten between them. -/
theorem mul_zpow_fewer (number : ℚ) {fewer more : Int} {step : ℚ}
    (hpower : (10 : ℚ) ^ (more - fewer) = step) :
    number * 10 ^ fewer = number * 10 ^ more / step := by
  rw [← hpower, zpow_sub₀ (by norm_num)]
  field_simp

section

variable {number : ℚ} {first : Decimal} (h : Developed number first) {scale : Int}
  (hfewer : scale < first.scale)
include h hfewer

/-- Without a tie, the second rounding is that of the number. -/
theorem Developed.withScale_of_clear (hclear : ¬Halfway (first.value * 10 ^ scale)) :
    NearestEven (number * 10 ^ scale) (first.withScale scale).coefficient := by
  obtain ⟨unit, hunit, hpower⟩ := exists_even_power (sub_pos.mpr hfewer)
  have hsecond := first.withScale_nearest scale
  rw [mul_zpow_fewer first.value hpower, value_mul_self] at hsecond hclear
  rw [mul_zpow_fewer number hpower]
  exact hsecond.of_clear hunit h.near hclear

/-- A tie that is not the number's has to fall to the side where the number is. -/
theorem Developed.withScale_of_halfway (hne : first.value ≠ number)
    (htie : Halfway (first.value * 10 ^ scale)) :
    NearestEven (number * 10 ^ scale) (first.withScale scale).coefficient ↔
      (first.value < number ↔ first.value < (first.withScale scale).value) := by
  obtain ⟨unit, hunit, hpower⟩ := exists_even_power (sub_pos.mpr hfewer)
  have hsecond := first.withScale_nearest scale
  rw [mul_zpow_fewer first.value hpower, value_mul_self] at hsecond htie
  have hless {number other : ℚ} :
      number < other ↔ number * 10 ^ first.scale < other * 10 ^ first.scale :=
    (mul_lt_mul_iff_left₀ (by positivity)).symm
  have hresult : (first.withScale scale).value * 10 ^ first.scale =
      (first.withScale scale).coefficient * (2 * unit) := by
    rw [value_mul, first.withScale_scale, hpower]
  rw [mul_zpow_fewer number hpower, hless, @hless first.value, value_mul_self, hresult]
  refine hsecond.of_halfway hunit h.near htie fun heq ↦ hne ?_
  have hpositive : (10 : ℚ) ^ first.scale ≠ 0 := by positivity
  rw [← value_mul_self] at heq
  exact (mul_right_cancel₀ hpositive heq).symm

end

/-- Two roundings come to the same as one if and only if the first of them does no harm. -/
theorem Developed.withScale_iff {number : ℚ} {first : Decimal} (h : Developed number first)
    (scale : Int) :
    CorrectlyRounded number scale (first.withScale scale) ↔
      Harmless number scale first (first.withScale scale) := by
  have hscale := first.withScale_scale scale
  have hunrounded (hvalue : first.value = number) :
      CorrectlyRounded number scale (first.withScale scale) :=
    ⟨hscale, hvalue ▸ first.withScale_nearest scale⟩
  -- With enough places the second rounding only pads, else it rounds what the first one left.
  by_cases hplaces : first.scale ≤ scale
  · have hpadded : (first.withScale scale).coefficient = first.unitsAt scale := by
      unfold withScale
      rw [if_pos hplaces]
    refine ⟨fun hcorrect ↦ .padded hplaces (hpadded ▸ hcorrect.nearest), fun hharmless ↦ ?_⟩
    cases hharmless with
    | unrounded hvalue => exact hunrounded hvalue
    | clear hfewer => exact absurd hfewer (not_lt.mpr hplaces)
    | sameSide hfewer => exact absurd hfewer (not_lt.mpr hplaces)
    | padded _ hnearest => exact ⟨hscale, hpadded ▸ hnearest⟩
  · have hfewer := not_le.mp hplaces
    have hclear := h.withScale_of_clear hfewer
    have hside := h.withScale_of_halfway hfewer
    constructor
    · intro hcorrect
      by_cases hvalue : first.value = number
      · exact .unrounded hvalue
      · by_cases htie : Halfway (first.value * 10 ^ scale)
        · exact .sameSide hfewer ((hside hvalue htie).mp hcorrect.nearest)
        · exact .clear hfewer htie
    · intro hharmless
      cases hharmless with
      | unrounded hvalue => exact hunrounded hvalue
      | clear _ hnotie => exact ⟨hscale, hclear hnotie⟩
      | sameSide _ hsame =>
        by_cases hvalue : first.value = number
        · exact hunrounded hvalue
        · by_cases htie : Halfway (first.value * 10 ^ scale)
          · exact ⟨hscale, (hside hvalue htie).mpr hsame⟩
          · exact ⟨hscale, hclear htie⟩
      | padded hle => exact absurd hle hplaces

/-- The operator `/` divides decimals if the divisor is not zero. -/
theorem apply_div (x : Decimal) {y : Decimal} (hy : y.isZero = false) :
    BinaryOp.apply .div (.decimal x) (.decimal y) = .ok (.decimal (x.div y)) := by
  unfold BinaryOp.apply
  rw [if_neg fun h ↦ Bool.false_ne_true (hy.symm.trans h.2)]
  rfl

/-- Division rounds a quotient twice, first to a hundred digits and then to the scale of the
dividend. It gives the exact quotient correctly rounded if and only if the first rounding does no
harm. -/
theorem div_correctlyRounded_iff {x y : Decimal} (hy : y.isZero = false) :
    BinaryOp.apply .div (.decimal x) (.decimal y) = .ok (.decimal (x.div y)) ∧
    Developed (x.value / y.value) (quotient x y) ∧
    CorrectlyRounded (quotient x y).value x.scale (x.div y) ∧
    (CorrectlyRounded (x.value / y.value) x.scale (x.div y) ↔
      Harmless (x.value / y.value) x.scale (quotient x y) (x.div y)) := by
  have hfirst := quotient_developed (x := x) hy
  exact ⟨apply_div x hy, hfirst, ⟨withScale_scale _ _, withScale_nearest _ _⟩,
    hfirst.withScale_iff x.scale⟩

/-- One divided by four, with one place, is 0.2 by either rounding. -/
theorem div_correctlyRounded_iff_quarter :
    isZero ⟨4, 0⟩ = false ∧
    BinaryOp.apply .div (.decimal ⟨10, 1⟩) (.decimal ⟨4, 0⟩) = .ok (.decimal ⟨2, 1⟩) ∧
    CorrectlyRounded (1 / 4) 1 ⟨2, 1⟩ := by
  have hy : isZero ⟨4, 0⟩ = false := rfl
  have hdiv : Decimal.div ⟨10, 1⟩ ⟨4, 0⟩ = ⟨2, 1⟩ := by decide +kernel
  have hfirst : quotient ⟨10, 1⟩ ⟨4, 0⟩ = ⟨25, 2⟩ := by decide +kernel
  have hexact : value ⟨10, 1⟩ / value ⟨4, 0⟩ = 1 / 4 := by norm_num [value]
  obtain ⟨happly, -, -, hiff⟩ := div_correctlyRounded_iff (x := ⟨10, 1⟩) hy
  rw [hdiv] at happly
  rw [hdiv, hfirst, hexact] at hiff
  exact ⟨hy, happly, hiff.mpr (.unrounded (by norm_num [value]))⟩

/-- Two less one unit in the last of a hundred and two places. -/
def almostTwo : Decimal := ⟨2 * 10 ^ 102 - 1, 102⟩

/-- A half divided by slightly less than two is more than a quarter, and should round up; but a
hundred digits of the quotient are those of a quarter, which goes to the even neighbour below. -/
theorem div_misses_tie :
    BinaryOp.apply .div (.decimal ⟨5, 1⟩) (.decimal almostTwo) = .ok (.decimal ⟨2, 1⟩) ∧
    CorrectlyRounded (value ⟨5, 1⟩ / almostTwo.value) 1 ⟨3, 1⟩ ∧
    ¬CorrectlyRounded (value ⟨5, 1⟩ / almostTwo.value) 1 ⟨2, 1⟩ := by
  have hdiv : Decimal.div ⟨5, 1⟩ almostTwo = ⟨2, 1⟩ := by decide +kernel
  have hright : CorrectlyRounded (value ⟨5, 1⟩ / almostTwo.value) 1 ⟨3, 1⟩ := by
    refine ⟨rfl, .of_lt ?_⟩
    rw [abs_lt]
    constructor <;> norm_num [value, almostTwo]
  refine ⟨hdiv ▸ apply_div ⟨5, 1⟩ (by decide +kernel), hright, fun hwrong ↦ ?_⟩
  have hsame : (2 : Int) = 3 := hwrong.nearest.unique hright.nearest
  omega

end ScriptLang.Decimal
