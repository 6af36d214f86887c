import Mathlib.Algebra.Order.Field.Rat
import Mathlib.Algebra.Order.Group.Unbundled.Abs
import Mathlib.Algebra.Ring.Int.Parity
import Mathlib.Data.Rat.Cast.Order
import Mathlib.Tactic.FieldSimp
import Mathlib.Tactic.LinearCombination
import Mathlib.Tactic.Linarith
import Mathlib.Tactic.Positivity
import ScriptLang.Decimal.Quotient

/-!
The rational numbers that decimals stand for, and what it is to round a rational number to the
nearest integer, a half to the even neighbour. Bringing a decimal to a scale rounds it in this way.
-/

set_option autoImplicit false
set_option relaxedAutoImplicit false

namespace ScriptLang.Decimal

/-- The number that a decimal stands for. -/
def value (x : Decimal) : ℚ := x.coefficient * 10 ^ (-x.scale)

theorem powerOfTen_cast (exponent : Nat) : (powerOfTen exponent : ℚ) = 10 ^ exponent := by
  unfold powerOfTen
  exact Nat.cast_pow 10 exponent

theorem isZero_eq_false {x : Decimal} : x.isZero = false ↔ x.coefficient ≠ 0 := by
  unfold isZero
  exact beq_eq_false_iff_ne

/-- A value in units of a scale is the coefficient with the places between the scales. -/
theorem value_mul (x : Decimal) (scale : Int) :
    x.value * 10 ^ scale = x.coefficient * 10 ^ (scale - x.scale) := by
  have hten : (10 : ℚ) ≠ 0 := by norm_num
  rw [value, mul_assoc, ← zpow_add₀ hten, neg_add_eq_sub]

/-- At its own scale a decimal is its coefficient. -/
theorem value_mul_self (x : Decimal) : x.value * 10 ^ x.scale = x.coefficient := by
  rw [value_mul, sub_self, zpow_zero, mul_one]

theorem value_of_isZero {x : Decimal} (h : x.isZero = true) : x.value = 0 := by
  have hzero : x.coefficient = 0 := beq_iff_eq.mp h
  rw [value, hzero, Int.cast_zero, zero_mul]

/-- What is recognised as a neutral factor has the value one. -/
theorem value_of_isUnit {x : Decimal} (h : x.isUnit = true) : x.value = 1 := by
  unfold isUnit at h
  simp only [Bool.and_eq_true, decide_eq_true_eq, beq_iff_eq] at h
  obtain ⟨⟨hscale, -⟩, hcoefficient⟩ := h
  obtain ⟨places, hplaces⟩ := Int.eq_ofNat_of_zero_le hscale
  have hten : (10 : ℚ) ^ places ≠ 0 := by positivity
  rw [value, hcoefficient, hplaces, Int.toNat_natCast, Int.cast_natCast, powerOfTen_cast, zpow_neg,
    zpow_natCast]
  exact mul_inv_cancel₀ hten

/-- Counting in units of a scale that is not below that of the decimal is exact. -/
theorem unitsAt_cast {x : Decimal} {scale : Int} (h : x.scale ≤ scale) :
    (x.unitsAt scale : ℚ) = x.value * 10 ^ scale := by
  obtain ⟨places, hplaces⟩ := Int.eq_ofNat_of_zero_le (Int.sub_nonneg.mpr h)
  rw [unitsAt_eq, value_mul, hplaces, Int.toNat_natCast, Int.cast_mul, Int.cast_natCast,
    powerOfTen_cast, zpow_natCast]

/-- `n` is the integer nearest to `number`; of two that are equally near it is the even one. -/
structure NearestEven (number : ℚ) (n : ℤ) : Prop where
  near : |number - n| ≤ 1 / 2
  even : |number - n| = 1 / 2 → Even n

namespace NearestEven

variable {number : ℚ} {n m : ℤ}

theorem of_lt (h : |number - n| < 1 / 2) : NearestEven number n :=
  ⟨h.le, fun heq ↦ absurd heq h.ne⟩

theorem intCast (n : ℤ) : NearestEven n n := by
  refine of_lt ?_
  rw [sub_self, abs_zero]
  norm_num

/-- Nearest integers change their sign with the number. -/
theorem neg (h : NearestEven number n) : NearestEven (-number) (-n) := by
  have habs : |(-number) - ((-n : ℤ) : ℚ)| = |number - n| := by
    rw [Int.cast_neg, neg_sub_neg, abs_sub_comm]
  refine ⟨habs ▸ h.near, fun heq ↦ ?_⟩
  rw [habs] at heq
  exact (h.even heq).neg

/-- A magnitude is rounded as the number is, with the sign put back. -/
theorem sign_mul {divisor : ℚ} {rounded : ℕ}
    (h : NearestEven ((n.natAbs : ℚ) / divisor) rounded) :
    NearestEven (n / divisor) (n.sign * rounded) := by
  have hmagnitude : ((n.natAbs : ℤ) : ℚ) = n.natAbs := Int.cast_natCast n.natAbs
  obtain hnegative | hzero | hpositive := lt_trichotomy n 0
  · rw [Int.sign_eq_neg_one_of_neg hnegative, neg_one_mul]
    rw [← hmagnitude, Int.ofNat_natAbs_of_nonpos hnegative.le, Int.cast_neg, neg_div] at h
    have hnegated := h.neg
    rwa [neg_neg] at hnegated
  · subst hzero
    rw [Int.sign_zero, zero_mul, Int.cast_zero, zero_div]
    exact .intCast 0
  · rw [Int.sign_eq_one_of_pos hpositive, one_mul]
    rwa [← hmagnitude, Int.natAbs_of_nonneg hpositive.le] at h

/-- Two integers that are nearest differ by one at most, and by one only at a tie, where they would
both be even. -/
theorem unique (h : NearestEven number n) (h' : NearestEven number m) : n = m := by
  by_contra hne
  wlog hlt : n < m generalizing n m
  · exact this h' h (Ne.symm hne) (lt_of_le_of_ne (not_lt.mp hlt) (Ne.symm hne))
  have hstep : (n : ℚ) + 1 ≤ m := by exact_mod_cast hlt
  have hn := abs_le.mp h.near
  have hm := abs_le.mp h'.near
  have htie : number - n = 1 / 2 := by linarith
  have htie' : number - m = -(1 / 2) := by linarith
  have heven := h.even (by rw [htie]; norm_num)
  have heven' := h'.even (by rw [htie', abs_neg]; norm_num)
  have hsucc : m = n + 1 := by
    have : (m : ℚ) = n + 1 := by linarith
    exact_mod_cast this
  rw [hsucc, Int.even_add_one] at heven'
  exact heven' heven

end NearestEven

/-- Rounding a quotient half to even gives its nearest integer. -/
theorem roundHalfEven_nearest (n : Nat) {d : Nat} (hd : 0 < d) :
    NearestEven ((n : ℚ) / d) (roundHalfEven n d) := by
  have hd' : (0 : ℚ) < d := by exact_mod_cast hd
  have hsplit : (n : ℚ) / d = (n / d : Nat) + (n % d : Nat) / d := by
    have hn : ((d * (n / d) + n % d : Nat) : ℚ) = n := congrArg Nat.cast (Nat.div_add_mod n d)
    push_cast at hn
    field_simp
    linarith
  have hpart : (0 : ℚ) ≤ (n % d : Nat) / d := by positivity
  unfold roundHalfEven
  split
  next hlow =>
    refine .of_lt ?_
    have hlow' : (2 * (n % d : Nat) : ℚ) < d := by exact_mod_cast hlow
    have hhalf : ((n % d : Nat) : ℚ) / d < 1 / 2 := by rw [div_lt_div_iff₀ hd' two_pos]; linarith
    rw [hsplit, Int.cast_natCast, add_sub_cancel_left, abs_of_nonneg hpart]
    exact hhalf
  next hhigh =>
    split
    next htie =>
      have htie' : (2 * (n % d : Nat) : ℚ) = d := by exact_mod_cast htie
      have hhalf : ((n % d : Nat) : ℚ) / d = 1 / 2 := by
        rw [div_eq_div_iff hd'.ne' two_ne_zero]
        linarith
      -- In a tie the last digit is added if it is odd, which makes the result even.
      have heven : Even (((n / d + n / d % 2 : Nat)) : ℤ) := by
        rw [Int.even_coe_nat, Nat.even_iff]
        omega
      refine ⟨?_, fun _ ↦ heven⟩
      rw [hsplit, hhalf, Int.cast_natCast, Nat.cast_add]
      obtain hzero | hone := Nat.mod_two_eq_zero_or_one (n / d)
      · rw [hzero, Nat.cast_zero, add_zero, add_sub_cancel_left]
        norm_num
      · rw [hone, Nat.cast_one, add_sub_add_left_eq_sub]
        norm_num
    next hne =>
      refine .of_lt ?_
      have hover : (d : ℚ) < 2 * (n % d : Nat) := by
        exact_mod_cast lt_of_le_of_ne (not_lt.mp hhigh) (Ne.symm hne)
      have hunder : ((n % d : Nat) : ℚ) < d := by exact_mod_cast Nat.mod_lt n hd
      have hhalf : 1 / 2 < ((n % d : Nat) : ℚ) / d := by rw [div_lt_div_iff₀ two_pos hd']; linarith
      have hone : ((n % d : Nat) : ℚ) / d < 1 := (div_lt_one hd').mpr hunder
      rw [hsplit, Int.cast_natCast, Nat.cast_add, Nat.cast_one, add_sub_add_left_eq_sub, abs_lt]
      constructor <;> linarith

@[simp]
theorem withScale_scale (scale : Int) (x : Decimal) : (x.withScale scale).scale = scale := by
  unfold withScale
  split <;> rfl

/-- Bringing a decimal to a scale rounds it once. -/
theorem withScale_nearest (scale : Int) (x : Decimal) :
    NearestEven (x.value * 10 ^ scale) (x.withScale scale).coefficient := by
  unfold withScale
  split
  next hle =>
    rw [← unitsAt_cast hle]
    exact .intCast _
  next hlt =>
    have hpos : 0 ≤ x.scale - scale := Int.sub_nonneg.mpr (Int.le_of_lt (Int.not_le.mp hlt))
    obtain ⟨places, hplaces⟩ := Int.eq_ofNat_of_zero_le hpos
    have hpower : 0 < powerOfTen places := Nat.pow_pos (by decide)
    have hvalue : x.value * 10 ^ scale = x.coefficient / powerOfTen places := by
      have hneg : scale - x.scale = -(places : Int) := by omega
      rw [value_mul, hneg, zpow_neg, zpow_natCast, powerOfTen_cast, div_eq_mul_inv]
    rw [hvalue, hplaces, Int.toNat_natCast, dropPlaces_eq]
    exact (roundHalfEven_nearest x.coefficient.natAbs hpower).sign_mul

end ScriptLang.Decimal
