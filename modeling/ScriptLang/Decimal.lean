/-!
Decimals are pairs of a coefficient and a scale: the value is the coefficient times ten to the minus
scale. The pair is kept as it is computed, so that `1.50` and `1.5` are equal in value and differ in
text. Sums, differences and products are exact; the scale of each result is fixed by the scales of
its operands, and no scale is out of range.
-/

set_option autoImplicit false
set_option relaxedAutoImplicit false

namespace ScriptLang

/-- The number `coefficient · 10 ^ (-scale)`. A scale is any integer: the limits that a library of
decimals sets to it, such as those of a signed 64-bit integer, are left out. -/
structure Decimal where
  coefficient : Int
  scale : Int
  deriving DecidableEq, Inhabited

namespace Decimal

def powerOfTen (exponent : Nat) : Nat := Nat.pow 10 exponent

def isZero (x : Decimal) : Bool := x.coefficient == 0

/-- The value of `x` counted in units of `10 ^ (-scale)`, exact when `scale` is not below that of
`x`. A zero has no power of ten written out. -/
def unitsAt (scale : Int) (x : Decimal) : Int :=
  if x.coefficient = 0 then 0 else x.coefficient * powerOfTen (scale - x.scale).toNat

/-- Counting in units is scaling, also for zero. -/
theorem unitsAt_eq (scale : Int) (x : Decimal) :
    x.unitsAt scale = x.coefficient * powerOfTen (scale - x.scale).toNat := by
  unfold unitsAt
  split
  next h => simp [h]
  next => rfl

/-- A number with fewer binary digits than there are places is below the power of ten. -/
theorem lt_powerOfTen_of_log2_lt {n places : Nat} (h : n.log2 < places) : n < powerOfTen places :=
  Nat.lt_of_lt_of_le Nat.lt_log2_self
    (Nat.le_trans (Nat.pow_le_pow_right (by decide) h) (Nat.pow_le_pow_left (by decide) places))

/-- The order of `a` and `b · 10 ^ places`. The power is not written out where it is above `a`, so
that numbers of very different scales can be compared. -/
def comparePadded (a b : Int) (places : Nat) : Ordering :=
  if b = 0 then compare a 0
  else if a.natAbs.log2 < places then compare 0 b
  else compare a (b * powerOfTen places)

/-- The comparison without the power is the comparison with it. -/
theorem comparePadded_eq (a b : Int) (places : Nat) :
    comparePadded a b places = compare a (b * powerOfTen places) := by
  unfold comparePadded
  split
  next h => simp [h]
  next hb =>
    split
    next h =>
      have bound : (a.natAbs : Int) < powerOfTen places :=
        Int.ofNat_lt.mpr (lt_powerOfTen_of_log2_lt h)
      rcases Int.lt_or_gt_of_ne hb with hb | hb
      · have low : b * powerOfTen places ≤ -1 * powerOfTen places :=
          Int.mul_le_mul_of_nonneg_right (by omega) (by omega)
        rw [Int.compare_eq_gt.mpr hb, Int.compare_eq_gt.mpr (by omega)]
      · have high : 1 * (powerOfTen places : Int) ≤ b * powerOfTen places :=
          Int.mul_le_mul_of_nonneg_right (by omega) (by omega)
        rw [Int.compare_eq_lt.mpr hb, Int.compare_eq_lt.mpr (by omega)]
    next => rfl

/-- The order of the values. -/
def order (x y : Decimal) : Ordering :=
  if x.scale ≤ y.scale then
    (comparePadded y.coefficient x.coefficient (y.scale - x.scale).toNat).swap
  else comparePadded x.coefficient y.coefficient (x.scale - y.scale).toNat

/-- Decimals are compared as counts of the smaller unit. -/
theorem order_eq (x y : Decimal) :
    x.order y = compare (x.unitsAt (max x.scale y.scale)) (y.unitsAt (max x.scale y.scale)) := by
  simp only [order, unitsAt_eq, comparePadded_eq, Int.compare_swap]
  split
  next h => simp [Int.max_eq_right h, powerOfTen]
  next h => simp [Int.max_eq_left (Int.le_of_not_le h), powerOfTen]

/-- Equality of the values, whatever the scales. -/
def sameValue (x y : Decimal) : Bool := x.order y == .eq

protected def add (x y : Decimal) : Decimal :=
  ⟨x.unitsAt (max x.scale y.scale) + y.unitsAt (max x.scale y.scale), max x.scale y.scale⟩

/-- A zero operand leaves the scale of the other. -/
protected def sub (x y : Decimal) : Decimal :=
  if y.isZero then x
  else if x.isZero then ⟨-y.coefficient, y.scale⟩
  else ⟨x.unitsAt (max x.scale y.scale) - y.unitsAt (max x.scale y.scale), max x.scale y.scale⟩

/-- The largest scale at which a one is recognised as the neutral factor. -/
def unitScaleLimit : Int := 38

/-- Whether `x` is written as a one with at most `unitScaleLimit` places, such as `1.00`. -/
def isUnit (x : Decimal) : Bool :=
  0 ≤ x.scale && x.scale ≤ unitScaleLimit && x.coefficient == powerOfTen x.scale.toNat

/-- A factor one leaves the other factor as it is. -/
protected def mul (x y : Decimal) : Decimal :=
  if x.isUnit then y
  else if y.isUnit then x
  else ⟨x.coefficient * y.coefficient, x.scale + y.scale⟩

example : Decimal.add ⟨150, 2⟩ ⟨5, 1⟩ = ⟨200, 2⟩ := by decide
example : Decimal.sub ⟨0, 3⟩ ⟨5, 1⟩ = ⟨-5, 1⟩ := by decide
example : Decimal.mul ⟨100, 2⟩ ⟨5, 1⟩ = ⟨5, 1⟩ := by decide
example : sameValue ⟨150, 2⟩ ⟨15, 1⟩ = true := by decide
example : order ⟨1, 1000000000000⟩ ⟨1, -1000000000000⟩ = .lt := by decide +kernel

end Decimal

end ScriptLang
