import ScriptLang.Decimal

/-!
Division of decimals. The quotient is developed digit by digit to at most `quotientDigits` digits
and rounded there; the result is then brought to the scale of the dividend, where a half goes to the
even neighbour.
-/

set_option autoImplicit false
set_option relaxedAutoImplicit false

namespace ScriptLang.Decimal

/-- The number of digits to which a quotient is developed. -/
def quotientDigits : Nat := 100

def digitCount (n : Nat) : Nat := (Nat.toDigits 10 n).length

/-- Multiplies `numerator` by ten until it is not below `denominator`, at most `limit` times, and
counts the multiplications. -/
def raise (denominator : Nat) : Nat → Nat → Nat × Nat
  | 0, numerator => (numerator, 0)
  | limit + 1, numerator =>
    if numerator < denominator then
      ((raise denominator limit (10 * numerator)).1,
        (raise denominator limit (10 * numerator)).2 + 1)
    else (numerator, 0)

/-- A quotient that is being developed: its digits so far, ten times the remainder, and the number
of places that were added. -/
structure Expansion where
  digits : Nat
  remainder : Nat
  places : Nat
  deriving DecidableEq

/-- Adds one digit at a time until the remainder is zero or `limit` digits were added. -/
def Expansion.develop (denominator : Nat) : Nat → Expansion → Expansion
  | 0, expansion => expansion
  | limit + 1, expansion =>
    if expansion.remainder = 0 then expansion
    else
      develop denominator limit
        ⟨10 * expansion.digits + expansion.remainder / denominator,
          10 * (expansion.remainder % denominator), expansion.places + 1⟩

/-- The quotient of two positive integers as digits and a count of places, rounded half up at the
last digit that was developed. -/
def ratio (numerator denominator : Nat) : Nat × Nat :=
  let raised := raise denominator (digitCount denominator) numerator
  let first := raised.1 / denominator
  let expansion := Expansion.develop denominator (quotientDigits - digitCount first)
    ⟨first, 10 * (raised.1 % denominator), raised.2⟩
  let carry := if 5 * denominator ≤ expansion.remainder then 1 else 0
  (expansion.digits + carry, expansion.places)

/-- The quotient before it is brought to a scale; the divisor is not zero. -/
def quotient (x y : Decimal) : Decimal :=
  if x.isZero || y.isUnit then x
  else
    let result := ratio x.coefficient.natAbs y.coefficient.natAbs
    ⟨x.coefficient.sign * y.coefficient.sign * result.1, x.scale - y.scale + result.2⟩

/-- The integer nearest to `n / d`; a half goes to the even neighbour. -/
def roundHalfEven (n d : Nat) : Nat :=
  if 2 * (n % d) < d then n / d
  else if 2 * (n % d) = d then n / d + n / d % 2
  else n / d + 1

/-- The integer nearest to `n / 10 ^ places`. The power is not written out where it is above
`2 * n`, so that any number of places can be dropped. -/
def dropPlaces (n places : Nat) : Nat :=
  if n.log2 + 1 < places then 0 else roundHalfEven n (powerOfTen places)

/-- Dropping places is rounding by their power of ten, also where the power is not written out. -/
theorem dropPlaces_eq (n places : Nat) :
    dropPlaces n places = roundHalfEven n (powerOfTen places) := by
  unfold dropPlaces
  split
  next h =>
    have bound : 2 * n < powerOfTen places := by
      obtain ⟨rest, rfl⟩ := Nat.exists_eq_add_of_lt h
      have low : n < powerOfTen (n.log2 + 1) := lt_powerOfTen_of_log2_lt (by omega)
      have step : powerOfTen (n.log2 + 1) * 10 ≤ powerOfTen (n.log2 + 1 + rest + 1) :=
        Nat.pow_le_pow_right (n := 10) (by decide) (by omega : n.log2 + 1 + 1 ≤ _)
      omega
    have small : n % powerOfTen places = n := Nat.mod_eq_of_lt (by omega)
    simp [roundHalfEven, small, bound, Nat.div_eq_of_lt (show n < powerOfTen places by omega)]
  next => rfl

/-- Brings `x` to `scale`; places that do not fit are rounded, a half to the even neighbour. -/
def withScale (scale : Int) (x : Decimal) : Decimal :=
  if x.scale ≤ scale then ⟨x.unitsAt scale, scale⟩
  else ⟨x.coefficient.sign * dropPlaces x.coefficient.natAbs (x.scale - scale).toNat, scale⟩

/-- Division keeps the scale of the dividend; the divisor is not zero. -/
protected def div (x y : Decimal) : Decimal := (quotient x y).withScale x.scale

example : Decimal.div ⟨100, 2⟩ ⟨3, 0⟩ = ⟨33, 2⟩ := by decide +kernel
example : Decimal.div ⟨5, 1⟩ ⟨40, 1⟩ = ⟨1, 1⟩ := by decide +kernel
example : Decimal.div ⟨-25, 1⟩ ⟨10, 0⟩ = ⟨-2, 1⟩ := by decide +kernel
example : Decimal.div ⟨5, 1⟩ ⟨1, -1000000000000⟩ = ⟨0, 1⟩ := by decide +kernel

end ScriptLang.Decimal
