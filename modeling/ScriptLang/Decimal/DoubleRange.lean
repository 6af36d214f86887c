import ScriptLang.Decimal.Quotient

/-!
The range of double precision. The double of a decimal is found from its first digits only. Where
these are an integer with zeros behind it, it is a product of two rounded numbers, which need not be
the nearest double; otherwise their value is rounded once. A decimal is in range when its double is
finite and, for a nonzero decimal, not zero. All of this is said in exact integers.
-/

set_option autoImplicit false
set_option relaxedAutoImplicit false

namespace ScriptLang.Decimal

/-- The common logarithm of two in units of `10 ^ (-20)`. -/
def logTwo : Nat := 30102999566398119521

/-- The number of digits of `n` as its bits suggest it, which may be one too small. -/
def digitEstimate (n : Nat) : Nat := (n.log2 + 2) * logTwo / powerOfTen 20

/-- How many digits are kept at least. -/
def keptDigits : Nat := 25

/-- Digits are dropped in groups of this size. -/
def groupDigits : Nat := 19

/-- The absolute value without the groups of digits at its end that are beyond `keptDigits`. -/
def leading (x : Decimal) : Decimal :=
  let n := x.coefficient.natAbs
  let dropped := (digitEstimate n - keptDigits) / groupDigits * groupDigits
  ⟨n / powerOfTen dropped, x.scale - dropped⟩

/-- The nearest number with the 53 bits of a double, a half to the even neighbour. The size of the
number is not limited. -/
def toDouble (n : Nat) : Nat :=
  roundHalfEven n (Nat.pow 2 (n.log2 - 52)) * Nat.pow 2 (n.log2 - 52)

/-- The product of `product` and a power of `base` by repeated squaring, where every intermediate
product is rounded. -/
def doublePower (base product exponent : Nat) : Nat :=
  if exponent = 0 then product
  else
    doublePower (toDouble (base * base))
      (if exponent % 2 = 1 then toDouble (product * base) else product) (exponent / 2)
termination_by exponent

/-- The double of the integer `n · 10 ^ exponent`, as large as it gets. -/
def integerDouble (n exponent : Nat) : Nat := toDouble (toDouble n * doublePower 10 1 exponent)

/-- What a double stays below. -/
def doubleLimit : Nat := Nat.pow 2 1024

/-- One over the halfway point between zero and the smallest double, which rounds to zero. -/
def underflowBound : Nat := Nat.pow 2 1075

/-- Whether the double of a decimal is neither infinite nor, by underflow, zero. With places left,
the few leading digits are far from the upper limit. -/
def inDoubleRange (x : Decimal) : Bool :=
  let first := if x.scale = 0 then x else x.leading
  x.isZero ||
    if first.scale ≤ 0 then
      integerDouble first.coefficient.natAbs first.scale.natAbs < doubleLimit
    else
      powerOfTen first.scale.toNat < underflowBound * first.coefficient.natAbs

example : toDouble 9007199254740993 = 9007199254740992 := by decide +kernel
example : toDouble 9007199254740995 = 9007199254740996 := by decide +kernel
example : inDoubleRange ⟨17, -307⟩ = true := by decide +kernel
example : inDoubleRange ⟨18, -307⟩ = false := by decide +kernel
example : inDoubleRange ⟨-3, 324⟩ = true := by decide +kernel
example : inDoubleRange ⟨2, 324⟩ = false := by decide +kernel

end ScriptLang.Decimal
