import ScriptLang.Decimal

/-!
The text of a decimal. Most decimals are written out with their places; very small ones and those
with many zeros at the end use an exponent.
-/

set_option autoImplicit false
set_option relaxedAutoImplicit false

namespace ScriptLang

namespace Decimal

/-- The most zeros between the point and the first digit before an exponent is used. -/
def leadingZeroLimit : Nat := 5

/-- The most zeros at the end of an integer before an exponent is used. -/
def trailingZeroLimit : Nat := 15

def digits (n : Nat) : List Char := Nat.toDigits 10 n

/-- One digit, the other digits after a point, and a signed exponent. -/
def scientific (ds : List Char) (exponent : Int) : List Char :=
  ds.take 1 ++ (if ds.length ≤ 1 then [] else '.' :: ds.drop 1) ++ 'E' ::
    (if exponent < 0 then ['-'] else ['+']) ++ digits exponent.natAbs

/-- The digits with the last `places` of them after a point, at least one digit before it. -/
def plain (ds : List Char) (places : Nat) : List Char :=
  let padded := List.replicate (places + 1 - ds.length) '0' ++ ds
  padded.take (padded.length - places) ++ '.' :: padded.drop (padded.length - places)

/-- The text of `n · 10 ^ (-scale)` for a positive `n`. -/
def magnitudeText (n : Nat) (scale : Int) : List Char :=
  let ds := digits n
  if leadingZeroLimit < scale - ds.length then scientific ds (ds.length - 1 - scale)
  else if scale < -trailingZeroLimit then ds ++ 'e' :: '+' :: digits scale.natAbs
  else if scale ≤ 0 then ds ++ List.replicate scale.natAbs '0'
  else plain ds scale.toNat

/-- Minus in front of what is below zero. -/
def sign (n : Int) : List Char := if n < 0 then ['-'] else []

/-- All places of a decimal whose scale is positive, without an exponent. -/
def placesText (x : Decimal) : List Char :=
  sign x.coefficient ++ plain (digits x.coefficient.natAbs) x.scale.toNat

def text (x : Decimal) : List Char :=
  if x.isZero then ['0']
  else
    sign x.coefficient ++ magnitudeText x.coefficient.natAbs x.scale

end Decimal

instance : ToString Decimal where
  toString x := String.ofList x.text

example : toString (Decimal.mk 150 2) = "1.50" := by decide +kernel
example : toString (Decimal.mk (-5) 3) = "-0.005" := by decide +kernel
example : toString (Decimal.mk 12 12) = "1.2E-11" := by decide +kernel
example : toString (Decimal.mk 7 (-20)) = "7e+20" := by decide +kernel

end ScriptLang
