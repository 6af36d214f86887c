import ScriptLang.Decimal

/-!
The numbers that texts of digits denote. A number literal may carry one redundant plus in front of
its signed digits; the scale of a decimal is the count of its characters after the point.
-/

set_option autoImplicit false
set_option relaxedAutoImplicit false

namespace ScriptLang.Numeral

/-- The value of a text of one or more digits. -/
def natural? (text : List Char) : Option Nat :=
  if text.isEmpty || !text.all Char.isDigit then none else some (Nat.ofDigitChars 10 text 0)

/-- The value of digits with at most one sign in front. -/
def signed? : List Char → Option Int
  | [] => none
  | head :: tail =>
    if head = '-' then (natural? tail).map fun n ↦ -(n : Int)
    else if head = '+' then (natural? tail).map Int.ofNat
    else (natural? (head :: tail)).map Int.ofNat

def dropPlus (text : List Char) : List Char :=
  if text.head? = some '+' then text.tail else text

/-- The value of an integer literal. -/
def integer? (text : List Char) : Option Int := signed? (dropPlus text)

/-- The decimal of signed digits with at most one point among them. -/
def pointed? (text : List Char) : Option Decimal :=
  let whole := text.takeWhile (· != '.')
  let places := (text.dropWhile (· != '.')).tail
  (signed? (whole ++ places)).map (⟨·, places.length⟩)

/-- The value of a decimal literal. -/
def decimal? (text : List Char) : Option Decimal := pointed? (dropPlus text)

example : integer? ['+', '-', '5'] = some (-5) := by decide +kernel
example : decimal? ['-', '1', '.', '5', '0'] = some ⟨-150, 2⟩ := by decide +kernel
example : decimal? ['1', '.', '2', '.', '3'] = none := by decide +kernel

end ScriptLang.Numeral
