import ScriptLang.Decimal.Quotient
import ScriptLang.Value

/-!
Binary operators on values. Integers are unbounded and divide towards zero; `+` joins the text of
anything to a string; values of one ordered kind compare, and any two values can be equal or not.
`AND` and `OR` are not here, as they may leave their right operand unevaluated.
-/

set_option autoImplicit false
set_option relaxedAutoImplicit false

namespace ScriptLang

namespace Value

/-- The order of two values of one ordered kind. Texts are ordered by their characters. -/
def order? : Value → Value → Option Ordering
  | integer first, integer second => some (compare first second)
  | decimal first, decimal second => some (first.order second)
  | character first, character second => some (compare first second)
  | string first, string second => some (compare first second)
  | boolean first, boolean second => some (compare first second)
  | _, _ => none

end Value

namespace BinaryOp

/-- Whether an order of the operands makes a relation true. -/
def holds (op : BinaryOp) (order : Ordering) : Bool :=
  match op with
  | .less => order.isLT
  | .lessEqual => order.isLE
  | .greater => order.isGT
  | _ => order.isGE

/-- Arithmetic on two integers; the divisor is not zero. -/
def integerResult? (op : BinaryOp) (left right : Int) : Option Int :=
  match op with
  | .add => some (left + right)
  | .sub => some (left - right)
  | .mul => some (left * right)
  | .div => some (left.tdiv right)
  | _ => none

/-- Arithmetic on two decimals; the divisor is not zero. -/
def decimalResult? (op : BinaryOp) (left right : Decimal) : Option Decimal :=
  match op with
  | .add => some (left.add right)
  | .sub => some (left.sub right)
  | .mul => some (left.mul right)
  | .div => some (left.div right)
  | _ => none

/-- The result of arithmetic or of joining texts, where the kinds of the operands admit it. -/
def arithmetic? (op : BinaryOp) (left right : Value) : Option Value :=
  match left, right with
  | .string text, _ => if op = .add then some (.string (text ++ right.display)) else none
  | _, .string text => if op = .add then some (.string (left.display ++ text)) else none
  | .integer first, .integer second => (op.integerResult? first second).map .integer
  | .decimal first, .decimal second => (op.decimalResult? first second).map .decimal
  | _, _ => none

/-- The relation between the operands that a comparison asks for. -/
def compare? (op : BinaryOp) (left right : Value) : Option Value :=
  match op with
  | .equal => some (.boolean (left.same right))
  | .notEqual => some (.boolean (!left.same right))
  | .less | .lessEqual | .greater | .greaterEqual =>
    (left.order? right).map fun order ↦ .boolean (op.holds order)
  | _ => none

/-- The value of an operator on two values. A zero divisor fails before the kind of the dividend is
looked at. -/
def apply (op : BinaryOp) (left right : Value) : Except RuntimeError Value :=
  if op = .div ∧ right.isZero then .error .divisionByZero
  else
    match (op.arithmetic? left right).or (op.compare? left right) with
    | some value => .ok value
    | none => .error (.invalidOperands op left.kind right.kind)

/-- The operand that decides a logical operator without the other one. -/
def shortcut? : BinaryOp → Option Bool
  | .and => some false
  | .or => some true
  | _ => none

end BinaryOp

example : BinaryOp.apply .add (.string "a") .nil = .ok (.string "aNIL") := rfl
example : BinaryOp.apply .div (.integer (-7)) (.integer 2) = .ok (.integer (-3)) := rfl
example : BinaryOp.apply .div .nil (.integer 0) = .error .divisionByZero := rfl

end ScriptLang
