import ScriptLang.Operator

/-!
Why a program is rejected before it runs. Types are given by name, and each cause but a missing
`main` has the position it points at.
-/

set_option autoImplicit false
set_option relaxedAutoImplicit false

namespace ScriptLang

inductive TypingError
  | missingMain
  | typeMismatch (expected found : String) (offset : Nat)
  | invalidOperands (op : BinaryOp) (left right : String) (offset : Nat)
  | undefinedVariable (name : String) (offset : Nat)
  | undefinedFunction (name : String) (arity : Nat) (offset : Nat)
  | undefinedField (type name : String) (offset : Nat)
  | undefinedMethod (type name : String) (arity : Nat) (offset : Nat)
  | unknownType (name : String) (offset : Nat)
  | redefinition (name : String) (offset : Nat)
  | missingTypeOrValue (name : String) (offset : Nat)
  | invalidAssignmentTarget (offset : Nat)
  | invalidStatement (offset : Nat)
  | emptyThenBranch (offset : Nat)
  | integerOutOfRange (literal : String) (offset : Nat)
  | decimalOutOfRange (literal : String) (offset : Nat)
  deriving DecidableEq

namespace TypingError

def message : TypingError → String
  | missingMain => "No method \x60main()\x60 returning Integer."
  | typeMismatch expected found offset => s!"[offset {offset}] Expected {expected}, found {found}."
  | invalidOperands op left right offset =>
    let lexeme := op.lexeme
    s!"[offset {offset}] Operator '{lexeme}' cannot be applied to {left} and {right}."
  | undefinedVariable name offset => s!"[offset {offset}] Undefined variable '{name}'."
  | undefinedFunction name arity offset =>
    s!"[offset {offset}] Undefined function '{name}' taking {arity} arguments."
  | undefinedField type name offset => s!"[offset {offset}] Type {type} has no field '{name}'."
  | undefinedMethod type name arity offset =>
    s!"[offset {offset}] Type {type} has no method '{name}' taking {arity} arguments."
  | unknownType name offset => s!"[offset {offset}] Unknown type '{name}'."
  | redefinition name offset => s!"[offset {offset}] '{name}' is already defined in this scope."
  | missingTypeOrValue name offset =>
    s!"[offset {offset}] Declaration of '{name}' needs a type or a value."
  | invalidAssignmentTarget offset =>
    s!"[offset {offset}] Only variables and fields can be assigned to."
  | invalidStatement offset =>
    s!"[offset {offset}] Only function calls can be used as statements."
  | emptyThenBranch offset => s!"[offset {offset}] The body of an IF may not be empty."
  | integerOutOfRange literal offset =>
    s!"[offset {offset}] Integer literal {literal} does not fit in 32 bits."
  | decimalOutOfRange literal offset =>
    s!"[offset {offset}] Decimal literal {literal} is out of range."

end TypingError

end ScriptLang
