import ScriptLang.Decimal.Text
import ScriptLang.Program

/-!
Run-time values. Every value carries one of eight kinds. Objects belong to the host and are reached
by reference: two references are equal when they are to the same object, and the name of an object's
type never changes, so it is part of the reference.
-/

set_option autoImplicit false
set_option relaxedAutoImplicit false

namespace ScriptLang

/-- The kinds of values, as error messages name them. -/
inductive ValueKind
  | nil
  | boolean
  | integer
  | decimal
  | character
  | string
  | range
  | object
  deriving DecidableEq, Inhabited

def ValueKind.name : ValueKind → String
  | nil => "Nil"
  | boolean => "Boolean"
  | integer => "Integer"
  | decimal => "Decimal"
  | character => "Character"
  | string => "String"
  | range => "IntegerIterable"
  | object => "Object"

/-- A reference to the object with the number `index`. -/
structure ObjectRef where
  typeName : String
  index : Nat
  deriving DecidableEq, Inhabited

/-- A value; a range holds the integers from `start` up to but not including `stop`. -/
inductive Value
  | nil
  | boolean (value : Bool)
  | integer (value : Int)
  | decimal (value : Decimal)
  | character (value : Char)
  | string (value : String)
  | range (start stop : Int)
  | object (ref : ObjectRef)
  deriving DecidableEq, Inhabited

/-- Why a run fails. Arities leave out the receiver. -/
inductive RuntimeError
  | undefinedVariable (name : String)
  | undefinedFunction (name : String) (arity : Nat)
  | undefinedField (type name : String)
  | undefinedMethod (type name : String) (arity : Nat)
  | typeMismatch (expected found : ValueKind)
  | invalidOperands (op : BinaryOp) (left right : ValueKind)
  | divisionByZero
  | invalidAssignmentTarget
  | wrongArgumentCount (expected found : Nat)
  | outputFailed (reason : String)
  deriving DecidableEq

def RuntimeError.message : RuntimeError → String
  | undefinedVariable name => s!"Undefined variable '{name}'."
  | undefinedFunction name arity => s!"Undefined function '{name}' taking {arity} arguments."
  | undefinedField type name => s!"Value of type {type} has no field '{name}'."
  | undefinedMethod type name arity =>
    s!"Value of type {type} has no method '{name}' taking {arity} arguments."
  | typeMismatch expected found =>
    let expected := expected.name
    let found := found.name
    s!"Expected {expected}, got {found}."
  | invalidOperands op left right =>
    let lexeme := op.lexeme
    let left := left.name
    let right := right.name
    s!"Operator '{lexeme}' cannot be applied to {left} and {right}."
  | divisionByZero => "Division by zero."
  | invalidAssignmentTarget => "Only variables and fields can be assigned to."
  | wrongArgumentCount expected found => s!"Expected {expected} arguments, got {found}."
  | outputFailed reason => s!"Failed to write output: {reason}"

namespace Value

def kind : Value → ValueKind
  | nil => .nil
  | boolean _ => .boolean
  | integer _ => .integer
  | decimal _ => .decimal
  | character _ => .character
  | string _ => .string
  | range _ _ => .range
  | object _ => .object

/-- The text of a value in output. -/
def display : Value → String
  | nil => "NIL"
  | boolean true => "TRUE"
  | boolean false => "FALSE"
  | integer n => toString n
  | decimal x => toString x
  | character c => String.singleton c
  | string text => text
  | range start stop => s!"[{start}, {stop})"
  | object ref => "<" ++ ref.typeName ++ ">"

def asBoolean : Value → Except RuntimeError Bool
  | boolean value => .ok value
  | other => .error (.typeMismatch .boolean other.kind)

def asInteger : Value → Except RuntimeError Int
  | integer value => .ok value
  | other => .error (.typeMismatch .integer other.kind)

def asRange : Value → Except RuntimeError (Int × Int)
  | range start stop => .ok (start, stop)
  | other => .error (.typeMismatch .range other.kind)

/-- The first integers of a range, at most `limit` of them. -/
def rangeItems (limit : Nat) (value : Value) : Except RuntimeError (List Int) := do
  let (start, stop) ← value.asRange
  return (List.range (min limit (stop - start).toNat)).map fun (index : Nat) ↦ start + (index : Int)

def asObject : Value → Except RuntimeError ObjectRef
  | object ref => .ok ref
  | other => .error (.typeMismatch .object other.kind)

/-- Equality in programs: decimals are equal by value, objects by identity. -/
def same : Value → Value → Bool
  | nil, nil => true
  | boolean first, boolean second => first == second
  | integer first, integer second => first == second
  | decimal first, decimal second => first.sameValue second
  | character first, character second => first == second
  | string first, string second => first == second
  | range start stop, range start' stop' => start == start' && stop == stop'
  | object first, object second => first.index == second.index
  | _, _ => false

/-- Whether the value cannot divide a number. -/
def isZero : Value → Bool
  | integer n => n == 0
  | decimal x => x.isZero
  | _ => false

end Value

def Literal.value : Literal → Value
  | nil => .nil
  | boolean value => .boolean value
  | integer value => .integer value
  | decimal value => .decimal value
  | character value => .character value
  | string value => .string value

end ScriptLang
