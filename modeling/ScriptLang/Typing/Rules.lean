import ScriptLang.Decimal.DoubleRange
import ScriptLang.Decimal.Text
import ScriptLang.Program
import ScriptLang.Typing.Error

/-!
The rules of typing that do not look into a tree: what may stand where a type is expected, the types
of literals, and the type an operator gives to operands of known types.
-/

set_option autoImplicit false
set_option relaxedAutoImplicit false

namespace ScriptLang

/-- Requires that a value of type `source` may stand where `target` is expected. -/
def requireAssignable (target source : Ty) (offset : Nat) : Except TypingError Unit :=
  if target.assignable source then .ok ()
  else .error (.typeMismatch target.name source.name offset)

/-- Whether an integer fits in 32 bits. -/
def fitsWord (n : Int) : Bool := -0x80000000 ≤ n && n < 0x80000000

/-- The type of a literal at `offset`. Numbers have a range, although values have none. -/
def Literal.type (offset : Nat) : Literal → Except TypingError Ty
  | nil => .ok .nil
  | boolean _ => .ok .boolean
  | character _ => .ok .character
  | string _ => .ok .string
  | integer n =>
    if fitsWord n then .ok .integer else .error (.integerOutOfRange (toString n) offset)
  | decimal x =>
    if x.inDoubleRange then .ok .decimal else .error (.decimalOutOfRange (toString x) offset)

/-- The positions of an operator and its operands. -/
structure OperandOffsets where
  operator : Nat
  left : Nat
  right : Nat

/-- The type of a binary expression. Each comparison takes operands of one type, and `+` joins
anything to a string. -/
def BinaryOp.type (op : BinaryOp) (left right : Ty) (offsets : OperandOffsets) :
    Except TypingError Ty :=
  if op = .and ∨ op = .or then do
    requireAssignable .boolean left offsets.left
    requireAssignable .boolean right offsets.right
    return .boolean
  else if op.isComparison then do
    requireAssignable .comparable left offsets.left
    requireAssignable left right offsets.right
    return .boolean
  else if op = .add ∧ (left.isString || right.isString) then .ok .string
  else if left.isNumber && left.same right then .ok left
  else .error (.invalidOperands op left.name right.name offsets.operator)

/-- The variables and functions of one level, with their types. -/
abbrev TypeScope := Scope (Variable Ty) (Signature Ty)

abbrev TypeChain := Chain (Variable Ty) (Signature Ty)

/-- The variable that `name` at `offset` stands for. -/
def requireVariable (scopes : TypeChain) (offset : Nat) (name : String) :
    Except TypingError (Variable Ty) :=
  match scopes.lookup? name with
  | some found => .ok found
  | none => .error (.undefinedVariable name offset)

/-- The function that a call of `name` with `arity` arguments stands for. -/
def requireFunction (scopes : TypeChain) (offset : Nat) (name : String) (arity : Nat) :
    Except TypingError (Signature Ty) :=
  match scopes.function? name arity with
  | some found => .ok found
  | none => .error (.undefinedFunction name arity offset)

/-- The field `name` of a type. -/
def Ty.requireField (type : Ty) (offset : Nat) (name : String) :
    Except TypingError (Variable Ty) :=
  match type.field? name with
  | some found => .ok found
  | none => .error (.undefinedField type.name name offset)

/-- The method `name` of a type that takes `arity` arguments besides the receiver. -/
def Ty.requireMethod (type : Ty) (offset : Nat) (name : String) (arity : Nat) :
    Except TypingError (Signature Ty) :=
  match type.method? name (arity + 1) with
  | some found => .ok found
  | none => .error (.undefinedMethod type.name name arity offset)

/-- What a host makes known to programs: record types, variables and functions. -/
structure TypeContext where
  records : Bindings String Ty := {}
  globals : TypeScope := {}

namespace TypeContext

/-- The context of a host that adds nothing. -/
def initial : TypeContext where
  globals :=
    (Scope.declareFunction {} "print" 1 ⟨"print", [Ty.any], Ty.nil⟩).declareFunction "range" 2
      ⟨"range", [.integer, .integer], .range⟩

def register (context : TypeContext) (type : RecordType Ty) : TypeContext :=
  { context with records := context.records.insert type.name (.record type) }

def defineVariable (context : TypeContext) (name : String) (type : Ty) : TypeContext :=
  { context with globals := context.globals.declare name ⟨name, type⟩ }

def defineFunction (context : TypeContext) (signature : Signature Ty) : TypeContext :=
  { context with
    globals := context.globals.declareFunction signature.name signature.arity signature }

/-- The type that `name` stands for; a built-in name wins over a record. -/
def type? (context : TypeContext) (name : String) : Option Ty :=
  (Ty.builtin? name).or (context.records.find? name)

/-- The type that is written as `name` at `offset`. -/
def resolve (context : TypeContext) (offset : Nat) (name : String) : Except TypingError Ty :=
  match context.type? name with
  | some type => .ok type
  | none => .error (.unknownType name offset)

end TypeContext

end ScriptLang
