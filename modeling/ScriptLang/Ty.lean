import ScriptLang.Scope

/-!
Types of expressions. Besides the built-in types there are record types, which the host provides.
Types are compared by name: two records of one name are one type, whatever their members. The only
coercion is assignability, where `Any` and `Comparable` take every value.
-/

set_option autoImplicit false
set_option relaxedAutoImplicit false

namespace ScriptLang

/-- A variable with its type. -/
structure Variable (τ : Type) where
  name : String
  type : τ

/-- A function with the types of its parameters and of its result. -/
structure Signature (τ : Type) where
  name : String
  params : List τ
  returns : τ

/-- The count of parameters. -/
def Signature.arity {τ : Type} (signature : Signature τ) : Nat := signature.params.length

/-- A named type of objects with fields and methods. The first parameter of each method is the
receiver. -/
structure RecordType (τ : Type) where
  name : String
  members : Scope (Variable τ) (Signature τ) := {}

/-- A type; `range` is the type of the ranges of integers that a loop runs over. -/
inductive Ty
  | any
  | nil
  | comparable
  | boolean
  | integer
  | decimal
  | character
  | string
  | range
  | record (type : RecordType Ty)

namespace Ty

instance : Inhabited Ty := ⟨any⟩

def name : Ty → String
  | any => "Any"
  | nil => "Nil"
  | comparable => "Comparable"
  | boolean => "Boolean"
  | integer => "Integer"
  | decimal => "Decimal"
  | character => "Character"
  | string => "String"
  | range => "IntegerIterable"
  | record type => type.name

/-- The types that every program can name. -/
def builtins : List Ty :=
  [any, nil, comparable, boolean, integer, decimal, character, string, range]

def builtin? (name : String) : Option Ty := builtins.find? fun type ↦ type.name == name

/-- Equality of types: records by name, all others by kind. -/
def same : Ty → Ty → Bool
  | any, any => true
  | nil, nil => true
  | comparable, comparable => true
  | boolean, boolean => true
  | integer, integer => true
  | decimal, decimal => true
  | character, character => true
  | string, string => true
  | range, range => true
  | record first, record second => first.name == second.name
  | _, _ => false

/-- The types that every value can be assigned to. -/
def isTop : Ty → Bool
  | any => true
  | comparable => true
  | _ => false

/-- Whether a value of type `source` may stand where `target` is expected. -/
def assignable (target source : Ty) : Bool := target.same source || target.isTop

def isString : Ty → Bool
  | string => true
  | _ => false

def isNumber : Ty → Bool
  | integer => true
  | decimal => true
  | _ => false

/-- The field `name` of a record; other types have none. -/
def field? : Ty → String → Option (Variable Ty)
  | record type, name => type.members.lookup? name
  | _, _ => none

/-- The method `name` of a record whose parameters, the receiver among them, count `arity`. -/
def method? : Ty → String → Nat → Option (Signature Ty)
  | record type, name, arity => type.members.function? name arity
  | _, _, _ => none

end Ty

namespace RecordType

def withField (type : RecordType Ty) (name : String) (field : Ty) : RecordType Ty :=
  { type with members := type.members.declare name ⟨name, field⟩ }

/-- Adds a method; `params` are the types of its parameters without the receiver. -/
def withMethod (type : RecordType Ty) (name : String) (params : List Ty) (returns : Ty) :
    RecordType Ty :=
  let signature : Signature Ty := ⟨name, .any :: params, returns⟩
  { type with members := type.members.declareFunction name signature.arity signature }

end RecordType

end ScriptLang
