import ScriptLang.Scope
import ScriptLang.Value

/-!
The state of a run: the block scopes of the current call, those of the calls it is nested in, the
scopes of the module and of the host, the objects of the host, and what was printed. The host
describes what its functions do by a type `H` with an instance of `Host`, so that a run is a pure
function of the state.
-/

set_option autoImplicit false
set_option relaxedAutoImplicit false

namespace ScriptLang

/-- A function of the host, which takes `arity` arguments and does what `body` says. -/
structure HostFunction (H : Type) where
  name : String
  arity : Nat
  body : H
  deriving DecidableEq

/-- An object of the host. A method takes the object as its first argument, which is counted in its
arity, and is found by that arity. -/
structure Object (H : Type) where
  typeName : String
  members : Scope Value (HostFunction H) := {}
  keyed : ∀ name arity function, members.function? name arity = some function →
      function.arity = arity := by
    intro _ _ _ hfound
    cases hfound
  deriving DecidableEq

namespace Object

variable {H : Type}

def withField (object : Object H) (name : String) (value : Value) : Object H where
  typeName := object.typeName
  members := object.members.declare name value
  keyed := object.keyed

/-- Adds a method with `arity` parameters besides the receiver. -/
def withMethod (object : Object H) (name : String) (arity : Nat) (body : H) : Object H where
  typeName := object.typeName
  members := object.members.declareFunction name (arity + 1) ⟨name, arity + 1, body⟩
  keyed := by
    intro other count function hfound
    rw [Scope.function?_declareFunction] at hfound
    split at hfound
    · rename_i hkey
      cases hfound
      exact (Prod.mk.inj hkey).2.symm
    · exact object.keyed other count function hfound

/-- Gives the field `name` a new value if the object has it. -/
def setField? (object : Object H) (name : String) (value : Value) : Option (Object H) :=
  if (object.members.lookup? name).isSome then some (object.withField name value) else none

end Object

/-- The objects of a host by number. -/
abbrev ObjectStore (H : Type) := List (Object H)

namespace ObjectStore

variable {H : Type}

/-- The members of the object that `ref` refers to; a reference to nothing has none. -/
def members (objects : ObjectStore H) (ref : ObjectRef) : Scope Value (HostFunction H) :=
  (objects[ref.index]?.map Object.members).getD {}

def field (objects : ObjectStore H) (ref : ObjectRef) (name : String) :
    Except RuntimeError Value :=
  match (objects.members ref).lookup? name with
  | some value => .ok value
  | none => .error (.undefinedField ref.typeName name)

/-- The method `name` that takes `arity` arguments, the receiver among them. -/
def method (objects : ObjectStore H) (ref : ObjectRef) (name : String) (arity : Nat) :
    Except RuntimeError (HostFunction H) :=
  match (objects.members ref).function? name arity with
  | some function => .ok function
  | none => .error (.undefinedMethod ref.typeName name (arity - 1))

/-- Gives a field of an object a new value. -/
def setField (objects : ObjectStore H) (ref : ObjectRef) (name : String) (value : Value) :
    Except RuntimeError (ObjectStore H) :=
  match objects[ref.index]?.bind (Object.setField? · name value) with
  | some object => .ok (objects.set ref.index object)
  | none => .error (.undefinedField ref.typeName name)

end ObjectStore

/-- What the functions of a host do with their arguments and with the objects of the host. -/
class Host (H : Type) where
  run : H → List Value → ObjectStore H → Except RuntimeError Value × ObjectStore H

/-- A host without functions of its own. -/
instance : Host Empty where
  run body := nomatch body

/-- Where printed text goes: it is collected, or every attempt to print fails. -/
inductive Sink
  | text (printed : String)
  | broken (reason : String)
  deriving DecidableEq, Inhabited

namespace Sink

/-- Prints one line. -/
def print (line : String) : Sink → Except RuntimeError Sink
  | text printed => .ok (text (printed ++ line ++ "\n"))
  | broken reason => .error (.outputFailed reason)

/-- The text that was printed. -/
def printed : Sink → String
  | text printed => printed
  | broken _ => ""

end Sink

/-- A method of a program that can be called. -/
structure Procedure where
  name : String
  params : List String
  body : List Stmt

/-- What a name in call position can stand for. -/
inductive Callable (H : Type)
  | print
  | range
  | host (function : HostFunction H)
  | procedure (definition : Procedure)

def Callable.arity {H : Type} : Callable H → Nat
  | print => 1
  | range => 2
  | host function => function.arity
  | procedure definition => definition.params.length

/-- The variables and functions of one level, with their values. -/
abbrev ValueScope (H : Type) := Scope Value (Callable H)

abbrev ValueChain (H : Type) := Chain Value (Callable H)

/-- The state of a run. `locals` are the block scopes of the current call, innermost first, and
`suspended` those of the calls around it; outside of calls there are none. -/
structure State (H : Type) where
  locals : ValueChain H := []
  suspended : List (ValueChain H) := []
  module : ValueScope H := {}
  globals : ValueScope H := {}
  objects : ObjectStore H := []
  sink : Sink := .text ""

namespace State

variable {H : Type}

/-- The state before any run of a host that adds nothing. -/
def initial (sink : Sink) : State H where
  globals := (Scope.declareFunction {} "print" 1 .print).declareFunction "range" 2 .range
  sink := sink

/-- Gives the host one more object, and a reference to it. -/
def addObject (state : State H) (object : Object H) : ObjectRef × State H :=
  (⟨object.typeName, state.objects.length⟩, { state with objects := state.objects ++ [object] })

/-- The visible scopes, innermost first. -/
def chain (state : State H) : ValueChain H :=
  state.locals ++ [state.module, state.globals]

/-- Declares a variable in the innermost scope. -/
def declare (state : State H) (name : String) (value : Value) : State H :=
  match state.locals with
  | [] => { state with module := state.module.declare name value }
  | scope :: outer => { state with locals := scope.declare name value :: outer }

/-- Gives the nearest variable `name` a new value. -/
def assign? (state : State H) (name : String) (value : Value) : Option (State H) :=
  match state.locals.assign? name value with
  | some locals => some { state with locals }
  | none =>
    match state.module.assign? name value with
    | some module => some { state with module }
    | none => (state.globals.assign? name value).map fun globals ↦ { state with globals }

def enterBlock (scope : ValueScope H) (state : State H) : State H :=
  { state with locals := scope :: state.locals }

def leaveBlock (state : State H) : State H := { state with locals := state.locals.tail }

/-- Begins a call, in which the scopes of the caller are not visible. -/
def enterCall (scope : ValueScope H) (state : State H) : State H :=
  { state with locals := [scope], suspended := state.locals :: state.suspended }

def leaveCall (state : State H) : State H :=
  { state with locals := state.suspended.headD [], suspended := state.suspended.tail }

end State

end ScriptLang
