import ScriptLang.Execution.State
import ScriptLang.Value.Operation

/-!
Running programs. Calls and loops are given fuel, as they need not end; a run that is out of fuel is
told apart from one that fails, and every other construct recurs on the tree alone. A block runs in
a scope of its own that is gone afterwards, however the block is left.
-/

set_option autoImplicit false
set_option relaxedAutoImplicit false

namespace ScriptLang

/-- Why a run stops before its end. -/
inductive Interruption
  | failed (cause : RuntimeError)
  | outOfFuel
  deriving DecidableEq

/-- How a statement ends: the next one follows, or the call returns a value. -/
inductive Flow
  | next
  | returned (value : Value)
  deriving DecidableEq

/-- A computation on the state of a run. The state is kept when the computation is interrupted. -/
abbrev Run (H : Type) := EStateM Interruption (State H)

namespace Run

variable {H α : Type}

def fail (cause : RuntimeError) : Run H α := throw (.failed cause)

def ofExcept : Except RuntimeError α → Run H α
  | .ok value => pure value
  | .error cause => fail cause

/-- Runs `body` between a change of the state and the change back. -/
def within (enter leave : State H → State H) (body : Run H α) : Run H α := fun state ↦
  match body (enter state) with
  | .ok value state => .ok value (leave state)
  | .error cause state => .error cause (leave state)

def block (scope : ValueScope H) (body : Run H α) : Run H α :=
  within (State.enterBlock scope) State.leaveBlock body

def call (scope : ValueScope H) (body : Run H α) : Run H α :=
  within (State.enterCall scope) State.leaveCall body

def lookup (name : String) : Run H Value := do
  match (← get).chain.lookup? name with
  | some value => return value
  | none => fail (.undefinedVariable name)

def function (name : String) (arity : Nat) : Run H (Callable H) := do
  match (← get).chain.function? name arity with
  | some callable => return callable
  | none => fail (.undefinedFunction name arity)

def assign (name : String) (value : Value) : Run H Unit := do
  match (← get).assign? name value with
  | some state => set state
  | none => fail (.undefinedVariable name)

def field (ref : ObjectRef) (name : String) : Run H Value := do
  ofExcept ((← get).objects.field ref name)

def setField (ref : ObjectRef) (name : String) (value : Value) : Run H Unit := do
  let objects ← ofExcept ((← get).objects.setField ref name value)
  modify ({ · with objects })

def method (ref : ObjectRef) (name : String) (arity : Nat) : Run H (Callable H) := do
  return .host (← ofExcept ((← get).objects.method ref name arity))

def print (line : String) : Run H Unit := do
  let sink ← ofExcept ((← get).sink.print line)
  modify ({ · with sink })

def host [Host H] (body : H) (args : List Value) : Run H Value := fun state ↦
  match Host.run body args state.objects with
  | (.ok value, objects) => .ok value { state with objects }
  | (.error cause, objects) => .error (.failed cause) { state with objects }

/-- Repeats `body` while `condition` holds, at most `fuel` times. -/
def repeatWhile (condition : Run H Bool) (body : Run H Flow) : Nat → Run H Flow
  | 0 => throw .outOfFuel
  | fuel + 1 => do
    if ← condition then
      match ← body with
      | .next => repeatWhile condition body fuel
      | .returned value => return .returned value
    else return .next

/-- Runs `body` for `count` integers in order from `start`. -/
def forRange (body : Int → Run H Flow) : Nat → Int → Run H Flow
  | 0, _ => return .next
  | count + 1, start => do
    match ← body start with
    | .next => forRange body count (start + 1)
    | .returned value => return .returned value

end Run

namespace Callable

variable {H : Type} [Host H]

/-- The scope of a call: the parameters with their arguments. -/
def parameterScope (params : List String) (args : List Value) : ValueScope H :=
  (params.zip args).foldl (fun scope (name, value) ↦ scope.declare name value) {}

/-- Calls a function with as many arguments as it takes; `run` runs the body of a procedure. -/
def perform (run : List Stmt → Run H Flow) (callable : Callable H) (args : List Value) :
    Run H Value := do
  if args.length ≠ callable.arity then
    Run.fail (.wrongArgumentCount callable.arity args.length)
  match callable, args with
  | .print, [value] => do
    Run.print value.display
    return .nil
  | .range, [start, stop] => do
    let start ← Run.ofExcept start.asInteger
    let stop ← Run.ofExcept stop.asInteger
    return .range start stop
  | .host function, args => Run.host function.body args
  | .procedure definition, args =>
    Run.call (parameterScope definition.params args) do
      match ← run definition.body with
      | .next => return .nil
      | .returned value => return value
  | .print, _ | .range, _ => Run.fail (.wrongArgumentCount callable.arity args.length)

end Callable

section

variable {H : Type} (invoke : Callable H → List Value → Run H Value)

mutual

/-- The value of an expression; `invoke` calls a function. Operands and arguments are evaluated
from the left, and a logical operator evaluates its right operand only if the left one does not
decide. -/
def Expr.evalWith : Expr → Run H Value
  | .literal _ value => return value.value
  | .group _ inner => inner.evalWith
  | .binary _ op left right => do
    let first ← left.evalWith
    match op.shortcut? with
    | some decisive =>
      if (← Run.ofExcept first.asBoolean) = decisive then return .boolean decisive
      let second ← right.evalWith
      return .boolean (← Run.ofExcept second.asBoolean)
    | none =>
      let second ← right.evalWith
      Run.ofExcept (op.apply first second)
  | .access _ name _ => Run.lookup name
  | .member _ receiver name _ => do
    let ref ← Run.ofExcept (← receiver.evalWith).asObject
    Run.field ref name
  | .call _ name args _ => do
    let values ← evalArgsWith args
    invoke (← Run.function name values.length) values
  | .invoke _ receiver name args _ => do
    let object ← receiver.evalWith
    let values ← evalArgsWith args
    let ref ← Run.ofExcept object.asObject
    invoke (← Run.method ref name (values.length + 1)) (object :: values)

def evalArgsWith : List Expr → Run H (List Value)
  | [] => return []
  | head :: tail => do
    let value ← head.evalWith
    return value :: (← evalArgsWith tail)

end

/-- The initial value of a declaration, NIL if none is written. -/
def Binding.evalWith (binding : Binding) : Run H Value :=
  match binding.value with
  | some value => value.evalWith invoke
  | none => return .nil

/-- Assigns to a variable or field. The value is evaluated before the object of a field. -/
def Expr.assignWith (target value : Expr) : Run H Unit :=
  match target with
  | .access _ name _ => do
    let value ← value.evalWith invoke
    Run.assign name value
  | .member _ receiver name _ => do
    let value ← value.evalWith invoke
    let ref ← Run.ofExcept (← receiver.evalWith invoke).asObject
    Run.setField ref name value
  | _ => Run.fail .invalidAssignmentTarget

def Expr.conditionWith (condition : Expr) : Run H Bool := do
  Run.ofExcept (← condition.evalWith invoke).asBoolean

variable (fuel : Nat)

mutual

/-- Runs a statement; each conditional loop in it runs its body at most `fuel` times. -/
def Stmt.execWith : Stmt → Run H Flow
  | .expr value => do
    discard (value.evalWith invoke)
    return .next
  | .declare binding => do
    let value ← binding.evalWith invoke
    modify (·.declare binding.name value)
    return .next
  | .assign target value => do
    target.assignWith invoke value
    return .next
  | .branch condition thenBody elseBody => do
    if ← condition.conditionWith invoke then Run.block {} (execAllWith thenBody)
    else Run.block {} (execAllWith elseBody)
  | .forEach _ name iterable body => do
    let (start, stop) ← Run.ofExcept (← iterable.evalWith invoke).asRange
    Run.forRange
      (fun item ↦ Run.block (Scope.declare {} name (.integer item)) (execAllWith body))
      (stop - start).toNat start
  | .loop condition body =>
    Run.repeatWhile (condition.conditionWith invoke) (Run.block {} (execAllWith body)) fuel
  | .ret value => return .returned (← value.evalWith invoke)

/-- Runs statements in order until one returns. -/
def execAllWith : List Stmt → Run H Flow
  | [] => return .next
  | head :: tail => do
    match ← head.execWith with
    | .next => execAllWith tail
    | .returned value => return .returned value

end

end

section

variable {H : Type} [Host H]

/-- Calls a function. Procedures nest at most `fuel` deep. -/
def Callable.invoke : Nat → Callable H → List Value → Run H Value
  | 0 => perform fun _ ↦ throw .outOfFuel
  | fuel + 1 => perform fun body ↦ execAllWith (invoke fuel) fuel body

def Expr.eval (fuel : Nat) (expr : Expr) : Run H Value := expr.evalWith (Callable.invoke fuel)

def Stmt.exec (fuel : Nat) (statement : Stmt) : Run H Flow :=
  statement.execWith (Callable.invoke fuel) fuel

end

end ScriptLang
