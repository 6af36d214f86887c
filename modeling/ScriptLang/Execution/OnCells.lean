import ScriptLang.Execution.Memory
import ScriptLang.Execution.Program

/-!
Running programs on cells. A run has the number of the scope it is in, calls open a scope inside the
one their function was declared in, and a scope is left by going on in another one. What a run goes
through is kept: the memories before each change, and the memory before and after each expression.
-/

set_option autoImplicit false
set_option relaxedAutoImplicit false

namespace ScriptLang

/-- An expression that was evaluated in a scope, and the memory before and after it. -/
structure Visit (H : Type) where
  expr : Expr
  scope : Nat
  before : Memory H
  after : Memory H

/-- A memory, with those before it and the expressions that were evaluated, the latest first. -/
structure Tracked (H : Type) where
  memory : Memory H
  earlier : List (Memory H) := []
  visits : List (Visit H) := []

/-- Every memory so far. -/
def Tracked.memories {H : Type} (tracked : Tracked H) : List (Memory H) :=
  tracked.memory :: tracked.earlier

abbrev CellRun (H : Type) := EStateM Interruption (Tracked H)

def Tracked.change {H : Type} (tracked : Tracked H) (step : Memory H → Memory H) : Tracked H :=
  { tracked with memory := step tracked.memory, earlier := tracked.memories }

def Tracked.visit {H : Type} (tracked before : Tracked H) (expr : Expr) (scope : Nat) :
    Tracked H :=
  { tracked with visits := ⟨expr, scope, before.memory, tracked.memory⟩ :: tracked.visits }

namespace CellRun

variable {H α : Type}

def fail (cause : RuntimeError) : CellRun H α := throw (.failed cause)

def ofExcept : Except RuntimeError α → CellRun H α
  | .ok value => pure value
  | .error cause => fail cause

def memory : CellRun H (Memory H) := do return (← get).memory

def change (step : Memory H → Memory H) : CellRun H Unit := modify (·.change step)

/-- Writes down the memory before and after an expression, however its evaluation ends. -/
def visiting (expr : Expr) (scope : Nat) (body : CellRun H α) : CellRun H α := fun tracked ↦
  match body tracked with
  | .ok value after => .ok value (after.visit tracked expr scope)
  | .error cause after => .error cause (after.visit tracked expr scope)

def openScope (parent : Nat) : CellRun H Nat := do
  let number := (← memory).scopes.nodes.length
  change (·.openScope parent)
  return number

def lookup (scope : Nat) (name : String) : CellRun H Value := do
  let memory ← memory
  match memory.scopes.lookup? scope name with
  | some cell => return memory.read cell
  | none => fail (.undefinedVariable name)

def function (scope : Nat) (name : String) (arity : Nat) : CellRun H (Closure H) := do
  match (← memory).scopes.function? scope name arity with
  | some closure => return closure
  | none => fail (.undefinedFunction name arity)

def assign (scope : Nat) (name : String) (value : Value) : CellRun H Unit := do
  match (← memory).scopes.lookup? scope name with
  | some cell => change (·.write cell value)
  | none => fail (.undefinedVariable name)

def field (ref : ObjectRef) (name : String) : CellRun H Value := do
  let memory ← memory
  match (memory.members ref).lookup? name with
  | some cell => return memory.read cell
  | none => fail (.undefinedField ref.typeName name)

def setField (ref : ObjectRef) (name : String) (value : Value) : CellRun H Unit := do
  match ((← memory).members ref).lookup? name with
  | some cell => change (·.write cell value)
  | none => fail (.undefinedField ref.typeName name)

/-- The method `name` that takes `arity` arguments, the receiver among them. It needs no scope. -/
def method (ref : ObjectRef) (name : String) (arity : Nat) : CellRun H (Closure H) := do
  match ((← memory).members ref).function? name arity with
  | some function => return ⟨.host function, 0⟩
  | none => fail (.undefinedMethod ref.typeName name (arity - 1))

def print (line : String) : CellRun H Unit := do
  let sink ← ofExcept ((← memory).sink.print line)
  change ({ · with sink })

def host [Host H] (body : H) (args : List Value) : CellRun H Value := do
  let (result, objects) := Host.run body args (← memory).contents
  change (·.store objects)
  ofExcept result

/-- Repeats `body` while `condition` holds, at most `fuel` times. -/
def repeatWhile (condition : CellRun H Bool) (body : CellRun H Flow) : Nat → CellRun H Flow
  | 0 => throw .outOfFuel
  | fuel + 1 => do
    if ← condition then
      match ← body with
      | .next => repeatWhile condition body fuel
      | .returned value => return .returned value
    else return .next

/-- Runs `body` for `count` integers in order from `start`. -/
def forRange (body : Int → CellRun H Flow) : Nat → Int → CellRun H Flow
  | 0, _ => return .next
  | count + 1, start => do
    match ← body start with
    | .next => forRange body count (start + 1)
    | .returned value => return .returned value

/-- Declares parameters one after the other. -/
def declareAll (scope : Nat) : List (String × Value) → CellRun H Unit
  | [] => return ()
  | (name, value) :: rest => do
    change (·.declare scope name value)
    declareAll scope rest

end CellRun

/-- Calls a function with as many arguments as it takes; `run` runs the body of a procedure in a
scope. -/
def Closure.perform {H : Type} [Host H] (run : Nat → List Stmt → CellRun H Flow)
    (closure : Closure H) (args : List Value) : CellRun H Value := do
  if args.length ≠ closure.callable.arity then
    CellRun.fail (.wrongArgumentCount closure.callable.arity args.length)
  match closure.callable, args with
  | .print, [value] => do
    CellRun.print value.display
    return .nil
  | .range, [start, stop] => do
    let start ← CellRun.ofExcept start.asInteger
    let stop ← CellRun.ofExcept stop.asInteger
    return .range start stop
  | .host function, args => CellRun.host function.body args
  | .procedure definition, args => do
    let scope ← CellRun.openScope closure.scope
    CellRun.declareAll scope (definition.params.zip args)
    match ← run scope definition.body with
    | .next => return .nil
    | .returned value => return value
  | .print, _ | .range, _ =>
    CellRun.fail (.wrongArgumentCount closure.callable.arity args.length)

section

variable {H : Type} (invoke : Closure H → List Value → CellRun H Value)

mutual

/-- The value of an expression in the scope with the number `scope`. -/
def Expr.evalOnCells (scope : Nat) (expr : Expr) : CellRun H Value :=
  CellRun.visiting expr scope <|
    match expr with
    | .literal _ value => return value.value
    | .group _ inner => inner.evalOnCells scope
    | .binary _ op left right => do
      let first ← left.evalOnCells scope
      match op.shortcut? with
      | some decisive =>
        if (← CellRun.ofExcept first.asBoolean) = decisive then return .boolean decisive
        let second ← right.evalOnCells scope
        return .boolean (← CellRun.ofExcept second.asBoolean)
      | none =>
        let second ← right.evalOnCells scope
        CellRun.ofExcept (op.apply first second)
    | .access _ name _ => CellRun.lookup scope name
    | .member _ receiver name _ => do
      let ref ← CellRun.ofExcept (← receiver.evalOnCells scope).asObject
      CellRun.field ref name
    | .call _ name args _ => do
      let values ← evalArgsOnCells scope args
      invoke (← CellRun.function scope name values.length) values
    | .invoke _ receiver name args _ => do
      let object ← receiver.evalOnCells scope
      let values ← evalArgsOnCells scope args
      let ref ← CellRun.ofExcept object.asObject
      invoke (← CellRun.method ref name (values.length + 1)) (object :: values)

def evalArgsOnCells (scope : Nat) : List Expr → CellRun H (List Value)
  | [] => return []
  | head :: tail => do
    let value ← head.evalOnCells scope
    return value :: (← evalArgsOnCells scope tail)

end

/-- The initial value of a declaration, NIL if none is written. -/
def Binding.evalOnCells (scope : Nat) (binding : Binding) : CellRun H Value :=
  match binding.value with
  | some value => value.evalOnCells invoke scope
  | none => return .nil

/-- Assigns to a variable or field. The value is evaluated before the object of a field. -/
def Expr.assignOnCells (scope : Nat) (target value : Expr) : CellRun H Unit :=
  match target with
  | .access _ name _ => do
    let value ← value.evalOnCells invoke scope
    CellRun.assign scope name value
  | .member _ receiver name _ => do
    let value ← value.evalOnCells invoke scope
    let ref ← CellRun.ofExcept (← receiver.evalOnCells invoke scope).asObject
    CellRun.setField ref name value
  | _ => CellRun.fail .invalidAssignmentTarget

def Expr.conditionOnCells (scope : Nat) (condition : Expr) : CellRun H Bool := do
  CellRun.ofExcept (← condition.evalOnCells invoke scope).asBoolean

variable (fuel : Nat)

mutual

/-- Runs a statement in the scope with the number `scope`. -/
def Stmt.execOnCells (scope : Nat) : Stmt → CellRun H Flow
  | .expr value => do
    discard (value.evalOnCells invoke scope)
    return .next
  | .declare binding => do
    let value ← binding.evalOnCells invoke scope
    CellRun.change (·.declare scope binding.name value)
    return .next
  | .assign target value => do
    target.assignOnCells invoke scope value
    return .next
  | .branch condition thenBody elseBody => do
    if ← condition.conditionOnCells invoke scope then
      execAllOnCells (← CellRun.openScope scope) thenBody
    else execAllOnCells (← CellRun.openScope scope) elseBody
  | .forEach _ name iterable body => do
    let (start, stop) ← CellRun.ofExcept (← iterable.evalOnCells invoke scope).asRange
    CellRun.forRange
      (fun item ↦ do
        let inner ← CellRun.openScope scope
        CellRun.change (·.declare inner name (.integer item))
        execAllOnCells inner body)
      (stop - start).toNat start
  | .loop condition body =>
    CellRun.repeatWhile (condition.conditionOnCells invoke scope)
      (do execAllOnCells (← CellRun.openScope scope) body) fuel
  | .ret value => return .returned (← value.evalOnCells invoke scope)

/-- Runs statements in order until one returns; they share the scope. -/
def execAllOnCells (scope : Nat) : List Stmt → CellRun H Flow
  | [] => return .next
  | head :: tail => do
    match ← head.execOnCells scope with
    | .next => execAllOnCells scope tail
    | .returned value => return .returned value

end

end

section

variable {H : Type} [Host H]

/-- Calls a function. Procedures nest at most `fuel` deep. -/
def Closure.invoke : Nat → Closure H → List Value → CellRun H Value
  | 0 => perform fun _ _ ↦ throw .outOfFuel
  | fuel + 1 => perform fun scope body ↦ execAllOnCells (invoke fuel) fuel scope body

variable (fuel : Nat)

/-- Evaluates and declares fields in order; each sees those before it. -/
def initializeFieldsOnCells (module : Nat) : List Binding → CellRun H Unit
  | [] => return ()
  | head :: tail => do
    let value ← head.evalOnCells (Closure.invoke fuel) module
    CellRun.change (·.declare module head.name value)
    initializeFieldsOnCells module tail

/-- Adds methods to the functions of the module. -/
def declareMethodsOnCells (module : Nat) : List Method → CellRun H Unit
  | [] => return ()
  | head :: tail => do
    CellRun.change (·.declareFunction module head.name head.params.length
      (.procedure head.procedure))
    declareMethodsOnCells module tail

/-- Runs a program to the result of its `main`. -/
def Program.runOnCells (program : Program) : CellRun H Value := do
  CellRun.change Memory.openModule
  let module := (← CellRun.memory).module
  initializeFieldsOnCells fuel module program.fields
  declareMethodsOnCells module program.methods
  let main ← CellRun.function module "main" 0
  main.invoke fuel []

end

end ScriptLang
