import Mathlib.Logic.Relation
import ScriptLang.Execution.Program

/-!
The moments of a run: the nodes that it comes to, each with the state it comes there in. `Demands`
says which part of a node is looked at next once the parts before it are done, and `Moment.Next`
adds the step from a call into the body of the method. The moments of a program that can go on for
ever are those it reaches with some amount of fuel.
-/

set_option autoImplicit false
set_option relaxedAutoImplicit false

namespace ScriptLang

/-- A node of a tree that a run comes to. -/
inductive Node
  | expr (expr : Expr)
  | stmt (statement : Stmt)

/-- The way from a node to one of its parts. -/
inductive Turn
  | inner
  | left
  | right
  | receiver
  | arg (index : Nat)
  | value
  | target
  | condition
  | thenBody (index : Nat)
  | elseBody (index : Nat)
  | body (index : Nat)
  deriving DecidableEq

/-- Where the way to a node begins: at the initial value of a field, at the call of `main` that
starts the program, or at a statement of a method. -/
inductive Root
  | field (index : Nat)
  | entry
  | statement (method : String) (arity index : Nat)
  deriving DecidableEq

/-- The place of a node in a program. -/
structure Place where
  root : Root
  turns : List Turn := []
  deriving DecidableEq

def Place.turn (place : Place) (turn : Turn) : Place := ⟨place.root, place.turns ++ [turn]⟩

/-- The call that starts a program. -/
def Program.entry : Expr := .call ⟨0, none⟩ "main" [] none

section

variable {H : Type} [Host H] (fuel : Nat)

def evalArgs (args : List Expr) : Run H (List Value) := evalArgsWith (Callable.invoke fuel) args

def execAll (statements : List Stmt) : Run H Flow :=
  execAllWith (Callable.invoke fuel) fuel statements

def Expr.holds (condition : Expr) : Run H Bool := condition.conditionWith (Callable.invoke fuel)

/-- One round of a loop over a range. -/
def roundOf (name : String) (body : List Stmt) (item : Int) : Run H Flow :=
  Run.block (Scope.declare {} name (.integer item)) (execAll fuel body)

/-- One full round of a conditional loop. -/
def Round (condition : Expr) (body : List Stmt) (state after : State H) : Prop :=
  ∃ middle, condition.holds fuel state = .ok true middle ∧
    Run.block {} (execAll fuel body) middle = .ok .next after

/-- What a run comes to directly from a node: `Demands fuel node state turn part after` if the part
of `node` behind `turn` is come to in the state `after` when the run came to `node` in `state`. The
target of an assignment is come to when it is assigned to. -/
inductive Demands : Node → State H → Turn → Node → State H → Prop
  | inner {mark inner state} :
    Demands (.expr (.group mark inner)) state .inner (.expr inner) state
  | left {mark op left right state} :
    Demands (.expr (.binary mark op left right)) state .left (.expr left) state
  | right {mark op left right state value after} (hop : op.shortcut? = none)
    (hleft : left.eval fuel state = .ok value after) :
    Demands (.expr (.binary mark op left right)) state .right (.expr right) after
  | undecided {mark op left right state value after decisive} (hop : op.shortcut? = some decisive)
    (hleft : left.eval fuel state = .ok (.boolean value) after) (hvalue : value ≠ decisive) :
    Demands (.expr (.binary mark op left right)) state .right (.expr right) after
  | memberReceiver {mark receiver name resolved state} :
    Demands (.expr (.member mark receiver name resolved)) state .receiver (.expr receiver) state
  | callArg {mark name args resolved state values after index arg}
    (hbefore : evalArgs fuel (args.take index) state = .ok values after)
    (harg : args[index]? = some arg) :
    Demands (.expr (.call mark name args resolved)) state (.arg index) (.expr arg) after
  | invokeReceiver {mark receiver name args resolved state} :
    Demands (.expr (.invoke mark receiver name args resolved)) state .receiver (.expr receiver)
      state
  | invokeArg {mark receiver name args resolved state object middle values after index arg}
    (hreceiver : receiver.eval fuel state = .ok object middle)
    (hbefore : evalArgs fuel (args.take index) middle = .ok values after)
    (harg : args[index]? = some arg) :
    Demands (.expr (.invoke mark receiver name args resolved)) state (.arg index) (.expr arg) after
  | statementValue {value state} : Demands (.stmt (.expr value)) state .value (.expr value) state
  | initialValue {binding value state} (hvalue : binding.value = some value) :
    Demands (.stmt (.declare binding)) state .value (.expr value) state
  | assigned {target value state} (htarget : target.isTarget = true) :
    Demands (.stmt (.assign target value)) state .value (.expr value) state
  | target {target value state result after} (htarget : target.isTarget = true)
    (hvalue : value.eval fuel state = .ok result after) :
    Demands (.stmt (.assign target value)) state .target (.expr target) after
  | branchCondition {condition thenBody elseBody state} :
    Demands (.stmt (.branch condition thenBody elseBody)) state .condition (.expr condition) state
  | thenBody {condition thenBody elseBody state middle after index statement}
    (hcondition : condition.holds fuel state = .ok true middle)
    (hbefore : execAll fuel (thenBody.take index) (middle.enterBlock {}) = .ok .next after)
    (hstatement : thenBody[index]? = some statement) :
    Demands (.stmt (.branch condition thenBody elseBody)) state (.thenBody index) (.stmt statement)
      after
  | elseBody {condition thenBody elseBody state middle after index statement}
    (hcondition : condition.holds fuel state = .ok false middle)
    (hbefore : execAll fuel (elseBody.take index) (middle.enterBlock {}) = .ok .next after)
    (hstatement : elseBody[index]? = some statement) :
    Demands (.stmt (.branch condition thenBody elseBody)) state (.elseBody index) (.stmt statement)
      after
  | iterable {offset name iterable body state} :
    Demands (.stmt (.forEach offset name iterable body)) state .value (.expr iterable) state
  | rangeBody {offset name iterable body state start stop middle count before after index statement}
    (hiterable : iterable.eval fuel state = .ok (.range start stop) middle)
    (hcount : count < (stop - start).toNat)
    (hrounds : Run.forRange (roundOf fuel name body) count start middle = .ok .next before)
    (hbefore : execAll fuel (body.take index)
      (before.enterBlock (Scope.declare {} name (.integer (start + count)))) = .ok .next after)
    (hstatement : body[index]? = some statement) :
    Demands (.stmt (.forEach offset name iterable body)) state (.body index) (.stmt statement) after
  | loopCondition {condition body state after}
    (hrounds : Relation.ReflTransGen (Round fuel condition body) state after) :
    Demands (.stmt (.loop condition body)) state .condition (.expr condition) after
  | loopBody {condition body state before middle after index statement}
    (hrounds : Relation.ReflTransGen (Round fuel condition body) state before)
    (hcondition : condition.holds fuel before = .ok true middle)
    (hbefore : execAll fuel (body.take index) (middle.enterBlock {}) = .ok .next after)
    (hstatement : body[index]? = some statement) :
    Demands (.stmt (.loop condition body)) state (.body index) (.stmt statement) after
  | returned {value state} : Demands (.stmt (.ret value)) state .value (.expr value) state

end

/-- A node that a run comes to, with its place and the state; `callers` are the places of the calls
that the run is inside of, and `fuel` is what is left for further ones. -/
structure Moment (H : Type) where
  fuel : Nat
  place : Place
  callers : List Place
  node : Node
  state : State H

variable {H : Type} [Host H]

/-- From a moment to the next one: to a part of the node, or from a call to a statement of the
method that is called. -/
inductive Moment.Next : Moment H → Moment H → Prop
  | turn {fuel place callers node state turn part after}
    (hdemands : Demands fuel node state turn part after) :
    Next ⟨fuel, place, callers, node, state⟩ ⟨fuel, place.turn turn, callers, part, after⟩
  | enter {fuel place callers mark name args resolved state values middle procedure after index
      statement}
    (hargs : evalArgs (fuel + 1) args state = .ok values middle)
    (hcallee : middle.chain.function? name values.length = some (.procedure procedure))
    (harity : values.length = procedure.params.length)
    (hbefore : execAll fuel (procedure.body.take index)
      (middle.enterCall (Callable.parameterScope procedure.params values)) = .ok .next after)
    (hstatement : procedure.body[index]? = some statement) :
    Next ⟨fuel + 1, place, callers, .expr (.call mark name args resolved), state⟩
      ⟨fuel, ⟨.statement procedure.name procedure.params.length index, []⟩, place :: callers,
        .stmt statement, after⟩

namespace Program

/-- The state in which a program begins: its module is empty. -/
def opened (start : State H) : State H := { start with module := {} }

/-- The moments at which the parts of a program begin: the initial values of its fields, one after
the other, and then the call of `main`. -/
inductive Begins (fuel : Nat) (program : Program) (start : State H) : Moment H → Prop
  | field {index state field value}
    (hbefore : initializeFields fuel (program.fields.take index) (opened start) = .ok () state)
    (hfield : program.fields[index]? = some field) (hvalue : field.value = some value) :
    Begins fuel program start ⟨fuel, ⟨.field index, []⟩, [], .expr value, state⟩
  | main {state} (hfields : initializeFields fuel program.fields (opened start) = .ok () state) :
    Begins fuel program start
      ⟨fuel, ⟨.entry, []⟩, [], .expr entry, state.declareMethods program.methods⟩

/-- A run of `program` from `start` comes to `moment`. -/
def Reaches (fuel : Nat) (program : Program) (start : State H) (moment : Moment H) : Prop :=
  ∃ first, program.Begins fuel start first ∧ Relation.ReflTransGen Moment.Next first moment

theorem Reaches.next {fuel : Nat} {program : Program} {start : State H} {moment next : Moment H}
    (h : program.Reaches fuel start moment) (hnext : moment.Next next) :
    program.Reaches fuel start next := by
  obtain ⟨first, hbegins, hsteps⟩ := h
  exact ⟨first, hbegins, hsteps.tail hnext⟩

end Program

end ScriptLang
