import ScriptLang.Execution.Program
import ScriptLang.Proofs.Execution.Outcome

/-!
What a run cannot change, whether or not the program was checked. Evaluating an expression leaves
the scopes of the current call and of all suspended calls as they are, and no run binds a name in
the scope of the host that was not bound there before. A call works on a scope of its own, which is
gone when the call is left.
-/

set_option autoImplicit false
set_option relaxedAutoImplicit false

namespace ScriptLang

/-- Two scopes bind the same variables, and their functions are equal. -/
structure Scope.SameNames {V F : Type} (first second : Scope V F) : Prop where
  vars : ∀ name, (second.lookup? name).isSome = (first.lookup? name).isSome
  functions : second.functions = first.functions

namespace Scope.SameNames

variable {V F : Type} {first second third : Scope V F}

theorem refl (scope : Scope V F) : scope.SameNames scope := ⟨fun _ ↦ rfl, rfl⟩

theorem trans (hfirst : first.SameNames second) (hsecond : second.SameNames third) :
    first.SameNames third :=
  ⟨fun name ↦ (hsecond.vars name).trans (hfirst.vars name),
    hsecond.functions.trans hfirst.functions⟩

/-- An assignment only changes a value that is bound already. -/
theorem of_assign? {name : String} {value : V} (hassign : first.assign? name value = some second) :
    first.SameNames second := by
  unfold Scope.assign? at hassign
  split at hassign
  · rename_i hbound
    cases hassign
    refine ⟨fun other ↦ ?_, rfl⟩
    by_cases hother : other = name
    · simp [hother, hbound]
    · simp [hother]
  · cases hassign

end Scope.SameNames

namespace State

variable {H : Type}

/-- What every statement keeps: the calls that wait for the current one, and the names of the
host. -/
structure SameCallers (before after : State H) : Prop where
  suspended : after.suspended = before.suspended
  globals : before.globals.SameNames after.globals

/-- What the evaluation of an expression keeps: also the scopes of the current call. -/
structure SameFrames (before after : State H) : Prop extends SameCallers before after where
  locals : after.locals = before.locals

instance : Std.Refl (SameCallers (H := H)) := ⟨fun _ ↦ ⟨rfl, .refl _⟩⟩

instance : IsTrans (State H) SameCallers :=
  ⟨fun _ _ _ hfirst hsecond ↦
    ⟨hsecond.suspended.trans hfirst.suspended, hfirst.globals.trans hsecond.globals⟩⟩

instance : Std.Refl (SameFrames (H := H)) := ⟨fun _ ↦ ⟨⟨rfl, .refl _⟩, rfl⟩⟩

instance : IsTrans (State H) SameFrames :=
  ⟨fun _ _ _ hfirst hsecond ↦
    ⟨IsTrans.trans _ _ _ hfirst.toSameCallers hsecond.toSameCallers,
      hsecond.locals.trans hfirst.locals⟩⟩

/-- An assignment changes the current call, its module or its host, and no call that waits for
it. -/
theorem SameCallers.of_assign? {state after : State H} {name : String} {value : Value}
    (hassign : state.assign? name value = some after) : state.SameCallers after := by
  unfold assign? at hassign
  split at hassign
  · cases hassign
    exact ⟨rfl, .refl _⟩
  · split at hassign
    · cases hassign
      exact ⟨rfl, .refl _⟩
    · obtain ⟨globals, hglobals, rfl⟩ := Option.map_eq_some_iff.mp hassign
      exact ⟨rfl, .of_assign? hglobals⟩

/-- A declaration goes into the current call, or into its module outside all calls. -/
theorem sameCallers_declare (state : State H) (name : String) (value : Value) :
    state.SameCallers (state.declare name value) := by
  unfold declare
  split <;> exact ⟨rfl, .refl _⟩

end State

namespace Run

variable {H α : Type}

/-- Reading a variable changes no scope. -/
theorem lookup_moves (name : String) : (lookup name : Run H Value).Moves State.SameFrames := by
  intro state
  unfold Ensures
  rw [lookup_apply]
  cases state.chain.lookup? name <;> exact Std.Refl.refl state

/-- Finding a function changes no scope. -/
theorem function_moves (name : String) (arity : Nat) :
    (function name arity : Run H (Callable H)).Moves State.SameFrames := by
  intro state
  unfold Ensures
  rw [function_apply]
  cases state.chain.function? name arity <;> exact Std.Refl.refl state

theorem field_moves (ref : ObjectRef) (name : String) :
    (field ref name : Run H Value).Moves State.SameFrames := by
  intro state
  unfold Ensures
  rw [field_apply]
  exact Moves.ofExcept _ state

/-- Setting a field changes an object and no scope. -/
theorem setField_moves (ref : ObjectRef) (name : String) (value : Value) :
    (setField ref name value : Run H Unit).Moves State.SameFrames := by
  intro state
  unfold Ensures
  rw [setField_apply]
  cases state.objects.setField ref name value <;> exact ⟨⟨rfl, .refl _⟩, rfl⟩

theorem method_moves (ref : ObjectRef) (name : String) (arity : Nat) :
    (method ref name arity : Run H (Callable H)).Moves State.SameFrames := by
  intro state
  unfold Ensures
  rw [method_apply]
  cases state.objects.method ref name arity <;> exact Std.Refl.refl state

theorem print_moves (line : String) : (print line : Run H Unit).Moves State.SameFrames := by
  intro state
  unfold Ensures
  rw [print_apply]
  cases state.sink.print line <;> exact ⟨⟨rfl, .refl _⟩, rfl⟩

/-- A function of the host is given objects and no scope. -/
theorem host_moves [Host H] (body : H) (args : List Value) :
    (host body args).Moves State.SameFrames := by
  intro state
  unfold Ensures host
  split
  · rename_i hrun
    split at hrun <;> cases hrun
    exact ⟨⟨rfl, .refl _⟩, rfl⟩
  · rename_i hrun
    split at hrun <;> cases hrun
    exact ⟨⟨rfl, .refl _⟩, rfl⟩

/-- An assignment keeps the scopes of all calls that wait, and what is bound elsewhere. -/
theorem assign_moves (name : String) (value : Value) :
    (assign name value : Run H Unit).Moves State.SameCallers := by
  intro state
  unfold Ensures
  rw [assign_apply]
  cases hassign : state.assign? name value with
  | none => exact Std.Refl.refl state
  | some after => exact .of_assign? hassign

/-- A block takes its own scope away when it is left, so it keeps what its body keeps. -/
theorem block_moves (scope : ValueScope H) {body : Run H α} (hbody : body.Moves State.SameCallers) :
    (block scope body).Moves State.SameCallers := by
  intro state
  refine .within ((hbody _).mono (fun _ after hafter ↦ ?_) fun after hafter ↦ ?_) <;>
    exact ⟨hafter.suspended, hafter.globals⟩

/-- Leaving a call gives the caller its scopes back, whatever the call did with its own. -/
theorem call_moves (scope : ValueScope H) {body : Run H α} (hbody : body.Moves State.SameCallers) :
    (call scope body).Moves State.SameFrames := by
  have hleave (state after : State H) (hafter : (state.enterCall scope).SameCallers after) :
      state.SameFrames after.leaveCall := by
    refine ⟨⟨?_, hafter.globals⟩, ?_⟩ <;> simp [State.leaveCall, hafter.suspended, State.enterCall]
  intro state
  exact .within ((hbody _).mono (fun _ ↦ hleave state) (hleave state))

variable {condition : Run H Bool} {body : Run H Flow}

/-- A conditional loop keeps what its condition and its body keep. The induction is on the fuel for
its turns. -/
theorem repeatWhile_moves (hcondition : condition.Moves State.SameCallers)
    (hbody : body.Moves State.SameCallers) (fuel : Nat) :
    (repeatWhile condition body fuel).Moves State.SameCallers := by
  induction fuel with
  | zero => exact .throw _
  | succ fuel ih =>
    refine hcondition.bind fun holds ↦ ?_
    split
    · refine hbody.bind fun flow ↦ ?_
      cases flow with
      | next => exact ih
      | returned value => exact .pure _
    · exact .pure _

/-- A loop over a range keeps what its body keeps at each number. -/
theorem forRange_moves {body : Int → Run H Flow}
    (hbody : ∀ item, (body item).Moves State.SameCallers)
    (count : Nat) (start : Int) : (forRange body count start).Moves State.SameCallers := by
  induction count generalizing start with
  | zero => exact .pure _
  | succ count ih =>
    refine (hbody start).bind fun flow ↦ ?_
    cases flow with
    | next => exact ih (start + 1)
    | returned value => exact .pure _

end Run

section

variable {H : Type} {invoke : Callable H → List Value → Run H Value}
  (hinvoke : ∀ callable args, (invoke callable args).Moves State.SameFrames)

include hinvoke

-- A mutual recursion over the tree does not name the hypothesis that it shares.
set_option linter.unusedSectionVars false

mutual

/-- An expression assigns to nothing, so only calls could change a scope, and they do not. -/
theorem Expr.evalWith_moves : ∀ expr : Expr, (expr.evalWith invoke).Moves State.SameFrames
  | .literal _ value => .pure _
  | .group _ inner => inner.evalWith_moves
  | .binary _ op left right => by
    rw [Expr.evalWith]
    refine left.evalWith_moves.bind fun first ↦ ?_
    split
    · refine (Run.Moves.ofExcept _).bind fun holds ↦ ?_
      split
      · exact .pure _
      · refine right.evalWith_moves.bind fun second ↦ ?_
        exact (Run.Moves.ofExcept _).bind fun _ ↦ .pure _
    · exact right.evalWith_moves.bind fun second ↦ .ofExcept _
  | .access _ name _ => Run.lookup_moves name
  | .member _ receiver name _ =>
    receiver.evalWith_moves.bind fun _ ↦ (Run.Moves.ofExcept _).bind fun ref ↦
      Run.field_moves ref name
  | .call _ name args _ =>
    (evalArgsWith_moves args).bind fun values ↦
      (Run.function_moves name values.length).bind fun callable ↦ hinvoke callable values
  | .invoke _ receiver name args _ =>
    receiver.evalWith_moves.bind fun object ↦ (evalArgsWith_moves args).bind fun values ↦
      (Run.Moves.ofExcept _).bind fun ref ↦
        (Run.method_moves ref name (values.length + 1)).bind fun callable ↦
          hinvoke callable (object :: values)

/-- Arguments leave all scopes as they are. -/
theorem evalArgsWith_moves : ∀ args : List Expr, (evalArgsWith invoke args).Moves State.SameFrames
  | [] => .pure _
  | head :: tail =>
    head.evalWith_moves.bind fun _ ↦ (evalArgsWith_moves tail).bind fun _ ↦ .pure _

end

/-- The value of a declaration leaves all scopes as they are. -/
theorem Binding.evalWith_moves (binding : Binding) :
    (binding.evalWith invoke).Moves State.SameFrames := by
  unfold Binding.evalWith
  split
  · exact Expr.evalWith_moves hinvoke _
  · exact .pure _

theorem Expr.evalWith_moves_callers (expr : Expr) :
    (expr.evalWith invoke).Moves State.SameCallers :=
  (expr.evalWith_moves hinvoke).mono fun _ _ h ↦ h.toSameCallers

theorem Expr.conditionWith_moves (condition : Expr) :
    (condition.conditionWith invoke).Moves State.SameCallers :=
  (condition.evalWith_moves_callers hinvoke).bind fun _ ↦ .ofExcept _

/-- Only the last step of an assignment changes a scope. -/
theorem Expr.assignWith_moves (target value : Expr) :
    (target.assignWith invoke value).Moves State.SameCallers := by
  unfold Expr.assignWith
  split
  · exact (value.evalWith_moves_callers hinvoke).bind fun value ↦ Run.assign_moves _ value
  · refine (value.evalWith_moves_callers hinvoke).bind fun value ↦ ?_
    refine (Expr.evalWith_moves_callers hinvoke _).bind fun object ↦ ?_
    refine (Run.Moves.ofExcept _).bind fun ref ↦ ?_
    exact (Run.setField_moves ref _ value).mono fun _ _ h ↦ h.toSameCallers
  · exact .throw _

variable (fuel : Nat)

mutual

/-- A statement keeps the scopes of all calls that wait. The recursion follows the tree. -/
theorem Stmt.execWith_moves : ∀ statement : Stmt,
    (statement.execWith invoke fuel).Moves State.SameCallers
  | .expr value => by
    rw [Stmt.execWith, Stateful.discard_eq]
    exact ((value.evalWith_moves_callers hinvoke).bind fun _ ↦ .pure _).bind fun _ ↦ .pure _
  | .declare binding => by
    rw [Stmt.execWith]
    refine ((binding.evalWith_moves hinvoke).mono fun _ _ h ↦ h.toSameCallers).bind fun value ↦ ?_
    exact fun state ↦ state.sameCallers_declare binding.name value
  | .assign target value => by
    rw [Stmt.execWith]
    exact (target.assignWith_moves hinvoke value).bind fun _ ↦ .pure _
  | .branch condition thenBody elseBody => by
    rw [Stmt.execWith]
    refine (condition.conditionWith_moves hinvoke).bind fun holds ↦ ?_
    split
    · exact Run.block_moves _ (execAllWith_moves thenBody)
    · exact Run.block_moves _ (execAllWith_moves elseBody)
  | .forEach _ name iterable body => by
    rw [Stmt.execWith]
    refine (iterable.evalWith_moves_callers hinvoke).bind fun _ ↦ ?_
    refine (Run.Moves.ofExcept _).bind fun bounds ↦ ?_
    exact Run.forRange_moves (fun item ↦ Run.block_moves _ (execAllWith_moves body)) _ _
  | .loop condition body => by
    rw [Stmt.execWith]
    exact Run.repeatWhile_moves (condition.conditionWith_moves hinvoke)
      (Run.block_moves _ (execAllWith_moves body)) fuel
  | .ret value => by
    rw [Stmt.execWith]
    exact (value.evalWith_moves_callers hinvoke).bind fun _ ↦ .pure _

/-- Statements keep the scopes of all calls that wait. -/
theorem execAllWith_moves : ∀ statements : List Stmt,
    (execAllWith invoke fuel statements).Moves State.SameCallers
  | [] => .pure _
  | head :: tail => by
    rw [execAllWith]
    refine (head.execWith_moves).bind fun flow ↦ ?_
    cases flow with
    | next => exact execAllWith_moves tail
    | returned value => exact .pure _

end

end

section

variable {H : Type} [Host H]

/-- A call pushes scopes of its own and takes them away, so it keeps even the scopes of its
caller. -/
theorem Callable.perform_moves {run : List Stmt → Run H Flow}
    (hrun : ∀ body, (run body).Moves State.SameCallers) (callable : Callable H)
    (args : List Value) : (callable.perform run args).Moves State.SameFrames := by
  by_cases harity : args.length = callable.arity
  · refine Callable.cases_of_arity callable args harity ?_ ?_ ?_ ?_
    · exact fun value ↦ (Run.print_moves value.display).bind fun _ ↦ .pure _
    · exact fun start stop ↦
        (Run.Moves.ofExcept _).bind fun _ ↦ (Run.Moves.ofExcept _).bind fun _ ↦ .pure _
    · intro function args harity
      rw [Callable.perform_host run harity]
      exact Run.host_moves function.body args
    · intro definition args harity
      rw [Callable.perform_procedure run harity]
      refine Run.call_moves _ ((hrun definition.body).bind fun flow ↦ ?_)
      cases flow <;> exact .pure _
  · rw [Callable.perform_of_ne run harity]
    exact .throw _

/-- A call keeps the scopes of its caller with any amount of fuel. The induction is on the fuel,
since a body may call again. -/
theorem Callable.invoke_moves (fuel : Nat) (callable : Callable H) (args : List Value) :
    (callable.invoke fuel args).Moves State.SameFrames := by
  induction fuel generalizing callable args with
  | zero => exact callable.perform_moves (fun _ ↦ .throw _) args
  | succ fuel ih => exact callable.perform_moves (execAllWith_moves ih fuel) args

theorem Expr.eval_moves (fuel : Nat) (expr : Expr) : (expr.eval fuel : Run H Value).Moves
    State.SameFrames := expr.evalWith_moves (Callable.invoke_moves fuel)

/-- Fields are declared in the module, outside all calls. -/
theorem initializeFields_moves (fuel : Nat) (fields : List Binding) :
    (initializeFields fuel fields : Run H Unit).Moves State.SameCallers := by
  induction fields with
  | nil => exact .pure _
  | cons head tail ih =>
    refine ((head.evalWith_moves (Callable.invoke_moves fuel)).mono
      fun _ _ h ↦ h.toSameCallers).bind fun value ↦ ?_
    refine Run.Moves.bind (fun state ↦ ?_) fun _ ↦ ih
    exact state.sameCallers_declare head.name value

/-- A run leaves no call open, and the names of the host as they are. -/
theorem Program.run_keeps (program : Program) (fuel : Nat) {state : State H}
    (hlocals : state.locals = []) :
    (program.run fuel).Ensures state (fun _ ↦ state.SameFrames) state.SameFrames := by
  have hfields (fields : List Binding) (before : State H) (hbefore : before.locals = []) :
      (initializeFields fuel fields).Ensures before (fun _ ↦ before.SameFrames)
        before.SameFrames := by
    induction fields generalizing before with
    | nil => exact .pure (Std.Refl.refl before)
    | cons head tail ih =>
      refine .bind ((head.evalWith_moves (Callable.invoke_moves fuel) before).mono
        (fun value middle hmiddle ↦ .bind ?_) fun _ h ↦ h)
      have hdeclare : middle.SameFrames (middle.declare head.name value) := by
        refine ⟨middle.sameCallers_declare head.name value, ?_⟩
        unfold State.declare
        rw [hmiddle.locals, hbefore]
      have hdeclared := IsTrans.trans _ _ _ hmiddle hdeclare
      exact (ih _ (hdeclared.locals.trans hbefore)).mono
        (fun _ _ ↦ IsTrans.trans _ _ _ hdeclared) fun _ ↦ IsTrans.trans _ _ _ hdeclared
  let opened : State H := { state with module := {} }
  have hopened : state.SameFrames opened := ⟨⟨rfl, .refl _⟩, rfl⟩
  refine .bind (.bind
    ((hfields program.fields opened hlocals).mono (fun _ middle hmiddle ↦ .bind ?_)
    fun _ ↦ IsTrans.trans _ _ _ hopened))
  have hready : state.SameFrames (middle.declareMethods program.methods) :=
    IsTrans.trans _ _ _ hopened ⟨⟨hmiddle.suspended, hmiddle.globals⟩, hmiddle.locals⟩
  have hmain := (Run.function_moves "main" 0).bind fun main ↦ main.invoke_moves (H := H) fuel []
  exact (hmain _).mono (fun _ _ ↦ IsTrans.trans _ _ _ hready) fun _ ↦ IsTrans.trans _ _ _ hready

end

end ScriptLang
