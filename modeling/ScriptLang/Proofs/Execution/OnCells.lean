import ScriptLang.Proofs.Execution.CellSteps

/-!
Runs on cells as a whole. Seen through any frame, a run on cells is the run on states. As a frame
can name any other scopes as bystanders, what a run keeps of the calls that wait it keeps of all
scopes but those of the host and the module: the evaluation of an expression changes no variable of
a block or a call, be it the current call, one that waits or one that is over.
-/

set_option autoImplicit false
set_option relaxedAutoImplicit false

namespace ScriptLang

open Stateful (Simulates)

variable {H α : Type}

/-! ### Bystanders -/

/-- The value of a variable of a scope is what is shown under its name. -/
theorem Memory.value?_scope (memory : Memory H) (number : Nat) (name : String) :
    memory.value? ⟨.scope number, name⟩ = (memory.shown number).lookup? name :=
  (Scope.lookup?_map _ _ _ _).symm

/-- The frame of the current call, with all scopes that it does not see as bystanders. -/
def Frame.outer (frame : Frame) (count : Nat) : Frame where
  module := frame.module
  locals := frame.locals
  bystanders := [(List.range count).filter (· ∉ frame.visible)]

/-- The frame with all other scopes as bystanders fits the same memory. -/
theorem Frame.Fits.outer {frame : Frame} {memory : Memory H} (h : frame.Fits memory) :
    (frame.outer memory.scopes.nodes.length).Fits memory := by
  have hwaiting : (frame.outer memory.scopes.nodes.length).waiting.flatten =
      (List.range memory.scopes.nodes.length).filter (· ∉ frame.visible) := List.append_nil _
  refine ⟨h.separate, h.module, ?_, fun number hnumber ↦ ?_, fun locals hmem ↦ ?_,
    fun number hnumber ↦ h.home number (List.mem_append_left _ ?_)⟩
  · refine List.nodup_append'.mpr ⟨(List.nodup_append'.mp h.distinct).1, ?_, ?_⟩
    · exact hwaiting ▸ List.nodup_range.filter _
    · rw [hwaiting]
      exact fun number hvisible hother ↦ of_decide_eq_true (List.mem_filter.mp hother).2 hvisible
  · obtain hvisible | hother := List.mem_append.mp hnumber
    · exact h.present_visible hvisible
    · rw [hwaiting] at hother
      exact List.mem_range.mp (List.mem_filter.mp hother).1
  · obtain rfl := List.mem_singleton.mp hmem
    exact h.nests frame.locals List.mem_cons_self
  · exact (List.append_nil (frame.outer _).visible) ▸ hnumber

/-- What an expression leaves of the calls that wait, it leaves of all scopes. -/
theorem Tracked.Shows.isolated {frame : Frame} {before after : Tracked H} {state : State H}
    (hmodule : before.memory.module = frame.module)
    (h : after.Shows (frame.outer before.memory.scopes.nodes.length) state)
    (hsame : (before.memory.state (frame.outer before.memory.scopes.nodes.length)).SameFrames state)
    (expr : Expr) (scope : Nat) : (Visit.mk expr scope before.memory after.memory).Isolated := by
  have hlocals : frame.locals.map after.memory.shown = frame.locals.map before.memory.shown := by
    have hlocals := hsame.locals
    rw [← h.state] at hlocals
    exact hlocals
  have hothers : [((List.range before.memory.scopes.nodes.length).filter (· ∉ frame.visible)).map
        after.memory.shown] =
      [((List.range before.memory.scopes.nodes.length).filter (· ∉ frame.visible)).map
        before.memory.shown] := by
    have hsuspended := hsame.suspended
    rw [← h.state] at hsuspended
    exact hsuspended
  rintro ⟨owner, name⟩ ⟨number, hnumber, hzero, hother, rfl⟩
  rw [Memory.value?_scope, Memory.value?_scope]
  refine congrArg (Scope.lookup? · name) ?_
  by_cases hlocal : number ∈ frame.locals
  · exact List.map_inj_left.mp hlocals number hlocal
  · refine List.map_inj_left.mp (List.singleton_inj.mp hothers) number ?_
    have hhidden : number ∉ frame.visible := by
      simp only [Frame.visible, List.mem_append, List.mem_cons, List.not_mem_nil, or_false, not_or]
      exact ⟨hlocal, hmodule ▸ hother, hzero⟩
    exact List.mem_filter.mpr ⟨List.mem_range.mpr hnumber, decide_eq_true hhidden⟩

namespace CellRun

variable {scope : Nat} {body : CellRun H α} {run : Run H α}

/-- An expression is run on what two frames show: on that of the run, and on that in which all
other scopes are bystanders. -/
theorem visiting_mirrors (expr : Expr) (hmoves : run.Moves State.SameFrames)
    (hbody : body.Mirrors scope run) :
    (visiting expr scope body).Mirrors scope run := by
  intro frame hscope tracked state h
  let outer := frame.outer tracked.memory.scopes.nodes.length
  have houter : tracked.Shows outer (tracked.memory.state outer) :=
    ⟨h.fits.outer, h.earlier, h.visits, rfl⟩
  have hafter {after : Tracked H} {left others : State H} (hleft : after.Shows frame left)
      (hothers : after.Shows outer others)
      (hsame : (tracked.memory.state outer).SameFrames others) :
      (after.visit tracked expr scope).Shows frame left :=
    ⟨hleft.fits, hleft.earlier, List.forall_mem_cons.mpr
      ⟨hothers.isolated h.fits.module hsame expr scope, hleft.visits⟩, hleft.state⟩
  have hends := hbody frame hscope tracked state h
  have hbeside := hbody outer hscope tracked _ houter
  have hsame := hmoves (tracked.memory.state outer)
  unfold Run.Ensures at hsame
  unfold visiting
  generalize body tracked = one at hends hbeside
  generalize run state = other at hends
  generalize run (tracked.memory.state outer) = beside at hbeside hsame
  cases hends with
  | ok hleft =>
    cases hbeside with
    | ok hothers => exact .ok (hafter hleft hothers hsame)
  | error hleft =>
    cases hbeside with
    | error hothers => exact .error (hafter hleft hothers hsame)

end CellRun

/-! ### Trees -/

section

variable {invoke : Closure H → List Value → CellRun H Value}
  {invoke' : Callable H → List Value → Run H Value}
  (hmoves : ∀ callable args, (invoke' callable args).Moves State.SameFrames)
  (hinvoke : ∀ (frame : Frame) closure args, closure.IsHome frame.module →
    Simulates (Tracked.Shows frame) (invoke closure args) (invoke' closure.callable args))

include hmoves hinvoke

-- A mutual recursion over the tree does not name the hypotheses that it shares.
set_option linter.unusedSectionVars false

section

variable (scope : Nat)

mutual

/-- An expression on cells is the expression on states, if calls are. Each node that is visited is
written down as isolated, which the bystanders of the outer frame give. -/
theorem Expr.evalOnCells_mirrors (expr : Expr) :
    (expr.evalOnCells invoke scope).Mirrors scope (expr.evalWith invoke') := by
  unfold Expr.evalOnCells
  refine CellRun.visiting_mirrors expr (expr.evalWith_moves hmoves) ?_
  match expr with
  | .literal .. => exact .pure _
  | .group _ inner => exact inner.evalOnCells_mirrors
  | .binary _ op left right =>
    rw [Expr.evalWith]
    refine left.evalOnCells_mirrors.bind fun first ↦ ?_
    cases op.shortcut? with
    | some decisive =>
      refine (CellRun.ofExcept_mirrors _).bind fun holds ↦ ?_
      split
      · exact .pure _
      · refine right.evalOnCells_mirrors.bind fun second ↦ ?_
        exact (CellRun.ofExcept_mirrors _).bind fun _ ↦ .pure _
    | none => exact right.evalOnCells_mirrors.bind fun second ↦ CellRun.ofExcept_mirrors _
  | .access _ name _ => exact CellRun.lookup_mirrors name
  | .member _ receiver name _ =>
    rw [Expr.evalWith]
    refine receiver.evalOnCells_mirrors.bind fun _ ↦ ?_
    exact (CellRun.ofExcept_mirrors _).bind fun ref ↦ CellRun.field_mirrors ref name
  | .call _ name args _ =>
    rw [Expr.evalWith]
    refine (evalArgsOnCells_mirrors args).bind fun values ↦ ?_
    exact CellRun.function_bind_mirrors fun frame closure ↦ hinvoke frame closure values
  | .invoke _ receiver name args _ =>
    rw [Expr.evalWith]
    refine receiver.evalOnCells_mirrors.bind fun object ↦ ?_
    refine (evalArgsOnCells_mirrors args).bind fun values ↦ ?_
    refine (CellRun.ofExcept_mirrors _).bind fun ref ↦ ?_
    exact CellRun.method_bind_mirrors fun frame closure ↦ hinvoke frame closure (object :: values)

/-- Arguments on cells are arguments on states. -/
theorem evalArgsOnCells_mirrors : ∀ args : List Expr,
    (evalArgsOnCells invoke scope args).Mirrors scope (evalArgsWith invoke' args)
  | [] => .pure _
  | head :: tail => head.evalOnCells_mirrors.bind fun _ ↦
    (evalArgsOnCells_mirrors tail).bind fun _ ↦ .pure _

end

/-- A declaration on cells computes the value that it does on states. -/
theorem Binding.evalOnCells_mirrors (binding : Binding) :
    (binding.evalOnCells invoke scope).Mirrors scope (binding.evalWith invoke') := by
  unfold Binding.evalOnCells Binding.evalWith
  cases binding.value with
  | some value => exact value.evalOnCells_mirrors hmoves hinvoke scope
  | none => exact .pure _

/-- An assignment on cells is the assignment on states. -/
theorem Expr.assignOnCells_mirrors (target value : Expr) :
    (target.assignOnCells invoke scope value).Mirrors scope (target.assignWith invoke' value) := by
  cases target with
  | access offset name known =>
    exact (value.evalOnCells_mirrors hmoves hinvoke scope).bind fun value ↦
      CellRun.assign_mirrors name value
  | member offset receiver name known =>
    refine (value.evalOnCells_mirrors hmoves hinvoke scope).bind fun value ↦ ?_
    refine (receiver.evalOnCells_mirrors hmoves hinvoke scope).bind fun object ↦ ?_
    exact (CellRun.ofExcept_mirrors _).bind fun ref ↦ CellRun.setField_mirrors ref name value
  | literal | group | binary | call | invoke => exact .throw _

theorem Expr.conditionOnCells_mirrors (condition : Expr) :
    (condition.conditionOnCells invoke scope).Mirrors scope (condition.conditionWith invoke') :=
  (condition.evalOnCells_mirrors hmoves hinvoke scope).bind fun _ ↦ CellRun.ofExcept_mirrors _

end

variable (fuel : Nat)

mutual

/-- A statement on cells is the statement on states, in whatever scope it runs. The recursion
follows the tree; a block goes on in the frame of its new scope. -/
theorem Stmt.execOnCells_mirrors (scope : Nat) : ∀ statement : Stmt,
    (statement.execOnCells invoke fuel scope).Mirrors scope (statement.execWith invoke' fuel)
  | .expr value => by
    rw [Stmt.execOnCells, Stmt.execWith, Stateful.discard_eq, Stateful.discard_eq]
    exact ((value.evalOnCells_mirrors hmoves hinvoke scope).bind fun _ ↦ .pure _).bind
      fun _ ↦ .pure _
  | .declare binding => by
    rw [Stmt.execOnCells, Stmt.execWith]
    refine (binding.evalOnCells_mirrors hmoves hinvoke scope).bind fun value ↦ ?_
    exact (CellRun.declare_mirrors binding.name value).bind fun _ ↦ .pure _
  | .assign target value => by
    rw [Stmt.execOnCells, Stmt.execWith]
    exact (target.assignOnCells_mirrors hmoves hinvoke scope value).bind fun _ ↦ .pure _
  | .branch condition thenBody elseBody => by
    rw [Stmt.execOnCells, Stmt.execWith]
    refine (condition.conditionOnCells_mirrors hmoves hinvoke scope).bind fun holds ↦ ?_
    split
    · exact CellRun.block_mirrors fun number ↦ execAllOnCells_mirrors number thenBody
    · exact CellRun.block_mirrors fun number ↦ execAllOnCells_mirrors number elseBody
  | .forEach offset name iterable body => by
    rw [Stmt.execOnCells, Stmt.execWith]
    refine (iterable.evalOnCells_mirrors hmoves hinvoke scope).bind fun _ ↦ ?_
    refine (CellRun.ofExcept_mirrors _).bind fun bounds ↦ ?_
    refine CellRun.forRange_mirrors (fun item ↦ ?_) _ _
    rw [Run.block_declare]
    exact CellRun.block_mirrors fun number ↦
      (CellRun.declare_mirrors name (.integer item)).bind fun _ ↦ execAllOnCells_mirrors number body
  | .loop condition body => by
    rw [Stmt.execOnCells, Stmt.execWith]
    exact CellRun.repeatWhile_mirrors (condition.conditionOnCells_mirrors hmoves hinvoke scope)
      (CellRun.block_mirrors fun number ↦ execAllOnCells_mirrors number body) fuel
  | .ret value => by
    rw [Stmt.execOnCells, Stmt.execWith]
    exact (value.evalOnCells_mirrors hmoves hinvoke scope).bind fun _ ↦ .pure _

/-- Statements on cells are statements on states. -/
theorem execAllOnCells_mirrors (scope : Nat) : ∀ statements : List Stmt,
    (execAllOnCells invoke fuel scope statements).Mirrors scope
      (execAllWith invoke' fuel statements)
  | [] => .pure _
  | head :: tail => by
    rw [execAllWith, execAllOnCells]
    refine (head.execOnCells_mirrors scope).bind fun flow ↦ ?_
    cases flow with
    | next => exact execAllOnCells_mirrors scope tail
    | returned value => exact .pure _

end

end

/-! ### Calls -/

section

variable [Host H]

/-- A call is one in the frame that it is made from, if procedures are called from their module. -/
theorem Closure.perform_shows {run : Nat → List Stmt → CellRun H Flow}
    {run' : List Stmt → Run H Flow}
    (hrun : ∀ scope body, (run scope body).Mirrors scope (run' body)) (frame : Frame)
    (closure : Closure H) (args : List Value) (hhome : closure.IsHome frame.module) :
    Simulates (Tracked.Shows frame) (closure.perform run args)
      (closure.callable.perform run' args) := by
  obtain ⟨callable, scope⟩ := closure
  dsimp only
  by_cases harity : args.length = callable.arity
  · revert hhome
    refine Callable.cases_of_arity callable args harity ?_ ?_ ?_ ?_
    · exact fun value _ ↦ ((CellRun.print_mirrors value.display).bind fun _ ↦ .pure _) frame rfl
    · exact fun start stop _ ↦ ((CellRun.ofExcept_mirrors start.asInteger).bind fun _ ↦
        (CellRun.ofExcept_mirrors stop.asInteger).bind fun _ ↦ .pure _) frame rfl
    · intro function args harity _
      rw [Closure.perform_host run harity, Callable.perform_host run' harity]
      exact CellRun.host_mirrors function.body args frame rfl
    · intro definition args harity hhome
      obtain rfl : scope = frame.module := hhome definition rfl
      rw [Closure.perform_procedure run harity, Callable.perform_procedure run' harity,
        Run.call_parameterScope]
      refine CellRun.call_shows fun number ↦ ?_
      refine (CellRun.declareAll_mirrors (definition.params.zip args)).bind fun _ ↦ ?_
      refine (hrun number definition.body).bind fun flow ↦ ?_
      cases flow <;> exact .pure _
  · rw [Closure.perform_of_ne run harity, Callable.perform_of_ne run' harity]
    exact .throw _

/-- A call on cells is the call on states with any amount of fuel. The induction is on the fuel,
since a body may call again. -/
theorem Closure.invoke_shows (fuel : Nat) (frame : Frame) (closure : Closure H)
    (args : List Value) (hhome : closure.IsHome frame.module) :
    Simulates (Tracked.Shows frame) (closure.invoke fuel args)
      (closure.callable.invoke fuel args) := by
  induction fuel generalizing frame closure args with
  | zero => exact Closure.perform_shows (fun _ _ ↦ .throw _) frame closure args hhome
  | succ fuel ih =>
    refine Closure.perform_shows (fun scope body ↦ ?_) frame closure args hhome
    exact execAllOnCells_mirrors (Callable.invoke_moves fuel) (fun frame closure args ↦
      ih frame closure args) fuel scope body

/-! ### Programs -/

/-- The fields of a program get the same values on cells as on states. -/
theorem initializeFieldsOnCells_mirrors (fuel module : Nat) (fields : List Binding) :
    (initializeFieldsOnCells fuel module fields : CellRun H Unit).Mirrors module
      (initializeFields fuel fields) := by
  induction fields with
  | nil => exact .pure _
  | cons head tail ih =>
    refine (head.evalOnCells_mirrors (Callable.invoke_moves fuel) (Closure.invoke_shows fuel)
      module).bind fun value ↦ ?_
    exact (CellRun.declare_mirrors head.name value).bind fun _ ↦ ih

omit [Host H] in
/-- Methods that are declared in the scope of the module are those of the module of the state. -/
theorem declareMethodsOnCells_shows (frame : Frame) (methods : List Method) :
    Simulates (Tracked.Shows frame) (declareMethodsOnCells frame.module methods : CellRun H Unit)
      (modify (·.declareMethods methods)) := by
  induction methods with
  | nil => exact .pure _
  | cons head tail ih =>
    intro tracked state h
    have hchanged : (tracked.change (·.declareFunction frame.module head.name head.params.length
        (.procedure head.procedure))).Shows frame (state.declareMethods [head]) :=
      h.change (h.fits.declareFunction h.fits.module_lt _ _ _ fun _ _ ↦ rfl)
        (h.state ▸ h.fits.state_declareMethod head.name head.params.length _)
    exact ih _ _ hchanged

/-- A program that is run on a memory that shows a state in which no call is open shows in the end
what the program leaves of that state. -/
theorem Program.runOnCells_shows (program : Program) (fuel : Nat) {module : Nat}
    {tracked : Tracked H} {state : State H} (h : tracked.Shows ⟨module, [], [], []⟩ state)
    (hglobals : ∀ name arity definition,
      state.globals.function? name arity ≠ some (.procedure definition)) :
    Stateful.SameEnd (Tracked.Shows ⟨tracked.memory.scopes.nodes.length, [], [], []⟩)
      (program.runOnCells fuel tracked) (program.run fuel state) := by
  let frame : Frame := ⟨tracked.memory.scopes.nodes.length, [], [], []⟩
  have hnone (name : String) (arity : Nat) (closure : Closure H)
      (hfound : (tracked.memory.scopes.scopeAt 0).function? name arity = some closure)
      (definition : Procedure) : closure.callable ≠ .procedure definition := by
    intro hprocedure
    refine hglobals name arity definition ?_
    rw [← h.state, ← hprocedure]
    exact (Scope.function?_map ..).trans (congrArg (Option.map _) hfound)
  have hopened : (tracked.change Memory.openModule).Shows frame { state with module := {} } :=
    h.change (h.fits.openModule hnone) (h.state ▸ tracked.memory.state_openModule module)
  have hmain : CellRun.Mirrors frame.module
      (CellRun.function frame.module "main" 0 >>= fun main ↦ main.invoke fuel [])
      (Run.function "main" 0 >>= fun main ↦ main.invoke (H := H) fuel []) :=
    CellRun.function_bind_mirrors fun frame closure ↦ closure.invoke_shows fuel frame []
  have hfields := initializeFieldsOnCells_mirrors (H := H) fuel frame.module program.fields
  have hrest := (hfields frame rfl).bind fun _ ↦
    (declareMethodsOnCells_shows frame program.methods).bind fun _ ↦ hmain frame rfl
  exact hrest (tracked.change Memory.openModule) { state with module := {} } hopened

end

end ScriptLang
