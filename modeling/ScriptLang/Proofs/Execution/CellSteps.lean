import ScriptLang.Execution.OnCells
import ScriptLang.Proofs.Execution.Changes

/-!
The steps of a run on cells. Seen through a frame each is the step of a run on states that goes by
the same name: it ends in the same value or the same failure, and the memory shows the state that is
left. A block or a call is run in the frame of its own scope.
-/

set_option autoImplicit false
set_option relaxedAutoImplicit false

namespace ScriptLang

variable {H α : Type}

/-- A variable of a block or a call that is there, so of neither the host nor the module in use. -/
def Slot.IsLocal (slot : Slot) (memory : Memory H) : Prop :=
  ∃ number < memory.scopes.nodes.length, number ≠ 0 ∧ number ≠ memory.module ∧
    slot.owner = .scope number

/-- The expression has left the variables of all blocks and calls as they were. -/
def Visit.Isolated (visit : Visit H) : Prop :=
  ∀ slot : Slot, slot.IsLocal visit.before → visit.after.value? slot = visit.before.value? slot

/-- Seen through the frame, the memory is the state, and all went well on the way. -/
structure Tracked.Shows (frame : Frame) (tracked : Tracked H) (state : State H) : Prop where
  fits : frame.Fits tracked.memory
  earlier : ∀ memory ∈ tracked.earlier, memory.Separate
  visits : ∀ visit ∈ tracked.visits, visit.Isolated
  state : tracked.memory.state frame = state

theorem Tracked.Shows.change {frame inner : Frame} {tracked : Tracked H} {state after : State H}
    (h : tracked.Shows frame state) {step : Memory H → Memory H}
    (hfits : inner.Fits (step tracked.memory))
    (hstate : (step tracked.memory).state inner = after) :
    (tracked.change step).Shows inner after :=
  ⟨hfits, List.forall_mem_cons.mpr ⟨h.fits.separate, h.earlier⟩, h.visits, hstate⟩

theorem Tracked.Shows.objects {frame : Frame} {tracked : Tracked H} {state : State H}
    (h : tracked.Shows frame state) : state.objects = tracked.memory.contents := h.state ▸ rfl

namespace CellRun

open Stateful (Simulates)

/-- In the scope with the number `scope`, a run on cells is a run on states, whatever frame it is
seen through. -/
def Mirrors (scope : Nat) (body : CellRun H α) (run : Run H α) : Prop :=
  ∀ frame : Frame, frame.scope = scope → Simulates (Tracked.Shows frame) body run

section

variable {β : Type} {scope : Nat} {body : CellRun H α} {run : Run H α}

theorem Mirrors.pure (value : α) :
    (Pure.pure value : CellRun H α).Mirrors scope (Pure.pure value) := fun _ _ ↦ .pure value

theorem Mirrors.throw (cause : Interruption) :
    (MonadExcept.throw cause : CellRun H α).Mirrors scope (MonadExcept.throw cause) :=
  fun _ _ ↦ .throw cause

/-- Mirrored runs may be put one after another. -/
theorem Mirrors.bind {next : α → CellRun H β} {next' : α → Run H β} (h : body.Mirrors scope run)
    (hnext : ∀ value, (next value).Mirrors scope (next' value)) :
    (body >>= next).Mirrors scope (run >>= next') :=
  fun frame hscope ↦ (h frame hscope).bind fun value ↦ hnext value frame hscope

end

/-! ### Steps -/

theorem bind_memory (next : Memory H → CellRun H α) (tracked : Tracked H) :
    (memory >>= next) tracked = next tracked.memory tracked := Stateful.bind_of_ok rfl

/-- A variable is read by finding its cell in the scope tree and then the value in the cell. -/
theorem lookup_apply (scope : Nat) (name : String) (tracked : Tracked H) :
    lookup scope name tracked =
      match tracked.memory.scopes.lookup? scope name with
      | some cell => .ok (tracked.memory.read cell) tracked
      | none => .error (.failed (.undefinedVariable name)) tracked := by
  unfold lookup
  rw [bind_memory]
  cases tracked.memory.scopes.lookup? scope name <;> rfl

/-- A function is found in the nearest scope that has it, together with the scope that it was
declared in. -/
theorem function_apply (scope : Nat) (name : String) (arity : Nat) (tracked : Tracked H) :
    function scope name arity tracked =
      match tracked.memory.scopes.function? scope name arity with
      | some closure => .ok closure tracked
      | none => .error (.failed (.undefinedFunction name arity)) tracked := by
  unfold function
  rw [bind_memory]
  cases tracked.memory.scopes.function? scope name arity <;> rfl

/-- An assignment writes to the cell of the variable that is found. -/
theorem assign_apply (scope : Nat) (name : String) (value : Value) (tracked : Tracked H) :
    assign scope name value tracked =
      match tracked.memory.scopes.lookup? scope name with
      | some cell => .ok () (tracked.change (·.write cell value))
      | none => .error (.failed (.undefinedVariable name)) tracked := by
  unfold assign
  rw [bind_memory]
  cases tracked.memory.scopes.lookup? scope name <;> rfl

/-- A field is read from the cell that the object has for it. -/
theorem field_apply (ref : ObjectRef) (name : String) (tracked : Tracked H) :
    field ref name tracked =
      match (tracked.memory.members ref).lookup? name with
      | some cell => .ok (tracked.memory.read cell) tracked
      | none => .error (.failed (.undefinedField ref.typeName name)) tracked := by
  unfold field
  rw [bind_memory]
  cases (tracked.memory.members ref).lookup? name <;> rfl

/-- A field is set by writing to the cell that the object has for it. -/
theorem setField_apply (ref : ObjectRef) (name : String) (value : Value) (tracked : Tracked H) :
    setField ref name value tracked =
      match (tracked.memory.members ref).lookup? name with
      | some cell => .ok () (tracked.change (·.write cell value))
      | none => .error (.failed (.undefinedField ref.typeName name)) tracked := by
  unfold setField
  rw [bind_memory]
  cases (tracked.memory.members ref).lookup? name <;> rfl

theorem method_apply (ref : ObjectRef) (name : String) (arity : Nat) (tracked : Tracked H) :
    method ref name arity tracked =
      match (tracked.memory.members ref).function? name arity with
      | some function => .ok ⟨.host function, 0⟩ tracked
      | none => .error (.failed (.undefinedMethod ref.typeName name (arity - 1))) tracked := by
  unfold method
  rw [bind_memory]
  cases (tracked.memory.members ref).function? name arity <;> rfl

/-- A line is printed by putting the sink that is left into the memory. -/
theorem print_apply (line : String) (tracked : Tracked H) :
    print line tracked =
      match tracked.memory.sink.print line with
      | .ok sink => .ok () (tracked.change ({ · with sink }))
      | .error cause => .error (.failed cause) tracked := by
  unfold print
  rw [bind_memory]
  cases tracked.memory.sink.print line <;> rfl

/-- A function of the host is given what is in the cells of the objects, and what it leaves is put
back. -/
theorem host_apply [Host H] (body : H) (args : List Value) (tracked : Tracked H) :
    host body args tracked =
      match Host.run body args tracked.memory.contents with
      | (.ok value, objects) => .ok value (tracked.change (·.store objects))
      | (.error cause, objects) => .error (.failed cause) (tracked.change (·.store objects)) := by
  unfold host
  rw [bind_memory]
  obtain ⟨result, objects⟩ := Host.run body args tracked.memory.contents
  cases result <;> rfl

variable {scope : Nat}

/-- A result that is there already is the same on cells and on states. -/
theorem ofExcept_mirrors (result : Except RuntimeError α) :
    (ofExcept result : CellRun H α).Mirrors scope (Run.ofExcept result) := by
  cases result with
  | ok value => exact .pure value
  | error cause => exact .throw _

/-- A variable has the same value in its cell as in the state that is shown. -/
theorem lookup_mirrors (name : String) :
    (lookup scope name : CellRun H Value).Mirrors scope (Run.lookup name) := by
  rintro frame rfl tracked state h
  rw [lookup_apply, Run.lookup_apply, ← h.state, h.fits.lookup?, h.state]
  cases tracked.memory.scopes.lookup? frame.scope name with
  | some cell => exact .ok h
  | none => exact .error h

/-- A function that is found in the tree is the one that the state has, and it comes with the scope
of the module, so that what follows may rely on this. -/
theorem function_bind_mirrors {name : String} {arity : Nat} {next : Closure H → CellRun H α}
    {next' : Callable H → Run H α}
    (hnext : ∀ (frame : Frame) closure, closure.IsHome frame.module →
      Simulates (Tracked.Shows frame) (next closure) (next' closure.callable)) :
    (function scope name arity >>= next).Mirrors scope (Run.function name arity >>= next') := by
  rintro frame rfl tracked state h
  have hrun := function_apply frame.scope name arity tracked
  have hrun' := Run.function_apply name arity state
  rw [← h.state, h.fits.function?, h.state] at hrun'
  cases hfound : tracked.memory.scopes.function? frame.scope name arity with
  | some closure =>
    rw [hfound] at hrun hrun'
    rw [Stateful.bind_of_ok hrun, Stateful.bind_of_ok hrun']
    exact hnext frame closure (h.fits.isHome hfound) tracked state h
  | none =>
    rw [hfound] at hrun hrun'
    rw [Stateful.bind_of_error hrun, Stateful.bind_of_error hrun']
    exact .error h

/-- A write to the cell of a variable is an assignment in the state: no other variable that is shown
has this cell. -/
theorem assign_mirrors (name : String) (value : Value) :
    (assign scope name value : CellRun H Unit).Mirrors scope (Run.assign name value) := by
  rintro frame rfl tracked state h
  rw [assign_apply, Run.assign_apply]
  cases hfound : tracked.memory.scopes.lookup? frame.scope name with
  | some cell =>
    rw [← h.state, h.fits.assign?_of_some hfound]
    exact .ok (h.change (h.fits.write cell value) rfl)
  | none =>
    rw [← h.state, h.fits.assign?_of_none hfound, h.state]
    exact .error h

/-- A field has the same value in its cell as in the state that is shown. -/
theorem field_mirrors (ref : ObjectRef) (name : String) :
    (field ref name : CellRun H Value).Mirrors scope (Run.field ref name) := by
  intro frame _ tracked state h
  rw [field_apply, Run.field_apply, h.objects, ObjectStore.field, Memory.contents_lookup?]
  cases (tracked.memory.members ref).lookup? name with
  | some cell => exact .ok h
  | none => exact .error h

/-- A write to the cell of a field sets the field of this object only, since no other field has this
cell. -/
theorem setField_mirrors (ref : ObjectRef) (name : String) (value : Value) :
    (setField ref name value : CellRun H Unit).Mirrors scope (Run.setField ref name value) := by
  intro frame _ tracked state h
  rw [setField_apply, Run.setField_apply, h.objects]
  cases hfound : (tracked.memory.members ref).lookup? name with
  | some cell =>
    rw [Memory.setField_eq_ok h.fits.separate hfound]
    exact .ok (h.change (h.fits.write cell value)
      (h.state ▸ h.fits.state_write_object hfound value))
  | none =>
    rw [Memory.setField_eq_error hfound]
    exact .error h

/-- A method of an object is found on cells as it is in the state, and it does not depend on any
scope. -/
theorem method_bind_mirrors {ref : ObjectRef} {name : String} {arity : Nat}
    {next : Closure H → CellRun H α} {next' : Callable H → Run H α}
    (hnext : ∀ (frame : Frame) closure, closure.IsHome frame.module →
      Simulates (Tracked.Shows frame) (next closure) (next' closure.callable)) :
    (method ref name arity >>= next).Mirrors scope (Run.method ref name arity >>= next') := by
  intro frame _ tracked state h
  have hrun := method_apply ref name arity tracked
  have hrun' := Run.method_apply ref name arity state
  rw [h.objects, ObjectStore.method, Memory.contents_function?] at hrun'
  cases hfound : (tracked.memory.members ref).function? name arity with
  | some function =>
    rw [hfound] at hrun hrun'
    rw [Stateful.bind_of_ok hrun, Stateful.bind_of_ok hrun']
    exact hnext frame ⟨.host function, 0⟩ (fun _ hprocedure ↦ by cases hprocedure) tracked state h
  | none =>
    rw [hfound] at hrun hrun'
    rw [Stateful.bind_of_error hrun, Stateful.bind_of_error hrun']
    exact .error h

/-- The sink is the same on cells and in the state. -/
theorem print_mirrors (line : String) :
    (print line : CellRun H Unit).Mirrors scope (Run.print line) := by
  intro frame _ tracked state h
  have hsink : state.sink = tracked.memory.sink := h.state ▸ rfl
  rw [print_apply, Run.print_apply, hsink]
  cases tracked.memory.sink.print line with
  | ok sink => exact .ok (h.change (h.fits.with_sink sink) (h.state ▸ rfl))
  | error cause => exact .error h

/-- A function of the host is given the same objects and leaves the same ones. -/
theorem host_mirrors [Host H] (body : H) (args : List Value) :
    (host body args).Mirrors scope (Run.host body args) := by
  intro frame _ tracked state h
  rw [host_apply, Run.host, h.objects]
  obtain ⟨result, objects⟩ := Host.run body args tracked.memory.contents
  have hafter : (tracked.change (·.store objects)).Shows frame { state with objects } :=
    h.change (h.fits.store objects) (h.state ▸ h.fits.state_store objects)
  cases result with
  | ok value => exact .ok hafter
  | error cause => exact .error hafter

/-- A new cell in the scope of a block is a declaration in the innermost scope of the state. -/
theorem declare_mirrors (name : String) (value : Value) :
    (change (·.declare scope name value) : CellRun H Unit).Mirrors scope
      (modify (·.declare name value)) := by
  rintro frame rfl tracked state h
  exact .ok (h.change (h.fits.declare h.fits.scope_lt name value)
    (h.state ▸ h.fits.state_declare name value))

/-- Parameters are declared one after the other. -/
theorem declareAll_mirrors (entries : List (String × Value)) :
    (declareAll scope entries : CellRun H Unit).Mirrors scope
      (modify fun state ↦
        entries.foldl (fun state entry ↦ state.declare entry.1 entry.2) state) := by
  induction entries with
  | nil => exact .pure _
  | cons entry rest ih => exact (declare_mirrors entry.1 entry.2).bind fun _ ↦ ih

/-- A conditional loop mirrors one whose condition and body it mirrors. -/
theorem repeatWhile_mirrors {condition : CellRun H Bool} {body : CellRun H Flow}
    {condition' : Run H Bool} {body' : Run H Flow} (hcondition : condition.Mirrors scope condition')
    (hbody : body.Mirrors scope body') (fuel : Nat) :
    (repeatWhile condition body fuel).Mirrors scope (Run.repeatWhile condition' body' fuel) := by
  induction fuel with
  | zero => exact .throw _
  | succ fuel ih =>
    refine hcondition.bind fun holds ↦ ?_
    split
    · refine hbody.bind fun flow ↦ ?_
      cases flow with
      | next => exact ih
      | returned value => exact .pure _
    · exact .pure _

/-- A loop over a range mirrors one whose body it mirrors at each number. -/
theorem forRange_mirrors {body : Int → CellRun H Flow} {body' : Int → Run H Flow}
    (hbody : ∀ item, (body item).Mirrors scope (body' item)) (count : Nat) (start : Int) :
    (forRange body count start).Mirrors scope (Run.forRange body' count start) := by
  induction count generalizing start with
  | zero => exact .pure _
  | succ count ih =>
    refine (hbody start).bind fun flow ↦ ?_
    cases flow with
    | next => exact ih (start + 1)
    | returned value => exact .pure _

/-! ### Scopes of blocks and calls -/

section

variable {frame : Frame}

/-- A part that is run in a scope of its own. -/
theorem within_shows {parent : Nat} {inner : Nat → Frame} {enter leave : State H → State H}
    (henter : ∀ memory : Memory H, frame.Fits memory →
      (inner memory.scopes.nodes.length).Fits (memory.openScope parent))
    (hentered : ∀ memory : Memory H,
      (memory.openScope parent).state (inner memory.scopes.nodes.length) =
        enter (memory.state frame))
    (hleave : ∀ number, ∀ memory : Memory H, (inner number).Fits memory → frame.Fits memory)
    (hleft : ∀ number, ∀ memory : Memory H,
      memory.state frame = leave (memory.state (inner number)))
    {body : Nat → CellRun H α} {run : Run H α}
    (hbody : ∀ number, Simulates (Tracked.Shows (inner number)) (body number) run) :
    Simulates (Tracked.Shows frame) (openScope parent >>= body) (Run.within enter leave run) := by
  intro tracked state h
  let number := tracked.memory.scopes.nodes.length
  have hopen : openScope parent tracked = .ok number (tracked.change (·.openScope parent)) := rfl
  have hinner : (tracked.change (·.openScope parent)).Shows (inner number) (enter state) :=
    h.change (henter tracked.memory h.fits) (h.state ▸ hentered tracked.memory)
  have houter {after : Tracked H} {left : State H} (hafter : after.Shows (inner number) left) :
      after.Shows frame (leave left) :=
    ⟨hleave number after.memory hafter.fits, hafter.earlier, hafter.visits,
      hafter.state ▸ hleft number after.memory⟩
  have hends := hbody number _ _ hinner
  rw [Stateful.bind_of_ok hopen, Run.within]
  generalize body number (tracked.change (·.openScope parent)) = one at hends
  generalize run (enter state) = other at hends
  cases hends with
  | ok hafter => exact .ok (houter hafter)
  | error hafter => exact .error (houter hafter)

/-- A call opens a scope under the module, which is the frame of a call in the state. -/
theorem call_shows {body : Nat → CellRun H α} {run : Run H α}
    (hbody : ∀ number, (body number).Mirrors number run) :
    Simulates (Tracked.Shows frame) (openScope frame.module >>= body) (Run.call {} run) :=
  within_shows (fun _ h ↦ h.enterCall) (fun memory ↦ memory.state_enterCall frame _)
    (fun _ _ h ↦ h.leaveCall) (fun _ _ ↦ rfl) fun number ↦ hbody number _ rfl

end

/-- A block opens a scope under its own, which is one more scope of the state; on leaving it the old
frame fits again. -/
theorem block_mirrors {body : Nat → CellRun H α} {run : Run H α}
    (hbody : ∀ number, (body number).Mirrors number run) :
    (openScope scope >>= body).Mirrors scope (Run.block {} run) := by
  rintro frame rfl
  exact within_shows (fun _ h ↦ h.enterBlock) (fun memory ↦ memory.state_enterBlock frame _)
    (fun _ _ h ↦ h.leaveBlock) (fun _ _ ↦ rfl) fun number ↦ hbody number _ rfl

end CellRun

namespace Run

/-- A block that begins with a variable is a block that declares it first. -/
theorem block_declare (name : String) (value : Value) (body : Run H α) :
    block (Scope.declare {} name value) body =
      block {} (modify (·.declare name value) >>= fun _ ↦ body) := rfl

/-- The parameters of a call may as well be declared one after another in an empty scope. -/
theorem call_parameterScope (params : List String) (args : List Value) (body : Run H α) :
    call (Callable.parameterScope params args) body =
      call {} ((modify fun state ↦
        (params.zip args).foldl (fun state entry ↦ state.declare entry.1 entry.2) state) >>=
          fun _ ↦ body) := by
  have henter {step : ValueScope H → String × Value → ValueScope H}
      (hstep : ∀ scope entry, step scope entry = scope.declare entry.1 entry.2)
      (entries : List (String × Value)) (scope : ValueScope H) (state : State H) :
      state.enterCall (entries.foldl step scope) =
        entries.foldl (fun state entry ↦ state.declare entry.1 entry.2)
          (state.enterCall scope) := by
    induction entries generalizing scope with
    | nil => rfl
    | cons entry rest ih =>
      rw [List.foldl_cons, hstep]
      exact ih (scope.declare entry.1 entry.2)
  funext state
  unfold call within Callable.parameterScope
  rw [henter fun _ _ ↦ rfl]
  rfl

end Run

/-! ### Calls -/

namespace Closure

variable [Host H] (run : Nat → List Stmt → CellRun H Flow) {args : List Value}

/-- With a wrong count of arguments nothing is run. -/
theorem perform_of_ne {closure : Closure H} (harity : args.length ≠ closure.callable.arity) :
    closure.perform run args =
      CellRun.fail (.wrongArgumentCount closure.callable.arity args.length) := by
  funext tracked
  unfold perform
  rw [if_pos harity]
  exact Stateful.bind_of_error rfl

theorem perform_host {function : HostFunction H} (harity : args.length = function.arity)
    (scope : Nat) :
    perform run ⟨.host function, scope⟩ args = CellRun.host function.body args := by
  unfold perform
  exact if_neg (not_not_intro harity)

/-- A procedure runs its body in a new scope under that of its declaration, in which the parameters
are declared. -/
theorem perform_procedure {definition : Procedure}
    (harity : args.length = definition.params.length) (scope : Nat) :
    perform run ⟨.procedure definition, scope⟩ args = (do
      let number ← CellRun.openScope scope
      CellRun.declareAll number (definition.params.zip args)
      match ← run number definition.body with
      | .next => return .nil
      | .returned value => return value : CellRun H Value) := by
  unfold perform
  exact if_neg (not_not_intro harity)

end Closure

end ScriptLang
