import Mathlib.Order.Defs.Unbundled
import ScriptLang.Execution.Run
import ScriptLang.Proofs.Stateful

/-!
What a run ensures of the state it leaves, whether it ends or is interrupted. A run that is put
together from parts is shown to ensure something part by part (`Ensures.bind`), and one all of
whose parts move the state along a transitive relation moves it along that relation (`Moves`).
-/

set_option autoImplicit false
set_option relaxedAutoImplicit false

namespace ScriptLang.Run

variable {H α β : Type}

/-- A result that gives a value is that value, and the state is as before. -/
theorem ofExcept_eq_ok {result : Except RuntimeError α} {value : α} {state after : State H}
    (hrun : ofExcept result state = .ok value after) : result = .ok value ∧ after = state := by
  cases result with
  | ok found =>
    cases hrun
    exact ⟨rfl, rfl⟩
  | error => cases hrun

/-- A result that fails is that failure. -/
theorem ofExcept_eq_error {result : Except RuntimeError α} {cause : RuntimeError}
    {state after : State H} (hrun : ofExcept result state = .error (.failed cause) after) :
    result = .error cause := by
  cases result with
  | ok => cases hrun
  | error => cases hrun; rfl

/-! ### The steps that look at the state -/

theorem bind_get (next : State H → Run H α) (state : State H) :
    ((get : Run H (State H)) >>= next) state = next state state :=
  Stateful.bind_of_ok rfl

/-- Reading a variable looks it up in the scopes in sight. -/
theorem lookup_apply (name : String) (state : State H) :
    lookup name state =
      match state.chain.lookup? name with
      | some value => .ok value state
      | none => .error (.failed (.undefinedVariable name)) state := by
  unfold lookup
  rw [bind_get]
  cases state.chain.lookup? name <;> rfl

/-- A name in call position is looked up in the scopes in sight. -/
theorem function_apply (name : String) (arity : Nat) (state : State H) :
    function name arity state =
      match state.chain.function? name arity with
      | some callable => .ok callable state
      | none => .error (.failed (.undefinedFunction name arity)) state := by
  unfold function
  rw [bind_get]
  cases state.chain.function? name arity <;> rfl

/-- Assigning to a variable needs one that is in sight. -/
theorem assign_apply (name : String) (value : Value) (state : State H) :
    assign name value state =
      match state.assign? name value with
      | some after => .ok () after
      | none => .error (.failed (.undefinedVariable name)) state := by
  unfold assign
  rw [bind_get]
  cases state.assign? name value <;> rfl

/-- Reading a field asks the objects and leaves the state. -/
theorem field_apply (ref : ObjectRef) (name : String) (state : State H) :
    field ref name state = ofExcept (state.objects.field ref name) state := by
  unfold field
  rw [bind_get]

/-- Setting a field changes the objects if the field is there. -/
theorem setField_apply (ref : ObjectRef) (name : String) (value : Value) (state : State H) :
    setField ref name value state =
      match state.objects.setField ref name value with
      | .ok objects => .ok () { state with objects }
      | .error cause => .error (.failed cause) state := by
  unfold setField
  rw [bind_get]
  cases state.objects.setField ref name value <;> rfl

theorem method_apply (ref : ObjectRef) (name : String) (arity : Nat) (state : State H) :
    method ref name arity state =
      match state.objects.method ref name arity with
      | .ok function => .ok (.host function) state
      | .error cause => .error (.failed cause) state := by
  unfold method
  rw [bind_get]
  cases state.objects.method ref name arity <;> rfl

/-- Printing a line changes the sink or fails with it. -/
theorem print_apply (line : String) (state : State H) :
    print line state =
      match state.sink.print line with
      | .ok sink => .ok () { state with sink }
      | .error cause => .error (.failed cause) state := by
  unfold print
  rw [bind_get]
  cases state.sink.print line <;> rfl

end ScriptLang.Run

/-- Methods of objects are found by the count of their arguments. -/
theorem ScriptLang.ObjectStore.method_arity {H : Type} {objects : ScriptLang.ObjectStore H}
    {ref : ScriptLang.ObjectRef} {name : String} {arity : Nat}
    {function : ScriptLang.HostFunction H}
    (hmethod : objects.method ref name arity = .ok function) : function.arity = arity := by
  unfold ScriptLang.ObjectStore.method at hmethod
  split at hmethod
  · rename_i found hfound
    cases hmethod
    unfold ScriptLang.ObjectStore.members at hfound
    cases hobject : objects[ref.index]? with
    | none =>
      rw [hobject] at hfound
      cases hfound
    | some object =>
      rw [hobject] at hfound
      exact object.keyed name arity function hfound
  · cases hmethod

namespace ScriptLang

/-- Only a Boolean is read as one. -/
theorem Value.asBoolean_eq_ok {value : Value} {chosen : Bool} (h : value.asBoolean = .ok chosen) :
    value = .boolean chosen := by
  cases value <;> cases h
  rfl

/-- Only a reference to an object is read as one. -/
theorem Value.asObject_eq_ok {value : Value} {ref : ObjectRef} (h : value.asObject = .ok ref) :
    value = .object ref := by
  cases value <;> cases h
  rfl

/-- Only a range is read as one. -/
theorem Value.asRange_eq_ok {value : Value} {bounds : Int × Int} (h : value.asRange = .ok bounds) :
    value = .range bounds.1 bounds.2 := by
  cases value <;> cases h
  rfl

end ScriptLang

/-! ### Calls, by what is called -/

namespace ScriptLang.Callable

variable {H : Type} [Host H] (run : List Stmt → Run H Flow)

/-- With a wrong count of arguments nothing is run. -/
theorem perform_of_ne {callable : Callable H} {args : List Value}
    (harity : args.length ≠ callable.arity) : callable.perform run args =
      Run.fail (.wrongArgumentCount callable.arity args.length) := by
  funext state
  unfold perform
  rw [if_pos harity]
  exact Stateful.bind_of_error rfl

theorem perform_print (value : Value) : perform run print [value] = do
    Run.print value.display
    return .nil := rfl

/-- The function `range` takes two integers, and looks at the first one first. -/
theorem perform_range (start stop : Value) : perform run range [start, stop] = do
    let start ← Run.ofExcept start.asInteger
    let stop ← Run.ofExcept stop.asInteger
    return .range start stop := rfl

/-- A function of the host is given its arguments as they are. -/
theorem perform_host {function : HostFunction H} {args : List Value}
    (harity : args.length = function.arity) :
    perform run (.host function) args = Run.host function.body args := by
  unfold perform
  exact if_neg (not_not_intro harity)

/-- A procedure runs its body in a scope of its parameters; without a value to return it gives
NIL. -/
theorem perform_procedure {definition : Procedure} {args : List Value}
    (harity : args.length = definition.params.length) :
    perform run (.procedure definition) args =
      Run.call (parameterScope definition.params args) do
        match ← run definition.body with
        | .next => return .nil
        | .returned value => return value := by
  unfold perform
  exact if_neg (not_not_intro harity)

omit [Host H] in
/-- The ways a call with the right count of arguments can go. -/
@[elab_as_elim]
theorem cases_of_arity {motive : Callable H → List Value → Prop} (callable : Callable H)
    (args : List Value) (harity : args.length = callable.arity)
    (hprint : ∀ value, motive print [value])
    (hrange : ∀ start stop, motive range [start, stop])
    (hhost : ∀ function args, args.length = function.arity → motive (host function) args)
    (hprocedure : ∀ definition args, args.length = definition.params.length →
      motive (procedure definition) args) : motive callable args := by
  cases callable with
  | print =>
    match args, harity with
    | [value], _ => exact hprint value
  | range =>
    match args, harity with
    | [start, stop], _ => exact hrange start stop
  | host function => exact hhost function args harity
  | procedure definition => exact hprocedure definition args harity

end ScriptLang.Callable

namespace ScriptLang

/-- Whether the value that a statement returns, if it returns one, satisfies `good`. -/
def Flow.Satisfies (good : Value → Prop) : Flow → Prop
  | .next => True
  | .returned value => good value

end ScriptLang

namespace ScriptLang.Run

variable {H α β : Type}

/-! ### Postconditions -/

/-- Run from `state`, `body` ends in a value and a state that satisfy `post`, or it is interrupted
in a state that satisfies `abort`. -/
def Ensures (body : Run H α) (state : State H) (post : α → State H → Prop)
    (abort : State H → Prop) : Prop :=
  match body state with
  | .ok value after => post value after
  | .error _ after => abort after

variable {body : Run H α} {next : α → Run H β} {state : State H} {post post' : α → State H → Prop}
  {abort abort' : State H → Prop}

/-- What a run ensures holds of the value that it ends with. -/
theorem Ensures.ok (h : body.Ensures state post abort) {value : α} {after : State H}
    (hrun : body state = .ok value after) : post value after := by
  unfold Ensures at h
  rw [hrun] at h
  exact h

/-- What a run ensures of failures holds where it fails. -/
theorem Ensures.error (h : body.Ensures state post abort) {cause : Interruption} {after : State H}
    (hrun : body state = .error cause after) : abort after := by
  unfold Ensures at h
  rw [hrun] at h
  exact h

/-- A run ensures what holds of both of its ends. -/
theorem Ensures.of_run (hok : ∀ value after, body state = .ok value after → post value after)
    (herror : ∀ cause after, body state = .error cause after → abort after) :
    body.Ensures state post abort := by
  unfold Ensures
  split
  · exact hok _ _ ‹_›
  · exact herror _ _ ‹_›

theorem Ensures.mono (h : body.Ensures state post abort)
    (hpost : ∀ value after, post value after → post' value after)
    (habort : ∀ after, abort after → abort' after) : body.Ensures state post' abort' :=
  .of_run (fun _ _ hrun ↦ hpost _ _ (h.ok hrun)) fun _ _ hrun ↦ habort _ (h.error hrun)

theorem Ensures.pure {value : α} (h : post value state) :
    (Pure.pure value : Run H α).Ensures state post abort := h

theorem Ensures.throw {cause : Interruption} (h : abort state) :
    (throw cause : Run H α).Ensures state post abort := h

/-- A result that is there already ensures what holds of it in the same state. -/
theorem Ensures.ofExcept {result : Except RuntimeError α}
    (hok : ∀ value, result = .ok value → post value state) (habort : abort state) :
    (Run.ofExcept result).Ensures state post abort := by
  cases result with
  | ok value => exact hok value rfl
  | error => exact habort

/-- Two runs one after another: the first ensures that the second ensures the rest. -/
theorem Ensures.bind {post : β → State H → Prop}
    (h : body.Ensures state (fun value after ↦ (next value).Ensures after post abort) abort) :
    (body >>= next).Ensures state post abort := by
  cases hbody : body state with
  | ok value middle =>
    have hnext := h.ok hbody
    unfold Ensures at hnext ⊢
    rw [Stateful.bind_of_ok hbody]
    exact hnext
  | error cause middle =>
    have habort := h.error hbody
    unfold Ensures
    rw [Stateful.bind_of_error hbody]
    exact habort

/-- A run between entering and leaving ensures what holds after leaving, at both ends. -/
theorem Ensures.within {enter leave : State H → State H}
    (h : body.Ensures (enter state) (fun value after ↦ post value (leave after))
      fun after ↦ abort (leave after)) : (within enter leave body).Ensures state post abort := by
  unfold Ensures Run.within
  cases hbody : body (enter state) with
  | ok value after => exact h.ok hbody
  | error cause after => exact h.error hbody

/-- What is ensured twice is ensured together. -/
theorem Ensures.and (h : body.Ensures state post abort) (h' : body.Ensures state post' abort') :
    body.Ensures state (fun value after ↦ post value after ∧ post' value after)
      fun after ↦ abort after ∧ abort' after :=
  .of_run (fun _ _ hrun ↦ ⟨h.ok hrun, h'.ok hrun⟩) fun _ _ hrun ↦ ⟨h.error hrun, h'.error hrun⟩

/-! ### Relations between the state before and after -/

/-- Whatever state `body` is run from, the state it leaves is related to that state. -/
def Moves (relation : State H → State H → Prop) (body : Run H α) : Prop :=
  ∀ state, body.Ensures state (fun _ after ↦ relation state after) (relation state)

section

variable {relation relation' : State H → State H → Prop}

theorem Moves.mono (h : body.Moves relation)
    (hrelation : ∀ before after, relation before after → relation' before after) :
    body.Moves relation' :=
  fun state ↦ (h state).mono (fun _ _ ↦ hrelation _ _) fun _ ↦ hrelation _ _

theorem Moves.pure [Std.Refl relation] (value : α) :
    (Pure.pure value : Run H α).Moves relation := fun state ↦ .pure (Std.Refl.refl state)

theorem Moves.throw [Std.Refl relation] (cause : Interruption) :
    (throw cause : Run H α).Moves relation := fun state ↦ .throw (Std.Refl.refl state)

theorem Moves.ofExcept [Std.Refl relation] (result : Except RuntimeError α) :
    (Run.ofExcept result : Run H α).Moves relation :=
  fun state ↦ .ofExcept (fun _ _ ↦ Std.Refl.refl state) (Std.Refl.refl state)

/-- Runs that keep a transitive relation may be put one after another. -/
theorem Moves.bind [IsTrans _ relation] (hbody : body.Moves relation)
    (hnext : ∀ value, (next value).Moves relation) : (body >>= next).Moves relation := by
  intro state
  refine .bind ((hbody state).mono (fun value middle hmiddle ↦ ?_) fun _ h ↦ h)
  exact (hnext value middle).mono (fun _ _ ↦ IsTrans.trans _ _ _ hmiddle)
    fun _ ↦ IsTrans.trans _ _ _ hmiddle

end

end ScriptLang.Run
