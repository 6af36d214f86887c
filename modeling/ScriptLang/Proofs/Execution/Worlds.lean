import Mathlib.Order.Defs.PartialOrder
import ScriptLang.Proofs.Execution.Outcome

/-!
Postconditions that speak of a world beside the state. A world says what is known of the objects of
a host; it only grows while a computation goes on, so what was known before is still known after.
-/

set_option autoImplicit false
set_option relaxedAutoImplicit false

namespace ScriptLang.Run

variable {H α β W : Type} [Preorder W]

/-- Run from `state` in `world`, `body` ends in a value and a state that satisfy `post` in a world
that has grown, or it is interrupted in a state that satisfies `abort` in such a world. -/
def EnsuresIn (body : Run H α) (world : W) (state : State H) (post : W → α → State H → Prop)
    (abort : W → State H → Prop) : Prop :=
  body.Ensures state (fun value after ↦ ∃ later, world ≤ later ∧ post later value after)
    fun after ↦ ∃ later, world ≤ later ∧ abort later after

namespace EnsuresIn

variable {body : Run H α} {next : α → Run H β} {world before : W} {state : State H}
  {post post' : W → α → State H → Prop} {abort abort' : W → State H → Prop}

/-- What is weaker in every later world is ensured as well. -/
theorem mono (h : body.EnsuresIn world state post abort)
    (hpost : ∀ later value after, world ≤ later → post later value after → post' later value after)
    (habort : ∀ later after, world ≤ later → abort later after → abort' later after) :
    body.EnsuresIn world state post' abort' :=
  Ensures.mono h
    (fun value after ⟨later, hlater, h⟩ ↦ ⟨later, hlater, hpost later value after hlater h⟩)
    fun after ⟨later, hlater, h⟩ ↦ ⟨later, hlater, habort later after hlater h⟩

/-- What holds in a world that has grown holds from the beginning on. -/
theorem earlier (h : body.EnsuresIn world state post abort) (hbefore : before ≤ world) :
    body.EnsuresIn before state post abort :=
  Ensures.mono h (fun _ _ ⟨later, hlater, h⟩ ↦ ⟨later, le_trans hbefore hlater, h⟩)
    fun _ ⟨later, hlater, h⟩ ↦ ⟨later, le_trans hbefore hlater, h⟩

theorem pure {value : α} (h : post world value state) :
    (Pure.pure value : Run H α).EnsuresIn world state post abort :=
  Ensures.pure ⟨world, le_refl world, h⟩

theorem throw {cause : Interruption} (h : abort world state) :
    (throw cause : Run H α).EnsuresIn world state post abort :=
  Ensures.throw ⟨world, le_refl world, h⟩

/-- A result that is there already needs no later world. -/
theorem ofExcept {result : Except RuntimeError α}
    (hok : ∀ value, result = .ok value → post world value state) (habort : abort world state) :
    (Run.ofExcept result).EnsuresIn world state post abort :=
  Ensures.ofExcept (fun value hvalue ↦ ⟨world, le_refl world, hok value hvalue⟩)
    ⟨world, le_refl world, habort⟩

/-- A run whose end is known ensures what holds of it in the same world. -/
theorem of_ok {value : α} {after : State H} (hrun : body state = .ok value after)
    (h : post world value after) : body.EnsuresIn world state post abort := by
  unfold EnsuresIn Ensures
  rw [hrun]
  exact ⟨world, le_refl world, h⟩

/-- Two runs one after another: the second begins in the world that the first has come to. -/
theorem bind {post : W → β → State H → Prop}
    (h : body.EnsuresIn world state
      (fun later value after ↦ (next value).EnsuresIn later after post abort) abort) :
    (body >>= next).EnsuresIn world state post abort :=
  Ensures.bind (Ensures.mono h (fun _ _ ⟨_, hlater, h⟩ ↦ h.earlier hlater) fun _ h ↦ h)

/-- A run between entering and leaving ensures what holds after leaving, in a world that has
grown. -/
theorem within {enter leave : State H → State H}
    (h : body.EnsuresIn world (enter state) (fun later value after ↦ post later value (leave after))
      fun later after ↦ abort later (leave after)) :
    (within enter leave body).EnsuresIn world state post abort := Ensures.within h

/-! ### The steps that look at objects and output -/

section

variable {ref : ObjectRef} {name : String}

/-- Reading a field ensures what holds of a value that the objects give. -/
theorem field {post : W → Value → State H → Prop}
    (hok : ∀ value, state.objects.field ref name = .ok value → post world value state)
    (habort : abort world state) : (Run.field ref name).EnsuresIn world state post abort := by
  have h := ofExcept hok habort
  unfold EnsuresIn Ensures at h ⊢
  rw [Run.field_apply]
  exact h

/-- Setting a field ensures what holds of the objects that are left. -/
theorem setField {value : Value} {post : W → Unit → State H → Prop}
    (hok : ∀ objects, state.objects.setField ref name value = .ok objects →
      post world () { state with objects })
    (habort : abort world state) :
    (Run.setField ref name value).EnsuresIn world state post abort := by
  unfold EnsuresIn Ensures
  rw [Run.setField_apply]
  cases hresult : state.objects.setField ref name value with
  | ok objects => exact ⟨world, le_refl world, hok objects hresult⟩
  | error cause => exact ⟨world, le_refl world, habort⟩

/-- Finding a method ensures what holds of a function that the objects give. -/
theorem method {arity : Nat} {post : W → Callable H → State H → Prop}
    (hok : ∀ function, state.objects.method ref name arity = .ok function →
      post world (.host function) state)
    (habort : abort world state) :
    (Run.method ref name arity).EnsuresIn world state post abort := by
  unfold EnsuresIn Ensures
  rw [Run.method_apply]
  cases hresult : state.objects.method ref name arity with
  | ok function => exact ⟨world, le_refl world, hok function hresult⟩
  | error cause => exact ⟨world, le_refl world, habort⟩

/-- Printing ensures what holds with any sink. -/
theorem print {line : String} {post : W → Unit → State H → Prop}
    (hok : ∀ sink, post world () { state with sink }) (habort : abort world state) :
    (Run.print line).EnsuresIn world state post abort := by
  unfold EnsuresIn Ensures
  rw [Run.print_apply]
  cases state.sink.print line with
  | ok sink => exact ⟨world, le_refl world, hok sink⟩
  | error cause => exact ⟨world, le_refl world, habort⟩

end

/-! ### Loops -/

section

variable {good : W → Value → Prop} (inv : W → State H → Prop) {condition : Run H Bool}

/-- A loop keeps what each of its rounds keeps. -/
theorem repeatWhile {body : Run H Flow}
    (hcondition : ∀ world state, inv world state →
      condition.EnsuresIn world state (fun later _ ↦ inv later) abort)
    (hbody : ∀ world state, inv world state →
      body.EnsuresIn world state
        (fun later flow after ↦ flow.Satisfies (good later) ∧ inv later after) abort)
    (hfuel : ∀ world state, inv world state → abort world state) (fuel : Nat)
    (hstate : inv world state) :
    (repeatWhile condition body fuel).EnsuresIn world state
      (fun later flow after ↦ flow.Satisfies (good later) ∧ inv later after) abort := by
  induction fuel generalizing world state with
  | zero => exact .throw (hfuel world state hstate)
  | succ fuel ih =>
    refine .bind ((hcondition world state hstate).mono (fun middle holds reached _ hmiddle ↦ ?_)
      fun _ _ _ h ↦ h)
    cases holds with
    | false => exact .pure ⟨trivial, hmiddle⟩
    | true =>
      refine .bind ((hbody middle reached hmiddle).mono (fun later flow after _ hafter ↦ ?_)
        fun _ _ _ h ↦ h)
      cases flow with
      | next => exact ih hafter.2
      | returned value => exact .pure hafter

/-- A loop over a range keeps an invariant that each turn keeps, in worlds that may grow with each
turn. -/
theorem forRange {body : Int → Run H Flow}
    (hbody : ∀ item world state, inv world state →
      (body item).EnsuresIn world state
        (fun later flow after ↦ flow.Satisfies (good later) ∧ inv later after) abort)
    (count : Nat) (start : Int) (hstate : inv world state) :
    (forRange body count start).EnsuresIn world state
      (fun later flow after ↦ flow.Satisfies (good later) ∧ inv later after) abort := by
  induction count generalizing world start state with
  | zero => exact .pure ⟨trivial, hstate⟩
  | succ count ih =>
    refine .bind ((hbody start world state hstate).mono (fun later flow after _ hafter ↦ ?_)
      fun _ _ _ h ↦ h)
    cases flow with
    | next => exact ih (start + 1) hafter.2
    | returned value => exact .pure hafter

end

end EnsuresIn

end ScriptLang.Run
