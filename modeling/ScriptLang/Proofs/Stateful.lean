/-!
Computations with a state that is kept when they fail. A computation that is put together from two
parts ends well when both do, and fails when one of them does.
-/

set_option autoImplicit false
set_option relaxedAutoImplicit false

namespace ScriptLang.Stateful

variable {ε σ α β : Type} {first : EStateM ε σ α} {next : α → EStateM ε σ β} {state after : σ}

/-- A computation in two parts ends well only if both do. -/
theorem bind_eq_ok {result : β} (hrun : (first >>= next) state = .ok result after) :
    ∃ value middle, first state = .ok value middle ∧ next value middle = .ok result after := by
  change EStateM.bind first next state = _ at hrun
  unfold EStateM.bind at hrun
  split at hrun
  · rename_i value middle hfirst
    exact ⟨value, middle, hfirst, hrun⟩
  · cases hrun

/-- After a first part that ends well comes the second. -/
theorem bind_of_ok {middle : σ} {value : α} (hfirst : first state = .ok value middle) :
    (first >>= next) state = next value middle := by
  change EStateM.bind first next state = _
  unfold EStateM.bind
  rw [hfirst]

/-- A failure of the first part is the failure of both. -/
theorem bind_of_error {cause : ε} (hfirst : first state = .error cause after) :
    (first >>= next) state = .error cause after := by
  change EStateM.bind first next state = _
  unfold EStateM.bind
  rw [hfirst]

/-- A computation in two parts fails in the first or, after the first has ended well, in the
second. -/
theorem bind_eq_error {cause : ε} (hrun : (first >>= next) state = .error cause after) :
    first state = .error cause after ∨
      ∃ value middle, first state = .ok value middle ∧ next value middle = .error cause after := by
  cases hfirst : first state with
  | ok value middle =>
    rw [bind_of_ok hfirst] at hrun
    exact .inr ⟨value, middle, rfl, hrun⟩
  | error other middle =>
    rw [bind_of_error hfirst] at hrun
    cases hrun
    exact .inl rfl

/-- To change the value is to go on with the changed one. -/
theorem map_eq (change : α → β) : change <$> first = first >>= fun value ↦ pure (change value) := by
  funext state
  change EStateM.map change first state = _
  unfold EStateM.map
  cases hfirst : first state with
  | ok value after => rw [bind_of_ok hfirst]; rfl
  | error cause after => rw [bind_of_error hfirst]

theorem discard_eq : discard first = first >>= fun _ ↦ pure () := map_eq fun _ ↦ ()

/-! ### Two computations side by side -/

section

variable {τ : Type} {related : σ → τ → Prop}

/-- Two ends with the same value or the same failure, in states that are related. -/
inductive SameEnd (related : σ → τ → Prop) : EStateM.Result ε σ α → EStateM.Result ε τ α → Prop
  | ok {value : α} {state : σ} {state' : τ} (h : related state state') :
    SameEnd related (.ok value state) (.ok value state')
  | error {cause : ε} {state : σ} {state' : τ} (h : related state state') :
    SameEnd related (.error cause state) (.error cause state')

/-- From states that are related, both computations come to the same end. -/
def Simulates (related : σ → τ → Prop) (first : EStateM ε σ α) (second : EStateM ε τ α) : Prop :=
  ∀ state state', related state state' → SameEnd related (first state) (second state')

theorem Simulates.pure (value : α) :
    Simulates related (Pure.pure value : EStateM ε σ α) (Pure.pure value) := fun _ _ h ↦ .ok h

theorem Simulates.throw (cause : ε) :
    Simulates related (MonadExcept.throw cause : EStateM ε σ α) (MonadExcept.throw cause) :=
  fun _ _ h ↦ .error h

/-- Simulations may be put one after another. -/
theorem Simulates.bind {second : EStateM ε τ α} {next' : α → EStateM ε τ β}
    (hfirst : Simulates related first second)
    (hnext : ∀ value, Simulates related (next value) (next' value)) :
    Simulates related (first >>= next) (second >>= next') := by
  intro state state' h
  have hends := hfirst state state' h
  generalize hrun : first state = one at hends
  generalize hrun' : second state' = other at hends
  cases hends with
  | ok hmiddle =>
    rw [bind_of_ok hrun, bind_of_ok hrun']
    exact hnext _ _ _ hmiddle
  | error hmiddle =>
    rw [bind_of_error hrun, bind_of_error hrun']
    exact .error hmiddle

variable {final : σ → τ → Prop}

/-- Ends in states that are related are ends in states related in a weaker way. -/
theorem SameEnd.imp {one : EStateM.Result ε σ α} {other : EStateM.Result ε τ α}
    (h : SameEnd related one other)
    (himp : ∀ state state', related state state' → final state state') :
    SameEnd final one other := by
  cases h with
  | ok hstates => exact .ok (himp _ _ hstates)
  | error hstates => exact .error (himp _ _ hstates)

/-- Ends of two parts, where the second is only compared for the states that the first comes to. -/
theorem SameEnd.bind {second : EStateM ε τ α} {next' : α → EStateM ε τ β} {state' : τ}
    (hfirst : SameEnd related (first state) (second state'))
    (herror : ∀ state state', related state state' → final state state')
    (hnext : ∀ value state state', related state state' →
      SameEnd final (next value state) (next' value state')) :
    SameEnd final ((first >>= next) state) ((second >>= next') state') := by
  generalize hrun : first state = one at hfirst
  generalize hrun' : second state' = other at hfirst
  cases hfirst with
  | ok hmiddle =>
    rw [bind_of_ok hrun, bind_of_ok hrun']
    exact hnext _ _ _ hmiddle
  | error hmiddle =>
    rw [bind_of_error hrun, bind_of_error hrun']
    exact .error (herror _ _ hmiddle)

end

end ScriptLang.Stateful
