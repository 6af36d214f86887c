import ScriptLang.Proofs.Stateful

/-!
Computations that keep an invariant of their state. However such a computation is left, the
invariant holds again, and something is known of the value or the failure that it ends with.
-/

set_option autoImplicit false
set_option relaxedAutoImplicit false

namespace ScriptLang.Stateful

variable {ε σ α β : Type}

/-- An end in a state of which the invariant holds, with a value or a failure that is expected. -/
inductive Settles (invariant : σ → Prop) (gives : α → Prop) (fails : ε → Prop) :
    EStateM.Result ε σ α → Prop
  | ok {value : α} {after : σ} (hvalue : gives value) (hafter : invariant after) :
    Settles invariant gives fails (.ok value after)
  | error {cause : ε} {after : σ} (hcause : fails cause) (hafter : invariant after) :
    Settles invariant gives fails (.error cause after)

/-- From every state of which the invariant holds, a computation comes to such an end. -/
def Upholds (invariant : σ → Prop) (gives : α → Prop) (fails : ε → Prop)
    (part : EStateM ε σ α) : Prop :=
  ∀ state, invariant state → Settles invariant gives fails (part state)

namespace Upholds

variable {invariant : σ → Prop} {gives gives' : α → Prop} {next : α → EStateM ε σ β}
  {result : β → Prop} {fails : ε → Prop} {part : EStateM ε σ α}

theorem pure {value : α} (h : gives value) :
    Upholds invariant gives fails (Pure.pure value : EStateM ε σ α) := fun _ hstate ↦ .ok h hstate

theorem throw {cause : ε} (h : fails cause) :
    Upholds invariant gives fails (MonadExcept.throw cause : EStateM ε σ α) :=
  fun _ hstate ↦ .error h hstate

theorem get : Upholds invariant invariant fails (MonadState.get : EStateM ε σ σ) :=
  fun _ hstate ↦ .ok hstate hstate

theorem modify {change : σ → σ} (h : ∀ state, invariant state → invariant (change state)) :
    Upholds invariant (fun _ ↦ True) fails (modify change : EStateM ε σ PUnit) :=
  fun state hstate ↦ .ok trivial (h state hstate)

/-- Computations may be put one after another: the second starts where the invariant holds, with a
value that was promised. -/
theorem bind (hpart : Upholds invariant gives fails part)
    (hnext : ∀ value, gives value → Upholds invariant result fails (next value)) :
    Upholds invariant result fails (part >>= next) := by
  intro state hstate
  have hend := hpart state hstate
  generalize hrun : part state = reached at hend
  cases hend with
  | ok hvalue hafter =>
    rw [bind_of_ok hrun]
    exact hnext _ hvalue _ hafter
  | error hcause hafter =>
    rw [bind_of_error hrun]
    exact .error hcause hafter

/-- A value that is not used may be anything. -/
theorem discard (h : Upholds invariant gives fails part) :
    Upholds invariant (fun _ ↦ True) fails (discard part) := by
  rw [discard_eq]
  exact h.bind fun _ _ ↦ .pure trivial

/-- A verdict that is there already gives or fails as it does, without a change of the state. -/
theorem ofExcept {verdict : Except ε α} (hok : ∀ value, verdict = .ok value → gives value)
    (herror : ∀ cause, verdict = .error cause → fails cause) :
    Upholds invariant gives fails (ofExcept verdict : EStateM ε σ α) := by
  cases verdict with
  | ok value => exact .pure (hok value rfl)
  | error cause => exact .throw (herror cause rfl)

/-- Each branch may use that it was chosen. -/
theorem ite {test : Prop} [Decidable test] {other : EStateM ε σ α}
    (hyes : test → Upholds invariant gives fails part)
    (hno : ¬test → Upholds invariant gives fails other) :
    Upholds invariant gives fails (if test then part else other) := by
  split
  · exact hyes ‹_›
  · exact hno ‹_›

/-- A computation on an item that may be missing gives nothing without the item. -/
theorem option_mapM {part : α → EStateM ε σ β}
    (h : ∀ item, Upholds invariant result fails (part item)) (item : Option α) :
    Upholds invariant (fun found ↦ ∀ value, found = some value → result value) fails
      (item.mapM part) := by
  cases item with
  | none => exact .pure fun _ hfound ↦ by cases hfound
  | some item =>
    rw [Option.mapM_some, map_eq]
    exact (h item).bind fun value hvalue ↦ .pure fun _ hfound ↦ Option.some.inj hfound ▸ hvalue

/-- A computation on each item of a list gives as many values, all as promised. The induction is on
the list. -/
theorem list_mapM {part : α → EStateM ε σ β}
    (h : ∀ item, Upholds invariant result fails (part item)) (items : List α) :
    Upholds invariant
      (fun values ↦ values.length = items.length ∧ ∀ value ∈ values, result value) fails
      (items.mapM part) := by
  induction items with
  | nil => exact .pure ⟨rfl, fun _ hmem ↦ by cases hmem⟩
  | cons head tail ih =>
    rw [List.mapM_cons]
    refine (h head).bind fun value hvalue ↦ ih.bind fun values hvalues ↦ .pure ⟨?_, ?_⟩
    · rw [List.length_cons, List.length_cons, hvalues.1]
    · exact List.forall_mem_cons.mpr ⟨hvalue, hvalues.2⟩

/-- A computation on each item of a list keeps the invariant through all of them. -/
theorem list_forM {part : α → EStateM ε σ PUnit} {items : List α}
    (h : ∀ item ∈ items, Upholds invariant (fun _ ↦ True) fails (part item)) :
    Upholds invariant (fun _ ↦ True) fails (items.forM part) := by
  induction items with
  | nil => exact .pure trivial
  | cons head tail ih =>
    obtain ⟨hhead, htail⟩ := List.forall_mem_cons.mp h
    exact hhead.bind fun _ _ ↦ ih htail

end Upholds

end ScriptLang.Stateful
