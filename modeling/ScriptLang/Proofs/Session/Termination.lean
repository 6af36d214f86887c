import ScriptLang.Proofs.Execution.Fuel
import ScriptLang.Proofs.Execution.Termination
import ScriptLang.Proofs.Session.History

/-!
Sessions in which a program ends. Whatever a host did before, checked programs and others that
failed or were cut off among it, a program without conditional loops and without recursion comes to
one result: any fuel for as many nested calls as it has methods leads there.
-/

set_option autoImplicit false
set_option relaxedAutoImplicit false

namespace ScriptLang

variable {H : Type} [Host H]

/-- No history puts a procedure among the functions of the host or leaves a call open. -/
theorem Session.offers_after (sink : Sink) (acts : List (Act H)) :
    { (after sink acts).state with module := {} }.Offers [] := by
  obtain ⟨hsound, hkeyed⟩ := sound_after sink acts
  refine ⟨fun scope hscope ↦ ?_, fun frame hframe ↦ ?_, fun _ _ _ hfound ↦ (by cases hfound),
    fun name arity definition hfound ↦ ?_⟩
  · rw [hsound.locals] at hscope
    cases hscope
  · rw [hsound.suspended] at hframe
    cases hframe
  · have hknown := hsound.globals.function? name arity
    rw [hfound] at hknown
    cases hsignature : (after sink acts).context.globals.function? name arity with
    | none =>
      rw [hsignature] at hknown
      cases hknown
    | some signature =>
      rw [hsignature] at hknown
      obtain ⟨_, hcallable, hledger⟩ := option_rel_of_some hknown
      cases hcallable
      obtain h | h | ⟨function, h⟩ := hkeyed.callable name arity signature _ hledger <;> cases h

/-- A program without conditional loops whose methods do not call each other in a circle comes to a
value or to an error of its own, and to the same session, with any fuel for as many nested calls as
it has methods. -/
theorem Session.ends_without_recursion (sink : Sink) (acts : List (Act H)) {program : Program}
    (hloops : program.loopFree = true) (hacyclic : program.Acyclic) :
    ∃ (result : Except RuntimeError Value) (final : Session H), ∀ fuel,
      program.methods.length ≤ fuel →
        (after sink acts).interpret fuel program = (result.mapError .runtime, final) := by
  have hends : ∃ (result : Except RuntimeError Value) (final : Session H),
      (after sink acts).interpret program.methods.length program =
        (result.mapError .runtime, final) := by
    have hrun := Program.run_finishes program.methods.length hloops hacyclic (Nat.le_refl _)
      (after sink acts).state (offers_after sink acts)
    unfold interpret
    cases heq : program.run program.methods.length (after sink acts).state with
    | ok value state => exact ⟨.ok value, _, rfl⟩
    | error cause state =>
      rw [heq] at hrun
      cases cause with
      | failed cause => exact ⟨.error cause, _, rfl⟩
      | outOfFuel => exact absurd rfl hrun
  obtain ⟨result, final, hresult⟩ := hends
  refine ⟨result, final, fun fuel hfuel ↦ (interpret_of_le hfuel ?_).trans hresult⟩
  rw [hresult]
  cases result <;> nofun

/-- The sum of some squares, by a loop that assigns to its variable and to the bound of its
range. -/
def Program.sumOfSquares : Program where
  methods := [
    { name := "square", params := ["x"], paramTypes := ["Integer"], returnType := some "Integer",
      body := [.ret (.binary ⟨0, none⟩ .mul (.access ⟨0, none⟩ "x" none)
        (.access ⟨0, none⟩ "x" none))],
      offset := 0 },
    { name := "main", params := [], paramTypes := [], returnType := some "Integer",
      body := [
        .declare ⟨"total", none, some (.literal ⟨0, none⟩ (.integer 0)), 0, none⟩,
        .declare ⟨"bound", none, some (.literal ⟨0, none⟩ (.integer 4)), 0, none⟩,
        .forEach 0 "i"
          (.call ⟨0, none⟩ "range" [.literal ⟨0, none⟩ (.integer 0), .access ⟨0, none⟩ "bound" none]
            none)
          [.assign (.access ⟨0, none⟩ "total" none)
            (.binary ⟨0, none⟩ .add (.access ⟨0, none⟩ "total" none)
              (.call ⟨0, none⟩ "square" [.access ⟨0, none⟩ "i" none] none)),
          .assign (.access ⟨0, none⟩ "bound" none)
            (.binary ⟨0, none⟩ .add (.access ⟨0, none⟩ "bound" none)
              (.literal ⟨0, none⟩ (.integer 1))),
          .assign (.access ⟨0, none⟩ "i" none) (.literal ⟨0, none⟩ (.integer 0))],
        .ret (.access ⟨0, none⟩ "total" none)],
      offset := 0 }]

theorem Session.ends_without_recursion_sumOfSquares :
    Program.sumOfSquares.loopFree = true ∧ Program.sumOfSquares.Acyclic ∧
      ∃ (result : Except RuntimeError Value) (final : Session Empty), ∀ fuel, 2 ≤ fuel →
        (after (.text "") []).interpret fuel Program.sumOfSquares =
          (result.mapError .runtime, final) := by
  have hloops : Program.sumOfSquares.loopFree = true := by decide
  have hacyclic : Program.sumOfSquares.Acyclic :=
    Program.acyclic_of_order (fun method ↦ method.body.length) (by decide)
  exact ⟨hloops, hacyclic, ends_without_recursion (.text "") [] hloops hacyclic⟩

example : ((Session.after (.text "") ([] : List (Act Empty))).interpret 2
    Program.sumOfSquares).1 = .ok (.integer 14) := by cbv

end ScriptLang
