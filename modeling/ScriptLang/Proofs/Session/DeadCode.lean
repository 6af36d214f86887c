import ScriptLang.Proofs.Session.Layout

/-!
Statements that always return, seen from outside. A call whose body always returns gives a value
that a return statement in it has given, and code behind such a statement can be removed from any
block of a program without a trace in its runs.
-/

set_option autoImplicit false
set_option relaxedAutoImplicit false

namespace ScriptLang

section

variable {H : Type} [Host H]

/-- The value of a call whose body always returns is one that the body has returned. -/
theorem Callable.invoke_returns {definition : Procedure}
    (hreturns : blockAlwaysReturns definition.body = true) {fuel : Nat} {args : List Value}
    {state after : State H} {value : Value}
    (hcall : Callable.invoke fuel (.procedure definition) args state = .ok value after) :
    ∃ nested inner, fuel = nested + 1 ∧
      execAllWith (Callable.invoke nested) nested definition.body
        (state.enterCall (parameterScope definition.params args)) =
          .ok (.returned value) inner ∧
      after = inner.leaveCall := by
  have harity : args.length = definition.params.length := by
    by_contra hne
    cases fuel <;> rw [invoke, perform_of_ne _ hne] at hcall <;> cases hcall
  cases fuel with
  | zero =>
    rw [invoke, perform_procedure _ harity] at hcall
    cases hcall
  | succ nested =>
    rw [invoke, perform_procedure _ harity] at hcall
    unfold Run.call Run.within at hcall
    split at hcall
    · rename_i result inner hbody
      cases hcall
      obtain ⟨flow, middle, hrun, hflow⟩ := Stateful.bind_eq_ok hbody
      cases flow with
      | next => exact (((execAllWith_returns _ hreturns) _).ok hrun rfl).elim
      | returned found =>
        cases hflow
        exact ⟨nested, inner, rfl, hrun, rfl⟩
    · cases hcall

namespace Session

/-- A program and the same program without dead code end alike from every session. -/
theorem interpret_trims (session : Session H) (fuel : Nat) {program other : Program}
    (h : program.Trims other) :
    (session.interpret fuel program).1 = (session.interpret fuel other).1 ∧
      (session.interpret fuel program).2.SameView (session.interpret fuel other).2 := by
  refine session.interpret_ends fuel (Program.run_ends fuel ?_ ?_ (Likeness.identical_self _))
  · rw [h.fields]
    exact List.forall₂_same.mpr fun field _ ↦ rfl
  · exact fun _ _ hstates ↦
      hstates.declareMethods (h.methods.imp fun _ _ ↦ Method.Trims.callsAlike)

/-- A statement that always returns never ends in front of the next one; a call whose body always
returns gives a value that the body has returned, never the NIL of a body that was left at its end;
and a program that has lost dead code in any of its blocks is run as before: with the same value or
the same error, the same output, and the same variables and objects in the end. -/
theorem dead_code_irrelevant (session : Session H) (fuel : Nat) :
    (∀ statement : Stmt, statement.alwaysReturns = true → ∀ state after : State H,
      statement.exec fuel state ≠ .ok .next after) ∧
    (∀ definition : Procedure, blockAlwaysReturns definition.body = true →
      ∀ (args : List Value) (state after : State H) (value : Value),
        Callable.invoke fuel (.procedure definition) args state = .ok value after →
        ∃ nested inner, fuel = nested + 1 ∧
          execAllWith (Callable.invoke nested) nested definition.body
            (state.enterCall (Callable.parameterScope definition.params args)) =
              .ok (.returned value) inner ∧
          after = inner.leaveCall) ∧
    ∀ program other : Program, program.Trims other →
      (session.interpret fuel program).1 = (session.interpret fuel other).1 ∧
      (session.interpret fuel program).2.SameView (session.interpret fuel other).2 := by
  refine ⟨fun statement hreturns state after hrun ↦ ?_, ?_,
    fun program other h ↦ session.interpret_trims fuel h⟩
  · exact (statement.execWith_returns hreturns state).ok hrun rfl
  · exact fun definition hreturns args state after value ↦ Callable.invoke_returns hreturns

/-- `IF n < 1 DO RETURN 7; ELSE RETURN count(n - 1); END` with more behind the first return. -/
def countDown (behind : List Stmt) : Stmt :=
  let one : Expr := .literal ⟨0, none⟩ (.integer 1)
  let rest : Expr := .binary ⟨0, none⟩ .sub (.access ⟨0, none⟩ "n" none) one
  .branch (.binary ⟨0, none⟩ .less (.access ⟨0, none⟩ "n" none) one)
    (.ret (.literal ⟨0, none⟩ (.integer 7)) :: behind)
    [.ret (.call ⟨0, none⟩ "count" [rest] none)]

/-- A program whose `main` returns `count(2)`. -/
def counting (body : List Stmt) : Program where
  methods :=
    [{ name := "count", params := ["n"], paramTypes := ["Integer"], returnType := some "Integer"
       body, offset := 0 },
     { name := "main", params := [], paramTypes := [], returnType := some "Integer"
       body := [.ret (.call ⟨0, none⟩ "count" [.literal ⟨0, none⟩ (.integer 2)] none)]
       offset := 0 }]

/-- An endless loop behind statements that always return may be taken out of a method, and nothing
changes. -/
theorem dead_code_irrelevant_counting :
    let session : Session Empty := initial (.text "")
    let dead : List Stmt := [.loop (.literal ⟨0, none⟩ (.boolean true)) []]
    (countDown dead).alwaysReturns = true ∧
    (∀ after, (countDown dead).exec 4 session.state ≠ .ok .next after) ∧
    (counting (countDown dead :: dead)).Trims (counting [countDown []]) ∧
    (session.interpret 4 (counting (countDown dead :: dead))).1 = .ok (.integer 7) ∧
    (session.interpret 4 (counting [countDown []])).1 = .ok (.integer 7) := by
  intro session dead
  have hreturns : (countDown dead).alwaysReturns = true := rfl
  have hstatement : (countDown dead).Trims (countDown []) :=
    .branch (.cut rfl (.same _) dead) (.refl _)
  have htrims : (counting (countDown dead :: dead)).Trims (counting [countDown []]) :=
    ⟨rfl, .cons ⟨rfl, rfl, .cut hreturns hstatement dead⟩ (.cons ⟨rfl, rfl, .refl _⟩ .nil)⟩
  obtain ⟨hstatements, -, hprograms⟩ := dead_code_irrelevant session 4
  have hrun : (session.interpret 4 (counting [countDown []])).1 = .ok (.integer 7) := by cbv
  exact ⟨hreturns, hstatements _ hreturns session.state, htrims,
    (hprograms _ _ htrims).1.trans hrun, hrun⟩

end Session

end

end ScriptLang
