import ScriptLang.Proofs.Execution.Outcome
import ScriptLang.Session

/-!
More fuel. A run that is not cut off for want of fuel goes the same with any more of it, so that
the outcome of a run that ends is one outcome, whatever fuel it was given.
-/

set_option autoImplicit false
set_option relaxedAutoImplicit false

namespace ScriptLang

namespace Run

variable {H α β : Type}

/-- From every state from which `first` is not out of fuel, `second` ends as `first` does. -/
def Extends (first second : Run H α) : Prop :=
  ∀ state, (∃ after, first state = .error .outOfFuel after) ∨ second state = first state

theorem Extends.refl (body : Run H α) : body.Extends body := fun _ ↦ .inr rfl

theorem extends_of_outOfFuel (body : Run H α) : (throw .outOfFuel : Run H α).Extends body :=
  fun state ↦ .inl ⟨state, rfl⟩

/-- What is out of fuel with more of it was so with less. -/
theorem Extends.outOfFuel {first second : Run H α} (h : first.Extends second)
    {state later : State H}
    (hstuck : second state = .error .outOfFuel later) :
    ∃ after, first state = .error .outOfFuel after := by
  obtain hfirst | hsame := h state
  · exact hfirst
  · exact ⟨later, hsame.symm.trans hstuck⟩

/-- A value that is reached is reached with more fuel as well, in the same state. -/
theorem Extends.ok {first second : Run H α} (h : first.Extends second) {state later : State H}
    {value : α} (hfirst : first state = .ok value later) : second state = .ok value later := by
  obtain ⟨after, hstuck⟩ | hsame := h state
  · rw [hstuck] at hfirst
    cases hfirst
  · exact hsame.trans hfirst

/-- Runs that extend others may be put one after another. -/
theorem Extends.bind {first second : Run H α} {next next' : α → Run H β}
    (hfirst : first.Extends second) (hnext : ∀ value, (next value).Extends (next' value)) :
    (first >>= next).Extends (second >>= next') := by
  intro state
  obtain ⟨after, hstuck⟩ | hsame := hfirst state
  · exact .inl ⟨after, Stateful.bind_of_error hstuck⟩
  · cases hrun : first state with
    | ok value middle =>
      rw [Stateful.bind_of_ok hrun, Stateful.bind_of_ok (hsame.trans hrun)]
      exact hnext value middle
    | error cause middle =>
      rw [Stateful.bind_of_error hrun, Stateful.bind_of_error (hsame.trans hrun)]
      exact .inr rfl

/-- What is entered and left around a run plays no part. -/
theorem Extends.within {first second : Run H α} {enter leave : State H → State H}
    (h : first.Extends second) :
    (within enter leave first).Extends (within enter leave second) := by
  intro state
  unfold Run.within
  obtain ⟨after, hstuck⟩ | hsame := h (enter state)
  · rw [hstuck]
    exact .inl ⟨leave after, rfl⟩
  · rw [hsame]
    exact .inr rfl

/-- A conditional loop goes through the same turns with more fuel. The induction is on the smaller
fuel. -/
theorem Extends.repeatWhile {condition condition' : Run H Bool} {body body' : Run H Flow}
    (hcondition : condition.Extends condition') (hbody : body.Extends body') {fuel fuel' : Nat}
    (hfuel : fuel ≤ fuel') :
    (repeatWhile condition body fuel).Extends (repeatWhile condition' body' fuel') := by
  induction fuel generalizing fuel' with
  | zero => exact extends_of_outOfFuel _
  | succ fuel ih =>
    obtain ⟨fuel', rfl⟩ := Nat.exists_eq_add_one_of_ne_zero (Nat.ne_zero_of_lt hfuel)
    refine hcondition.bind fun holds ↦ ?_
    split
    · refine hbody.bind fun flow ↦ ?_
      cases flow with
      | next => exact ih (Nat.le_of_succ_le_succ hfuel)
      | returned value => exact .refl _
    · exact .refl _

/-- The turns of a loop over a range are the same with more fuel for each. -/
theorem Extends.forRange {body body' : Int → Run H Flow}
    (hbody : ∀ item, (body item).Extends (body' item)) (count : Nat) (start : Int) :
    (forRange body count start).Extends (forRange body' count start) := by
  induction count generalizing start with
  | zero => exact .refl _
  | succ count ih =>
    refine (hbody start).bind fun flow ↦ ?_
    cases flow with
    | next => exact ih (start + 1)
    | returned value => exact .refl _

end Run

section

variable {H : Type} {invoke invoke' : Callable H → List Value → Run H Value}
  (hinvoke : ∀ callable args, (invoke callable args).Extends (invoke' callable args))

include hinvoke

-- A mutual recursion over the tree does not name the hypothesis that it shares.
set_option linter.unusedSectionVars false

mutual

/-- An expression goes through the same calls, and each extends the one with less fuel. -/
theorem Expr.evalWith_extends : ∀ expr : Expr,
    (expr.evalWith invoke).Extends (expr.evalWith invoke')
  | .literal _ value => .refl _
  | .group _ inner => inner.evalWith_extends
  | .binary _ op left right => by
    rw [Expr.evalWith, Expr.evalWith]
    refine left.evalWith_extends.bind fun first ↦ ?_
    split
    · refine (Run.Extends.refl _).bind fun holds ↦ ?_
      split
      · exact .refl _
      · exact right.evalWith_extends.bind fun _ ↦ .refl _
    · exact right.evalWith_extends.bind fun _ ↦ .refl _
  | .access _ name _ => .refl _
  | .member _ receiver name _ => receiver.evalWith_extends.bind fun _ ↦ .refl _
  | .call _ name args _ =>
    (evalArgsWith_extends args).bind fun values ↦
      (Run.Extends.refl _).bind fun callable ↦ hinvoke callable values
  | .invoke _ receiver name args _ =>
    receiver.evalWith_extends.bind fun object ↦ (evalArgsWith_extends args).bind fun values ↦
      (Run.Extends.refl _).bind fun _ ↦ (Run.Extends.refl _).bind fun callable ↦
        hinvoke callable (object :: values)

/-- Arguments are computed alike with more fuel. -/
theorem evalArgsWith_extends : ∀ args : List Expr,
    (evalArgsWith invoke args).Extends (evalArgsWith invoke' args)
  | [] => .refl _
  | head :: tail =>
    head.evalWith_extends.bind fun _ ↦ (evalArgsWith_extends tail).bind fun _ ↦ .refl _

end

theorem Binding.evalWith_extends (binding : Binding) :
    (binding.evalWith invoke).Extends (binding.evalWith invoke') := by
  unfold Binding.evalWith
  split
  · exact Expr.evalWith_extends hinvoke _
  · exact .refl _

/-- An assignment is made alike with more fuel. -/
theorem Expr.assignWith_extends (target value : Expr) :
    (target.assignWith invoke value).Extends (target.assignWith invoke' value) := by
  unfold Expr.assignWith
  split
  · exact (value.evalWith_extends hinvoke).bind fun _ ↦ .refl _
  · exact (value.evalWith_extends hinvoke).bind fun _ ↦
      (Expr.evalWith_extends hinvoke _).bind fun _ ↦ .refl _
  · exact .refl _

theorem Expr.conditionWith_extends (condition : Expr) :
    (condition.conditionWith invoke).Extends (condition.conditionWith invoke') :=
  (condition.evalWith_extends hinvoke).bind fun _ ↦ .refl _

variable {fuel fuel' : Nat} (hfuel : fuel ≤ fuel')

include hfuel

mutual

/-- A statement ends alike with more fuel, both for its calls and for its loops. -/
theorem Stmt.execWith_extends : ∀ statement : Stmt,
    (statement.execWith invoke fuel).Extends (statement.execWith invoke' fuel')
  | .expr value => by
    rw [Stmt.execWith, Stmt.execWith, Stateful.discard_eq, Stateful.discard_eq]
    exact ((value.evalWith_extends hinvoke).bind fun _ ↦ .refl _).bind fun _ ↦ .refl _
  | .declare binding => by
    rw [Stmt.execWith, Stmt.execWith]
    exact (binding.evalWith_extends hinvoke).bind fun _ ↦ .refl _
  | .assign target value => by
    rw [Stmt.execWith, Stmt.execWith]
    exact (target.assignWith_extends hinvoke value).bind fun _ ↦ .refl _
  | .branch condition thenBody elseBody => by
    rw [Stmt.execWith, Stmt.execWith]
    refine (condition.conditionWith_extends hinvoke).bind fun holds ↦ ?_
    split
    · exact (execAllWith_extends thenBody).within
    · exact (execAllWith_extends elseBody).within
  | .forEach _ name iterable body => by
    rw [Stmt.execWith, Stmt.execWith]
    refine (iterable.evalWith_extends hinvoke).bind fun _ ↦ (Run.Extends.refl _).bind fun _ ↦ ?_
    exact .forRange (fun _ ↦ (execAllWith_extends body).within) _ _
  | .loop condition body => by
    rw [Stmt.execWith, Stmt.execWith]
    exact .repeatWhile (condition.conditionWith_extends hinvoke)
      (execAllWith_extends body).within hfuel
  | .ret value => by
    rw [Stmt.execWith, Stmt.execWith]
    exact (value.evalWith_extends hinvoke).bind fun _ ↦ .refl _

/-- Statements end alike with more fuel. -/
theorem execAllWith_extends : ∀ statements : List Stmt,
    (execAllWith invoke fuel statements).Extends (execAllWith invoke' fuel' statements)
  | [] => .refl _
  | head :: tail => by
    rw [execAllWith, execAllWith]
    refine head.execWith_extends.bind fun flow ↦ ?_
    cases flow with
    | next => exact execAllWith_extends tail
    | returned value => exact .refl _

end

end

section

variable {H : Type} [Host H]

/-- A call ends alike if bodies do. -/
theorem Callable.perform_extends {run run' : List Stmt → Run H Flow}
    (hrun : ∀ body, (run body).Extends (run' body)) (callable : Callable H) (args : List Value) :
    (callable.perform run args).Extends (callable.perform run' args) := by
  by_cases harity : args.length = callable.arity
  · refine Callable.cases_of_arity callable args harity ?_ ?_ ?_ ?_
    · exact fun value ↦ .refl _
    · exact fun start stop ↦ .refl _
    · intro function args harity
      rw [Callable.perform_host run harity, Callable.perform_host run' harity]
      exact .refl _
    · intro definition args harity
      rw [Callable.perform_procedure run harity, Callable.perform_procedure run' harity]
      exact ((hrun definition.body).bind fun _ ↦ .refl _).within
  · rw [Callable.perform_of_ne run harity, Callable.perform_of_ne run' harity]
    exact .refl _

variable {fuel fuel' : Nat} (hfuel : fuel ≤ fuel')

include hfuel

/-- A call ends alike with more fuel. The induction is on the smaller fuel, one for each level of
calls. -/
theorem Callable.invoke_extends (callable : Callable H) (args : List Value) :
    (callable.invoke fuel args).Extends (callable.invoke fuel' args) := by
  induction fuel generalizing fuel' callable args with
  | zero =>
    cases fuel' with
    | zero => exact .refl _
    | succ fuel' => exact callable.perform_extends (fun _ ↦ Run.extends_of_outOfFuel _) args
  | succ fuel ih =>
    obtain ⟨fuel', rfl⟩ := Nat.exists_eq_add_one_of_ne_zero (Nat.ne_zero_of_lt hfuel)
    have hless := Nat.le_of_succ_le_succ hfuel
    exact callable.perform_extends (execAllWith_extends (ih hless) hless) args

/-- More fuel does not change the value of an expression that was reached. -/
theorem Expr.eval_extends (expr : Expr) :
    (expr.eval fuel : Run H Value).Extends (expr.eval fuel') :=
  expr.evalWith_extends (Callable.invoke_extends hfuel)

theorem Stmt.exec_extends (statement : Stmt) :
    (statement.exec fuel : Run H Flow).Extends (statement.exec fuel') :=
  statement.execWith_extends (Callable.invoke_extends hfuel) hfuel

/-- More fuel does not change the fields of a program. -/
theorem initializeFields_extends (fields : List Binding) :
    (initializeFields fuel fields : Run H Unit).Extends (initializeFields fuel' fields) := by
  induction fields with
  | nil => exact .refl _
  | cons head tail ih =>
    exact (head.evalWith_extends (Callable.invoke_extends hfuel)).bind fun _ ↦
      (Run.Extends.refl _).bind fun _ ↦ ih

/-- A program that ends does so in the same way with more fuel. -/
theorem Program.run_extends (program : Program) :
    (program.run fuel : Run H Value).Extends (program.run fuel') :=
  (Run.Extends.refl _).bind fun _ ↦ (initializeFields_extends hfuel program.fields).bind fun _ ↦
    (Run.Extends.refl _).bind fun _ ↦ (Run.Extends.refl _).bind fun main ↦
      main.invoke_extends hfuel []

/-- A run that was not cut off gives the same result and leaves the same session with more fuel. -/
theorem Session.interpret_of_le {session : Session H} {program : Program}
    (hended : (session.interpret fuel program).1 ≠ .error .outOfFuel) :
    session.interpret fuel' program = session.interpret fuel program := by
  unfold Session.interpret at hended ⊢
  obtain ⟨after, hstuck⟩ | hsame := program.run_extends hfuel session.state
  · rw [hstuck] at hended
    exact absurd rfl hended
  · rw [hsame]

end

end ScriptLang
