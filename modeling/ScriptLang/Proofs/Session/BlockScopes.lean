import Mathlib
import ScriptLang.Proofs.Execution.Growth
import ScriptLang.Proofs.Session.Isolation

/-!
Block scopes do not leak. From any memory that a session comes to, and in any scope of it, the
evaluation of an expression and the run of a statement that is no declaration leave all scopes that
there were with the names, cells and functions that they had, be they left at their end, by a return
or by an error. A declaration changes the scope that it is in and no other, and if its initial value
fails it changes none.
-/

set_option autoImplicit false
set_option relaxedAutoImplicit false

namespace ScriptLang

variable {H : Type}

/-- A cell that is not there yet is that of no variable or field. -/
theorem Memory.Separate.cell?_ne {memory : Memory H} (h : memory.Separate) {cell : Nat}
    (hcell : memory.cells.length ≤ cell) (slot : Slot) : memory.cell? slot ≠ some cell :=
  fun hslot ↦ Nat.not_lt.mpr hcell (h.bounded slot.owner cell (Bindings.value_mem_of_find? hslot))

variable [Host H]

/-- In the scope `scope` the name `name` is bound anew, to a cell that no variable or field has been
in and that holds `value`. Nothing else is changed in this scope, and nothing in any other. -/
structure Memory.Binds (scope : Nat) (name : String) (value : Value) (cell : Nat)
    (before after : Memory H) : Prop where
  fresh : before.cells.length ≤ cell
  unbound : ∀ slot, before.cell? slot ≠ some cell
  bound : ∀ slot, after.cell? slot = some cell ↔ slot = ⟨.scope scope, name⟩
  holds : after.read cell = value
  here : after.scopes.nodes[scope]? = before.scopes.nodes[scope]?.map
    fun node ↦ { node with scope := node.scope.declare name cell }
  others : before.Grows (some scope) after

/-- A declaration binds its name to a cell of its own, whatever scopes its initial value opened. -/
theorem Memory.Grows.binds {before middle : Memory H} (hgrows : before.Grows none middle)
    (hseparate : before.Separate) {scope : Nat} (hscope : scope < before.scopes.nodes.length)
    (name : String) (value : Value) :
    Memory.Binds scope name value middle.cells.length before (middle.declare scope name value) := by
  obtain ⟨hmiddle, hcells⟩ := hgrows.separate hseparate
  have hscope' : scope < middle.scopes.nodes.length := Nat.lt_of_lt_of_le hscope hgrows.length
  have hbound : (middle.declare scope name value).cell? ⟨.scope scope, name⟩ =
      some middle.cells.length := by
    unfold Memory.cell?
    rw [Memory.bindings_declare hscope', if_pos rfl, Bindings.find?_insert, if_pos rfl]
  refine ⟨hcells, hseparate.cell?_ne hcells, fun slot ↦ ⟨fun hslot ↦ ?_, fun hslot ↦ ?_⟩,
    ?_, ?_, ?_⟩
  · exact (hmiddle.declare hscope' name value).slot_eq hslot hbound
  · exact hslot ▸ hbound
  · exact Memory.read_declare_self scope name value
  · rw [← hgrows.scopes scope hscope nofun]
    exact ScopeTree.modify_same _
  · exact hgrows.of_none.trans (Memory.grows_declare scope name value)

/-- Block scopes never leak. Let a session on cells have come to some memory on its way; it goes
through the states of a session, and statements run on cells as they do on states. In any scope that
there is, evaluating an expression, or running a statement that is no declaration, leaves every
scope as it was, however it ends. A declaration fails just when its initial value does, and then
leaves every scope as it was, too; else it binds its name in its own scope to a fresh cell with the
value, and changes nothing else. -/
theorem Session.scopes_never_leak (sink : Sink) (acts : List (Act H)) (tracked : Tracked H)
    (hreached : tracked.memory ∈ (CellSession.after sink acts).tracked.memories) (scope : Nat)
    (hscope : scope < tracked.memory.scopes.nodes.length) (fuel : Nat) :
    (CellSession.after sink acts).state = (after sink acts).state ∧
      (∀ statement : Stmt, (statement.execOnCells (Closure.invoke fuel) fuel scope).Mirrors scope
        (statement.exec (H := H) fuel)) ∧
      (∀ expr : Expr, tracked.memory.Grows none
        ((expr.evalOnCells (Closure.invoke fuel) scope).left tracked)) ∧
      (∀ statement : Stmt, (∀ binding, statement ≠ .declare binding) → tracked.memory.Grows none
        ((statement.execOnCells (Closure.invoke fuel) fuel scope).left tracked)) ∧
      ∀ binding : Binding,
        let run := (Stmt.declare binding).execOnCells (Closure.invoke fuel) fuel scope tracked
        match binding.evalOnCells (Closure.invoke fuel) scope tracked with
        | .error cause after => run = .error cause after ∧ tracked.memory.Grows none after.memory
        | .ok value _ => ∃ after cell, run = .ok .next after ∧
          Memory.Binds scope binding.name value cell tracked.memory after.memory := by
  have hshows := (CellSession.shows_after sink acts).tracked
  have hseparate : tracked.memory.Separate :=
    List.forall_mem_cons.mpr ⟨hshows.fits.separate, hshows.earlier⟩ tracked.memory hreached
  have hinvoke := Closure.invoke_grows (H := H) fuel
  refine ⟨hshows.state, fun statement ↦ ?_, fun expr ↦ ?_, fun statement hother ↦ ?_,
    fun binding ↦ ?_⟩
  · exact statement.execOnCells_mirrors (Callable.invoke_moves fuel) (Closure.invoke_shows fuel)
      fuel scope
  · exact expr.evalOnCells_grows hinvoke scope tracked
  · have hgrows := statement.execOnCells_grows hinvoke fuel scope
    split at hgrows
    · rename_i binding
      exact absurd rfl (hother binding)
    · exact hgrows tracked
  · have hgrows := binding.evalOnCells_grows hinvoke scope tracked
    intro run
    -- A declaration evaluates its value first and declares the name last.
    have hrun : run = (binding.evalOnCells (Closure.invoke fuel) scope >>= fun value ↦
        CellRun.change (·.declare scope binding.name value) >>= fun _ ↦
          pure Flow.next) tracked := by
      unfold run
      rw [Stmt.execOnCells]
    cases heval : binding.evalOnCells (Closure.invoke fuel) scope tracked with
    | error cause after =>
      rw [CellRun.left_of_error heval] at hgrows
      exact ⟨hrun.trans (Stateful.bind_of_error heval), hgrows⟩
    | ok value middle =>
      rw [CellRun.left_of_ok heval] at hgrows
      exact ⟨_, _, hrun.trans (Stateful.bind_of_ok heval),
        hgrows.binds hseparate hscope binding.name value⟩

/-- A loop that is left by a return from within a block that declares a variable. -/
def Stmt.leaving : Stmt :=
  .loop (.literal ⟨0, none⟩ (.boolean true)) [
    .branch (.literal ⟨0, none⟩ (.boolean true)) [
      .declare ⟨"x", none, some (.literal ⟨0, none⟩ (.integer 1)), 0, none⟩,
      .ret (.access ⟨0, none⟩ "x" none)] []]

/-- A loop that returns out of a block leaves the scopes that were there as they are, while a
declaration binds a new cell. Scope 3 is that of the call of `main`, which has declared an `x` of
its own. -/
theorem Session.scopes_never_leak_overwriting :
    let session : CellSession Empty :=
      CellSession.after (.text "") [.interpret 2 Program.overwriting]
    session.tracked.memory ∈ session.tracked.memories ∧
      3 < session.tracked.memory.scopes.nodes.length ∧
      session.tracked.memory.Grows none
        ((Stmt.leaving.execOnCells (Closure.invoke 2) 2 3).left session.tracked) ∧
      ∃ after cell, (Stmt.declare ⟨"x", none, some (.literal ⟨0, none⟩ (.integer 1)), 0, none⟩
          ).execOnCells (Closure.invoke 2) 2 3 session.tracked = .ok .next after ∧
        Memory.Binds 3 "x" (.integer 1) cell session.tracked.memory after.memory := by
  intro session
  have hlength : session.tracked.memory.scopes.nodes.length = 5 := by
    unfold session
    cbv
  have hscope : 3 < session.tracked.memory.scopes.nodes.length := hlength ▸ by decide
  have hother (binding : Binding) : Stmt.leaving ≠ .declare binding := Stmt.noConfusion
  obtain ⟨-, -, -, hstatement, hdeclare⟩ := scopes_never_leak (.text "")
    [.interpret 2 Program.overwriting] session.tracked List.mem_cons_self 3 hscope 2
  -- From here on it does not matter which session it is.
  clear_value session
  exact ⟨List.mem_cons_self, hscope, hstatement Stmt.leaving hother,
    hdeclare ⟨"x", none, some (.literal ⟨0, none⟩ (.integer 1)), 0, none⟩⟩

end ScriptLang
