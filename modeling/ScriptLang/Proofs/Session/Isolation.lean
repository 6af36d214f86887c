import ScriptLang.Proofs.Execution.OnCells
import ScriptLang.Proofs.Session.Termination
import ScriptLang.Session.OnCells

/-!
Sessions on cells. Whatever a host does, with checked programs and others, a session on cells gives
the answers of a session and comes to a memory that shows its state. In no memory on the way does a
cell belong to two variables or fields, and no expression that was evaluated on the way has changed
a variable of a block or a call.
-/

set_option autoImplicit false
set_option relaxedAutoImplicit false

namespace ScriptLang

variable {H : Type}

/-! ### The start -/

namespace Memory

/-- A new memory has no variables and no fields. -/
theorem bindings_initial (sink : Sink) (owner : Owner) :
    (initial sink : Memory H).bindings owner = {} := by
  cases owner with
  | object index => rfl
  | scope number =>
    match number with
    | 0 | 1 => rfl
    | number + 2 => rfl

theorem scopeAt_initial (sink : Sink) : (initial sink : Memory H).scopes.scopeAt 0 =
    (Scope.declareFunction {} "print" 1 ⟨.print, 0⟩).declareFunction "range" 2 ⟨.range, 0⟩ := rfl

/-- The frame outside all calls fits a new memory. -/
theorem fits_initial (sink : Sink) : Frame.Fits ⟨1, [], [], []⟩ (initial sink : Memory H) := by
  have hvalues (owner : Owner) : ((initial sink : Memory H).bindings owner).values = [] := by
    rw [bindings_initial]
    rfl
  have hseparate : (initial sink : Memory H).Separate :=
    ⟨fun owner ↦ hvalues owner ▸ List.nodup_nil,
      fun owner other _ ↦ hvalues owner ▸ List.disjoint_nil_left _,
      fun owner cell hcell ↦ by rw [hvalues] at hcell; cases hcell⟩
  have hlength : (initial sink : Memory H).scopes.nodes.length = 2 := rfl
  refine ⟨hseparate, rfl, by decide, by rw [hlength]; decide, fun locals hmem ↦ ?_,
    fun number hnumber name arity closure hfound definition hprocedure ↦ ?_⟩
  · obtain rfl := List.mem_singleton.mp hmem
    exact ⟨rfl, rfl, trivial⟩
  · obtain rfl | rfl : number = 1 ∨ number = 0 := by
      simpa [Frame.active, Frame.visible] using hnumber
    · cases hfound
    · rw [scopeAt_initial, Scope.function?_declareFunction,
        Scope.function?_declareFunction] at hfound
      split at hfound
      · cases hfound
        cases hprocedure
      · split at hfound <;> cases hfound
        cases hprocedure

/-- A new memory shows the state that a session begins with. -/
theorem state_initial (sink : Sink) :
    (initial sink : Memory H).state ⟨1, [], [], []⟩ = State.initial sink := by
  have hglobals : (initial sink : Memory H).shown 0 =
      (Scope.declareFunction {} "print" 1 .print).declareFunction "range" 2 .range := by
    unfold shown
    rw [scopeAt_initial, Scope.declareFunction_map, Scope.declareFunction_map]
    rfl
  unfold state State.initial
  rw [hglobals]
  rfl

end Memory

/-! ### Histories -/

namespace CellSession

/-- The state that the memory shows while no call is open. -/
def state (session : CellSession H) : State H :=
  session.tracked.memory.state ⟨session.tracked.memory.module, [], [], []⟩

/-- A session on cells that shows a session. -/
structure Shows (cells : CellSession H) (session : Session H) : Prop where
  context : cells.context = session.context
  tracked : cells.tracked.Shows ⟨cells.tracked.memory.module, [], [], []⟩ session.state

/-- It is enough to be shown in the frame of some module, since the memory knows the module that is
in use. -/
theorem Shows.of_module {cells : CellSession H} {session : Session H} {module : Nat}
    (hcontext : cells.context = session.context)
    (h : cells.tracked.Shows ⟨module, [], [], []⟩ session.state) : cells.Shows session := by
  obtain rfl : cells.tracked.memory.module = module := h.fits.module
  exact ⟨hcontext, h⟩

theorem shows_initial (sink : Sink) : (initial sink : CellSession H).Shows (.initial sink) :=
  .of_module rfl ⟨Memory.fits_initial sink, List.forall_mem_nil _, List.forall_mem_nil _,
    Memory.state_initial sink⟩

section

variable {cells : CellSession H} {session : Session H} (h : cells.Shows session)
include h

theorem Shows.registerType (type : RecordType Ty) :
    (cells.registerType type).Shows (session.registerType type) :=
  ⟨congrArg (TypeContext.register · type) h.context, h.tracked⟩

/-- Defining a variable of the host on cells shows as defining it. -/
theorem Shows.defineVariable (name : String) (type : Ty) (value : Value) :
    (cells.defineVariable name type value).Shows (session.defineVariable name type value) := by
  have htracked : (cells.tracked.change (·.declare 0 name value)).Shows _
      { session.state with globals := session.state.globals.declare name value } :=
    h.tracked.change (h.tracked.fits.declare h.tracked.fits.zero_lt name value)
      (h.tracked.state ▸ h.tracked.fits.state_declare_global name value)
  exact .of_module (congrArg (TypeContext.defineVariable · name type) h.context) htracked

/-- Defining a function of the host on cells shows as defining it. -/
theorem Shows.defineFunction (signature : Signature Ty) (body : H) :
    (cells.defineFunction signature body).Shows (session.defineFunction signature body) := by
  let callable : Callable H := .host ⟨signature.name, signature.arity, body⟩
  have hfits := h.tracked.fits.declareFunction h.tracked.fits.zero_lt signature.name signature.arity
    callable fun _ hprocedure ↦ by cases hprocedure
  have htracked : (cells.tracked.change (·.declareFunction 0 signature.name signature.arity
      callable)).Shows _
      { session.state with
        globals :=
          session.state.globals.declareFunction signature.name signature.arity callable } :=
    h.tracked.change hfits (h.tracked.state ▸ h.tracked.fits.state_declareFunction_global _ _ _)
  exact .of_module (congrArg (TypeContext.defineFunction · signature) h.context) htracked

/-- An object of the host gets cells of its own and shows as it is. -/
theorem Shows.addObject (object : Object H) :
    (cells.addObject object).2.Shows (session.addObject object).2 := by
  have hobjects : cells.tracked.memory.contents ++ [object] = session.state.objects ++ [object] :=
    congrArg (· ++ [object]) h.tracked.objects.symm
  have htracked : (cells.tracked.change fun memory ↦
      memory.store (memory.contents ++ [object])).Shows _
      { session.state with objects := session.state.objects ++ [object] } :=
    h.tracked.change (h.tracked.fits.store _)
      (hobjects ▸ h.tracked.state ▸ h.tracked.fits.state_store _)
  exact .of_module h.context htracked

variable [Host H]

/-- A run gives the same answer, and leaves a memory that shows the state that is left. -/
theorem Shows.interpret (hglobals : ∀ name arity definition,
      session.state.globals.function? name arity ≠ some (.procedure definition))
    (fuel : Nat) (program : Program) :
    (cells.interpret fuel program).1 = (session.interpret fuel program).1 ∧
      (cells.interpret fuel program).2.Shows (session.interpret fuel program).2 := by
  have hends := program.runOnCells_shows fuel h.tracked hglobals
  unfold CellSession.interpret Session.interpret
  generalize program.runOnCells fuel cells.tracked = one at hends
  generalize program.run fuel session.state = other at hends
  cases hends with
  | ok hafter => exact ⟨rfl, .of_module h.context hafter⟩
  | error hafter => exact ⟨rfl, .of_module h.context hafter⟩

/-- Running a text on cells gives what running it gives, and shows the state that is left. -/
theorem Shows.run (hglobals : ∀ name arity definition,
      session.state.globals.function? name arity ≠ some (.procedure definition))
    (fuel : Nat) (text : String) :
    (cells.run fuel text).1 = (session.run fuel text).1 ∧
      (cells.run fuel text).2.Shows (session.run fuel text).2 := by
  unfold CellSession.run Session.run
  rw [h.context]
  cases Program.ofCheckedText session.context text with
  | ok program => exact h.interpret hglobals fuel program
  | error cause => exact ⟨rfl, h⟩

end

variable [Host H]

def perform (session : CellSession H) : Act H → CellSession H
  | .registerType type _ => session.registerType type
  | .defineVariable name type _ value => session.defineVariable name type value
  | .defineFunction signature _ body => session.defineFunction signature body
  | .addObject object => (session.addObject object).2
  | .interpret fuel program => (session.interpret fuel program).2
  | .run fuel text => (session.run fuel text).2

/-- The session on cells after some acts, performed in order. -/
def after (sink : Sink) (acts : List (Act H)) : CellSession H :=
  acts.foldl perform (initial sink)

/-- After any acts of a host the session on cells shows the session. The induction is on the
acts. -/
theorem shows_after (sink : Sink) (acts : List (Act H)) :
    (after sink acts).Shows (Session.after sink acts) := by
  induction acts using List.reverseRecOn with
  | nil => exact shows_initial sink
  | append_singleton acts act ih =>
    have hglobals := (Session.offers_after sink acts).globals
    rw [Session.after_append]
    unfold after at ih ⊢
    rw [List.foldl_append, List.foldl_cons, List.foldl_nil]
    cases act with
    | registerType type hbuilt => exact ih.registerType type
    | defineVariable name type hbuilt value => exact ih.defineVariable name type value
    | defineFunction signature hbuilt body => exact ih.defineFunction signature body
    | addObject object => exact ih.addObject object
    | interpret fuel program => exact (ih.interpret hglobals fuel program).2
    | run fuel text => exact (ih.run hglobals fuel text).2

end CellSession

/-- Locals are isolated from calls. After any history a session on cells is in the state of the
session and will answer as it does. In every memory there was, two variables or fields with one cell
are the same; no expression that was evaluated, to a value or to an error, has changed a variable of
a block or a call; and run on states, none changes a scope of the current call or of those that
wait. -/
theorem Session.locals_isolated [Host H] (sink : Sink) (acts : List (Act H)) :
    (CellSession.after sink acts).state = (after sink acts).state ∧
      (∀ fuel program, ((CellSession.after sink acts).interpret fuel program).1 =
        ((after sink acts).interpret fuel program).1) ∧
      (∀ memory ∈ (CellSession.after sink acts).tracked.memories, ∀ slot other cell,
        memory.cell? slot = some cell → memory.cell? other = some cell → slot = other) ∧
      (∀ visit ∈ (CellSession.after sink acts).tracked.visits, visit.Isolated) ∧
      ∀ fuel (expr : Expr), (expr.eval fuel : Run H Value).Moves State.SameFrames := by
  have h := CellSession.shows_after sink acts
  have hseparate := List.forall_mem_cons.mpr ⟨h.tracked.fits.separate, h.tracked.earlier⟩
  refine ⟨h.tracked.state, fun fuel program ↦ ?_, fun memory hmemory slot other cell ↦ ?_,
    h.tracked.visits, fun fuel expr ↦ expr.eval_moves fuel⟩
  · exact (h.interpret (offers_after sink acts).globals fuel program).1
  · exact (hseparate memory hmemory).slot_eq

/-- A method that assigns to a field and to a parameter with the name of a variable of its
caller. -/
def Program.overwriting : Program where
  fields := [⟨"total", none, some (.literal ⟨0, none⟩ (.integer 1)), 0, none⟩]
  methods := [
    { name := "record", params := ["x"], paramTypes := ["Integer"], returnType := some "Integer",
      body := [
        .assign (.access ⟨0, none⟩ "total" none) (.access ⟨0, none⟩ "x" none),
        .assign (.access ⟨0, none⟩ "x" none) (.literal ⟨0, none⟩ (.integer 0)),
        .ret (.access ⟨0, none⟩ "total" none)],
      offset := 0 },
    { name := "main", params := [], paramTypes := [], returnType := some "Integer",
      body := [
        .declare ⟨"x", none, some (.literal ⟨0, none⟩ (.integer 5)), 0, none⟩,
        .ret (.call ⟨0, none⟩ "record" [.access ⟨0, none⟩ "x" none] none)],
      offset := 0 }]

-- The module is scope 2 and the call of `main` is scope 3; the expressions are the latest first.
example : ((CellSession.after (.text "") [.interpret 2 Program.overwriting] :
      CellSession Empty).tracked.visits.map fun visit ↦
    (visit.scope, visit.after.value? ⟨.scope 2, "total"⟩, visit.after.value? ⟨.scope 3, "x"⟩)) =
    [(3, some (.integer 5), some (.integer 5)), (4, some (.integer 5), some (.integer 5)),
      (4, some (.integer 5), some (.integer 5)), (4, some (.integer 1), some (.integer 5)),
      (3, some (.integer 1), some (.integer 5)), (3, some (.integer 1), none),
      (2, none, none)] := by cbv

end ScriptLang
