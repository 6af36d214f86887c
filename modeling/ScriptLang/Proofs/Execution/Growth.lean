import ScriptLang.Proofs.Execution.CellSteps
import ScriptLang.Proofs.Execution.Frames
import ScriptLang.Proofs.Typing.Reordering

/-!
What a run on cells leaves of the scopes that were there. A run opens scopes and adds cells, and it
takes none away. It declares names in the scope that it is in and in scopes that it has opened
itself, so an expression, or a statement that is no declaration, leaves every older scope as it was,
whether it ends, returns or fails. The members of an object stay the same if the functions of the
host keep them.
-/

set_option autoImplicit false
set_option relaxedAutoImplicit false

namespace ScriptLang

variable {H α β : Type}

/-! ### Objects that keep their members -/

/-- Every object is still there, with the same names of fields and the same methods. -/
def ObjectStore.SameNames (before after : ObjectStore H) : Prop :=
  ∀ (index : Nat) (object : Object H), before[index]? = some object →
    ∃ found, after[index]? = some found ∧ object.members.SameNames found.members

/-- No function of the host takes a member from an object or gives it a new one. -/
def Host.KeepsMembers (H : Type) [Host H] : Prop :=
  ∀ (body : H) args objects, ObjectStore.SameNames objects (Host.run body args objects).2

namespace Memory

/-- Taking one name out leaves what is found for the others. -/
theorem lookup_filter_of_ne {name other : String} (hne : name ≠ other)
    (old : List (String × Nat)) :
    (old.filter fun entry ↦ entry.1 ≠ other).lookup name = old.lookup name := by
  induction old with
  | nil => rfl
  | cons head tail ih =>
    obtain ⟨found, cell⟩ := head
    by_cases hfound : found = other
    · have hname : (name == found) = false := beq_eq_false_iff_ne.mpr (hfound ▸ hne)
      rw [List.filter_cons_of_neg (by simpa using hfound), ih, List.lookup_cons, hname]
    · rw [List.filter_cons_of_pos (by simpa using hfound), List.lookup_cons, List.lookup_cons, ih]

/-- A field that is still there is in the cell that it was in. -/
theorem placeFields_lookup {name : String} (entries : List (String × Value)) (cells : List Value)
    (old : List (String × Nat))
    (hsame : (entries.lookup name).isSome = (old.lookup name).isSome) :
    (placeFields cells old entries).1.lookup name = old.lookup name := by
  induction entries generalizing cells old with
  | nil => exact (Option.isNone_iff_eq_none.mp (by simpa using hsame)).symm
  | cons head tail ih =>
    obtain ⟨field, value⟩ := head
    by_cases hname : name = field
    · subst hname
      rw [List.lookup_cons_self] at hsame
      obtain ⟨cell, hcell⟩ := Option.isSome_iff_exists.mp hsame.symm
      rw [placeFields, hcell]
      exact List.lookup_cons_self
    · have hne : (name == field) = false := beq_eq_false_iff_ne.mpr hname
      rw [List.lookup_cons, hne] at hsame
      rw [placeFields]
      cases old.lookup field with
      | some cell =>
        have hkept := lookup_filter_of_ne hname old
        rw [List.lookup_cons, hne, ← hkept]
        exact ih _ _ (hkept ▸ hsame)
      | none =>
        rw [List.lookup_cons, hne]
        exact ih _ _ hsame

/-- Each object is placed in its own turn, with what it had before at the same number. -/
theorem placeObjects_getElem? (objects : ObjectStore H) (cells : List Value)
    (old : List (CellObject H)) {index : Nat} {object : Object H}
    (hobject : objects[index]? = some object) :
    ∃ cells', (placeObjects cells old objects).1[index]? =
      some (placeObject cells' old[index]? object).1 := by
  induction objects generalizing cells old index with
  | nil => cases hobject
  | cons head tail ih =>
    cases index with
    | zero =>
      cases hobject
      exact ⟨cells, by cases old <;> rfl⟩
    | succ index =>
      obtain ⟨cells', hplaced⟩ := ih (placeObject cells old.head? head).2 old.tail hobject
      exact ⟨cells', by cases old <;> exact hplaced⟩

/-- The members of a reference to an object that is there are those of this object. -/
theorem members_of_lt {memory : Memory H} {ref : ObjectRef}
    (href : ref.index < memory.objects.length) :
    memory.members ref = memory.objects[ref.index].members := by
  unfold members
  rw [List.getElem?_eq_getElem href]
  rfl

/-- The members of an object are in the cells that they were in, if it is left with the same. -/
theorem members_store {memory : Memory H} {objects : ObjectStore H}
    (hnames : memory.contents.SameNames objects) {ref : ObjectRef}
    (href : ref.index < memory.objects.length) :
    ref.index < (memory.store objects).objects.length ∧
      (memory.members ref).Same ((memory.store objects).members ref) := by
  have hcontents : memory.contents[ref.index]? =
      some (memory.objects[ref.index].contents memory.read) := by
    unfold contents
    rw [List.getElem?_map, List.getElem?_eq_getElem href]
    rfl
  obtain ⟨object, hobject, hsame⟩ := hnames _ _ hcontents
  obtain ⟨cells, hplaced⟩ := placeObjects_getElem? objects memory.cells memory.objects hobject
  rw [List.getElem?_eq_getElem href] at hplaced
  change (memory.store objects).objects[ref.index]? = _ at hplaced
  obtain ⟨hlt, -⟩ := List.getElem?_eq_some_iff.mp hplaced
  have hafter : (memory.store objects).members ref =
      (placeObject cells (some memory.objects[ref.index]) object).1.members := by
    unfold members
    rw [hplaced]
    rfl
  rw [members_of_lt href, hafter]
  refine ⟨hlt, fun name ↦ ?_, fun name arity ↦ ?_⟩
  · have hfields := hsame.vars name
    refine (placeFields_lookup object.members.vars.entries cells _ (hfields.trans ?_)).symm
    exact (congrArg Option.isSome (Bindings.find?_map memory.read _ name)).trans Option.isSome_map
  · exact congrArg (Bindings.find? · (name, arity)) hsame.functions.symm

variable [Host H]

/-- All scopes that were there are there as they were, but for the scope `changed`. So are the
members of all objects, if the host keeps them, and cells are still not shared. -/
structure Grows (changed : Option Nat) (before after : Memory H) : Prop where
  length : before.scopes.nodes.length ≤ after.scopes.nodes.length
  scopes : ∀ number < before.scopes.nodes.length, changed ≠ some number →
    after.scopes.nodes[number]? = before.scopes.nodes[number]?
  members : Host.KeepsMembers H → ∀ ref : ObjectRef, ref.index < before.objects.length →
    ref.index < after.objects.length ∧ (before.members ref).Same (after.members ref)
  separate : before.Separate → after.Separate ∧ before.cells.length ≤ after.cells.length

variable {changed : Option Nat} {memory before middle after : Memory H}

namespace Grows

theorem refl (memory : Memory H) : memory.Grows changed memory where
  length := Nat.le_refl _
  scopes _ _ _ := rfl
  members _ _ href := ⟨href, .refl _⟩
  separate h := ⟨h, Nat.le_refl _⟩

/-- Growth may be chained: what is kept by both changes is kept. -/
theorem trans (hfirst : before.Grows changed middle) (hsecond : middle.Grows changed after) :
    before.Grows changed after where
  length := Nat.le_trans hfirst.length hsecond.length
  scopes number hnumber hne :=
    (hsecond.scopes number (Nat.lt_of_lt_of_le hnumber hfirst.length) hne).trans
      (hfirst.scopes number hnumber hne)
  members hkeeps ref href := by
    obtain ⟨hmiddle, hsame⟩ := hfirst.members hkeeps ref href
    obtain ⟨hafter, hsame'⟩ := hsecond.members hkeeps ref hmiddle
    exact ⟨hafter, hsame.trans hsame'⟩
  separate h := by
    obtain ⟨hmiddle, hcells⟩ := hfirst.separate h
    obtain ⟨hafter, hmore⟩ := hsecond.separate hmiddle
    exact ⟨hafter, Nat.le_trans hcells hmore⟩

theorem of_none (h : before.Grows none after) : before.Grows changed after :=
  { h with scopes := fun number hnumber _ ↦ h.scopes number hnumber nofun }

/-- What changes a scope that was not there changes none that was. -/
theorem of_opened {number : Nat} (h : before.Grows (some number) after)
    (hnumber : before.scopes.nodes.length ≤ number) : before.Grows none after := by
  refine { h with scopes := fun other hother _ ↦ h.scopes other hother fun heq ↦ ?_ }
  cases heq
  exact Nat.not_lt.mpr hnumber hother

/-- What changes cells and the sink alone. -/
theorem of_bindings (hscopes : after.scopes = memory.scopes)
    (hobjects : after.objects = memory.objects)
    (hcells : memory.cells.length ≤ after.cells.length) : memory.Grows changed after where
  length := hscopes ▸ Nat.le_refl _
  scopes _ _ _ := hscopes ▸ rfl
  members _ ref href := by
    unfold Memory.members
    rw [hobjects]
    exact ⟨href, .refl _⟩
  separate h := by
    refine ⟨h.of_bindings (fun owner ↦ ?_) hcells, hcells⟩
    unfold bindings
    rw [hscopes, hobjects]

end Grows

theorem grows_write (cell : Nat) (value : Value) :
    memory.Grows changed (memory.write cell value) :=
  .of_bindings rfl rfl (Nat.le_of_eq (List.length_set ..).symm)

theorem grows_sink (sink : Sink) : memory.Grows changed { memory with sink } :=
  .of_bindings rfl rfl (Nat.le_refl _)

/-- Objects that a host leaves have their members if the host keeps them. -/
theorem grows_store {objects : ObjectStore H}
    (hnames : Host.KeepsMembers H → memory.contents.SameNames objects) :
    memory.Grows changed (memory.store objects) where
  length := Nat.le_refl _
  scopes _ _ _ := rfl
  members hkeeps _ href := members_store (hnames hkeeps) href
  separate h := ⟨h.store objects, (h.placed objects).grows⟩

/-- A new scope has a new number, so that no old one changes. -/
theorem grows_openScope (parent : Nat) : memory.Grows changed (memory.openScope parent) where
  length := by
    change _ ≤ (memory.scopes.nodes ++ [_]).length
    rw [List.length_append]
    exact Nat.le_add_right _ _
  scopes _ hnumber _ := ScopeTree.child_of_lt hnumber
  members _ _ href := ⟨href, .refl _⟩
  separate h := ⟨h.of_bindings (bindings_openScope parent) (Nat.le_refl _), Nat.le_refl _⟩

/-- A declaration changes no scope but its own, and none if its own is not there. -/
theorem grows_declare (scope : Nat) (name : String) (value : Value) :
    memory.Grows (some scope) (memory.declare scope name value) := by
  have hcells : memory.cells.length ≤ (memory.declare scope name value).cells.length := by
    change _ ≤ (memory.cells ++ [value]).length
    rw [List.length_append]
    exact Nat.le_add_right _ _
  obtain hscope | habsent := Nat.lt_or_ge scope memory.scopes.nodes.length
  · exact {
      length := Nat.le_of_eq (List.length_modify ..).symm
      scopes := fun number _ hne ↦ ScopeTree.modify_of_ne (fun heq ↦ hne (congrArg some heq)) _
      members := fun _ _ href ↦ ⟨href, .refl _⟩
      separate := fun h ↦ ⟨h.declare hscope name value, hcells⟩ }
  · exact .of_bindings (congrArg ScopeTree.mk (List.modify_eq_self habsent)) rfl hcells

end Memory

namespace CellRun

variable {body : CellRun H α}

/-- The memory that a run leaves, however it ends. -/
def left (body : CellRun H α) (tracked : Tracked H) : Memory H :=
  match body tracked with
  | .ok _ after => after.memory
  | .error _ after => after.memory

/-- A run that ends with a value leaves the memory of its end. -/
theorem left_of_ok {tracked after : Tracked H} {value : α} (hrun : body tracked = .ok value after) :
    body.left tracked = after.memory := by
  unfold left
  rw [hrun]

/-- A run that fails leaves the memory of its failure. -/
theorem left_of_error {tracked after : Tracked H} {cause : Interruption}
    (hrun : body tracked = .error cause after) : body.left tracked = after.memory := by
  unfold left
  rw [hrun]

variable [Host H]

/-- From any memory, a run leaves one that has only grown, but for the scope `changed`. -/
def Grows (changed : Option Nat) (body : CellRun H α) : Prop :=
  ∀ tracked : Tracked H, tracked.memory.Grows changed (body.left tracked)

variable {changed : Option Nat} {next : α → CellRun H β}

/-! ### Rules for each way to put runs together -/

namespace Grows

theorem pure (value : α) : (Pure.pure value : CellRun H α).Grows changed :=
  fun tracked ↦ .refl tracked.memory

theorem throw (cause : Interruption) :
    (MonadExcept.throw cause : CellRun H α).Grows changed := fun tracked ↦ .refl tracked.memory

theorem ofExcept (result : Except RuntimeError α) :
    (CellRun.ofExcept result : CellRun H α).Grows changed := by
  cases result with
  | ok value => exact .pure value
  | error cause => exact .throw _

theorem change {step : Memory H → Memory H}
    (hstep : ∀ memory : Memory H, memory.Grows changed (step memory)) :
    (CellRun.change step).Grows changed := fun tracked ↦ hstep tracked.memory

/-- Two runs one after another grow: the second goes on from what the first has left, and a failure
of the first is the end. -/
theorem bind (hbody : body.Grows changed) (hnext : ∀ value, (next value).Grows changed) :
    (body >>= next).Grows changed := by
  intro tracked
  cases hrun : body tracked with
  | ok value middle =>
    have hfirst := left_of_ok hrun ▸ hbody tracked
    have hleft : (body >>= next).left tracked = (next value).left middle := by
      unfold left
      rw [Stateful.bind_of_ok hrun]
    exact hleft ▸ hfirst.trans (hnext value middle)
  | error cause after =>
    rw [left_of_error (Stateful.bind_of_error hrun), ← left_of_error hrun]
    exact hbody tracked

theorem of_none (h : body.Grows none) : body.Grows changed := fun tracked ↦ (h tracked).of_none

/-- To write down what an expression has done changes no memory. -/
theorem visiting (expr : Expr) (scope : Nat) (hbody : body.Grows changed) :
    (CellRun.visiting expr scope body).Grows changed := by
  intro tracked
  have hleft : (CellRun.visiting expr scope body).left tracked = body.left tracked := by
    unfold left CellRun.visiting
    cases body tracked <;> rfl
  exact hleft ▸ hbody tracked

/-- What is done in a scope that is opened for it changes no scope that was there before. -/
theorem opened {next : Nat → CellRun H α} (parent : Nat)
    (hnext : ∀ number, (next number).Grows (some number)) :
    (openScope parent >>= next).Grows none := by
  intro tracked
  let number := tracked.memory.scopes.nodes.length
  have hopen : openScope parent tracked = .ok number (tracked.change (·.openScope parent)) := rfl
  have hleft : (openScope parent >>= next).left tracked =
      (next number).left (tracked.change (·.openScope parent)) := by
    unfold left
    rw [Stateful.bind_of_ok hopen]
  have hinner := (tracked.memory.grows_openScope parent).trans
    (hnext number (tracked.change (·.openScope parent)))
  exact hleft ▸ hinner.of_opened (Nat.le_refl _)

/-- A conditional loop grows if its condition and its body do. The induction is on the fuel for its
turns. -/
theorem repeatWhile {condition : CellRun H Bool} {body : CellRun H Flow}
    (hcondition : condition.Grows changed) (hbody : body.Grows changed) (fuel : Nat) :
    (CellRun.repeatWhile condition body fuel).Grows changed := by
  induction fuel with
  | zero => exact .throw _
  | succ fuel ih =>
    refine hcondition.bind fun holds ↦ ?_
    split
    · refine hbody.bind fun flow ↦ ?_
      cases flow with
      | next => exact ih
      | returned value => exact .pure _
    · exact .pure _

/-- A loop over a range grows if its body does at each number. -/
theorem forRange {body : Int → CellRun H Flow} (hbody : ∀ item, (body item).Grows changed)
    (count : Nat) (start : Int) : (CellRun.forRange body count start).Grows changed := by
  induction count generalizing start with
  | zero => exact .pure _
  | succ count ih =>
    refine (hbody start).bind fun flow ↦ ?_
    cases flow with
    | next => exact ih (start + 1)
    | returned value => exact .pure _

/-- Parameters are declared in one scope, and no other scope changes. -/
theorem declareAll (scope : Nat) (entries : List (String × Value)) :
    (CellRun.declareAll scope entries : CellRun H Unit).Grows (some scope) := by
  induction entries with
  | nil => exact .pure _
  | cons entry rest ih =>
    exact (Grows.change fun memory ↦ memory.grows_declare scope entry.1 entry.2).bind fun _ ↦ ih

end Grows

/-! ### Steps -/

/-- Reading a variable changes no memory. -/
theorem lookup_grows (scope : Nat) (name : String) :
    (lookup scope name : CellRun H Value).Grows changed := by
  intro tracked
  unfold left
  rw [lookup_apply]
  cases tracked.memory.scopes.lookup? scope name <;> exact .refl _

theorem function_grows (scope : Nat) (name : String) (arity : Nat) :
    (function scope name arity : CellRun H (Closure H)).Grows changed := by
  intro tracked
  unfold left
  rw [function_apply]
  cases tracked.memory.scopes.function? scope name arity <;> exact .refl _

/-- An assignment writes to a cell that is there. -/
theorem assign_grows (scope : Nat) (name : String) (value : Value) :
    (assign scope name value : CellRun H Unit).Grows changed := by
  intro tracked
  unfold left
  rw [assign_apply]
  cases tracked.memory.scopes.lookup? scope name with
  | some cell => exact Memory.grows_write cell value
  | none => exact .refl _

theorem field_grows (ref : ObjectRef) (name : String) :
    (field ref name : CellRun H Value).Grows changed := by
  intro tracked
  unfold left
  rw [field_apply]
  cases (tracked.memory.members ref).lookup? name <;> exact .refl _

/-- Setting a field writes to a cell that is there. -/
theorem setField_grows (ref : ObjectRef) (name : String) (value : Value) :
    (setField ref name value : CellRun H Unit).Grows changed := by
  intro tracked
  unfold left
  rw [setField_apply]
  cases (tracked.memory.members ref).lookup? name with
  | some cell => exact Memory.grows_write cell value
  | none => exact .refl _

theorem method_grows (ref : ObjectRef) (name : String) (arity : Nat) :
    (method ref name arity : CellRun H (Closure H)).Grows changed := by
  intro tracked
  unfold left
  rw [method_apply]
  cases (tracked.memory.members ref).function? name arity <;> exact .refl _

theorem print_grows (line : String) : (print line : CellRun H Unit).Grows changed := by
  intro tracked
  unfold left
  rw [print_apply]
  cases tracked.memory.sink.print line with
  | ok sink => exact Memory.grows_sink sink
  | error cause => exact .refl _

/-- A function of the host leaves scopes alone, and members if the host keeps them. -/
theorem host_grows (body : H) (args : List Value) : (host body args).Grows changed := by
  intro tracked
  unfold left
  rw [host_apply]
  have hstore : tracked.memory.Grows changed
      (tracked.memory.store (Host.run body args tracked.memory.contents).2) :=
    Memory.grows_store fun hkeeps ↦ hkeeps body args tracked.memory.contents
  generalize Host.run body args tracked.memory.contents = result at hstore
  obtain ⟨result, objects⟩ := result
  cases result <;> exact hstore

end CellRun

/-! ### Trees -/

section

variable [Host H] {invoke : Closure H → List Value → CellRun H Value}
  (hinvoke : ∀ closure args, (invoke closure args).Grows none)

include hinvoke

-- A mutual recursion over the tree does not name the hypothesis that it shares.
set_option linter.unusedSectionVars false

section

variable (scope : Nat)

mutual

/-- An expression declares nothing in a scope that was there before it. -/
theorem Expr.evalOnCells_grows (expr : Expr) : (expr.evalOnCells invoke scope).Grows none := by
  unfold Expr.evalOnCells
  refine CellRun.Grows.visiting expr scope ?_
  match expr with
  | .literal .. => exact .pure _
  | .group _ inner => exact inner.evalOnCells_grows
  | .binary _ op left right =>
    refine left.evalOnCells_grows.bind fun first ↦ ?_
    cases op.shortcut? with
    | some decisive =>
      refine (CellRun.Grows.ofExcept _).bind fun holds ↦ ?_
      split
      · exact .pure _
      · refine right.evalOnCells_grows.bind fun second ↦ ?_
        exact (CellRun.Grows.ofExcept _).bind fun _ ↦ .pure _
    | none => exact right.evalOnCells_grows.bind fun second ↦ .ofExcept _
  | .access _ name _ => exact CellRun.lookup_grows scope name
  | .member _ receiver name _ =>
    refine receiver.evalOnCells_grows.bind fun _ ↦ ?_
    exact (CellRun.Grows.ofExcept _).bind fun ref ↦ CellRun.field_grows ref name
  | .call _ name args _ =>
    refine (evalArgsOnCells_grows args).bind fun values ↦ ?_
    exact (CellRun.function_grows scope name values.length).bind fun closure ↦
      hinvoke closure values
  | .invoke _ receiver name args _ =>
    refine receiver.evalOnCells_grows.bind fun object ↦ ?_
    refine (evalArgsOnCells_grows args).bind fun values ↦ ?_
    refine (CellRun.Grows.ofExcept _).bind fun ref ↦ ?_
    exact (CellRun.method_grows ref name (values.length + 1)).bind fun closure ↦
      hinvoke closure (object :: values)

/-- Arguments declare nothing in a scope that was there before them. -/
theorem evalArgsOnCells_grows : ∀ args : List Expr,
    (evalArgsOnCells invoke scope args).Grows none
  | [] => .pure _
  | head :: tail => head.evalOnCells_grows.bind fun _ ↦
    (evalArgsOnCells_grows tail).bind fun _ ↦ .pure _

end

/-- The value of a declaration is computed before the name is declared. -/
theorem Binding.evalOnCells_grows (binding : Binding) :
    (binding.evalOnCells invoke scope).Grows none := by
  unfold Binding.evalOnCells
  cases binding.value with
  | some value => exact value.evalOnCells_grows hinvoke scope
  | none => exact .pure _

/-- An assignment declares nothing. -/
theorem Expr.assignOnCells_grows (target value : Expr) :
    (target.assignOnCells invoke scope value).Grows none := by
  cases target with
  | access offset name known =>
    exact (value.evalOnCells_grows hinvoke scope).bind fun value ↦
      CellRun.assign_grows scope name value
  | member offset receiver name known =>
    refine (value.evalOnCells_grows hinvoke scope).bind fun value ↦ ?_
    refine (receiver.evalOnCells_grows hinvoke scope).bind fun object ↦ ?_
    exact (CellRun.Grows.ofExcept _).bind fun ref ↦ CellRun.setField_grows ref name value
  | literal | group | binary | call | invoke => exact .throw _

theorem Expr.conditionOnCells_grows (condition : Expr) :
    (condition.conditionOnCells invoke scope).Grows none :=
  (condition.evalOnCells_grows hinvoke scope).bind fun _ ↦ .ofExcept _

end

variable (fuel : Nat)

mutual

/-- A statement declares names in its own scope at most, and none if it is no declaration. -/
theorem Stmt.execOnCells_grows (scope : Nat) : ∀ statement : Stmt,
    (statement.execOnCells invoke fuel scope).Grows
      (match statement with | .declare _ => some scope | _ => none)
  | .expr value => by
    rw [Stmt.execOnCells, Stateful.discard_eq]
    exact ((value.evalOnCells_grows hinvoke scope).bind fun _ ↦ .pure _).bind fun _ ↦ .pure _
  | .declare binding => by
    rw [Stmt.execOnCells]
    refine (binding.evalOnCells_grows hinvoke scope).of_none.bind fun value ↦ ?_
    exact (CellRun.Grows.change fun memory ↦ memory.grows_declare scope binding.name value).bind
      fun _ ↦ .pure _
  | .assign target value => by
    rw [Stmt.execOnCells]
    exact (target.assignOnCells_grows hinvoke scope value).bind fun _ ↦ .pure _
  | .branch condition thenBody elseBody => by
    rw [Stmt.execOnCells]
    refine (condition.conditionOnCells_grows hinvoke scope).bind fun holds ↦ ?_
    split
    · exact .opened scope fun number ↦ execAllOnCells_grows number thenBody
    · exact .opened scope fun number ↦ execAllOnCells_grows number elseBody
  | .forEach offset name iterable body => by
    rw [Stmt.execOnCells]
    refine (iterable.evalOnCells_grows hinvoke scope).bind fun _ ↦ ?_
    refine (CellRun.Grows.ofExcept _).bind fun bounds ↦ ?_
    refine .forRange (fun item ↦ .opened scope fun number ↦ ?_) _ _
    exact (CellRun.Grows.change fun memory ↦
      memory.grows_declare number name (.integer item)).bind fun _ ↦
        execAllOnCells_grows number body
  | .loop condition body => by
    rw [Stmt.execOnCells]
    exact .repeatWhile (condition.conditionOnCells_grows hinvoke scope)
      (.opened scope fun number ↦ execAllOnCells_grows number body) fuel
  | .ret value => by
    rw [Stmt.execOnCells]
    exact (value.evalOnCells_grows hinvoke scope).bind fun _ ↦ .pure _

/-- Statements one after another may declare names in their own scope and in no other old one. -/
theorem execAllOnCells_grows (scope : Nat) : ∀ statements : List Stmt,
    (execAllOnCells invoke fuel scope statements).Grows (some scope)
  | [] => .pure _
  | head :: tail => by
    rw [execAllOnCells]
    have hhead : (head.execOnCells invoke fuel scope).Grows (some scope) := by
      have hgrows := head.execOnCells_grows scope
      split at hgrows
      · exact hgrows
      · exact hgrows.of_none
    refine hhead.bind fun flow ↦ ?_
    cases flow with
    | next => exact execAllOnCells_grows scope tail
    | returned value => exact .pure _

end

end

section

variable [Host H]

/-- A call opens a scope for its parameters, so it changes no scope of its caller. -/
theorem Closure.perform_grows {run : Nat → List Stmt → CellRun H Flow}
    (hrun : ∀ scope body, (run scope body).Grows (some scope)) (closure : Closure H)
    (args : List Value) : (closure.perform run args).Grows none := by
  obtain ⟨callable, scope⟩ := closure
  by_cases harity : args.length = callable.arity
  · refine Callable.cases_of_arity callable args harity ?_ ?_ ?_ ?_
    · exact fun value ↦ (CellRun.print_grows value.display).bind fun _ ↦ .pure _
    · exact fun start stop ↦ (CellRun.Grows.ofExcept start.asInteger).bind fun _ ↦
        (CellRun.Grows.ofExcept stop.asInteger).bind fun _ ↦ .pure _
    · intro function args harity
      rw [Closure.perform_host run harity]
      exact CellRun.host_grows function.body args
    · intro definition args harity
      rw [Closure.perform_procedure run harity]
      refine .opened scope fun number ↦ ?_
      refine (CellRun.Grows.declareAll number (definition.params.zip args)).bind fun _ ↦ ?_
      refine (hrun number definition.body).bind fun flow ↦ ?_
      cases flow <;> exact .pure _
  · rw [Closure.perform_of_ne run harity]
    exact .throw _

/-- A call changes no old scope with any amount of fuel. The induction is on the fuel, since a body
may call again. -/
theorem Closure.invoke_grows (fuel : Nat) (closure : Closure H) (args : List Value) :
    (closure.invoke fuel args).Grows none := by
  induction fuel generalizing closure args with
  | zero => exact closure.perform_grows (fun _ _ ↦ .throw _) args
  | succ fuel ih => exact closure.perform_grows (execAllOnCells_grows ih fuel) args

end

end ScriptLang
