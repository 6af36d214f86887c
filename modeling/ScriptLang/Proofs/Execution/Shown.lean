import ScriptLang.Proofs.Execution.Beside
import ScriptLang.Proofs.Execution.Memory

/-!
The state that a memory shows. A frame says which scopes are those of the current call and of the
calls that wait, so that a memory read through it is the state of a run; it can name bystanders too,
scopes that no call is in. As long as the frame fits, each change of the memory is the change of the
state that goes by the same name, and no other scope shows it.
-/

set_option autoImplicit false
set_option relaxedAutoImplicit false

namespace ScriptLang

/-! ### Scopes with other values in them -/

section

variable {V W F G : Type} (vars : V → W) (functions : F → G)

theorem Scope.lookup?_map (scope : Scope V F) (name : String) :
    (scope.map vars functions).lookup? name = (scope.lookup? name).map vars :=
  Bindings.find?_map vars scope.vars name

theorem Scope.function?_map (scope : Scope V F) (name : String) (arity : Nat) :
    (scope.map vars functions).function? name arity = (scope.function? name arity).map functions :=
  Bindings.find?_map functions scope.functions (name, arity)

/-- Declaring a value and mapping the scope may be exchanged. -/
theorem Scope.declare_map (scope : Scope V F) (name : String) (value : V) :
    (scope.declare name value).map vars functions =
      (scope.map vars functions).declare name (vars value) :=
  congrArg (Scope.mk · _) (Bindings.map_insert vars scope.vars name value)

theorem Scope.declareFunction_map (scope : Scope V F) (name : String) (arity : Nat) (value : F) :
    (scope.declareFunction name arity value).map vars functions =
      (scope.map vars functions).declareFunction name arity (functions value) :=
  congrArg (Scope.mk _) (Bindings.map_insert functions scope.functions (name, arity) value)

/-- What is found in a chain of mapped scopes is what is found in the chain, mapped. -/
theorem Chain.lookup?_map (chain : Chain V F) (name : String) :
    Chain.lookup? (chain.map (Scope.map vars functions)) name =
      (Chain.lookup? chain name).map vars := by
  induction chain with
  | nil => rfl
  | cons scope outer ih =>
    rw [List.map_cons, lookup?_cons, lookup?_cons, Scope.lookup?_map, ih]
    cases scope.lookup? name <;> rfl

theorem Chain.function?_map (chain : Chain V F) (name : String) (arity : Nat) :
    Chain.function? (chain.map (Scope.map vars functions)) name arity =
      (Chain.function? chain name arity).map functions := by
  induction chain with
  | nil => rfl
  | cons scope outer ih =>
    rw [List.map_cons, function?_cons, function?_cons, Scope.function?_map, ih]
    cases scope.function? name arity <;> rfl

/-- A variable that is found in a chain is found in one of its scopes. -/
theorem Chain.exists_of_lookup? {ids : List Nat} {scope : Nat → Scope V F} {name : String}
    {value : V} (h : Chain.lookup? (ids.map scope) name = some value) :
    ∃ number ∈ ids, (scope number).lookup? name = some value := by
  obtain ⟨found, hfound, hvalue⟩ := List.exists_of_findSome?_eq_some h
  obtain ⟨number, hnumber, rfl⟩ := List.mem_map.mp hfound
  exact ⟨number, hnumber, hvalue⟩

/-- A function that is found in a chain is found in one of its scopes. -/
theorem Chain.exists_of_function? {ids : List Nat} {scope : Nat → Scope V F} {name : String}
    {arity : Nat} {value : F} (h : Chain.function? (ids.map scope) name arity = some value) :
    ∃ number ∈ ids, (scope number).function? name arity = some value := by
  obtain ⟨found, hfound, hvalue⟩ := List.exists_of_findSome?_eq_some h
  obtain ⟨number, hnumber, rfl⟩ := List.mem_map.mp hfound
  exact ⟨number, hnumber, hvalue⟩

end

/-! ### Frames -/

/-- Scopes by number: the module, those of the current call, innermost first, those of the calls
that wait, and bystanders in no order. -/
structure Frame where
  module : Nat
  locals : List Nat := []
  suspended : List (List Nat) := []
  bystanders : List (List Nat) := []

namespace Frame

/-- The scope that a run is in. -/
def scope (frame : Frame) : Nat := frame.locals.headD frame.module

def visible (frame : Frame) : List Nat := frame.locals ++ [frame.module, 0]

/-- What is not visible. -/
def waiting (frame : Frame) : List (List Nat) := frame.suspended ++ frame.bystanders

def numbers (frame : Frame) : List Nat := frame.visible ++ frame.waiting.flatten

/-- The scopes that the current call or one that waits can see. -/
def active (frame : Frame) : List Nat := frame.visible ++ frame.suspended.flatten

def enterBlock (number : Nat) (frame : Frame) : Frame :=
  { frame with locals := number :: frame.locals }

def enterCall (number : Nat) (frame : Frame) : Frame :=
  { frame with locals := [number], suspended := frame.locals :: frame.suspended }

/-- The scope that a run is in is the innermost one that it sees. -/
theorem scope_mem (frame : Frame) : frame.scope ∈ frame.visible := by
  obtain ⟨module, locals, suspended, bystanders⟩ := frame
  cases locals <;> exact List.mem_cons_self

theorem module_mem (frame : Frame) : frame.module ∈ frame.visible :=
  List.mem_append_right _ List.mem_cons_self

theorem zero_mem (frame : Frame) : 0 ∈ frame.visible :=
  List.mem_append_right _ (List.mem_cons_of_mem _ List.mem_cons_self)

end Frame

/-- A procedure that was declared in the module. -/
def Closure.IsHome {H : Type} (module : Nat) (closure : Closure H) : Prop :=
  ∀ definition, closure.callable = .procedure definition → closure.scope = module

namespace Memory

variable {H : Type} {memory : Memory H}

/-- The scope with the number `number`, with the values of its variables. -/
def shown (memory : Memory H) (number : Nat) : ValueScope H :=
  (memory.scopes.scopeAt number).map memory.read Closure.callable

def state (memory : Memory H) (frame : Frame) : State H where
  locals := frame.locals.map memory.shown
  suspended := frame.waiting.map (·.map memory.shown)
  module := memory.shown frame.module
  globals := memory.shown 0
  objects := memory.contents
  sink := memory.sink

/-- Each scope is inside of those after it, and of no others. -/
def Nests (memory : Memory H) : List Nat → Prop
  | [] => True
  | number :: rest => memory.scopes.path number = number :: rest ∧ memory.Nests rest

/-- The outer scopes of a nesting are nested. -/
theorem Nests.of_append {inner outer : List Nat} (h : memory.Nests (inner ++ outer)) :
    memory.Nests outer := by
  induction inner with
  | nil => exact h
  | cons number inner ih => exact ih h.2

/-! ### What is shown after a change -/

/-- A scope shows the same as long as its cells are the same and hold the same. -/
theorem shown_congr {after : Memory H} {number : Nat}
    (hscope : after.scopes.scopeAt number = memory.scopes.scopeAt number)
    (hread : ∀ cell ∈ (memory.bindings (.scope number)).values,
      after.read cell = memory.read cell) : after.shown number = memory.shown number := by
  have hvars : (memory.scopes.scopeAt number).vars.map after.read =
      (memory.scopes.scopeAt number).vars.map memory.read := Bindings.map_congr hread
  unfold shown Scope.map
  rw [hscope, hvars]

/-- The scopes of calls that wait show the same if each of them does. -/
theorem waiting_congr {after : Memory H} {frame : Frame}
    (hshown : ∀ number ∈ frame.waiting.flatten, after.shown number = memory.shown number) :
    frame.waiting.map (·.map after.shown) = frame.waiting.map (·.map memory.shown) :=
  List.map_congr_left fun numbers hnumbers ↦ List.map_congr_left fun number hnumber ↦
    hshown number (List.mem_flatten.mpr ⟨numbers, hnumbers, hnumber⟩)

/-- The state is the same if all that is read off the memory is. -/
theorem state_congr {after : Memory H} {frame : Frame}
    (hshown : ∀ number, after.shown number = memory.shown number)
    (hcontents : after.contents = memory.contents) (hsink : after.sink = memory.sink) :
    after.state frame = memory.state frame := by
  obtain hshown : after.shown = memory.shown := funext hshown
  unfold state
  rw [hshown, hcontents, hsink]

/-- Objects show the same as long as their cells hold the same. -/
theorem contents_congr {after : Memory H} (hobjects : after.objects = memory.objects)
    (hread : ∀ object ∈ memory.objects, ∀ cell ∈ object.cells, after.read cell = memory.read cell) :
    after.contents = memory.contents := by
  unfold contents
  rw [hobjects]
  exact List.map_congr_left fun object hobject ↦
    CellObject.contents_eq rfl (Bindings.map_congr (hread object hobject)) rfl

/-- A write to a cell that is not of a scope does not show there. -/
theorem shown_write_of_not_mem {number cell : Nat}
    (hcell : cell ∉ (memory.bindings (.scope number)).values) (value : Value) :
    (memory.write cell value).shown number = memory.shown number :=
  shown_congr rfl fun _ hother ↦ read_write_of_ne (ne_of_mem_of_not_mem hother hcell) value

/-- A write to the cell of a variable shows as a new value of this variable only, since no other
name has the cell. -/
theorem shown_write_self (h : memory.Separate) {number cell : Nat} {name : String}
    (hfound : (memory.scopes.scopeAt number).lookup? name = some cell) (value : Value) :
    (memory.write cell value).shown number = (memory.shown number).declare name value := by
  have hcell : cell < memory.cells.length :=
    h.bounded (.scope number) cell (Bindings.value_mem_of_find? hfound)
  have hvars := Bindings.map_eq_insert (h.nodup (.scope number)) hfound
    (read_write_self hcell value) fun other _ hne ↦ read_write_of_ne hne value
  unfold shown Scope.map Scope.declare
  exact congrArg (Scope.mk · _) hvars

/-- A write to the cell of a variable does not show in an object. -/
theorem contents_write_of_scope (h : memory.Separate) {number cell : Nat}
    (hcell : cell ∈ (memory.bindings (.scope number)).values) (value : Value) :
    (memory.write cell value).contents = memory.contents :=
  contents_congr rfl fun object hobject _ hother ↦
    read_write_of_ne (ne_of_mem_of_not_mem hother (h.scope_free hcell object hobject)) value

/-- A new variable does not show in an object. -/
theorem contents_declare (h : memory.Separate) (scope : Nat) (name : String) (value : Value) :
    (memory.declare scope name value).contents = memory.contents := by
  refine contents_congr rfl fun object hobject cell hcell ↦ ?_
  obtain ⟨index, hindex, rfl⟩ := List.mem_iff_getElem.mp hobject
  exact read_declare_of_lt (h.bounded (.object index) cell (bindings_object hindex ▸ hcell)) scope
    name value

theorem shown_openScope (parent number : Nat) :
    (memory.openScope parent).shown number = memory.shown number :=
  shown_congr (memory.scopes.scopeAt_child parent number) fun _ _ ↦ rfl

theorem state_openScope (frame : Frame) (parent : Nat) :
    (memory.openScope parent).state frame = memory.state frame :=
  state_congr (memory.shown_openScope parent) rfl rfl

/-- A scope that is not opened yet shows nothing. -/
theorem shown_length : memory.shown memory.scopes.nodes.length = {} := by
  unfold shown ScopeTree.scopeAt ScopeTree.scope?
  rw [List.getElem?_eq_none (Nat.le_refl _)]
  rfl

/-- Opening a scope and seeing the memory through the frame of a block is entering a block of the
state. -/
theorem state_enterBlock (frame : Frame) (parent : Nat) :
    (memory.openScope parent).state (frame.enterBlock memory.scopes.nodes.length) =
      (memory.state frame).enterBlock {} := by
  change ((memory.openScope parent).state frame).enterBlock ((memory.openScope parent).shown _) = _
  rw [state_openScope, shown_openScope, shown_length]

/-- Opening a scope and seeing the memory through the frame of a call is entering a call of the
state. -/
theorem state_enterCall (frame : Frame) (parent : Nat) :
    (memory.openScope parent).state (frame.enterCall memory.scopes.nodes.length) =
      (memory.state frame).enterCall {} := by
  change ((memory.openScope parent).state frame).enterCall ((memory.openScope parent).shown _) = _
  rw [state_openScope, shown_openScope, shown_length]

theorem shown_store (h : memory.Separate) (objects : ObjectStore H) (number : Nat) :
    (memory.store objects).shown number = memory.shown number :=
  shown_congr rfl fun _ hcell ↦ h.read_store objects hcell

section

variable {scope : Nat} (hscope : scope < memory.scopes.nodes.length)
include hscope

/-- A new variable shows in the scope that it is declared in and in no other. -/
theorem shown_declare (h : memory.Separate) (name : String) (value : Value) (number : Nat) :
    (memory.declare scope name value).shown number =
      if number = scope then (memory.shown number).declare name value else memory.shown number := by
  have hold (cell : Nat) (hcell : cell ∈ (memory.bindings (.scope number)).values) :
      (memory.declare scope name value).read cell = memory.read cell :=
    read_declare_of_lt (h.bounded _ cell hcell) scope name value
  have hchanged : (memory.declare scope name value).scopes.scopeAt number = _ :=
    ScopeTree.scopeAt_modify hscope (·.declare name memory.cells.length) number
  have hvars : (memory.scopes.scopeAt number).vars.map (memory.declare scope name value).read =
      (memory.scopes.scopeAt number).vars.map memory.read := Bindings.map_congr hold
  split
  · rename_i hnumber
    rw [if_pos hnumber] at hchanged
    unfold shown
    rw [hchanged, Scope.declare_map, read_declare_self]
    unfold Scope.map
    rw [hvars]
  · rename_i hnumber
    rw [if_neg hnumber] at hchanged
    exact shown_congr hchanged hold

/-- A new function shows in the scope that it is declared in and in no other. -/
theorem shown_declareFunction (name : String) (arity : Nat) (callable : Callable H) (number : Nat) :
    (memory.declareFunction scope name arity callable).shown number =
      if number = scope then (memory.shown number).declareFunction name arity callable
      else memory.shown number := by
  have hchanged : (memory.declareFunction scope name arity callable).scopes.scopeAt number = _ :=
    ScopeTree.scopeAt_modify hscope (·.declareFunction name arity ⟨callable, scope⟩) number
  split
  · rename_i hnumber
    rw [if_pos hnumber] at hchanged
    unfold shown
    rw [hchanged, Scope.declareFunction_map]
    rfl
  · rename_i hnumber
    rw [if_neg hnumber] at hchanged
    exact shown_congr hchanged fun _ _ ↦ rfl

end

end Memory

/-! ### Frames that fit -/

namespace ScopeTree

variable {V F : Type} (tree : ScopeTree V F)

/-- A change of one scope does not change what is around any. -/
theorem path_modify (number : Nat) (change : Scope V F → Scope V F) (other : Nat) :
    (tree.modify number change).path other = tree.path other := by
  unfold path
  by_cases heq : number = other
  · rw [heq, modify_same]
    cases tree.nodes[other]? <;> rfl
  · rw [modify_of_ne heq]

/-- A new scope does not change what is around those that were there. -/
theorem path_child_of_lt (parent : Nat) {other : Nat} (hother : other < tree.nodes.length) :
    (tree.child parent).path other = tree.path other := by
  unfold path
  rw [child_of_lt hother]

/-- Around a new scope are its parent and what is around that. -/
theorem path_child (parent : Nat) :
    (tree.child parent).path tree.nodes.length = tree.nodes.length :: tree.path parent := by
  unfold child path
  rw [List.getElem?_append_right (Nat.le_refl _), Nat.sub_self]
  rfl

end ScopeTree

/-- The frame is one of the memory: its scopes are there, each named once and inside of those that
follow it, and procedures in sight were declared in its module. -/
structure Frame.Fits {H : Type} (frame : Frame) (memory : Memory H) : Prop where
  separate : memory.Separate
  module : memory.module = frame.module
  distinct : frame.numbers.Nodup
  present : ∀ number ∈ frame.numbers, number < memory.scopes.nodes.length
  nests : ∀ locals ∈ frame.locals :: frame.suspended,
    memory.Nests (locals ++ [frame.module, 0])
  home : ∀ number ∈ frame.active, ∀ name arity closure,
    (memory.scopes.scopeAt number).function? name arity = some closure →
      closure.IsHome frame.module

namespace Frame.Fits

variable {H : Type} {memory after : Memory H} {frame : Frame} (h : frame.Fits memory)
include h

theorem present_visible {number : Nat} (hnumber : number ∈ frame.visible) :
    number < memory.scopes.nodes.length := h.present number (List.mem_append_left _ hnumber)

theorem scope_lt : frame.scope < memory.scopes.nodes.length := h.present_visible frame.scope_mem

theorem module_lt : frame.module < memory.scopes.nodes.length :=
  h.present_visible frame.module_mem

theorem zero_lt : 0 < memory.scopes.nodes.length := h.present_visible frame.zero_mem

/-- What is around the scope of a run are the scopes that its frame makes visible. -/
theorem path_scope : memory.scopes.path frame.scope = frame.visible := by
  have hnests := h.nests frame.locals List.mem_cons_self
  obtain ⟨module, locals, suspended, bystanders⟩ := frame
  cases locals <;> exact hnests.1

/-- A look-up in the tree goes through the scopes that the frame makes visible. -/
theorem chain_scope :
    memory.scopes.chain frame.scope = frame.visible.map memory.scopes.scopeAt := by
  unfold ScopeTree.chain
  rw [h.path_scope, ← List.filterMap_eq_map]
  refine List.filterMap_congr fun number hnumber ↦ ?_
  unfold Function.comp ScopeTree.scopeAt ScopeTree.scope?
  rw [List.getElem?_eq_getElem (h.present_visible hnumber)]
  rfl

omit h in
/-- The chain of the state is the chain of the tree with the values of its cells. -/
theorem chain_state :
    (memory.state frame).chain = (frame.visible.map memory.scopes.scopeAt).map
      (Scope.map memory.read Closure.callable) := by
  rw [List.map_map, Frame.visible, List.map_append]
  rfl

/-- A variable has the value in the state that its cell holds. -/
theorem lookup? (name : String) : (memory.state frame).chain.lookup? name =
    (memory.scopes.lookup? frame.scope name).map memory.read := by
  unfold ScopeTree.lookup?
  rw [chain_state, h.chain_scope, Chain.lookup?_map]

/-- A function in the state is the callable that the tree has. -/
theorem function? (name : String) (arity : Nat) : (memory.state frame).chain.function? name arity =
    (memory.scopes.function? frame.scope name arity).map Closure.callable := by
  unfold ScopeTree.function?
  rw [chain_state, h.chain_scope, Chain.function?_map]

/-- A procedure that is found has its home in the module of the frame. -/
theorem isHome {name : String} {arity : Nat} {closure : Closure H}
    (hfound : memory.scopes.function? frame.scope name arity = some closure) :
    closure.IsHome frame.module := by
  unfold ScopeTree.function? at hfound
  rw [h.chain_scope] at hfound
  obtain ⟨number, hnumber, hfunction⟩ := Chain.exists_of_function? hfound
  exact h.home number (List.mem_append_left _ hnumber) name arity closure hfunction

/-- A change that leaves the scopes as they are, but for variables, new scopes, and procedures of
the module. -/
theorem of_same (hseparate : after.Separate) (hmodule : after.module = memory.module)
    (hlength : memory.scopes.nodes.length ≤ after.scopes.nodes.length)
    (hpath : ∀ number < memory.scopes.nodes.length,
      after.scopes.path number = memory.scopes.path number)
    (hfunctions : ∀ number name arity closure,
      (after.scopes.scopeAt number).function? name arity = some closure →
        closure.IsHome frame.module ∨
          (memory.scopes.scopeAt number).function? name arity = some closure) :
    frame.Fits after := by
  refine ⟨hseparate, hmodule.trans h.module, h.distinct,
    fun number hnumber ↦ Nat.lt_of_lt_of_le (h.present number hnumber) hlength,
    fun locals hlocals ↦ ?_, fun number hnumber name arity closure hfound ↦ ?_⟩
  · have hnests := h.nests locals hlocals
    have hpresent (number : Nat) (hnumber : number ∈ locals ++ [frame.module, 0]) :
        number < memory.scopes.nodes.length := by
      refine h.present number ?_
      unfold Frame.numbers Frame.visible
      obtain hlocal | houter := List.mem_append.mp hnumber
      · obtain rfl | hsuspended := List.mem_cons.mp hlocals
        · simp [hlocal]
        · exact List.mem_append_right _
            (List.mem_flatten.mpr ⟨locals, List.mem_append_left _ hsuspended, hlocal⟩)
      · exact List.mem_append_left _ (List.mem_append_right _ houter)
    generalize locals ++ [frame.module, 0] = numbers at hnests hpresent
    induction numbers with
    | nil => trivial
    | cons number rest ih =>
      exact ⟨(hpath number (hpresent number List.mem_cons_self)).trans hnests.1,
        ih hnests.2 fun other hother ↦ hpresent other (List.mem_cons_of_mem _ hother)⟩
  · obtain hhome | hold := hfunctions number name arity closure hfound
    · exact hhome
    · exact h.home number hnumber name arity closure hold

end Frame.Fits

/-! ### Assignments -/

section

variable {H : Type}

/-- An assignment in the chain of all visible scopes is one of the state. -/
theorem State.assign?_of_chain {state : State H} {name : String} {value : Value}
    {locals : ValueChain H} {module globals : ValueScope H}
    (hassign : state.chain.assign? name value = some (locals ++ [module, globals]))
    (hlength : locals.length = state.locals.length) :
    state.assign? name value = some { state with locals, module, globals } := by
  unfold State.chain at hassign
  rw [Chain.assign?_append] at hassign
  unfold State.assign?
  cases hlocals : Chain.assign? name value state.locals with
  | some changed =>
    rw [hlocals] at hassign
    obtain ⟨rfl, hrest⟩ := List.append_inj (Option.some.inj hassign)
      ((Chain.length_of_assign? hlocals).trans hlength.symm)
    cases hrest
    rfl
  | none =>
    rw [hlocals] at hassign
    obtain ⟨rest, hrest, heq⟩ := Option.map_eq_some_iff.mp hassign
    obtain ⟨rfl, rfl⟩ := List.append_inj heq hlength.symm
    rw [Chain.assign?] at hrest
    cases hmodule : state.module.assign? name value with
    | some changed =>
      rw [hmodule] at hrest
      cases hrest
      rfl
    | none =>
      rw [hmodule, Chain.assign?] at hrest
      cases hglobals : state.globals.assign? name value with
      | some changed =>
        rw [hglobals] at hrest
        cases hrest
        rfl
      | none =>
        rw [hglobals] at hrest
        cases hrest

/-- A name that stands for nothing cannot be assigned to. -/
theorem State.assign?_of_chain_eq_none {state : State H} {name : String} {value : Value}
    (hfound : state.chain.lookup? name = none) : state.assign? name value = none := by
  unfold State.chain at hfound
  rw [Chain.lookup?_append, Option.or_eq_none_iff, Chain.lookup?_cons, Option.or_eq_none_iff,
    Chain.lookup?_cons, Option.or_eq_none_iff] at hfound
  obtain ⟨hlocals, hmodule, hglobals, -⟩ := hfound
  unfold State.assign?
  rw [Chain.assign?_eq_none hlocals, Scope.assign?, hmodule, Scope.assign?, hglobals]
  rfl

namespace Memory

variable {memory : Memory H}

/-- An assignment in a chain of scopes of a memory writes to the cell that is found there. -/
theorem assign?_shown (h : memory.Separate) {numbers : List Nat} (hnodup : numbers.Nodup)
    {name : String} {cell : Nat}
    (hfound : Chain.lookup? (numbers.map memory.scopes.scopeAt) name = some cell) (value : Value) :
    Chain.assign? name value (numbers.map memory.shown) =
      some (numbers.map (memory.write cell value).shown) := by
  have hshown (number : Nat) : (memory.shown number).lookup? name =
      ((memory.scopes.scopeAt number).lookup? name).map memory.read := Scope.lookup?_map _ _ _ _
  induction numbers with
  | nil => cases hfound
  | cons number rest ih =>
    obtain ⟨hnumber, hrest⟩ := List.nodup_cons.mp hnodup
    rw [List.map_cons, Chain.lookup?_cons] at hfound
    rw [List.map_cons, List.map_cons, Chain.assign?, Scope.assign?, hshown]
    cases hhere : (memory.scopes.scopeAt number).lookup? name with
    | some found =>
      rw [hhere] at hfound
      obtain rfl : found = cell := Option.some.inj hfound
      have hcell := Bindings.value_mem_of_find? hhere
      have hsame : rest.map (memory.write found value).shown = rest.map memory.shown := by
        refine List.map_congr_left fun other hother ↦ shown_write_of_not_mem (fun hmem ↦ ?_) value
        have howner : Owner.scope number = .scope other := h.owner_eq hcell hmem
        exact hnumber (Owner.scope.inj howner ▸ hother)
      rw [shown_write_self h hhere, hsame]
      rfl
    | none =>
      rw [hhere, Option.none_or] at hfound
      obtain ⟨other, hother, hlater⟩ := Chain.exists_of_lookup? hfound
      have hsame : (memory.write cell value).shown number = memory.shown number := by
        refine shown_write_of_not_mem (fun hmem ↦ ?_) value
        have howner : Owner.scope number = .scope other :=
          h.owner_eq hmem (Bindings.value_mem_of_find? hlater)
        exact hnumber (Owner.scope.inj howner ▸ hother)
      rw [ih hrest hfound, hsame]
      rfl

end Memory

namespace Frame.Fits

variable {memory : Memory H} {frame : Frame} (h : frame.Fits memory)
include h

/-- What has no cell in the tree cannot be assigned to in the state. -/
theorem assign?_of_none {name : String} (hfound : memory.scopes.lookup? frame.scope name = none)
    (value : Value) : (memory.state frame).assign? name value = none := by
  refine State.assign?_of_chain_eq_none ?_
  rw [h.lookup?, hfound]
  rfl

/-- A write to the cell that the tree finds is the assignment in the state, whichever visible scope
owns the cell. -/
theorem assign?_of_some {name : String} {cell : Nat}
    (hfound : memory.scopes.lookup? frame.scope name = some cell) (value : Value) :
    (memory.state frame).assign? name value = some ((memory.write cell value).state frame) := by
  have hchain := hfound
  unfold ScopeTree.lookup? at hchain
  rw [h.chain_scope] at hchain
  obtain ⟨number, hnumber, hhere⟩ := Chain.exists_of_lookup? hchain
  have hcell : cell ∈ (memory.bindings (.scope number)).values := Bindings.value_mem_of_find? hhere
  have hdistinct := List.nodup_append'.mp h.distinct
  have hassign := Memory.assign?_shown h.separate hdistinct.1 hchain value
  have hstate : (memory.state frame).chain = frame.visible.map memory.shown := by
    rw [Frame.visible, List.map_append]
    rfl
  have hvisible : frame.visible.map (memory.write cell value).shown =
      frame.locals.map (memory.write cell value).shown ++
        [(memory.write cell value).shown frame.module, (memory.write cell value).shown 0] :=
    List.map_append
  rw [← hstate, hvisible] at hassign
  refine (State.assign?_of_chain hassign (by simp [Memory.state])).trans (congrArg some ?_)
  -- The calls that wait and the bystanders have other scopes, and so do the objects.
  have hwaiting : frame.waiting.map (·.map (memory.write cell value).shown) =
      frame.waiting.map (·.map memory.shown) := by
    refine Memory.waiting_congr fun other hother ↦ ?_
    refine Memory.shown_write_of_not_mem (fun hmem ↦ ?_) value
    have howner : Owner.scope number = .scope other := h.separate.owner_eq hcell hmem
    exact hdistinct.2.2 (Owner.scope.inj howner ▸ hnumber) hother
  unfold Memory.state
  rw [hwaiting, Memory.contents_write_of_scope h.separate hcell]
  rfl

end Frame.Fits

end

end ScriptLang
