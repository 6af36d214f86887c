import ScriptLang.Proofs.Execution.Shown

/-!
Changes of a memory in a frame. Each keeps the frame a fitting one, and the state that is shown
changes as a run changes its state. A scope that is opened makes a new frame out of the old one,
which fits again when the scope is left.
-/

set_option autoImplicit false
set_option relaxedAutoImplicit false

namespace ScriptLang

/-! ### Objects -/

namespace Memory

variable {H : Type} {memory : Memory H}

/-- The members of an object that are shown are its own, with what their cells hold. -/
theorem contents_members (memory : Memory H) (ref : ObjectRef) : memory.contents.members ref =
    { memory.members ref with vars := (memory.members ref).vars.map memory.read } := by
  unfold ObjectStore.members members contents
  rw [List.getElem?_map]
  cases memory.objects[ref.index]? <;> rfl

/-- A field that is shown has the value that its cell holds. -/
theorem contents_lookup? (memory : Memory H) (ref : ObjectRef) (name : String) :
    (memory.contents.members ref).lookup? name =
      ((memory.members ref).lookup? name).map memory.read := by
  rw [contents_members]
  exact Bindings.find?_map memory.read (memory.members ref).vars name

theorem contents_function? (memory : Memory H) (ref : ObjectRef) (name : String) (arity : Nat) :
    (memory.contents.members ref).function? name arity =
      (memory.members ref).function? name arity := by
  rw [contents_members]
  rfl

/-- A field that has no cell cannot be set in the state either. -/
theorem setField_eq_error {ref : ObjectRef} {name : String}
    (hfound : (memory.members ref).lookup? name = none) (value : Value) :
    memory.contents.setField ref name value = .error (.undefinedField ref.typeName name) := by
  have hlookup := memory.contents_lookup? ref name
  rw [hfound] at hlookup
  unfold ObjectStore.members at hlookup
  unfold ObjectStore.setField
  cases hobject : memory.contents[ref.index]? with
  | none => rfl
  | some object =>
    rw [hobject] at hlookup
    change object.members.lookup? name = none at hlookup
    rw [Option.bind_some, Object.setField?, hlookup]
    rfl

section

variable (h : memory.Separate) {index cell : Nat} {name : String}
  (hindex : index < memory.objects.length)
  (hfound : memory.objects[index].members.lookup? name = some cell) (value : Value)
include h hfound

/-- Writing to the cell of a field changes this field of its object. -/
theorem contents_write_self : memory.objects[index].contents (memory.write cell value).read =
    (memory.objects[index].contents memory.read).withField name value := by
  have hnodup := h.nodup (.object index)
  have hcell := h.bounded (.object index) cell
  rw [bindings_object hindex] at hnodup hcell
  have hread := read_write_self (hcell (Bindings.value_mem_of_find? hfound)) value
  exact CellObject.contents_eq rfl (Bindings.map_eq_insert hnodup hfound hread
    fun other _ hne ↦ read_write_of_ne hne value) rfl

/-- Writing to the cell of a field leaves every other object as it is, since cells are not
shared. -/
theorem contents_write_of_ne {other : Nat} (hother : other < memory.objects.length)
    (hne : index ≠ other) : memory.objects[other].contents (memory.write cell value).read =
      memory.objects[other].contents memory.read := by
  refine CellObject.contents_eq rfl (Bindings.map_congr fun found hmem ↦ ?_) rfl
  refine read_write_of_ne (fun hsame ↦ hne ?_) value
  have hcell : cell ∈ (memory.bindings (.object index)).values :=
    bindings_object hindex ▸ Bindings.value_mem_of_find? hfound
  have howner : Owner.object index = .object other :=
    h.owner_eq hcell (hsame ▸ bindings_object hother ▸ hmem)
  exact Owner.object.inj howner

end

/-- To set a field is to write to its cell. -/
theorem setField_eq_ok (h : memory.Separate) {ref : ObjectRef} {name : String} {cell : Nat}
    (hfound : (memory.members ref).lookup? name = some cell) (value : Value) :
    memory.contents.setField ref name value = .ok (memory.write cell value).contents := by
  obtain ⟨hindex, -⟩ := mem_bindings_object (Bindings.value_mem_of_find? hfound)
  have hmembers : memory.members ref = memory.objects[ref.index].members := by
    rw [members, List.getElem?_eq_getElem hindex]
    rfl
  have hhere : memory.contents[ref.index]? =
      some (memory.objects[ref.index].contents memory.read) := by
    rw [contents, List.getElem?_map, List.getElem?_eq_getElem hindex, Option.map_some]
  have hbound : ((memory.objects[ref.index].contents memory.read).members.lookup? name).isSome := by
    change ((memory.objects[ref.index].members.vars.map memory.read).find? name).isSome
    rw [Bindings.find?_map, Option.isSome_map, ← hmembers]
    exact Option.isSome_of_mem hfound
  rw [hmembers] at hfound
  rw [ObjectStore.setField, hhere, Option.bind_some, Object.setField?, if_pos hbound]
  refine congrArg Except.ok (List.ext_getElem ?_ fun index hset hafter ↦ ?_)
  · simp only [List.length_set, contents, List.length_map, write]
  · have hother : index < memory.objects.length := by
      rw [contents, List.length_map] at hafter
      exact hafter
    simp only [List.getElem_set, contents, List.getElem_map]
    split
    · rename_i heq
      cases heq
      exact (contents_write_self h hindex hfound value).symm
    · rename_i hne
      exact (contents_write_of_ne h hindex hfound value hother hne).symm

end Memory

namespace Frame.Fits

variable {H : Type} {memory after : Memory H} {frame : Frame}

/-! ### Changes that open no scope -/

section

variable (h : frame.Fits memory)
include h

theorem write (cell : Nat) (value : Value) : frame.Fits (memory.write cell value) :=
  h.of_same (h.separate.of_bindings (Memory.bindings_write cell value)
    (Nat.le_of_eq List.length_set.symm)) rfl (Nat.le_refl _) (fun _ _ ↦ rfl) fun _ _ _ _ ↦ .inr

/-- Writing to the cell of a field changes the objects of the state and nothing else of it. -/
theorem state_write_object {ref : ObjectRef} {name : String} {cell : Nat}
    (hfound : (memory.members ref).lookup? name = some cell) (value : Value) :
    (memory.write cell value).state frame =
      { memory.state frame with objects := (memory.write cell value).contents } := by
  have hcell : cell ∈ (memory.bindings (.object ref.index)).values :=
    Bindings.value_mem_of_find? hfound
  have hshown : (memory.write cell value).shown = memory.shown := by
    funext number
    refine Memory.shown_write_of_not_mem (fun hmem ↦ ?_) value
    have howner : Owner.object ref.index = .scope number := h.separate.owner_eq hcell hmem
    cases howner
  unfold Memory.state
  rw [hshown]
  rfl

theorem store (objects : ObjectStore H) : frame.Fits (memory.store objects) :=
  h.of_same (h.separate.store objects) rfl (Nat.le_refl _) (fun _ _ ↦ rfl) fun _ _ _ _ ↦ .inr

/-- Objects that the host leaves are the objects of the state. -/
theorem state_store (objects : ObjectStore H) :
    (memory.store objects).state frame = { memory.state frame with objects } := by
  have hshown : (memory.store objects).shown = memory.shown :=
    funext fun number ↦ Memory.shown_store h.separate objects number
  unfold Memory.state
  rw [hshown, h.separate.contents_store]
  rfl

theorem with_sink (sink : Sink) : frame.Fits { memory with sink } :=
  h.of_same (h.separate.of_bindings (fun owner ↦ (by cases owner <;> rfl)) (Nat.le_refl _)) rfl
    (Nat.le_refl _) (fun _ _ ↦ rfl) fun _ _ _ _ ↦ .inr

/-- A frame fits after a scope was opened somewhere. -/
theorem openScope (parent : Nat) : frame.Fits (memory.openScope parent) := by
  refine h.of_same (h.separate.of_bindings (Memory.bindings_openScope parent) (Nat.le_refl _)) rfl
    (List.length_append ▸ Nat.le_add_right _ _)
    (fun number hnumber ↦ ScopeTree.path_child_of_lt _ _ hnumber) fun number name arity closure ↦ ?_
  change ((memory.scopes.child parent).scopeAt number).function? name arity = _ → _
  rw [ScopeTree.scopeAt_child]
  exact .inr

/-- A frame fits after a declaration in any scope that is there. -/
theorem declare {scope : Nat} (hscope : scope < memory.scopes.nodes.length) (name : String)
    (value : Value) : frame.Fits (memory.declare scope name value) := by
  refine h.of_same (h.separate.declare hscope name value) rfl
    (Nat.le_of_eq (List.length_modify ..).symm) (fun number _ ↦ ScopeTree.path_modify _ _ _ number)
    fun number other arity closure ↦ ?_
  change ((memory.scopes.modify scope _).scopeAt number).function? other arity = _ → _
  rw [ScopeTree.scopeAt_modify hscope]
  split <;> exact .inr

/-- A frame fits after a function was declared with its home in the module. -/
theorem declareFunction {scope : Nat} (hscope : scope < memory.scopes.nodes.length) (name : String)
    (arity : Nat) (callable : Callable H) (hhome : Closure.IsHome frame.module ⟨callable, scope⟩) :
    frame.Fits (memory.declareFunction scope name arity callable) := by
  refine h.of_same (h.separate.of_bindings (Memory.bindings_declareFunction hscope name arity
    callable) (Nat.le_refl _)) rfl (Nat.le_of_eq (List.length_modify ..).symm)
    (fun number _ ↦ ScopeTree.path_modify _ _ _ number) fun number other count closure hfound ↦ ?_
  change ((memory.scopes.modify scope _).scopeAt number).function? other count = _ at hfound
  rw [ScopeTree.scopeAt_modify hscope] at hfound
  split at hfound
  · rw [Scope.function?_declareFunction] at hfound
    split at hfound
    · cases hfound
      exact .inl hhome
    · exact .inr hfound
  · exact .inr hfound

/-- A change of one scope that is not the module or the host's is seen in no other. -/
theorem waiting_of_visible {number : Nat} (hnumber : number ∈ frame.visible)
    (hshown : ∀ other, other ≠ number → after.shown other = memory.shown other) :
    frame.waiting.map (·.map after.shown) = frame.waiting.map (·.map memory.shown) :=
  Memory.waiting_congr fun other hother ↦ hshown other fun heq ↦
    (List.nodup_append'.mp h.distinct).2.2 hnumber (heq ▸ hother)

/-- The scopes of the current call, that of the module and that of the host are three things. -/
theorem distinct_visible : frame.module ≠ 0 ∧ frame.locals.Nodup ∧
    ∀ number ∈ frame.locals, number ≠ frame.module ∧ number ≠ 0 := by
  obtain ⟨hlocals, houter, hdisjoint⟩ := List.nodup_append'.mp (List.nodup_append'.mp h.distinct).1
  refine ⟨fun heq ↦ ?_, hlocals, fun number hnumber ↦ ⟨fun heq ↦ ?_, fun heq ↦ ?_⟩⟩
  · exact (List.nodup_cons.mp houter).1 (List.mem_singleton.mpr heq)
  · exact hdisjoint hnumber (heq ▸ List.mem_cons_self)
  · exact hdisjoint hnumber (heq ▸ List.mem_cons_of_mem _ List.mem_cons_self)

/-- A change that shows in the scope of the module only is a change of the module of the state. -/
theorem state_of_module
    (hshown : ∀ number, number ≠ frame.module → after.shown number = memory.shown number)
    (hcontents : after.contents = memory.contents) (hsink : after.sink = memory.sink) :
    after.state frame = { memory.state frame with module := after.shown frame.module } := by
  obtain ⟨hmodule, -, hlocals⟩ := h.distinct_visible
  have hwaiting := h.waiting_of_visible frame.module_mem hshown
  have hsame : frame.locals.map after.shown = frame.locals.map memory.shown :=
    List.map_congr_left fun number hnumber ↦ hshown number (hlocals number hnumber).1
  unfold Memory.state
  rw [hwaiting, hsame, hshown 0 hmodule.symm, hcontents, hsink]

/-- A change that shows in the scope of the host only is a change of its globals. -/
theorem state_of_globals
    (hshown : ∀ number, number ≠ 0 → after.shown number = memory.shown number)
    (hcontents : after.contents = memory.contents) (hsink : after.sink = memory.sink) :
    after.state frame = { memory.state frame with globals := after.shown 0 } := by
  obtain ⟨hmodule, -, hlocals⟩ := h.distinct_visible
  have hwaiting := h.waiting_of_visible frame.zero_mem hshown
  have hsame : frame.locals.map after.shown = frame.locals.map memory.shown :=
    List.map_congr_left fun number hnumber ↦ hshown number (hlocals number hnumber).2
  unfold Memory.state
  rw [hwaiting, hsame, hshown frame.module hmodule, hcontents, hsink]

/-- A change that shows in the innermost scope only is a change of the innermost scope of the
state. -/
theorem state_of_locals {number : Nat} {outer : List Nat} (hframe : frame.locals = number :: outer)
    (hshown : ∀ other, other ≠ number → after.shown other = memory.shown other)
    (hcontents : after.contents = memory.contents) (hsink : after.sink = memory.sink) :
    after.state frame =
      { memory.state frame with locals := after.shown number :: outer.map memory.shown } := by
  obtain ⟨-, hnodup, hlocals⟩ := h.distinct_visible
  rw [hframe] at hnodup hlocals
  obtain ⟨hnumber, -⟩ := List.nodup_cons.mp hnodup
  obtain ⟨hmodule, hzero⟩ := hlocals number List.mem_cons_self
  have hvisible : number ∈ frame.visible :=
    List.mem_append_left _ (hframe ▸ List.mem_cons_self)
  have houter : outer.map after.shown = outer.map memory.shown :=
    List.map_congr_left fun other hother ↦ hshown other (ne_of_mem_of_not_mem hother hnumber)
  unfold Memory.state
  rw [h.waiting_of_visible hvisible hshown, hframe, List.map_cons, houter,
    hshown frame.module hmodule.symm, hshown 0 hzero.symm, hcontents, hsink]

/-- A new cell in the innermost scope is a declaration in the state. -/
theorem state_declare (name : String) (value : Value) :
    (memory.declare frame.scope name value).state frame =
      (memory.state frame).declare name value := by
  have hshown := Memory.shown_declare h.scope_lt h.separate name value
  have hkept (number : Nat) (hne : number ≠ frame.scope) :
      (memory.declare frame.scope name value).shown number = memory.shown number := by
    rw [hshown, if_neg hne]
  have hhere : (memory.declare frame.scope name value).shown frame.scope =
      (memory.shown frame.scope).declare name value := by rw [hshown, if_pos rfl]
  have hcontents := Memory.contents_declare h.separate frame.scope name value
  unfold State.declare
  cases hlocals : frame.locals with
  | nil =>
    have hscope : frame.scope = frame.module := by rw [Frame.scope, hlocals]; rfl
    rw [hscope] at hkept hhere hcontents ⊢
    rw [h.state_of_module hkept hcontents rfl, hhere]
    simp [Memory.state, hlocals]
  | cons number outer =>
    have hscope : frame.scope = number := by rw [Frame.scope, hlocals]; rfl
    rw [hscope] at hkept hhere hcontents ⊢
    rw [h.state_of_locals hlocals hkept hcontents rfl, hhere]
    simp [Memory.state, hlocals]

/-- A function that is declared in the scope of the module is one of the module of the state. -/
theorem state_declareMethod (name : String) (arity : Nat) (callable : Callable H) :
    (memory.declareFunction frame.module name arity callable).state frame =
      { memory.state frame with
        module := (memory.state frame).module.declareFunction name arity callable } := by
  have hshown := Memory.shown_declareFunction h.module_lt name arity callable
  have hhere := hshown frame.module
  rw [if_pos rfl] at hhere
  rw [h.state_of_module (fun number hne ↦ (hshown number).trans (if_neg hne)) rfl rfl, hhere]
  rfl

/-- A variable of the host in the tree is a global of the state. -/
theorem state_declare_global (name : String) (value : Value) :
    (memory.declare 0 name value).state frame =
      { memory.state frame with globals := (memory.state frame).globals.declare name value } := by
  have hshown := Memory.shown_declare h.zero_lt h.separate name value
  have hhere := hshown 0
  rw [if_pos rfl] at hhere
  rw [h.state_of_globals (fun number hne ↦ (hshown number).trans (if_neg hne))
    (Memory.contents_declare h.separate 0 name value) rfl, hhere]
  rfl

/-- A function of the host in the tree is a global function of the state. -/
theorem state_declareFunction_global (name : String) (arity : Nat) (callable : Callable H) :
    (memory.declareFunction 0 name arity callable).state frame =
      { memory.state frame with
        globals := (memory.state frame).globals.declareFunction name arity callable } := by
  have hshown := Memory.shown_declareFunction h.zero_lt name arity callable
  have hhere := hshown 0
  rw [if_pos rfl] at hhere
  rw [h.state_of_globals (fun number hne ↦ (hshown number).trans (if_neg hne)) rfl rfl, hhere]
  rfl

end

/-! ### Scopes that are entered and left -/

/-- A call adds one scope to those of the frame. -/
theorem numbers_enterCall (frame : Frame) (number : Nat) :
    (frame.enterCall number).numbers.Perm (number :: frame.numbers) := by
  obtain ⟨module, locals, suspended, bystanders⟩ := frame
  refine .cons number ?_
  change ([module, 0] ++ (locals ++ (suspended ++ bystanders).flatten)).Perm
    ((locals ++ [module, 0]) ++ (suspended ++ bystanders).flatten)
  rw [← List.append_assoc]
  exact List.perm_append_comm.append_right _

theorem active_enterCall (frame : Frame) (number : Nat) :
    (frame.enterCall number).active.Perm (number :: frame.active) := by
  obtain ⟨module, locals, suspended, bystanders⟩ := frame
  refine .cons number ?_
  change ([module, 0] ++ (locals ++ suspended.flatten)).Perm
    ((locals ++ [module, 0]) ++ suspended.flatten)
  rw [← List.append_assoc]
  exact List.perm_append_comm.append_right _

section

variable (h : frame.Fits memory)
include h

theorem length_not_mem : memory.scopes.nodes.length ∉ frame.numbers :=
  fun hmem ↦ Nat.lt_irrefl _ (h.present _ hmem)

theorem nests_module : memory.Nests [frame.module, 0] :=
  Memory.Nests.of_append (h.nests frame.locals List.mem_cons_self)

/-- A frame with one more scope, that was opened inside of `parent`. -/
theorem opened {parent : Nat} {inner : Frame} (hmodule : inner.module = frame.module)
    (hnumbers : inner.numbers.Perm (memory.scopes.nodes.length :: frame.numbers))
    (hactive : inner.active.Perm (memory.scopes.nodes.length :: frame.active))
    (hlocals : (memory.openScope parent).Nests (inner.locals ++ [inner.module, 0]))
    (hsuspended : ∀ locals ∈ inner.suspended, locals ∈ frame.locals :: frame.suspended) :
    inner.Fits (memory.openScope parent) := by
  have hopened := h.openScope parent
  refine ⟨hopened.separate, hopened.module.trans hmodule.symm,
    hnumbers.nodup_iff.mpr (List.nodup_cons.mpr ⟨h.length_not_mem, h.distinct⟩),
    fun number hnumber ↦ ?_, fun locals hmem ↦ ?_,
    fun number hnumber name arity closure hfound ↦ ?_⟩
  · obtain rfl | hold := List.mem_cons.mp (hnumbers.mem_iff.mp hnumber)
    · exact List.length_append ▸ Nat.lt_succ_self _
    · exact hopened.present number hold
  · obtain rfl | hold := List.mem_cons.mp hmem
    · exact hlocals
    · exact hmodule ▸ hopened.nests locals (hsuspended locals hold)
  · rw [hmodule]
    obtain rfl | hold := List.mem_cons.mp (hactive.mem_iff.mp hnumber)
    · change ((memory.scopes.child parent).scopeAt _).function? name arity = _ at hfound
      rw [ScopeTree.scopeAt_child, ScopeTree.scopeAt, ScopeTree.scope?,
        List.getElem?_eq_none (Nat.le_refl _)] at hfound
      cases hfound
    · exact hopened.home number hold name arity closure hfound

theorem enterBlock :
    (frame.enterBlock memory.scopes.nodes.length).Fits (memory.openScope frame.scope) := by
  refine h.opened rfl (.refl _) (.refl _) ⟨?_, ?_⟩ fun locals ↦ List.mem_cons_of_mem _
  · exact (ScopeTree.path_child ..).trans (congrArg _ h.path_scope)
  · exact (h.openScope frame.scope).nests frame.locals List.mem_cons_self

theorem enterCall :
    (frame.enterCall memory.scopes.nodes.length).Fits (memory.openScope frame.module) := by
  refine h.opened rfl (numbers_enterCall _ _) (active_enterCall _ _) ⟨?_, ?_⟩ fun _ ↦ id
  · exact (ScopeTree.path_child ..).trans (congrArg _ h.nests_module.1)
  · exact (h.openScope frame.module).nests_module

omit h in
/-- A frame with one scope less. -/
theorem left {inner : Frame} {number : Nat} (h : inner.Fits memory)
    (hmodule : inner.module = frame.module)
    (hnumbers : inner.numbers.Perm (number :: frame.numbers))
    (hactive : inner.active.Perm (number :: frame.active))
    (hnests : ∀ locals ∈ frame.locals :: frame.suspended,
      memory.Nests (locals ++ [frame.module, 0])) : frame.Fits memory :=
  ⟨h.separate, h.module.trans hmodule, (List.nodup_cons.mp (hnumbers.nodup_iff.mp h.distinct)).2,
    fun other hother ↦ h.present other (hnumbers.mem_iff.mpr (List.mem_cons_of_mem _ hother)),
    hnests, fun other hother ↦ hmodule ▸
      h.home other (hactive.mem_iff.mpr (List.mem_cons_of_mem _ hother))⟩

end

/-- The frame around a block fits the memory that the block leaves. -/
theorem leaveBlock {number : Nat} (h : (frame.enterBlock number).Fits memory) :
    frame.Fits memory := by
  refine h.left rfl (.refl _) (.refl _) (List.forall_mem_cons.mpr ⟨?_, fun locals hmem ↦ ?_⟩)
  · exact (h.nests (frame.enterBlock number).locals List.mem_cons_self).2
  · exact h.nests locals (List.mem_cons_of_mem _ hmem)

theorem leaveCall {number : Nat} (h : (frame.enterCall number).Fits memory) : frame.Fits memory :=
  h.left rfl (numbers_enterCall _ _) (active_enterCall _ _)
    fun locals hmem ↦ h.nests locals (List.mem_cons_of_mem _ hmem)

/-- A new module, from which no procedure of an old one is in sight. -/
theorem openModule {module : Nat} (h : Frame.Fits ⟨module, [], [], []⟩ memory)
    (hglobals : ∀ name arity closure,
      (memory.scopes.scopeAt 0).function? name arity = some closure →
        ∀ definition, closure.callable ≠ .procedure definition) :
    Frame.Fits ⟨memory.scopes.nodes.length, [], [], []⟩ memory.openModule := by
  have hopened := h.openScope 0
  have hlength : memory.openModule.scopes.nodes.length = memory.scopes.nodes.length + 1 :=
    List.length_append
  have hseparate : memory.openModule.Separate :=
    hopened.separate.of_bindings (fun owner ↦ (by cases owner <;> rfl)) (Nat.le_refl _)
  have hnests : memory.openModule.Nests [memory.scopes.nodes.length, 0] :=
    ⟨(ScopeTree.path_child ..).trans (congrArg _ h.nests_module.2.1), hopened.nests_module.2⟩
  refine ⟨hseparate, rfl, ?_, fun number hnumber ↦ ?_, fun locals hmem ↦ ?_,
    fun number hnumber name arity closure hfound ↦ ?_⟩
  · simpa [Frame.numbers, Frame.visible, Frame.waiting] using Nat.ne_of_gt h.zero_lt
  · rw [hlength]
    obtain rfl | rfl : number = memory.scopes.nodes.length ∨ number = 0 := by
      simpa [Frame.numbers, Frame.visible, Frame.waiting] using hnumber
    · exact Nat.lt_succ_self _
    · exact Nat.succ_pos _
  · obtain rfl := List.mem_singleton.mp hmem
    exact hnests
  · change ((memory.scopes.child 0).scopeAt number).function? name arity = _ at hfound
    rw [ScopeTree.scopeAt_child] at hfound
    obtain rfl | rfl : number = memory.scopes.nodes.length ∨ number = 0 := by
      simpa [Frame.active, Frame.visible] using hnumber
    · rw [ScopeTree.scopeAt, ScopeTree.scope?, List.getElem?_eq_none (Nat.le_refl _)] at hfound
      cases hfound
    · exact fun definition hprocedure ↦ absurd hprocedure (hglobals name arity closure hfound _)

end Frame.Fits

/-- A new module is empty in the state as well, and no other part of the state changes. -/
theorem Memory.state_openModule {H : Type} (memory : Memory H) (module : Nat) :
    memory.openModule.state ⟨memory.scopes.nodes.length, [], [], []⟩ =
      { memory.state ⟨module, [], [], []⟩ with module := {} } := by
  have hshown : memory.openModule.shown = memory.shown := funext (memory.shown_openScope 0)
  unfold state
  rw [hshown, shown_length]
  rfl

end ScriptLang
