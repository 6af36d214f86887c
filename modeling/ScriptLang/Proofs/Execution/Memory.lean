import Mathlib.Data.List.Nodup
import ScriptLang.Execution.Memory
import ScriptLang.Proofs.Typing.InPlace

/-!
Cells that are not shared. A memory is separate if no cell is bound twice, be it in one scope or
object or in two of them, and all cells that are bound exist. Everything that a run does to a memory
keeps it so, and changes what is bound to other cells in no way.
-/

set_option autoImplicit false
set_option relaxedAutoImplicit false

namespace ScriptLang

/-! ### Bindings of cells -/

namespace Bindings

variable {κ α β : Type} [DecidableEq κ] {bindings : Bindings κ α} {key : κ} {value : α}

/-- A change of all values changes the value that is found. -/
theorem find?_map (change : α → β) (bindings : Bindings κ α) (key : κ) :
    (bindings.map change).find? key = (bindings.find? key).map change := by
  obtain ⟨entries⟩ := bindings
  unfold map find?
  induction entries with
  | nil => rfl
  | cons head tail ih =>
    rw [List.map_cons, List.lookup_cons, List.lookup_cons]
    cases key == head.1
    · exact ih
    · rfl

/-- What is found under a key is one of the entries. -/
theorem mem_of_find? (h : bindings.find? key = some value) : (key, value) ∈ bindings.entries := by
  obtain ⟨entries⟩ := bindings
  unfold find? at h
  induction entries with
  | nil => cases h
  | cons head tail ih =>
    rw [List.lookup_cons] at h
    split at h
    · rename_i hkey
      cases h
      rw [beq_iff_eq.mp hkey]
      exact List.mem_cons_self
    · exact List.mem_cons_of_mem _ (ih h)

theorem value_mem_of_find? (h : bindings.find? key = some value) : value ∈ bindings.values :=
  List.mem_map.mpr ⟨(key, value), mem_of_find? h, rfl⟩

/-- A value that occurs once has one key. -/
theorem key_eq_of_find? {other : κ} (hnodup : bindings.values.Nodup)
    (h : bindings.find? key = some value) (h' : bindings.find? other = some value) :
    key = other := by
  have hinjective := List.inj_on_of_nodup_map hnodup
  exact congrArg Prod.fst (hinjective (mem_of_find? h) (mem_of_find? h') rfl)

omit [DecidableEq κ] in
/-- Only the values that are bound matter to a change of them. -/
theorem map_congr {first second : α → β}
    (h : ∀ value ∈ bindings.values, first value = second value) :
    bindings.map first = bindings.map second := by
  unfold map
  refine congrArg Bindings.mk (List.map_congr_left fun entry hentry ↦ ?_)
  rw [h entry.2 (List.mem_map.mpr ⟨entry, hentry, rfl⟩)]

/-- Where one value is changed that occurs once, one binding is. -/
theorem map_eq_insert {first second : α → β} {result : β} (hnodup : bindings.values.Nodup)
    (hfound : bindings.find? key = some value) (hself : second value = result)
    (hothers : ∀ other ∈ bindings.values, other ≠ value → second other = first other) :
    bindings.map second = (bindings.map first).insert key result := by
  obtain ⟨entries⟩ := bindings
  induction entries with
  | nil => cases hfound
  | cons head tail ih =>
    obtain ⟨name, old⟩ := head
    obtain ⟨hhead, htail⟩ := List.nodup_cons.mp hnodup
    have hrest (other : α) (hother : other ∈ values ⟨tail⟩) (hne : other ≠ value) :
        second other = first other := hothers other (List.mem_cons_of_mem _ hother) hne
    by_cases hkey : name = key
    · obtain rfl : old = value := by
        simpa [find?, List.lookup_cons, hkey] using hfound
      have hsame : map second ⟨tail⟩ = map first ⟨tail⟩ :=
        map_congr fun other hother ↦ hrest other hother fun h ↦ hhead (h ▸ hother)
      have hentries : tail.map (fun entry ↦ (entry.1, second entry.2)) =
          tail.map fun entry ↦ (entry.1, first entry.2) := congrArg entries hsame
      simp [map, insert, place, hkey, hself, hentries]
    · have hlater : find? ⟨tail⟩ key = some value := by
        simpa [find?, List.lookup_cons, beq_eq_false_iff_ne.mpr (Ne.symm hkey)] using hfound
      have hne : old ≠ value := fun h ↦ hhead (h ▸ value_mem_of_find? hlater)
      have hsame : tail.map (fun entry ↦ (entry.1, second entry.2)) =
          place key result (tail.map fun entry ↦ (entry.1, first entry.2)) :=
        congrArg entries (ih htail hlater hrest)
      simp [map, insert, place, hkey, hothers old List.mem_cons_self hne, hsame]

/-- Changing all values and binding one more come to the same in either order. -/
theorem map_insert (change : α → β) (bindings : Bindings κ α) (key : κ) (value : α) :
    (bindings.insert key value).map change = (bindings.map change).insert key (change value) := by
  obtain ⟨entries⟩ := bindings
  unfold map insert
  refine congrArg Bindings.mk ?_
  induction entries with
  | nil => rfl
  | cons head tail ih =>
    by_cases hkey : head.1 = key
    · simp [place, hkey]
    · simp [place, hkey, ih]

/-- What is bound after a binding, but for its value, was bound before. -/
theorem mem_values_insert {other : α} (h : other ∈ (bindings.insert key value).values) :
    other = value ∨ other ∈ bindings.values := by
  obtain ⟨entries⟩ := bindings
  unfold values insert at *
  induction entries with
  | nil => exact .inl (List.mem_singleton.mp h)
  | cons head tail ih =>
    by_cases hkey : head.1 = key
    · simp only [place, if_pos hkey, List.map_cons, List.mem_cons] at h ⊢
      exact h.imp_right .inr
    · simp only [place, if_neg hkey, List.map_cons, List.mem_cons] at h ⊢
      obtain hhead | htail := h
      · exact .inr (.inl hhead)
      · exact (ih htail).imp_right .inr

/-- A new value keeps the values different from each other. -/
theorem nodup_values_insert (hnodup : bindings.values.Nodup) (hfresh : value ∉ bindings.values) :
    (bindings.insert key value).values.Nodup := by
  obtain ⟨entries⟩ := bindings
  induction entries with
  | nil => exact List.nodup_singleton value
  | cons head tail ih =>
    obtain ⟨hhead, htail⟩ := List.nodup_cons.mp hnodup
    have hne := List.ne_of_not_mem_cons hfresh
    have hrest := List.not_mem_of_not_mem_cons hfresh
    unfold values insert
    by_cases hkey : head.1 = key
    · rw [place, if_pos hkey]
      exact List.nodup_cons.mpr ⟨hrest, htail⟩
    · rw [place, if_neg hkey]
      refine List.nodup_cons.mpr ⟨fun hmem ↦ ?_, ih htail hrest⟩
      change head.2 ∈ (insert ⟨tail⟩ key value).values at hmem
      obtain heq | hold := mem_values_insert hmem
      · exact hne heq.symm
      · exact hhead hold

end Bindings

/-! ### Scopes of a tree by number -/

namespace ScopeTree

variable {V F : Type}

/-- A scope of a tree; one that is not there has nothing in it. -/
def scopeAt (tree : ScopeTree V F) (number : Nat) : Scope V F := (tree.scope? number).getD {}

/-- A new scope is empty, and so is a number without a scope. -/
theorem scopeAt_child (tree : ScopeTree V F) (parent number : Nat) :
    (tree.child parent).scopeAt number = tree.scopeAt number := by
  unfold scopeAt scope?
  obtain hold | hnew := Nat.lt_or_ge number tree.nodes.length
  · rw [child_of_lt hold]
  · rw [List.getElem?_eq_none hnew]
    unfold child
    obtain rfl | hbeyond := Nat.eq_or_lt_of_le hnew
    · rw [List.getElem?_append_right (Nat.le_refl _), Nat.sub_self]
      rfl
    · have hlength : (tree.nodes ++ [({ enclosing := tree.path parent } : ScopeNode V F)]).length ≤
          number := by
        rw [List.length_append]
        exact hbeyond
      rw [List.getElem?_eq_none hlength]

/-- A change of one scope leaves the others. -/
theorem scopeAt_modify {tree : ScopeTree V F} {number : Nat} (hnumber : number < tree.nodes.length)
    (change : Scope V F → Scope V F) (other : Nat) :
    (tree.modify number change).scopeAt other =
      if other = number then change (tree.scopeAt other) else tree.scopeAt other := by
  unfold scopeAt scope?
  split
  · rename_i heq
    rw [heq, modify_same, List.getElem?_eq_getElem hnumber]
    rfl
  · rename_i hne
    rw [modify_of_ne (Ne.symm hne)]

end ScopeTree

/-! ### What is bound in a memory -/

/-- What binds names to cells: a scope or an object, by number. -/
inductive Owner
  | scope (number : Nat)
  | object (index : Nat)
  deriving DecidableEq

/-- A variable of a scope or a field of an object. -/
structure Slot where
  owner : Owner
  name : String
  deriving DecidableEq

namespace Memory

variable {H : Type} {memory : Memory H}

def bindings (memory : Memory H) : Owner → Bindings String Nat
  | .scope number => (memory.scopes.scopeAt number).vars
  | .object index => ((memory.objects[index]?.map CellObject.members).getD {}).vars

/-- The cell that a variable or field refers to. -/
def cell? (memory : Memory H) (slot : Slot) : Option Nat :=
  (memory.bindings slot.owner).find? slot.name

def value? (memory : Memory H) (slot : Slot) : Option Value := (memory.cell? slot).map memory.read

/-- No cell is bound twice, and every cell that is bound exists. -/
structure Separate (memory : Memory H) : Prop where
  nodup : ∀ owner, (memory.bindings owner).values.Nodup
  disjoint : ∀ owner other, owner ≠ other →
    (memory.bindings owner).values.Disjoint (memory.bindings other).values
  bounded : ∀ owner, ∀ cell ∈ (memory.bindings owner).values, cell < memory.cells.length

/-- A cell has one owner. -/
theorem Separate.owner_eq (h : memory.Separate) {owner other : Owner} {cell : Nat}
    (howner : cell ∈ (memory.bindings owner).values)
    (hother : cell ∈ (memory.bindings other).values) : owner = other := by
  by_contra hne
  exact h.disjoint owner other hne howner hother

/-- Two variables or fields that refer to one cell are the same. -/
theorem Separate.slot_eq (h : memory.Separate) {slot other : Slot} {cell : Nat}
    (hslot : memory.cell? slot = some cell) (hother : memory.cell? other = some cell) :
    slot = other := by
  obtain ⟨owner, name⟩ := slot
  obtain ⟨owner', name'⟩ := other
  obtain rfl : owner = owner' := h.owner_eq (Bindings.value_mem_of_find? hslot)
    (Bindings.value_mem_of_find? hother)
  obtain rfl : name = name' := Bindings.key_eq_of_find? (h.nodup owner) hslot hother
  rfl

/-- Cells stay separate while the owners have the same cells and no cell is taken away. -/
theorem Separate.of_bindings (h : memory.Separate) {after : Memory H}
    (hbindings : ∀ owner, after.bindings owner = memory.bindings owner)
    (hcells : memory.cells.length ≤ after.cells.length) : after.Separate where
  nodup owner := hbindings owner ▸ h.nodup owner
  disjoint owner other hne := by
    rw [hbindings, hbindings]
    exact h.disjoint owner other hne
  bounded owner cell hcell :=
    Nat.lt_of_lt_of_le (h.bounded owner cell (hbindings owner ▸ hcell)) hcells

theorem bindings_write (cell : Nat) (value : Value) (owner : Owner) :
    (memory.write cell value).bindings owner = memory.bindings owner := by
  cases owner <;> rfl

/-- A new scope has no cell. -/
theorem bindings_openScope (parent : Nat) (owner : Owner) :
    (memory.openScope parent).bindings owner = memory.bindings owner := by
  cases owner with
  | object index => rfl
  | scope number => exact congrArg Scope.vars (memory.scopes.scopeAt_child parent number)

section

variable {scope : Nat} (hscope : scope < memory.scopes.nodes.length)
include hscope

/-- A function has no cell. -/
theorem bindings_declareFunction (name : String) (arity : Nat) (callable : Callable H)
    (owner : Owner) :
    (memory.declareFunction scope name arity callable).bindings owner = memory.bindings owner := by
  cases owner with
  | object index => rfl
  | scope number =>
    refine (congrArg Scope.vars (ScopeTree.scopeAt_modify hscope _ number)).trans ?_
    split <;> rfl

/-- A declaration gives a new cell to the scope that it is made in and none to another owner. -/
theorem bindings_declare (name : String) (value : Value) (owner : Owner) :
    (memory.declare scope name value).bindings owner =
      if owner = .scope scope then (memory.bindings owner).insert name memory.cells.length
      else memory.bindings owner := by
  cases owner with
  | object index => rfl
  | scope number =>
    refine (congrArg Scope.vars (ScopeTree.scopeAt_modify hscope _ number)).trans ?_
    by_cases hnumber : number = scope
    · rw [if_pos hnumber, if_pos (congrArg Owner.scope hnumber)]
      rfl
    · rw [if_neg hnumber, if_neg fun h ↦ hnumber (Owner.scope.inj h)]
      rfl

/-- A declaration binds a cell that was not bound before. -/
theorem Separate.declare (h : memory.Separate) (name : String) (value : Value) :
    (memory.declare scope name value).Separate := by
  have hfresh (owner : Owner) : memory.cells.length ∉ (memory.bindings owner).values :=
    fun hmem ↦ Nat.lt_irrefl _ (h.bounded owner _ hmem)
  have hcells (owner : Owner) (cell : Nat)
      (hcell : cell ∈ ((memory.declare scope name value).bindings owner).values) :
      (cell = memory.cells.length ∧ owner = .scope scope) ∨
        cell ∈ (memory.bindings owner).values := by
    rw [bindings_declare hscope] at hcell
    split at hcell
    · rename_i howner
      exact (Bindings.mem_values_insert hcell).imp_left fun heq ↦ ⟨heq, howner⟩
    · exact .inr hcell
  constructor
  · intro owner
    rw [bindings_declare hscope]
    split
    · exact Bindings.nodup_values_insert (h.nodup owner) (hfresh owner)
    · exact h.nodup owner
  · intro owner other hne cell howner hother
    obtain ⟨hcell, rfl⟩ | hold := hcells owner cell howner
    · obtain ⟨-, rfl⟩ | hold' := hcells other cell hother
      · exact hne rfl
      · exact hfresh other (hcell ▸ hold')
    · obtain ⟨hcell, -⟩ | hold' := hcells other cell hother
      · exact hfresh owner (hcell ▸ hold)
      · exact h.disjoint owner other hne hold hold'
  · intro owner cell hcell
    change cell < (memory.cells ++ [value]).length
    rw [List.length_append]
    obtain ⟨rfl, -⟩ | hold := hcells owner cell hcell
    · exact Nat.lt_succ_self _
    · exact Nat.lt_succ_of_lt (h.bounded owner cell hold)

end

/-! ### Objects that the host has left -/

/-- Fields that hold `entries` in cells out of `old` and in new ones, while other cells stay. -/
structure Placed (cells : List Value) (old : List Nat) (entries : List (String × Value))
    (fields : List (String × Nat)) (after : List Value) : Prop where
  nodup : (fields.map Prod.snd).Nodup
  origin : ∀ cell ∈ fields.map Prod.snd, cell ∈ old ∨ cells.length ≤ cell
  bounded : ∀ cell ∈ fields.map Prod.snd, cell < after.length
  holds : fields.map (fun field ↦ (field.1, after.getD field.2 .nil)) = entries
  grows : cells.length ≤ after.length
  kept : ∀ cell < cells.length, cell ∉ old → after.getD cell .nil = cells.getD cell .nil

namespace Placed

variable {cells after : List Value} {rest : List (String × Value)} {fields : List (String × Nat)}
  {name : String} {value : Value}

/-- A field that was there keeps its cell, which is not given to the fields after it. -/
theorem keep {cell : Nat} {old others : List Nat} (hcell : cell < cells.length) (hold : cell ∈ old)
    (htaken : cell ∉ others) (hothers : others ⊆ old)
    (h : Placed (cells.set cell value) others rest fields after) :
    Placed cells old ((name, value) :: rest) ((name, cell) :: fields) after := by
  have hlength : (cells.set cell value).length = cells.length := List.length_set
  have hset : (cells.set cell value).getD cell .nil = value := by
    rw [List.getD_eq_getElem?_getD, List.getElem?_set_self hcell]
    rfl
  have hgrows := hlength ▸ h.grows
  constructor
  · refine List.nodup_cons.mpr ⟨fun hother ↦ ?_, h.nodup⟩
    obtain hother | hnew := h.origin cell hother
    · exact htaken hother
    · omega
  · exact List.forall_mem_cons.mpr ⟨.inl hold, fun other hother ↦
      (h.origin other hother).imp (hothers ·) (hlength ▸ ·)⟩
  · exact List.forall_mem_cons.mpr ⟨Nat.lt_of_lt_of_le hcell hgrows, h.bounded⟩
  · refine congrArg₂ List.cons (congrArg (Prod.mk name) ?_) h.holds
    rw [h.kept cell (hlength ▸ hcell) htaken, hset]
  · exact hgrows
  · intro other hother hnot
    have hne : cell ≠ other := fun heq ↦ hnot (heq ▸ hold)
    rw [h.kept other (hlength ▸ hother) fun hmem ↦ hnot (hothers hmem),
      List.getD_eq_getElem?_getD, List.getElem?_set_ne hne, List.getD_eq_getElem?_getD]

/-- A field that is new is put into a new cell. -/
theorem add {old : List Nat} (hbounded : ∀ cell ∈ old, cell < cells.length)
    (h : Placed (cells ++ [value]) old rest fields after) :
    Placed cells old ((name, value) :: rest) ((name, cells.length) :: fields) after := by
  have hlength : (cells ++ [value]).length = cells.length + 1 := List.length_append
  have hnew : cells.length ∉ old := fun hmem ↦ Nat.lt_irrefl _ (hbounded _ hmem)
  have hgrows := h.grows
  constructor
  · refine List.nodup_cons.mpr ⟨fun hother ↦ ?_, h.nodup⟩
    obtain hother | hlater := h.origin _ hother
    · exact hnew hother
    · omega
  · exact List.forall_mem_cons.mpr ⟨.inr (Nat.le_refl _), fun other hother ↦
      (h.origin other hother).imp_right fun hlater ↦ by omega⟩
  · exact List.forall_mem_cons.mpr ⟨by omega, h.bounded⟩
  · refine congrArg₂ List.cons (congrArg (Prod.mk name) ?_) h.holds
    rw [h.kept _ (by omega) hnew, List.getD_eq_getElem?_getD,
      List.getElem?_append_right (Nat.le_refl _), Nat.sub_self]
    rfl
  · omega
  · intro other hother hnot
    rw [h.kept other (by omega) hnot, List.getD_eq_getElem?_getD,
      List.getElem?_append_left hother, List.getD_eq_getElem?_getD]

end Placed

/-- Fields that are placed keep their cells or get new ones, so that cells stay different from each
other. -/
theorem placeFields_placed (entries : List (String × Value)) (cells : List Value)
    (old : List (String × Nat)) (hnodup : (old.map Prod.snd).Nodup)
    (hbounded : ∀ cell ∈ old.map Prod.snd, cell < cells.length) :
    Placed cells (old.map Prod.snd) entries (placeFields cells old entries).1
      (placeFields cells old entries).2 := by
  induction entries generalizing cells old with
  | nil =>
    exact ⟨List.nodup_nil, fun _ h ↦ (by cases h), fun _ h ↦ (by cases h), rfl, Nat.le_refl _,
      fun _ _ _ ↦ rfl⟩
  | cons head tail ih =>
    obtain ⟨name, value⟩ := head
    rw [placeFields]
    cases hfound : old.lookup name with
    | some cell =>
      change (Bindings.mk old).find? name = some cell at hfound
      have hmem : (name, cell) ∈ old := Bindings.mem_of_find? hfound
      have hold : cell ∈ old.map Prod.snd := List.mem_map.mpr ⟨_, hmem, rfl⟩
      have hsublist := (List.filter_sublist (l := old) (p := fun entry ↦ entry.1 ≠ name)).map
        Prod.snd
      -- The cell stood for this name alone.
      have htaken : cell ∉ (old.filter fun entry ↦ entry.1 ≠ name).map Prod.snd := by
        intro hother
        obtain ⟨entry, hentry, hsame⟩ := List.mem_map.mp hother
        obtain ⟨hentry, hname⟩ := List.mem_filter.mp hentry
        have heq := List.inj_on_of_nodup_map hnodup hentry hmem hsame
        exact of_decide_eq_true hname (congrArg Prod.fst heq)
      refine .keep (hbounded cell hold) hold htaken hsublist.subset
        (ih _ _ (hnodup.sublist hsublist) fun other hother ↦ ?_)
      rw [List.length_set]
      exact hbounded other (hsublist.subset hother)
    | none =>
      refine .add hbounded (ih _ old hnodup fun other hother ↦ ?_)
      rw [List.length_append]
      exact Nat.lt_succ_of_lt (hbounded other hother)

end Memory

namespace CellObject

variable {H : Type}

/-- The cells of the fields of an object. -/
def cells (object : CellObject H) : List Nat := object.members.vars.values

/-- What an object shows is settled by its type, the values of its fields and its methods. -/
theorem contents_eq {read : Nat → Value} {object : CellObject H} {seen : Object H}
    (htype : object.typeName = seen.typeName)
    (hfields : object.members.vars.map read = seen.members.vars)
    (hmethods : object.members.functions = seen.members.functions) :
    object.contents read = seen := by
  obtain ⟨typeName, ⟨fields, methods⟩, keyed⟩ := object
  obtain ⟨typeName', ⟨fields', methods'⟩, keyed'⟩ := seen
  cases htype
  cases hfields
  cases hmethods
  rfl

end CellObject

namespace Memory

variable {H : Type} {memory : Memory H}

/-- Objects that are `objects` in cells of the objects `old` and in new ones, while other cells
stay. -/
structure AllPlaced (cells : List Value) (old : List (CellObject H)) (objects : ObjectStore H)
    (placed : List (CellObject H)) (after : List Value) : Prop where
  nodup : ∀ object ∈ placed, object.cells.Nodup
  disjoint : placed.Pairwise fun first second ↦ first.cells.Disjoint second.cells
  origin : ∀ object ∈ placed, ∀ cell ∈ object.cells,
    (∃ found ∈ old, cell ∈ found.cells) ∨ cells.length ≤ cell
  bounded : ∀ object ∈ placed, ∀ cell ∈ object.cells, cell < after.length
  holds : placed.map (CellObject.contents fun cell ↦ after.getD cell .nil) = objects
  grows : cells.length ≤ after.length
  kept : ∀ cell < cells.length, (∀ found ∈ old, cell ∉ found.cells) →
    after.getD cell .nil = cells.getD cell .nil

/-- One object after the other: the cells of the first are none of those the others are put into. -/
theorem AllPlaced.cons {cells middle after : List Value} {old placed : List (CellObject H)}
    {object : Object H} {first : CellObject H} {rest : ObjectStore H}
    (hfirst : Placed cells ((old.head?.map CellObject.cells).getD []) object.members.vars.entries
      first.members.vars.entries middle)
    (htype : first.typeName = object.typeName)
    (hmethods : first.members.functions = object.members.functions)
    (hrest : AllPlaced middle old.tail rest placed after)
    (hdisjoint : old.Pairwise fun first second ↦ first.cells.Disjoint second.cells)
    (hbounded : ∀ found ∈ old, ∀ cell ∈ found.cells, cell < cells.length) :
    AllPlaced cells old (object :: rest) (first :: placed) after := by
  have htail (found : CellObject H) (hfound : found ∈ old.tail) : found ∈ old :=
    List.mem_of_mem_tail hfound
  -- The cells of the first old object belong to none of the later ones.
  have hhead (cell : Nat) (hcell : cell ∈ (old.head?.map CellObject.cells).getD []) :
      ∃ found ∈ old, cell ∈ found.cells ∧ ∀ other ∈ old.tail, cell ∉ other.cells := by
    cases old with
    | nil => cases hcell
    | cons found later =>
      exact ⟨found, List.mem_cons_self, hcell,
        fun other hother ↦ (List.pairwise_cons.mp hdisjoint).1 other hother hcell⟩
  -- Neither do those of the first new object: each is one of these, or behind all old cells.
  have hfree (cell : Nat) (hcell : cell ∈ first.cells) (found : CellObject H)
      (hfound : found ∈ old.tail) : cell ∉ found.cells := by
    obtain hold | hnew := hfirst.origin cell hcell
    · obtain ⟨-, -, -, hapart⟩ := hhead cell hold
      exact hapart found hfound
    · exact fun h ↦ Nat.not_lt.mpr hnew (hbounded found (htail found hfound) cell h)
  have hgrows := hfirst.grows
  constructor
  · exact List.forall_mem_cons.mpr ⟨hfirst.nodup, hrest.nodup⟩
  · refine List.pairwise_cons.mpr ⟨fun later hlater cell hcell hother ↦ ?_, hrest.disjoint⟩
    obtain ⟨found, hfound, hold⟩ | hnew := hrest.origin later hlater cell hother
    · exact hfree cell hcell found hfound hold
    · exact Nat.not_lt.mpr hnew (hfirst.bounded cell hcell)
  · refine List.forall_mem_cons.mpr ⟨fun cell hcell ↦ ?_, fun later hlater cell hcell ↦ ?_⟩
    · refine (hfirst.origin cell hcell).imp_left fun hold ↦ ?_
      obtain ⟨found, hfound, hcell, -⟩ := hhead cell hold
      exact ⟨found, hfound, hcell⟩
    · obtain ⟨found, hfound, hold⟩ | hnew := hrest.origin later hlater cell hcell
      · exact .inl ⟨found, htail found hfound, hold⟩
      · exact .inr (Nat.le_trans hgrows hnew)
  · exact List.forall_mem_cons.mpr ⟨fun cell hcell ↦
      Nat.lt_of_lt_of_le (hfirst.bounded cell hcell) hrest.grows, hrest.bounded⟩
  · refine congrArg₂ List.cons (CellObject.contents_eq htype ?_ hmethods) hrest.holds
    refine Eq.trans ?_ (congrArg Bindings.mk hfirst.holds)
    refine congrArg Bindings.mk (List.map_congr_left fun field hfield ↦ ?_)
    have hcell : field.2 ∈ first.cells := List.mem_map.mpr ⟨field, hfield, rfl⟩
    exact congrArg (Prod.mk field.1) (hrest.kept field.2 (hfirst.bounded _ hcell) (hfree _ hcell))
  · exact Nat.le_trans hgrows hrest.grows
  · intro cell hcell hnot
    rw [hrest.kept cell (Nat.lt_of_lt_of_le hcell hgrows)
      fun found hfound ↦ hnot found (htail found hfound)]
    refine hfirst.kept cell hcell fun hold ↦ ?_
    obtain ⟨found, hfound, hcell, -⟩ := hhead cell hold
    exact hnot found hfound hcell

/-- Objects that are placed one after another never get a cell of each other. The induction is on
the objects, with the cells that were there before bounded by the memory. -/
theorem placeObjects_placed (objects : ObjectStore H) (cells : List Value)
    (old : List (CellObject H)) (hnodup : ∀ found ∈ old, found.cells.Nodup)
    (hdisjoint : old.Pairwise fun first second ↦ first.cells.Disjoint second.cells)
    (hbounded : ∀ found ∈ old, ∀ cell ∈ found.cells, cell < cells.length) :
    AllPlaced cells old objects (placeObjects cells old objects).1
      (placeObjects cells old objects).2 := by
  induction objects generalizing cells old with
  | nil =>
    exact ⟨fun _ h ↦ (by cases h), .nil, fun _ h ↦ (by cases h), fun _ h ↦ (by cases h), rfl,
      Nat.le_refl _, fun _ _ _ ↦ rfl⟩
  | cons object rest ih =>
    have hfirst : Placed cells ((old.head?.map CellObject.cells).getD [])
        object.members.vars.entries
        (placeObject cells old.head? object).1.members.vars.entries
        (placeObject cells old.head? object).2 := by
      cases old with
      | nil => exact placeFields_placed _ cells [] List.nodup_nil fun _ h ↦ by cases h
      | cons found later =>
        exact placeFields_placed _ cells found.members.vars.entries
          (hnodup found List.mem_cons_self) (hbounded found List.mem_cons_self)
    refine AllPlaced.cons hfirst rfl rfl (ih _ old.tail ?_ hdisjoint.tail ?_) hdisjoint hbounded
    · exact fun found hfound ↦ hnodup found (List.mem_of_mem_tail hfound)
    · exact fun found hfound cell hcell ↦ Nat.lt_of_lt_of_le
        (hbounded found (List.mem_of_mem_tail hfound) cell hcell) hfirst.grows

theorem bindings_object {index : Nat} (hindex : index < memory.objects.length) :
    (memory.bindings (.object index)).values = memory.objects[index].cells := by
  unfold bindings
  dsimp only
  rw [List.getElem?_eq_getElem hindex]
  rfl

/-- A number without an object owns nothing. -/
theorem bindings_object_eq_nil {index : Nat} (hindex : memory.objects.length ≤ index) :
    (memory.bindings (.object index)).values = [] := by
  unfold bindings
  dsimp only
  rw [List.getElem?_eq_none hindex]
  rfl

/-- A cell of an object belongs to one that is there. -/
theorem mem_bindings_object {index cell : Nat}
    (h : cell ∈ (memory.bindings (.object index)).values) :
    ∃ hindex : index < memory.objects.length, cell ∈ memory.objects[index].cells := by
  obtain hindex | hindex := Nat.lt_or_ge index memory.objects.length
  · exact ⟨hindex, bindings_object hindex ▸ h⟩
  · rw [bindings_object_eq_nil hindex] at h
    cases h

namespace Separate

/-- What the objects of a separate memory are put into, whatever the host has made of them. -/
theorem placed (h : memory.Separate) (objects : ObjectStore H) :
    AllPlaced memory.cells memory.objects objects (memory.store objects).objects
      (memory.store objects).cells := by
  refine placeObjects_placed objects memory.cells memory.objects (fun found hfound ↦ ?_) ?_
    fun found hfound cell hcell ↦ ?_
  · obtain ⟨index, hindex, rfl⟩ := List.mem_iff_getElem.mp hfound
    exact bindings_object hindex ▸ h.nodup (.object index)
  · refine List.pairwise_iff_getElem.mpr fun index later hindex hlater hless ↦ ?_
    rw [← bindings_object hindex, ← bindings_object hlater]
    exact h.disjoint _ _ fun heq ↦ Nat.ne_of_lt hless (Owner.object.inj heq)
  · obtain ⟨index, hindex, rfl⟩ := List.mem_iff_getElem.mp hfound
    exact h.bounded (.object index) cell (bindings_object hindex ▸ hcell)

/-- A variable is not in a cell of an object. -/
theorem scope_free (h : memory.Separate) {scope cell : Nat}
    (hcell : cell ∈ (memory.bindings (.scope scope)).values) (found : CellObject H)
    (hfound : found ∈ memory.objects) : cell ∉ found.cells := by
  obtain ⟨index, hindex, rfl⟩ := List.mem_iff_getElem.mp hfound
  rw [← bindings_object hindex]
  exact h.disjoint _ _ (by simp) hcell

/-- Cells are separate after the host has left its objects. -/
theorem store (h : memory.Separate) (objects : ObjectStore H) :
    (memory.store objects).Separate := by
  have hplaced := h.placed objects
  have hscope (scope cell : Nat) (hcell : cell ∈ (memory.bindings (.scope scope)).values)
      (index : Nat) (hindex : index < (memory.store objects).objects.length) :
      cell ∉ (memory.store objects).objects[index].cells := by
    intro hother
    obtain ⟨found, hfound, hold⟩ | hnew :=
      hplaced.origin _ (List.getElem_mem hindex) cell hother
    · exact h.scope_free hcell found hfound hold
    · exact Nat.not_lt.mpr hnew (h.bounded _ cell hcell)
  constructor
  · rintro (scope | index)
    · exact h.nodup (.scope scope)
    · obtain hindex | hindex := Nat.lt_or_ge index (memory.store objects).objects.length
      · rw [bindings_object hindex]
        exact hplaced.nodup _ (List.getElem_mem hindex)
      · rw [bindings_object_eq_nil hindex]
        exact List.nodup_nil
  · rintro (scope | index) (other | later) hne cell hcell hother
    · exact h.disjoint (.scope scope) (.scope other) hne hcell hother
    · obtain ⟨hlater, hother⟩ := mem_bindings_object hother
      exact hscope scope cell hcell later hlater hother
    · obtain ⟨hindex, hcell⟩ := mem_bindings_object hcell
      exact hscope other cell hother index hindex hcell
    · obtain ⟨hindex, hcell⟩ := mem_bindings_object hcell
      obtain ⟨hlater, hother⟩ := mem_bindings_object hother
      have hapart := List.pairwise_iff_getElem.mp hplaced.disjoint
      obtain hless | heq | hless := Nat.lt_trichotomy index later
      · exact hapart _ _ hindex hlater hless hcell hother
      · exact hne (congrArg Owner.object heq)
      · exact hapart _ _ hlater hindex hless hother hcell
  · rintro (scope | index) cell hcell
    · exact Nat.lt_of_lt_of_le (h.bounded (.scope scope) cell hcell) hplaced.grows
    · obtain ⟨hindex, hcell⟩ := mem_bindings_object hcell
      exact hplaced.bounded _ (List.getElem_mem hindex) cell hcell

theorem contents_store (h : memory.Separate) (objects : ObjectStore H) :
    (memory.store objects).contents = objects := (h.placed objects).holds

/-- Placing objects writes to no cell of a scope. -/
theorem read_store (h : memory.Separate) (objects : ObjectStore H) {scope cell : Nat}
    (hcell : cell ∈ (memory.bindings (.scope scope)).values) :
    (memory.store objects).read cell = memory.read cell :=
  (h.placed objects).kept cell (h.bounded _ cell hcell) (h.scope_free hcell)

end Separate

/-! ### Reading what was written -/

/-- A cell holds what was written to it last. -/
theorem read_write_self {cell : Nat} (hcell : cell < memory.cells.length) (value : Value) :
    (memory.write cell value).read cell = value := by
  unfold read write
  rw [List.getD_eq_getElem?_getD, List.getElem?_set_self hcell]
  rfl

/-- A write to a cell leaves the others. -/
theorem read_write_of_ne {cell other : Nat} (hne : other ≠ cell) (value : Value) :
    (memory.write cell value).read other = memory.read other := by
  unfold read write
  rw [List.getD_eq_getElem?_getD, List.getElem?_set_ne hne.symm, List.getD_eq_getElem?_getD]

/-- The new cell of a declaration holds its value. -/
theorem read_declare_self (scope : Nat) (name : String) (value : Value) :
    (memory.declare scope name value).read memory.cells.length = value := by
  unfold read declare
  rw [List.getD_eq_getElem?_getD, List.getElem?_append_right (Nat.le_refl _), Nat.sub_self]
  rfl

/-- A declaration writes to no old cell. -/
theorem read_declare_of_lt {cell : Nat} (hcell : cell < memory.cells.length) (scope : Nat)
    (name : String) (value : Value) :
    (memory.declare scope name value).read cell = memory.read cell := by
  unfold read declare
  rw [List.getD_eq_getElem?_getD, List.getElem?_append_left hcell, List.getD_eq_getElem?_getD]

end Memory

end ScriptLang
