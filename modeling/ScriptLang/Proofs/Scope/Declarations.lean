import Mathlib.Logic.Relation
import Mathlib.Logic.Function.Basic
import ScriptLang.Proofs.Execution.Shown
import ScriptLang.Scope.Linked

/-!
What a look-up in a growing tree of scopes finds. However scopes were opened and names declared,
also in scopes that had children by then, a look-up gives the latest declaration of the nearest
scope that has one. A declaration is seen from its scope and from those inside of it that no nearer
declaration hides it from, and from nowhere else. A walk along the links from scope to scope finds
the same, and comes to its end.
-/

set_option autoImplicit false
set_option relaxedAutoImplicit false

namespace ScriptLang

/-! ### Nearest declarations -/

section

variable {α : Type} (parent? : Nat → Option Nat) (declared : Nat → Option α)

/-- The scope `outer` is `inner` itself or around it. -/
def Within : Nat → Nat → Prop :=
  Relation.ReflTransGen fun inner outer ↦ parent? inner = some outer

/-- The scope `outer` is `inner` itself or around it, and no nearer scope has a declaration. -/
def Unshadowed : Nat → Nat → Prop :=
  Relation.ReflTransGen fun inner outer ↦ declared inner = none ∧ parent? inner = some outer

/-- What is declared in the nearest of `start` and the scopes around it that has a declaration;
nothing, if none of them has. -/
def Nearest (start : Nat) : Option α → Prop
  | some value => ∃ scope, Unshadowed parent? declared start scope ∧ declared scope = some value
  | none => ∀ scope, Within parent? start scope → declared scope = none

variable {parent? declared} {start outer target : Nat} {value : α} {answer : Option α}

/-- A scope that is seen is around, whatever is declared on the way. -/
theorem Unshadowed.within (h : Unshadowed parent? declared start outer) :
    Within parent? start outer :=
  Relation.ReflTransGen.mono (fun _ _ hstep ↦ hstep.2) _ _ h

/-- What is declared where one comes to hides all that is around it. -/
theorem Unshadowed.eq_of_declared (h : Unshadowed parent? declared start outer)
    (hvalue : declared start = some value) : outer = start := by
  obtain rfl | ⟨next, hstep, -⟩ := Relation.ReflTransGen.cases_head h
  · rfl
  · rw [hstep.1] at hvalue
    cases hvalue

namespace Nearest

theorem here (hvalue : declared start = some value) :
    Nearest parent? declared start (some value) :=
  ⟨start, .refl, hvalue⟩

/-- A scope without a declaration sees what its parent sees. -/
theorem around (hnone : declared start = none) (hparent : parent? start = some outer)
    (h : Nearest parent? declared outer answer) : Nearest parent? declared start answer := by
  cases answer with
  | some value =>
    obtain ⟨scope, hseen, hvalue⟩ := h
    exact ⟨scope, .head ⟨hnone, hparent⟩ hseen, hvalue⟩
  | none =>
    intro scope hscope
    obtain rfl | ⟨next, hnext, hrest⟩ := Relation.ReflTransGen.cases_head hscope
    · exact hnone
    · rw [hparent] at hnext
      cases hnext
      exact h scope hrest

/-- An outermost scope without a declaration sees none. -/
theorem outermost (hnone : declared start = none) (hparent : parent? start = none) :
    Nearest parent? declared start none := by
  intro scope hscope
  obtain rfl | ⟨next, hnext, -⟩ := Relation.ReflTransGen.cases_head hscope
  · exact hnone
  · rw [hparent] at hnext
    cases hnext

/-- There is at most one nearest declaration, since each scope has at most one parent. -/
theorem unique {other : Option α} (h : Nearest parent? declared start answer)
    (hother : Nearest parent? declared start other) : answer = other := by
  have hsteps : Relator.RightUnique fun inner outer ↦
      declared inner = none ∧ parent? inner = some outer :=
    fun _ _ _ hone htwo ↦ Option.some.inj (hone.2.symm.trans htwo.2)
  cases answer with
  | none =>
    cases other with
    | none => rfl
    | some value =>
      obtain ⟨scope, hseen, hvalue⟩ := hother
      rw [h scope hseen.within] at hvalue
      cases hvalue
  | some value =>
    obtain ⟨scope, hseen, hvalue⟩ := h
    cases other with
    | none =>
      rw [hother scope hseen.within] at hvalue
      cases hvalue
    | some value' =>
      obtain ⟨scope', hseen', hvalue'⟩ := hother
      -- Both ways go along the same scopes, and neither goes past a declaration.
      have hsame : scope' = scope := by
        obtain hrest | hrest := Relation.ReflTransGen.total_of_right_unique hsteps hseen hseen'
        · exact Unshadowed.eq_of_declared hrest hvalue
        · exact (Unshadowed.eq_of_declared hrest hvalue').symm
      rw [← hvalue, ← hvalue', hsame]

/-- A declaration is seen from where no nearer one hides it. -/
theorem update_of_unshadowed (h : Unshadowed parent? declared start target) (value : α) :
    Nearest parent? (Function.update declared target (some value)) start (some value) := by
  induction h using Relation.ReflTransGen.head_induction_on with
  | refl => exact .here (Function.update_self ..)
  | @head inner next hstep _ ih =>
    by_cases hinner : inner = target
    · exact .here (hinner ▸ Function.update_self ..)
    · exact .around ((Function.update_of_ne hinner ..).trans hstep.1) hstep.2 ih

/-- Elsewhere a declaration changes nothing. -/
theorem update_of_shadowed (hshadowed : ¬Unshadowed parent? declared start target) (value : α)
    (h : Nearest parent? declared start answer) :
    Nearest parent? (Function.update declared target (some value)) start answer := by
  cases answer with
  | some old =>
    obtain ⟨scope, hseen, hvalue⟩ := h
    induction hseen using Relation.ReflTransGen.head_induction_on with
    | refl =>
      have hne : scope ≠ target := fun heq ↦ hshadowed (heq ▸ .refl)
      exact .here ((Function.update_of_ne hne ..).trans hvalue)
    | @head inner next hstep _ ih =>
      have hne : inner ≠ target := fun heq ↦ hshadowed (heq ▸ .refl)
      exact .around ((Function.update_of_ne hne ..).trans hstep.1) hstep.2
        (ih fun hnext ↦ hshadowed (.head hstep hnext))
  | none =>
    intro scope hscope
    induction hscope using Relation.ReflTransGen.head_induction_on with
    | refl =>
      have hne : scope ≠ target := fun heq ↦ hshadowed (heq ▸ .refl)
      exact (Function.update_of_ne hne ..).trans (h scope .refl)
    | @head inner next hstep _ ih =>
      exact ih (fun hnext ↦ hshadowed (.head ⟨h inner .refl, hstep⟩ hnext))
        fun other hother ↦ h other (.head hstep hother)

end Nearest

end

/-! ### Trees and how they came about -/

/-- How a tree of `count` scopes came about, the latest step outermost. -/
inductive ScopeHistory (V F : Type) : Nat → Type
  | root : ScopeHistory V F 1
  | child {count : Nat} (earlier : ScopeHistory V F count) (parent : Fin count) :
    ScopeHistory V F (count + 1)
  | declare {count : Nat} (earlier : ScopeHistory V F count) (scope : Fin count) (name : String)
    (value : V) : ScopeHistory V F count
  | declareFunction {count : Nat} (earlier : ScopeHistory V F count) (scope : Fin count)
    (name : String) (arity : Nat) (value : F) : ScopeHistory V F count

/-- Linked scopes stay those of a tree when one scope is changed in both. -/
theorem LinkedScopes.modify_getElem? {V F : Type} {links : LinkedScopes V F} {tree : ScopeTree V F}
    {number scope : Nat} {parent : Option Nat}
    (h : links.nodes[number]? = some ⟨tree.scopeAt number, parent⟩)
    (hscope : scope < tree.nodes.length) (change : Scope V F → Scope V F) :
    (links.modify scope change).nodes[number]? =
      some ⟨(tree.modify scope change).scopeAt number, parent⟩ := by
  unfold modify
  rw [List.getElem?_modify, h, ScopeTree.scopeAt_modify hscope]
  by_cases hnumber : number = scope
  · simp only [hnumber, if_true]
    rfl
  · simp only [hnumber, Ne.symm hnumber, if_false]
    rfl

namespace ScopeHistory

variable {V F α : Type} {count : Nat}

def tree {count : Nat} : ScopeHistory V F count → ScopeTree V F
  | root => .root
  | child earlier parent => earlier.tree.child parent
  | declare earlier scope name value => earlier.tree.declare scope name value
  | declareFunction earlier scope name arity value =>
    earlier.tree.declareFunction scope name arity value

/-- The scopes of the tree, each linked to the one it was opened in. -/
def links {count : Nat} : ScopeHistory V F count → LinkedScopes V F
  | root => .root
  | child earlier parent => earlier.links.child parent
  | declare earlier scope name value => earlier.links.declare scope name value
  | declareFunction earlier scope name arity value =>
    earlier.links.declareFunction scope name arity value

/-- The scope that the scope `number` was opened in. -/
def parent? {count : Nat} : ScopeHistory V F count → Nat → Option Nat
  | root, _ => none
  | @child _ _ size earlier parent, number =>
    if number = size then some parent else earlier.parent? number
  | declare earlier _ _ _, number => earlier.parent? number
  | declareFunction earlier _ _ _ _, number => earlier.parent? number

/-- What the variable `name` was declared as last in the scope `number` itself. -/
def value? {count : Nat} (name : String) : ScopeHistory V F count → Nat → Option V
  | root, _ => none
  | child earlier _, number => earlier.value? name number
  | declare earlier scope other value, number =>
    if number = scope ∧ name = other then some value else earlier.value? name number
  | declareFunction earlier _ _ _ _, number => earlier.value? name number

/-- What the function `name` with `arity` parameters was declared as last in the scope `number`
itself. -/
def function? {count : Nat} (name : String) (arity : Nat) :
    ScopeHistory V F count → Nat → Option F
  | root, _ => none
  | child earlier _, number => earlier.function? name arity number
  | declare earlier _ _ _, number => earlier.function? name arity number
  | declareFunction earlier scope other size value, number =>
    if number = scope ∧ (name, arity) = (other, size) then some value
    else earlier.function? name arity number

/-! ### What a declaration changes -/

section

variable (history : ScopeHistory V F count) (scope : Fin count) (name : String)

/-- A declaration of a variable is the latest in its scope. -/
theorem value?_declare (value : V) :
    (history.declare scope name value).value? name =
      Function.update (history.value? name) scope (some value) := by
  funext number
  by_cases hnumber : number = scope
  · rw [hnumber, Function.update_self]
    exact if_pos ⟨rfl, rfl⟩
  · rw [Function.update_of_ne hnumber]
    exact if_neg fun h ↦ hnumber h.1

theorem value?_declare_of_ne (value : V) {other : String} (hother : other ≠ name) :
    (history.declare scope name value).value? other = history.value? other :=
  funext fun _ ↦ if_neg fun h ↦ hother h.2

/-- A declaration of a function is the latest in its scope under its name and count. -/
theorem function?_declareFunction (arity : Nat) (value : F) :
    (history.declareFunction scope name arity value).function? name arity =
      Function.update (history.function? name arity) scope (some value) := by
  funext number
  by_cases hnumber : number = scope
  · rw [hnumber, Function.update_self]
    exact if_pos ⟨rfl, rfl⟩
  · rw [Function.update_of_ne hnumber]
    exact if_neg fun h ↦ hnumber h.1

/-- A declaration of a function is none for another name or another count. -/
theorem function?_declareFunction_of_ne (arity : Nat) (value : F) {other : String} {size : Nat}
    (hother : (other, size) ≠ (name, arity)) :
    (history.declareFunction scope name arity value).function? other size =
      history.function? other size :=
  funext fun _ ↦ if_neg fun h ↦ hother h.2

end

/-! ### Nodes by number -/

section

variable (history : ScopeHistory V F count)

/-- The tree has the scopes of the history. -/
theorem length_nodes : history.tree.nodes.length = count := by
  induction history with
  | root => rfl
  | child earlier parent ih =>
    change (earlier.tree.nodes ++ [_]).length = _
    rw [List.length_append, ih]
    rfl
  | declare earlier scope name value ih => exact (List.length_modify ..).trans ih
  | declareFunction earlier scope name arity value ih => exact (List.length_modify ..).trans ih

/-- Each scope of the tree has the latest values of the history. -/
theorem lookup?_scopeAt (name : String) (number : Nat) :
    (history.tree.scopeAt number).lookup? name = history.value? name number := by
  induction history with
  | root =>
    change ((ScopeTree.root : ScopeTree V F).scopeAt number).lookup? name = none
    cases number <;> rfl
  | child earlier parent ih =>
    exact (congrArg (Scope.lookup? · name) (earlier.tree.scopeAt_child parent number)).trans ih
  | declare earlier scope other value ih =>
    change ((earlier.tree.declare scope other value).scopeAt number).lookup? name =
      if number = scope ∧ name = other then some value else earlier.value? name number
    unfold ScopeTree.declare
    rw [ScopeTree.scopeAt_modify (earlier.length_nodes.symm ▸ scope.isLt)]
    by_cases hnumber : number = scope
    · rw [if_pos hnumber, Scope.lookup?_declare, ih]
      exact if_congr (and_iff_right hnumber).symm rfl rfl
    · rw [if_neg hnumber, if_neg fun h ↦ hnumber h.1, ih]
  | declareFunction earlier scope other arity value ih =>
    change ((earlier.tree.declareFunction scope other arity value).scopeAt number).lookup? name = _
    unfold ScopeTree.declareFunction
    rw [ScopeTree.scopeAt_modify (earlier.length_nodes.symm ▸ scope.isLt), apply_ite
      (Scope.lookup? · name), Scope.lookup?_declareFunction, ite_self]
    exact ih

/-- Each scope of the tree has the latest functions of the history. -/
theorem function?_scopeAt (name : String) (arity number : Nat) :
    (history.tree.scopeAt number).function? name arity =
      history.function? name arity number := by
  induction history with
  | root =>
    change ((ScopeTree.root : ScopeTree V F).scopeAt number).function? name arity = none
    cases number <;> rfl
  | child earlier parent ih =>
    exact (congrArg (Scope.function? · name arity)
      (earlier.tree.scopeAt_child parent number)).trans ih
  | declare earlier scope other value ih =>
    change ((earlier.tree.declare scope other value).scopeAt number).function? name arity = _
    unfold ScopeTree.declare
    rw [ScopeTree.scopeAt_modify (earlier.length_nodes.symm ▸ scope.isLt), apply_ite
      (Scope.function? · name arity), Scope.function?_declare, ite_self]
    exact ih
  | declareFunction earlier scope other size value ih =>
    change ((earlier.tree.declareFunction scope other size value).scopeAt number).function? name
      arity = if number = scope ∧ (name, arity) = (other, size) then some value
        else earlier.function? name arity number
    unfold ScopeTree.declareFunction
    rw [ScopeTree.scopeAt_modify (earlier.length_nodes.symm ▸ scope.isLt)]
    by_cases hnumber : number = scope
    · rw [if_pos hnumber, Scope.function?_declareFunction, ih]
      exact if_congr (and_iff_right hnumber).symm rfl rfl
    · rw [if_neg hnumber, if_neg fun h ↦ hnumber h.1, ih]

/-- Scopes are opened in scopes that are there. -/
theorem parent?_lt {number parent : Nat} (h : history.parent? number = some parent) :
    parent < number := by
  induction history with
  | root => cases h
  | @child size earlier target ih =>
    change (if number = size then some target.val else earlier.parent? number) = _ at h
    split at h
    · rename_i hnumber
      cases h
      exact hnumber ▸ target.isLt
    · exact ih h
  | declare earlier scope name value ih => exact ih h
  | declareFunction earlier scope name arity value ih => exact ih h

/-- The path from a scope is the scope and the path from its parent. -/
theorem path_eq {number : Nat} (hnumber : number < count) :
    history.tree.path number =
      number :: ((history.parent? number).map history.tree.path).getD [] := by
  induction history with
  | root =>
    obtain rfl : number = 0 := Nat.lt_one_iff.mp hnumber
    rfl
  | @child size earlier parent ih =>
    have hold {other : Nat} (hother : other < size) :
        (earlier.tree.child parent).path other = earlier.tree.path other :=
      earlier.tree.path_child_of_lt parent (earlier.length_nodes.symm ▸ hother)
    obtain hlt | rfl := Nat.lt_succ_iff_lt_or_eq.mp hnumber
    · change (earlier.tree.child parent).path number = number ::
        ((if number = size then some parent.val else earlier.parent? number).map
          (earlier.tree.child parent).path).getD []
      rw [hold hlt, ih hlt, if_neg (Nat.ne_of_lt hlt)]
      cases hparent : earlier.parent? number with
      | none => rfl
      | some outer =>
        exact congrArg (number :: ·) (hold (Nat.lt_trans (earlier.parent?_lt hparent) hlt)).symm
    · change (earlier.tree.child parent).path number = number ::
        ((if number = number then some parent.val else earlier.parent? number).map
          (earlier.tree.child parent).path).getD []
      have hnew := earlier.tree.path_child parent
      rw [earlier.length_nodes] at hnew
      rw [hnew, if_pos rfl]
      exact congrArg (number :: ·) (hold parent.isLt).symm
  | declare earlier scope name value ih =>
    have hpath : (earlier.tree.declare scope name value).path = earlier.tree.path :=
      funext (earlier.tree.path_modify scope _)
    exact hpath ▸ ih hnumber
  | declareFunction earlier scope name arity value ih =>
    have hpath : (earlier.tree.declareFunction scope name arity value).path = earlier.tree.path :=
      funext (earlier.tree.path_modify scope _)
    exact hpath ▸ ih hnumber

/-- A chain is a scope, then the chain of the scope around it. -/
theorem chain_eq {number : Nat} (hnumber : number < count) :
    history.tree.chain number = history.tree.scopeAt number ::
      ((history.parent? number).map history.tree.chain).getD [] := by
  have hscope : history.tree.scope? number = some (history.tree.scopeAt number) := by
    have hlt : number < history.tree.nodes.length := history.length_nodes.symm ▸ hnumber
    unfold ScopeTree.scopeAt ScopeTree.scope?
    rw [List.getElem?_eq_getElem hlt]
    rfl
  unfold ScopeTree.chain
  rw [history.path_eq hnumber, List.filterMap_cons_some hscope]
  cases history.parent? number <;> rfl

/-- The linked scopes are those of the history. -/
theorem length_links : history.links.nodes.length = count := by
  induction history with
  | root => rfl
  | child earlier parent ih =>
    change (earlier.links.nodes ++ [_]).length = _
    rw [List.length_append, ih]
    rfl
  | declare earlier scope name value ih => exact (List.length_modify ..).trans ih
  | declareFunction earlier scope name arity value ih => exact (List.length_modify ..).trans ih

/-- The links lead from each scope to the one around it in the tree. -/
theorem links_getElem? {number : Nat} (hnumber : number < count) :
    history.links.nodes[number]? =
      some ⟨history.tree.scopeAt number, history.parent? number⟩ := by
  induction history with
  | root =>
    obtain rfl : number = 0 := Nat.lt_one_iff.mp hnumber
    rfl
  | @child size earlier parent ih =>
    have hlength := earlier.length_links
    change (earlier.links.nodes ++ [{ parent := some parent.val }])[number]? =
      some ⟨(earlier.tree.child parent).scopeAt number,
        if number = size then some parent.val else earlier.parent? number⟩
    rw [ScopeTree.scopeAt_child]
    obtain hlt | rfl := Nat.lt_succ_iff_lt_or_eq.mp hnumber
    · rw [List.getElem?_append_left (hlength.symm ▸ hlt), ih hlt, if_neg (Nat.ne_of_lt hlt)]
    · have hempty : earlier.tree.scopeAt number = {} := by
        unfold ScopeTree.scopeAt ScopeTree.scope?
        rw [List.getElem?_eq_none (Nat.le_of_eq earlier.length_nodes)]
        rfl
      rw [List.getElem?_append_right (Nat.le_of_eq hlength), hlength, Nat.sub_self, if_pos rfl,
        hempty]
      rfl
  | declare earlier scope name value ih =>
    exact LinkedScopes.modify_getElem? (ih hnumber) (earlier.length_nodes.symm ▸ scope.isLt) _
  | declareFunction earlier scope name arity value ih =>
    exact LinkedScopes.modify_getElem? (ih hnumber) (earlier.length_nodes.symm ▸ scope.isLt) _

/-! ### Look-ups -/

/-- A walk along the links comes to its end, with what the chain gives: each link leads to a scope
that was opened earlier. -/
theorem search_eq (read : Scope V F → Option α) {number rounds : Nat} (hnumber : number < count)
    (hrounds : number < rounds) :
    history.links.search read rounds (some number) =
      some ((history.tree.chain number).findSome? read) := by
  induction rounds generalizing number with
  | zero => cases hrounds
  | succ rounds ih =>
    rw [LinkedScopes.search, history.links_getElem? hnumber, history.chain_eq hnumber,
      List.findSome?_cons]
    dsimp only
    cases read (history.tree.scopeAt number) with
    | some found => rfl
    | none =>
      cases hparent : history.parent? number with
      | none => cases rounds <;> rfl
      | some outer =>
        have houter := history.parent?_lt hparent
        have hfewer := Nat.lt_of_lt_of_le houter (Nat.le_of_lt_succ hrounds)
        exact ih (Nat.lt_trans houter hnumber) hfewer

/-- What is found along a chain is what the nearest scope has. -/
theorem nearest_chain {read : Scope V F → Option α} {declared : Nat → Option α}
    (hread : ∀ number, read (history.tree.scopeAt number) = declared number) {start : Nat}
    (hstart : start < count) :
    Nearest history.parent? declared start ((history.tree.chain start).findSome? read) := by
  induction start using Nat.strongRecOn with
  | ind start ih =>
    rw [history.chain_eq hstart, List.findSome?_cons, hread]
    cases hdeclared : declared start with
    | some value => exact .here hdeclared
    | none =>
      cases hparent : history.parent? start with
      | none => exact .outermost hdeclared hparent
      | some outer =>
        have houter := history.parent?_lt hparent
        exact .around hdeclared hparent (ih outer houter (Nat.lt_trans houter hstart))

theorem lookup?_nearest (name : String) {start : Nat} (hstart : start < count) :
    Nearest history.parent? (history.value? name) start (history.tree.lookup? start name) :=
  history.nearest_chain (history.lookup?_scopeAt name) hstart

/-- A look-up in the tree answers with the nearest function of the count. -/
theorem function?_nearest (name : String) (arity : Nat) {start : Nat} (hstart : start < count) :
    Nearest history.parent? (history.function? name arity) start
      (history.tree.function? start name arity) :=
  history.nearest_chain (history.function?_scopeAt name arity) hstart

end

/-- A growing tree of scopes is a map of names for each scope, seen through those of the scopes
inside of it. A look-up gives the latest declaration of the nearest scope that has one. A walk along
the links gives the same, and is over after at most one round for the scope that it starts from and
each that was opened before. A declaration is what is found from then on wherever no nearer one
hides it, and changes no other look-up; variables and functions do not meet. -/
theorem lookups_nearest (history : ScopeHistory V F count) (start : Fin count) :
    (∀ name, Nearest history.parent? (history.value? name) start
      (history.tree.lookup? start name)) ∧
    (∀ name arity, Nearest history.parent? (history.function? name arity) start
      (history.tree.function? start name arity)) ∧
    (∀ rounds > start.val,
      (∀ name, history.links.lookup? rounds start name =
        some (history.tree.lookup? start name)) ∧
      ∀ name arity, history.links.function? rounds start name arity =
        some (history.tree.function? start name arity)) ∧
    (∀ (scope : Fin count) name value,
      let later := (history.declare scope name value).tree
      (Unshadowed history.parent? (history.value? name) start scope →
        later.lookup? start name = some value) ∧
      (¬Unshadowed history.parent? (history.value? name) start scope →
        later.lookup? start name = history.tree.lookup? start name) ∧
      (∀ other ≠ name, later.lookup? start other = history.tree.lookup? start other) ∧
      ∀ other arity, later.function? start other arity =
        history.tree.function? start other arity) ∧
    ∀ (scope : Fin count) name arity value,
      let later := (history.declareFunction scope name arity value).tree
      (Unshadowed history.parent? (history.function? name arity) start scope →
        later.function? start name arity = some value) ∧
      (¬Unshadowed history.parent? (history.function? name arity) start scope →
        later.function? start name arity = history.tree.function? start name arity) ∧
      (∀ other size, (other, size) ≠ (name, arity) →
        later.function? start other size = history.tree.function? start other size) ∧
      ∀ other, later.lookup? start other = history.tree.lookup? start other := by
  have hvalues (name : String) := history.lookup?_nearest name start.isLt
  have hfunctions (name : String) (arity : Nat) :=
    history.function?_nearest name arity start.isLt
  refine ⟨hvalues, hfunctions, fun rounds hrounds ↦ ⟨fun name ↦ ?_, fun name arity ↦ ?_⟩,
    fun scope name value ↦ ?_, fun scope name arity value ↦ ?_⟩
  · exact history.search_eq (·.lookup? name) start.isLt hrounds
  · exact history.search_eq (·.function? name arity) start.isLt hrounds
  · intro later
    let after := history.declare scope name value
    -- Both look-ups are nearest declarations, and those are unique.
    have hafter := after.lookup?_nearest name start.isLt
    rw [history.value?_declare] at hafter
    refine ⟨fun hseen ↦ hafter.unique (.update_of_unshadowed hseen value),
      fun hhidden ↦ hafter.unique (.update_of_shadowed hhidden value (hvalues name)),
      fun other hother ↦ ?_, fun other arity ↦ ?_⟩
    · have hother' := after.lookup?_nearest other start.isLt
      rw [history.value?_declare_of_ne scope name value hother] at hother'
      exact hother'.unique (hvalues other)
    · exact (after.function?_nearest other arity start.isLt).unique (hfunctions other arity)
  · intro later
    let after := history.declareFunction scope name arity value
    have hafter := after.function?_nearest name arity start.isLt
    rw [history.function?_declareFunction] at hafter
    refine ⟨fun hseen ↦ hafter.unique (.update_of_unshadowed hseen value),
      fun hhidden ↦ hafter.unique (.update_of_shadowed hhidden value (hfunctions name arity)),
      fun other size hother ↦ ?_, fun other ↦ ?_⟩
    · have hother' := after.function?_nearest other size start.isLt
      rw [history.function?_declareFunction_of_ne scope name arity value hother] at hother'
      exact hother'.unique (hfunctions other size)
    · exact (after.lookup?_nearest other start.isLt).unique (hvalues other)

/-- A root with two children, of which the first has a child too; only the first declares `x`. -/
def siblings : ScopeHistory Int String 4 :=
  declare (child (child (child root 0) 1) 0) 1 "x" 2

/-- A declaration of the root that comes late is seen from the second child, and not from the child
of the first. -/
theorem lookups_nearest_late :
    let later := (siblings.declare 0 "x" 7).tree
    later.lookup? 3 "x" = some 7 ∧ later.lookup? 2 "x" = some 2 ∧
      later.function? 2 "x" 0 = none ∧ siblings.links.lookup? 3 2 "x" = some (some 2) := by
  have hhidden : ¬Unshadowed siblings.parent? (siblings.value? "x") 2 0 := by
    intro h
    obtain heq | ⟨next, hstep, hrest⟩ := Relation.ReflTransGen.cases_head h
    · cases heq
    · obtain rfl : 1 = next := Option.some.inj hstep.2
      have hdeclared : siblings.value? "x" 1 = some 2 := rfl
      cases Unshadowed.eq_of_declared hrest hdeclared
  have hseen : Unshadowed siblings.parent? (siblings.value? "x") 3 0 := .single ⟨rfl, rfl⟩
  obtain ⟨-, -, hwalks, hinner, -⟩ := lookups_nearest siblings 2
  obtain ⟨-, -, -, houter, -⟩ := lookups_nearest siblings 3
  exact ⟨(houter 0 "x" 7).1 hseen, ((hinner 0 "x" 7).2.1 hhidden).trans rfl,
    ((hinner 0 "x" 7).2.2.2 "x" 0).trans rfl, ((hwalks 3 (by decide)).1 "x").trans rfl⟩

end ScopeHistory

end ScriptLang
