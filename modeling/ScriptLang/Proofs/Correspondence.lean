import Mathlib.Data.List.Forall2
import ScriptLang.Scope

/-!
Two scopes that correspond name by name. One scope follows another when both have the same
variables and the same functions by name and count of parameters, and what a name stands for in
one is related to what it stands for in the other. Chains that follow each other scope by scope
find a name at the same depth.
-/

set_option autoImplicit false
set_option relaxedAutoImplicit false

namespace ScriptLang

variable {V W F G : Type}

/-- `dynamic` has what `static` has, by the same names and related by `vars` and `functions`. -/
structure Scope.Follows (vars : V → W → Prop) (functions : String → Nat → F → G → Prop)
    (static : Scope V F) (dynamic : Scope W G) : Prop where
  lookup? : ∀ name, Option.Rel vars (static.lookup? name) (dynamic.lookup? name)
  function? : ∀ name arity,
    Option.Rel (functions name arity) (static.function? name arity) (dynamic.function? name arity)

/-- What is related to something that is there is there. -/
theorem option_rel_of_some {relation : V → W → Prop} {value : V} {found : Option W}
    (h : Option.Rel relation (some value) found) :
    ∃ other, found = some other ∧ relation value other := by
  cases h with
  | some hrelated => exact ⟨_, rfl, hrelated⟩

/-- What is related to nothing is nothing. -/
theorem option_rel_of_none {relation : V → W → Prop} {found : Option W}
    (h : Option.Rel relation none found) : found = none := by
  cases h
  rfl

theorem option_rel_isSome {relation : V → W → Prop} {first : Option V} {second : Option W}
    (h : Option.Rel relation first second) : first.isSome = second.isSome := by
  cases h <;> rfl

/-- Related values are changed to related values. -/
theorem option_rel_map {V' W' : Type} {relation : V → W → Prop} {relation' : V' → W' → Prop}
    {first : Option V} {second : Option W} {change : V → V'} {change' : W → W'}
    (h : Option.Rel relation first second)
    (hchange : ∀ value other, relation value other → relation' (change value) (change' other)) :
    Option.Rel relation' (first.map change) (second.map change') := by
  cases h with
  | some hrelated => exact .some (hchange _ _ hrelated)
  | none => exact .none

/-- Lists that are related entry by entry have related tails. -/
theorem forall₂_tail {relation : V → W → Prop} {first : List V} {second : List W}
    (h : List.Forall₂ relation first second) : List.Forall₂ relation first.tail second.tail := by
  cases h with
  | nil => exact .nil
  | cons _ htail => exact htail

theorem forall₂_headD {relation : V → W → Prop} {first : List V} {second : List W} {value : V}
    {other : W} (h : List.Forall₂ relation first second) (hdefault : relation value other) :
    relation (first.headD value) (second.headD other) := by
  cases h with
  | nil => exact hdefault
  | cons hhead _ => exact hhead

namespace Scope.Follows

variable {vars : V → W → Prop} {functions functions' : String → Nat → F → G → Prop}
  {static : Scope V F} {dynamic : Scope W G}

theorem empty : Follows vars functions {} {} := ⟨fun _ ↦ .none, fun _ _ ↦ .none⟩

/-- Scopes correspond by a weaker relation of values, which may use what was found. -/
theorem imp_vars {vars' : V → W → Prop} (h : Follows vars functions static dynamic)
    (hvars : ∀ name first second, static.lookup? name = some first → vars first second →
      vars' first second) :
    Follows vars' functions static dynamic := by
  refine ⟨fun name ↦ ?_, h.function?⟩
  have hrel := h.lookup? name
  cases hstatic : static.lookup? name with
  | none =>
    rw [hstatic] at hrel
    rw [option_rel_of_none hrel]
    exact .none
  | some first =>
    rw [hstatic] at hrel
    obtain ⟨second, hsecond, hrelated⟩ := option_rel_of_some hrel
    rw [hsecond]
    exact .some (hvars name first second hstatic hrelated)

/-- Scopes correspond by a weaker relation of functions, which may use what was found. -/
theorem mono (h : Follows vars functions static dynamic)
    (hfunctions : ∀ name arity first second, static.function? name arity = some first →
      functions name arity first second → functions' name arity first second) :
    Follows vars functions' static dynamic := by
  refine ⟨h.lookup?, fun name arity ↦ ?_⟩
  have hrel := h.function? name arity
  cases hstatic : static.function? name arity with
  | none =>
    rw [hstatic] at hrel
    rw [option_rel_of_none hrel]
    exact .none
  | some first =>
    rw [hstatic] at hrel
    obtain ⟨second, hsecond, hrelated⟩ := option_rel_of_some hrel
    rw [hsecond]
    exact .some (hfunctions name arity first second hstatic hrelated)

/-- Declaring related values under one name keeps scopes in correspondence. -/
theorem declare (h : Follows vars functions static dynamic) (name : String) {value : V} {other : W}
    (hrelated : vars value other) :
    Follows vars functions (static.declare name value) (dynamic.declare name other) := by
  refine ⟨fun sought ↦ ?_, h.function?⟩
  rw [lookup?_declare, lookup?_declare]
  by_cases hsought : sought = name
  · rw [if_pos hsought, if_pos hsought]
    exact .some hrelated
  · rw [if_neg hsought, if_neg hsought]
    exact h.lookup? sought

/-- Declaring related functions under one name and count keeps scopes in correspondence. -/
theorem declareFunction (h : Follows vars functions static dynamic) (name : String) (arity : Nat)
    {value : F} {other : G} (hrelated : functions name arity value other) :
    Follows vars functions (static.declareFunction name arity value)
      (dynamic.declareFunction name arity other) := by
  refine ⟨h.lookup?, fun sought count ↦ ?_⟩
  rw [function?_declareFunction, function?_declareFunction]
  by_cases hsought : (sought, count) = (name, arity)
  · rw [if_pos hsought, if_pos hsought]
    obtain ⟨rfl, rfl⟩ := Prod.mk.inj hsought
    exact .some hrelated
  · rw [if_neg hsought, if_neg hsought]
    exact h.function? sought count

/-- A variable that `static` has can be assigned to. -/
theorem assign? (h : Follows vars functions static dynamic) {name : String} {value : V}
    (hfound : static.lookup? name = some value) {other : W} (hrelated : vars value other) :
    ∃ after, dynamic.assign? name other = some after ∧ Follows vars functions static after := by
  obtain ⟨old, hold, -⟩ := option_rel_of_some (hfound ▸ h.lookup? name)
  refine ⟨dynamic.declare name other, ?_, fun sought ↦ ?_, h.function?⟩
  · unfold Scope.assign?
    rw [hold]
    rfl
  · rw [lookup?_declare]
    by_cases hsought : sought = name
    · rw [if_pos hsought, hsought, hfound]
      exact .some hrelated
    · rw [if_neg hsought]
      exact h.lookup? sought

/-- A name without a value on one side cannot be assigned to on the other. -/
theorem assign?_eq_none (h : Follows vars functions static dynamic) {name : String}
    (hfound : static.lookup? name = none) (other : W) : dynamic.assign? name other = none := by
  have hnone := option_rel_isSome (h.lookup? name)
  rw [hfound] at hnone
  unfold Scope.assign?
  rw [← hnone]
  rfl

/-- Where a name stands for related values, both scopes have it or neither, and they follow each
other after an assignment to it. -/
theorem rel_assign? (h : Follows vars functions static dynamic) (name : String) {value : V}
    {other : W} (hrelated : vars value other) :
    Option.Rel (Follows vars functions) (static.assign? name value)
      (dynamic.assign? name other) := by
  unfold Scope.assign?
  rw [← option_rel_isSome (h.lookup? name)]
  split
  · exact .some (h.declare name hrelated)
  · exact .none

end Scope.Follows

namespace Chain

variable {vars : V → W → Prop} {functions : String → Nat → F → G → Prop}
  {static : Chain V F} {dynamic : Chain W G}

theorem lookup?_append (inner outer : Chain V F) (name : String) :
    lookup? (inner ++ outer) name = (lookup? inner name).or (lookup? outer name) :=
  List.findSome?_append

theorem lookup?_cons (scope : Scope V F) (outer : Chain V F) (name : String) :
    lookup? (scope :: outer) name = (scope.lookup? name).or (lookup? outer name) := by
  unfold lookup?
  rw [List.findSome?_cons]
  cases scope.lookup? name <;> rfl

/-- A function is searched for in the innermost scope first. -/
theorem function?_cons (scope : Scope V F) (outer : Chain V F) (name : String) (arity : Nat) :
    function? (scope :: outer) name arity =
      (scope.function? name arity).or (function? outer name arity) := by
  unfold function?
  rw [List.findSome?_cons]
  cases scope.function? name arity <;> rfl

theorem function?_append (inner outer : Chain V F) (name : String) (arity : Nat) :
    function? (inner ++ outer) name arity =
      (function? inner name arity).or (function? outer name arity) :=
  List.findSome?_append

/-- The first of two results that is there corresponds on both sides. -/
theorem rel_or {relation : V → W → Prop} {first first' : Option V} {second second' : Option W}
    (h : Option.Rel relation first second) (h' : Option.Rel relation first' second') :
    Option.Rel relation (first.or first') (second.or second') := by
  cases h with
  | some hrelated => exact .some hrelated
  | none => exact h'

/-- Chains that correspond scope by scope find related values. -/
theorem rel_lookup? (h : List.Forall₂ (Scope.Follows vars functions) static dynamic)
    (name : String) : Option.Rel vars (lookup? static name) (lookup? dynamic name) := by
  induction h with
  | nil => exact .none
  | cons hhead _ ih =>
    rw [lookup?_cons, lookup?_cons]
    exact rel_or (hhead.lookup? name) ih

/-- Chains that correspond scope by scope find related functions. -/
theorem rel_function? (h : List.Forall₂ (Scope.Follows vars functions) static dynamic)
    (name : String) (arity : Nat) :
    Option.Rel (functions name arity) (function? static name arity)
      (function? dynamic name arity) := by
  induction h with
  | nil => exact .none
  | cons hhead _ ih =>
    rw [function?_cons, function?_cons]
    exact rel_or (hhead.function? name arity) ih

/-- A variable that is visible in `static` can be assigned to in `dynamic`, in the same scope. -/
theorem assign?_of_some (h : List.Forall₂ (Scope.Follows vars functions) static dynamic)
    {name : String} {value : V} (hfound : lookup? static name = some value) {other : W}
    (hrelated : vars value other) : ∃ after, assign? name other dynamic = some after ∧
      List.Forall₂ (Scope.Follows vars functions) static after := by
  induction h with
  | nil => cases hfound
  | @cons scope scope' outer outer' hhead htail ih =>
    rw [lookup?_cons] at hfound
    cases hscope : scope.lookup? name with
    | some found =>
      rw [hscope] at hfound
      cases hfound
      obtain ⟨after, hafter, hfollows⟩ := hhead.assign? hscope hrelated
      refine ⟨after :: outer', ?_, .cons hfollows htail⟩
      rw [assign?, hafter]
    | none =>
      rw [hscope] at hfound
      obtain ⟨after, hafter, hfollows⟩ := ih hfound
      refine ⟨scope' :: after, ?_, .cons hhead hfollows⟩
      rw [assign?, hhead.assign?_eq_none hscope, hafter]
      rfl

/-- A name without a value in one chain cannot be assigned to in the other. -/
theorem assign?_of_none (h : List.Forall₂ (Scope.Follows vars functions) static dynamic)
    {name : String} (hfound : lookup? static name = none) (other : W) :
    assign? name other dynamic = none := by
  induction h with
  | nil => rfl
  | cons hhead _ ih =>
    rw [lookup?_cons, Option.or_eq_none_iff] at hfound
    rw [assign?, hhead.assign?_eq_none hfound.1, ih hfound.2]
    rfl

/-- Assigning a related value in the scope that has the name keeps chains in correspondence. -/
theorem rel_assign? (h : List.Forall₂ (Scope.Follows vars functions) static dynamic)
    (name : String) {value : V} {other : W} (hrelated : vars value other) :
    Option.Rel (List.Forall₂ (Scope.Follows vars functions)) (assign? name value static)
      (assign? name other dynamic) := by
  induction h with
  | nil => exact .none
  | @cons scope scope' outer outer' hhead htail ih =>
    rw [assign?, assign?]
    have hscope := hhead.rel_assign? name hrelated
    generalize scope.assign? name value = changed at hscope ⊢
    generalize scope'.assign? name other = changed' at hscope ⊢
    cases hscope with
    | some hfollows => exact .some (.cons hfollows htail)
    | none => exact option_rel_map ih fun _ _ hfollows ↦ .cons hhead hfollows

end Chain

end ScriptLang
