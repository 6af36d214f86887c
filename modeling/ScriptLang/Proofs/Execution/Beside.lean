import ScriptLang.Proofs.Correspondence
import ScriptLang.Proofs.Execution.Frames

/-!
Scopes that a run does not notice. A scope between those of a call that binds only variables the
text does not mention changes nothing: every expression and every statement comes to the same end
with it and without it, and leaves the other scopes, the module, the host and the output the same.
What is called sees neither this scope nor the calls that wait.
-/

set_option autoImplicit false
set_option relaxedAutoImplicit false

namespace ScriptLang

/-! ### The variables that a text mentions -/

mutual

/-- The variables that an expression reads or assigns to by name. -/
def Expr.variables : Expr → List String
  | .literal .. => []
  | .group _ inner => inner.variables
  | .binary _ _ left right => left.variables ++ right.variables
  | .access _ name _ => [name]
  | .member _ receiver _ _ => receiver.variables
  | .call _ _ args _ => argVariables args
  | .invoke _ receiver _ args _ => receiver.variables ++ argVariables args

def argVariables : List Expr → List String
  | [] => []
  | head :: tail => head.variables ++ argVariables tail

end

def Binding.variables (binding : Binding) : List String :=
  match binding.value with
  | some value => binding.name :: value.variables
  | none => [binding.name]

/-- A text that does not mention the hidden variables declares none of them. -/
theorem Binding.name_not_mem {binding : Binding} {hidden : List String}
    (h : binding.variables.Disjoint hidden) : binding.name ∉ hidden := by
  unfold Binding.variables at h
  split at h <;> exact (List.disjoint_cons_left.mp h).1

mutual

/-- The variables that a statement reads, assigns to, declares or counts with. -/
def Stmt.variables : Stmt → List String
  | .expr value | .ret value => value.variables
  | .declare binding => binding.variables
  | .assign target value => value.variables ++ target.variables
  | .branch condition thenBody elseBody =>
    condition.variables ++ (blockVariables thenBody ++ blockVariables elseBody)
  | .forEach _ name iterable body => name :: (iterable.variables ++ blockVariables body)
  | .loop condition body => condition.variables ++ blockVariables body

def blockVariables : List Stmt → List String
  | [] => []
  | head :: tail => head.variables ++ blockVariables tail

end

/-! ### Assignments in a chain -/

namespace Chain

variable {V F : Type}

/-- Assigning needs a variable that is there. -/
theorem assign?_eq_none {chain : Chain V F} {name : String} (h : chain.lookup? name = none)
    (value : V) : chain.assign? name value = none := by
  induction chain with
  | nil => rfl
  | cons scope outer ih =>
    rw [lookup?_cons, Option.or_eq_none_iff] at h
    rw [assign?, Scope.assign?, h.1, ih h.2]
    rfl

/-- An assignment changes the inner scopes if one of them binds the name, and the outer ones
otherwise. -/
theorem assign?_append (inner outer : Chain V F) (name : String) (value : V) :
    assign? name value (inner ++ outer) =
      match inner.assign? name value with
      | some changed => some (changed ++ outer)
      | none => (outer.assign? name value).map (inner ++ ·) := by
  induction inner with
  | nil =>
    change assign? name value outer = (assign? name value outer).map ([] ++ ·)
    cases assign? name value outer <;> rfl
  | cons scope rest ih =>
    rw [List.cons_append, assign?, assign?, ih]
    cases scope.assign? name value with
    | some changed => rfl
    | none =>
      cases assign? name value rest with
      | some changed => rfl
      | none => cases assign? name value outer <;> rfl

/-- Assigning adds no scope and removes none. -/
theorem length_of_assign? {chain changed : Chain V F} {name : String} {value : V}
    (h : chain.assign? name value = some changed) : changed.length = chain.length := by
  induction chain generalizing changed with
  | nil => cases h
  | cons scope outer ih =>
    rw [assign?] at h
    split at h
    · cases h
      rfl
    · obtain ⟨rest, hrest, rfl⟩ := Option.map_eq_some_iff.mp h
      exact congrArg Nat.succ (ih hrest)

/-- Assigning to one name leaves what every other name stands for. -/
theorem lookup?_of_assign? {chain changed : Chain V F} {name other : String} {value : V}
    (h : chain.assign? name value = some changed) (hother : other ≠ name) :
    changed.lookup? other = chain.lookup? other := by
  induction chain generalizing changed with
  | nil => cases h
  | cons scope outer ih =>
    rw [assign?] at h
    split at h
    · rename_i after hafter
      cases h
      unfold Scope.assign? at hafter
      split at hafter
      · cases hafter
        rw [lookup?_cons, lookup?_cons, Scope.lookup?_declare, if_neg hother]
      · cases hafter
    · obtain ⟨rest, hrest, rfl⟩ := Option.map_eq_some_iff.mp h
      rw [lookup?_cons, lookup?_cons, ih hrest]

end Chain

/-! ### States with and without further scopes -/

/-- The scopes bind no variable but hidden ones, and no function. -/
structure Chain.Hides {V F : Type} (extra : Chain V F) (hidden : List String) : Prop where
  lookup? : ∀ name, name ∉ hidden → extra.lookup? name = none
  function? : ∀ name arity, extra.function? name arity = none

theorem Chain.hides_nil {V F : Type} : Hides ([] : Chain V F) [] := ⟨fun _ _ ↦ rfl, fun _ _ ↦ rfl⟩

namespace State

variable {H : Type}

/-- The second state has the scopes `extra` under the innermost `depth` scopes of the first, which
bind nothing hidden. The calls that wait are left out, as no run sees them. -/
structure Beside (extra : ValueChain H) (hidden : List String) (depth : Nat)
    (first second : State H) : Prop where
  locals : ∃ inner outer, inner.length = depth ∧ first.locals = inner ++ outer ∧
    second.locals = inner ++ (extra ++ outer) ∧
    ∀ name ∈ hidden, Chain.lookup? inner name = none
  module : second.module = first.module
  globals : second.globals = first.globals
  objects : second.objects = first.objects
  sink : second.sink = first.sink

namespace Beside

variable {extra : ValueChain H} {hidden : List String} {depth : Nat} {first second : State H}

theorem with_objects (h : Beside extra hidden depth first second) (objects : ObjectStore H) :
    Beside extra hidden depth { first with objects } { second with objects } :=
  ⟨h.locals, h.module, h.globals, rfl, h.sink⟩

theorem with_sink (h : Beside extra hidden depth first second) (sink : Sink) :
    Beside extra hidden depth { first with sink } { second with sink } :=
  ⟨h.locals, h.module, h.globals, h.objects, rfl⟩

/-- Both states find the same value for a name that is not hidden. -/
theorem lookup? (h : Beside extra hidden depth first second) (hextra : extra.Hides hidden)
    {name : String} (hname : name ∉ hidden) :
    second.chain.lookup? name = first.chain.lookup? name := by
  obtain ⟨inner, outer, -, hfirst, hsecond, -⟩ := h.locals
  unfold State.chain
  rw [hfirst, hsecond, h.module, h.globals]
  simp only [Chain.lookup?_append, hextra.lookup? name hname, Option.none_or]

/-- Both states find the same function: the extra scopes have none. -/
theorem function? (h : Beside extra hidden depth first second) (hextra : extra.Hides hidden)
    (name : String) (arity : Nat) :
    second.chain.function? name arity = first.chain.function? name arity := by
  obtain ⟨inner, outer, -, hfirst, hsecond, -⟩ := h.locals
  unfold State.chain
  rw [hfirst, hsecond, h.module, h.globals]
  simp only [Chain.function?_append, hextra.function?, Option.none_or]

/-- Assigning to a name that is not hidden succeeds in both states or in neither, and keeps them
beside each other. -/
theorem assign? (h : Beside extra hidden depth first second) (hextra : extra.Hides hidden)
    {name : String} (hname : name ∉ hidden) (value : Value) :
    Option.Rel (Beside extra hidden depth) (first.assign? name value)
      (second.assign? name value) := by
  obtain ⟨inner, outer, hdepth, hfirst, hsecond, hclear⟩ := h.locals
  have hpass := Chain.assign?_eq_none (hextra.lookup? name hname) value
  unfold State.assign?
  rw [hfirst, hsecond, h.module, h.globals, Chain.assign?_append, Chain.assign?_append,
    Chain.assign?_append extra, hpass]
  cases hinner : Chain.assign? name value inner with
  | some changed =>
    refine .some ⟨⟨changed, outer, (Chain.length_of_assign? hinner).trans hdepth, rfl, rfl,
      fun other hother ↦ ?_⟩, rfl, rfl, h.objects, h.sink⟩
    rw [Chain.lookup?_of_assign? hinner (ne_of_mem_of_not_mem hother hname)]
    exact hclear other hother
  | none =>
    cases Chain.assign? name value outer with
    | some changed =>
      exact .some ⟨⟨inner, changed, hdepth, rfl, rfl, hclear⟩, rfl, rfl, h.objects, h.sink⟩
    | none =>
      simp only [Option.map_none]
      cases first.module.assign? name value with
      | some module =>
        exact .some ⟨⟨inner, outer, hdepth, rfl, rfl, hclear⟩, rfl, rfl, h.objects, h.sink⟩
      | none =>
        cases first.globals.assign? name value with
        | some globals =>
          exact .some ⟨⟨inner, outer, hdepth, rfl, rfl, hclear⟩, rfl, rfl, h.objects, h.sink⟩
        | none => exact .none

/-- A declaration in a scope inside the extra ones keeps the states beside each other. -/
theorem declare (h : Beside extra hidden (depth + 1) first second) {name : String}
    (hname : name ∉ hidden) (value : Value) :
    Beside extra hidden (depth + 1) (first.declare name value) (second.declare name value) := by
  obtain ⟨inner, outer, hdepth, hfirst, hsecond, hclear⟩ := h.locals
  obtain ⟨scope, rest, rfl⟩ := List.exists_cons_of_length_eq_add_one hdepth
  unfold State.declare
  rw [hfirst, hsecond]
  refine ⟨⟨scope.declare name value :: rest, outer, hdepth, rfl, rfl, fun other hother ↦ ?_⟩,
    h.module, h.globals, h.objects, h.sink⟩
  have hother' := hclear other hother
  rw [Chain.lookup?_cons] at hother' ⊢
  rw [Scope.lookup?_declare, if_neg (ne_of_mem_of_not_mem hother hname)]
  exact hother'

/-- A new block begins inside the extra scopes in both states. -/
theorem enterBlock (h : Beside extra hidden depth first second) {scope : ValueScope H}
    (hscope : ∀ name ∈ hidden, scope.lookup? name = none) :
    Beside extra hidden (depth + 1) (first.enterBlock scope) (second.enterBlock scope) := by
  obtain ⟨inner, outer, hdepth, hfirst, hsecond, hclear⟩ := h.locals
  refine ⟨⟨scope :: inner, outer, congrArg Nat.succ hdepth, congrArg (scope :: ·) hfirst,
    congrArg (scope :: ·) hsecond, fun name hname ↦ ?_⟩, h.module, h.globals, h.objects, h.sink⟩
  rw [Chain.lookup?_cons, hscope name hname, hclear name hname]
  rfl

/-- Leaving a block that was entered inside the extra scopes keeps them in place. -/
theorem leaveBlock (h : Beside extra hidden (depth + 1) first second) :
    Beside extra hidden depth first.leaveBlock second.leaveBlock := by
  obtain ⟨inner, outer, hdepth, hfirst, hsecond, hclear⟩ := h.locals
  obtain ⟨scope, rest, rfl⟩ := List.exists_cons_of_length_eq_add_one hdepth
  refine ⟨⟨rest, outer, Nat.succ.inj hdepth, congrArg List.tail hfirst, congrArg List.tail hsecond,
    fun name hname ↦ ?_⟩, h.module, h.globals, h.objects, h.sink⟩
  have hname' := hclear name hname
  rw [Chain.lookup?_cons, Option.or_eq_none_iff] at hname'
  exact hname'.2

/-- In a call only its own scope is in sight, however the states outside differ. -/
theorem enterCall (h : Beside extra hidden depth first second) (scope : ValueScope H) :
    Beside [] [] 1 (first.enterCall scope) (second.enterCall scope) :=
  ⟨⟨[scope], [], rfl, rfl, rfl, fun _ hname ↦ by cases hname⟩, h.module, h.globals, h.objects,
    h.sink⟩

/-- After a call the frames are those from before it, as no call changes them. -/
theorem leaveCall (h : Beside extra hidden depth first second) {scope : ValueScope H}
    {after after' : State H} (hafter : Beside [] [] 1 after after')
    (hfirst : (first.enterCall scope).SameCallers after)
    (hsecond : (second.enterCall scope).SameCallers after') :
    Beside extra hidden depth after.leaveCall after'.leaveCall := by
  refine ⟨?_, hafter.module, hafter.globals, hafter.objects, hafter.sink⟩
  unfold State.leaveCall
  rw [hfirst.suspended, hsecond.suspended]
  exact h.locals

end Beside

end State

/-! ### Steps -/

namespace Run

open Stateful (Simulates SameEnd)

variable {H α : Type} {extra : ValueChain H} {hidden : List String} {depth : Nat}

/-- A result that is there already is the same in both states. -/
theorem ofExcept_simulates {related : State H → State H → Prop}
    (result : Except RuntimeError α) :
    Simulates related (ofExcept result : Run H α) (ofExcept result) := by
  cases result with
  | ok value => exact .pure value
  | error cause => exact .throw _

/-- A variable that is not hidden is read alike. -/
theorem lookup_beside (hextra : extra.Hides hidden) {name : String} (hname : name ∉ hidden) :
    Simulates (State.Beside extra hidden depth) (lookup name : Run H Value) (lookup name) := by
  intro first second h
  rw [lookup_apply, lookup_apply, h.lookup? hextra hname]
  cases first.chain.lookup? name with
  | some value => exact .ok h
  | none => exact .error h

/-- A function is found alike. -/
theorem function_beside (hextra : extra.Hides hidden) (name : String) (arity : Nat) :
    Simulates (State.Beside extra hidden depth) (function name arity : Run H (Callable H))
      (function name arity) := by
  intro first second h
  rw [function_apply, function_apply, h.function? hextra]
  cases first.chain.function? name arity with
  | some callable => exact .ok h
  | none => exact .error h

/-- An assignment to a variable that is not hidden is made alike. -/
theorem assign_beside (hextra : extra.Hides hidden) {name : String} (hname : name ∉ hidden)
    (value : Value) :
    Simulates (State.Beside extra hidden depth) (assign name value : Run H Unit)
      (assign name value) := by
  intro first second h
  have hassign := h.assign? hextra hname value
  rw [assign_apply, assign_apply]
  generalize first.assign? name value = one at hassign
  generalize second.assign? name value = other at hassign
  cases hassign with
  | some hafter => exact .ok hafter
  | none => exact .error h

/-- A field is read alike, since objects are the same in both states. -/
theorem field_beside (ref : ObjectRef) (name : String) :
    Simulates (State.Beside extra hidden depth) (field ref name : Run H Value)
      (field ref name) := by
  intro first second h
  rw [field_apply, field_apply, h.objects]
  exact ofExcept_simulates _ _ _ h

/-- A field is set alike, since objects are the same in both states. -/
theorem setField_beside (ref : ObjectRef) (name : String) (value : Value) :
    Simulates (State.Beside extra hidden depth) (setField ref name value : Run H Unit)
      (setField ref name value) := by
  intro first second h
  rw [setField_apply, setField_apply, h.objects]
  cases first.objects.setField ref name value with
  | ok objects => exact .ok (h.with_objects objects)
  | error cause => exact .error h

/-- A method of an object is found alike. -/
theorem method_beside (ref : ObjectRef) (name : String) (arity : Nat) :
    Simulates (State.Beside extra hidden depth) (method ref name arity : Run H (Callable H))
      (method ref name arity) := by
  intro first second h
  rw [method_apply, method_apply, h.objects]
  cases first.objects.method ref name arity with
  | ok function => exact .ok h
  | error cause => exact .error h

/-- The same line is printed in both states. -/
theorem print_beside (line : String) :
    Simulates (State.Beside extra hidden depth) (print line : Run H Unit) (print line) := by
  intro first second h
  rw [print_apply, print_apply, h.sink]
  cases first.sink.print line with
  | ok sink => exact .ok (h.with_sink sink)
  | error cause => exact .error h

/-- A function of the host sees objects and output only, which are the same. -/
theorem host_beside [Host H] (body : H) (args : List Value) :
    Simulates (State.Beside extra hidden depth) (host body args) (host body args) := by
  intro first second h
  unfold host
  rw [h.objects]
  obtain ⟨result, objects⟩ := Host.run body args first.objects
  cases result with
  | ok value => exact .ok (h.with_objects objects)
  | error cause => exact .error (h.with_objects objects)

/-- A block runs alike in both states if its body does one scope further in. -/
theorem block_beside {scope : ValueScope H} (hscope : ∀ name ∈ hidden, scope.lookup? name = none)
    {body : Run H α} (hbody : Simulates (State.Beside extra hidden (depth + 1)) body body) :
    Simulates (State.Beside extra hidden depth) (block scope body) (block scope body) := by
  intro first second h
  have hends := hbody _ _ (h.enterBlock hscope)
  unfold block within
  generalize body (first.enterBlock scope) = one at hends
  generalize body (second.enterBlock scope) = other at hends
  cases hends with
  | ok hafter => exact .ok hafter.leaveBlock
  | error hafter => exact .error hafter.leaveBlock

/-- What is called runs in scopes of its own and sees no extra scope, so only the way back to the
caller has to be considered. -/
theorem call_beside (scope : ValueScope H) {body : Run H α} (hmoves : body.Moves State.SameCallers)
    (hbody : Simulates (State.Beside [] [] 1) body body) :
    Simulates (State.Beside extra hidden depth) (call scope body) (call scope body) := by
  intro first second h
  have hends := hbody _ _ (h.enterCall scope)
  have hfirst := hmoves (first.enterCall scope)
  have hsecond := hmoves (second.enterCall scope)
  unfold Ensures at hfirst hsecond
  unfold call within
  generalize body (first.enterCall scope) = one at hends hfirst
  generalize body (second.enterCall scope) = other at hends hsecond
  cases hends with
  | ok hafter => exact .ok (h.leaveCall hafter hfirst hsecond)
  | error hafter => exact .error (h.leaveCall hafter hfirst hsecond)

/-- A conditional loop keeps any relation of states that its condition and its body keep. -/
theorem repeatWhile_simulates {related : State H → State H → Prop} {condition : Run H Bool}
    {body : Run H Flow} (hcondition : Simulates related condition condition)
    (hbody : Simulates related body body) (fuel : Nat) :
    Simulates related (repeatWhile condition body fuel) (repeatWhile condition body fuel) := by
  induction fuel with
  | zero => exact .throw _
  | succ fuel ih =>
    refine hcondition.bind fun holds ↦ ?_
    split
    · refine hbody.bind fun flow ↦ ?_
      cases flow with
      | next => exact ih
      | returned value => exact .pure _
    · exact .pure _

/-- A loop over a range keeps any relation of states that its body keeps at each number. -/
theorem forRange_simulates {related : State H → State H → Prop} {body : Int → Run H Flow}
    (hbody : ∀ item, Simulates related (body item) (body item)) (count : Nat) (start : Int) :
    Simulates related (forRange body count start) (forRange body count start) := by
  induction count generalizing start with
  | zero => exact .pure _
  | succ count ih =>
    refine (hbody start).bind fun flow ↦ ?_
    cases flow with
    | next => exact ih (start + 1)
    | returned value => exact .pure _

end Run

/-! ### Trees -/

section

open Stateful (Simulates)

variable {H : Type} {invoke : Callable H → List Value → Run H Value} {extra : ValueChain H}
  {hidden : List String} (hextra : extra.Hides hidden)
  (hinvoke : ∀ depth callable args, Simulates (State.Beside extra hidden depth)
    (invoke callable args) (invoke callable args))

include hextra hinvoke

-- A mutual recursion over the tree does not name the hypotheses that it shares.
set_option linter.unusedSectionVars false

section

variable (depth : Nat)

mutual

/-- An expression that mentions no hidden variable comes to the same value or failure in both
states. The recursion follows the tree, and each step is one of the lemmas above. -/
theorem Expr.evalWith_beside : ∀ expr : Expr, expr.variables.Disjoint hidden →
    Simulates (State.Beside extra hidden depth) (expr.evalWith invoke) (expr.evalWith invoke)
  | .literal _ value, _ => .pure _
  | .group _ inner, h => inner.evalWith_beside h
  | .binary _ op left right, h => by
    obtain ⟨hleft, hright⟩ := List.disjoint_append_left.mp h
    rw [Expr.evalWith]
    refine (left.evalWith_beside hleft).bind fun first ↦ ?_
    split
    · refine (Run.ofExcept_simulates _).bind fun holds ↦ ?_
      split
      · exact .pure _
      · refine (right.evalWith_beside hright).bind fun second ↦ ?_
        exact (Run.ofExcept_simulates _).bind fun _ ↦ .pure _
    · exact (right.evalWith_beside hright).bind fun second ↦ Run.ofExcept_simulates _
  | .access _ name _, h => Run.lookup_beside hextra (List.singleton_disjoint.mp h)
  | .member _ receiver name _, h =>
    (receiver.evalWith_beside h).bind fun _ ↦
      (Run.ofExcept_simulates _).bind fun ref ↦ Run.field_beside ref name
  | .call _ name args _, h =>
    (evalArgsWith_beside args h).bind fun values ↦
      (Run.function_beside hextra name values.length).bind fun callable ↦
        hinvoke depth callable values
  | .invoke _ receiver name args _, h => by
    obtain ⟨hreceiver, hargs⟩ := List.disjoint_append_left.mp h
    refine (receiver.evalWith_beside hreceiver).bind fun object ↦ ?_
    refine (evalArgsWith_beside args hargs).bind fun values ↦ ?_
    refine (Run.ofExcept_simulates _).bind fun ref ↦ ?_
    exact (Run.method_beside ref name _).bind fun callable ↦ hinvoke depth callable _

/-- Arguments that mention no hidden variable have the same values in both states. -/
theorem evalArgsWith_beside : ∀ args : List Expr, (argVariables args).Disjoint hidden →
    Simulates (State.Beside extra hidden depth) (evalArgsWith invoke args)
      (evalArgsWith invoke args)
  | [], _ => .pure _
  | head :: tail, h => by
    obtain ⟨hhead, htail⟩ := List.disjoint_append_left.mp h
    exact (head.evalWith_beside hhead).bind fun _ ↦
      (evalArgsWith_beside tail htail).bind fun _ ↦ .pure _

end

/-- A declaration that mentions no hidden variable gives the same value in both states. -/
theorem Binding.evalWith_beside (binding : Binding) (h : binding.variables.Disjoint hidden) :
    Simulates (State.Beside extra hidden depth) (binding.evalWith invoke)
      (binding.evalWith invoke) := by
  unfold Binding.variables at h
  unfold Binding.evalWith
  split
  · rename_i value hvalue
    rw [hvalue] at h
    exact Expr.evalWith_beside hextra hinvoke depth value (List.disjoint_cons_left.mp h).2
  · exact .pure _

/-- An assignment whose two sides mention no hidden variable is made alike. -/
theorem Expr.assignWith_beside (target value : Expr)
    (h : (value.variables ++ target.variables).Disjoint hidden) :
    Simulates (State.Beside extra hidden depth) (target.assignWith invoke value)
      (target.assignWith invoke value) := by
  obtain ⟨hvalue, htarget⟩ := List.disjoint_append_left.mp h
  unfold Expr.assignWith
  split
  · exact (value.evalWith_beside hextra hinvoke depth hvalue).bind fun value ↦
      Run.assign_beside hextra (List.singleton_disjoint.mp htarget) value
  · rename_i receiver name _
    refine (value.evalWith_beside hextra hinvoke depth hvalue).bind fun value ↦ ?_
    refine (receiver.evalWith_beside hextra hinvoke depth htarget).bind fun object ↦ ?_
    exact (Run.ofExcept_simulates _).bind fun ref ↦ Run.setField_beside ref name value
  · exact .throw _

/-- A condition that mentions no hidden variable is decided alike. -/
theorem Expr.conditionWith_beside (condition : Expr) (h : condition.variables.Disjoint hidden) :
    Simulates (State.Beside extra hidden depth) (condition.conditionWith invoke)
      (condition.conditionWith invoke) :=
  (condition.evalWith_beside hextra hinvoke depth h).bind fun _ ↦ Run.ofExcept_simulates _

end

variable (fuel : Nat)

mutual

/-- A statement has a scope of its own to declare in. -/
theorem Stmt.execWith_beside (depth : Nat) : ∀ statement : Stmt,
    statement.variables.Disjoint hidden → Simulates (State.Beside extra hidden (depth + 1))
      (statement.execWith invoke fuel) (statement.execWith invoke fuel)
  | .expr value, h => by
    rw [Stmt.execWith, Stateful.discard_eq]
    exact ((value.evalWith_beside hextra hinvoke _ h).bind fun _ ↦ .pure _).bind fun _ ↦ .pure _
  | .declare binding, h => by
    rw [Stmt.execWith]
    refine (binding.evalWith_beside hextra hinvoke _ h).bind fun value ↦ ?_
    exact fun first second hstates ↦ .ok (hstates.declare (Binding.name_not_mem h) value)
  | .assign target value, h => by
    rw [Stmt.execWith]
    exact (target.assignWith_beside hextra hinvoke _ value h).bind fun _ ↦ .pure _
  | .branch condition thenBody elseBody, h => by
    obtain ⟨hcondition, hbodies⟩ := List.disjoint_append_left.mp h
    obtain ⟨hthen, helse⟩ := List.disjoint_append_left.mp hbodies
    rw [Stmt.execWith]
    refine (condition.conditionWith_beside hextra hinvoke _ hcondition).bind fun holds ↦ ?_
    split
    · exact Run.block_beside (fun _ _ ↦ rfl) (execAllWith_beside (depth + 1) thenBody hthen)
    · exact Run.block_beside (fun _ _ ↦ rfl) (execAllWith_beside (depth + 1) elseBody helse)
  | .forEach _ name iterable body, h => by
    obtain ⟨hname, hparts⟩ := List.disjoint_cons_left.mp h
    obtain ⟨hiterable, hbody⟩ := List.disjoint_append_left.mp hparts
    rw [Stmt.execWith]
    refine (iterable.evalWith_beside hextra hinvoke _ hiterable).bind fun _ ↦ ?_
    refine (Run.ofExcept_simulates _).bind fun bounds ↦ ?_
    refine Run.forRange_simulates (fun item ↦ ?_) _ _
    refine Run.block_beside (fun other hother ↦ ?_) (execAllWith_beside (depth + 1) body hbody)
    rw [Scope.lookup?_declare, if_neg (ne_of_mem_of_not_mem hother hname)]
    rfl
  | .loop condition body, h => by
    obtain ⟨hcondition, hbody⟩ := List.disjoint_append_left.mp h
    rw [Stmt.execWith]
    exact Run.repeatWhile_simulates (condition.conditionWith_beside hextra hinvoke _ hcondition)
      (Run.block_beside (fun _ _ ↦ rfl) (execAllWith_beside (depth + 1) body hbody)) fuel
  | .ret value, h => by
    rw [Stmt.execWith]
    exact (value.evalWith_beside hextra hinvoke _ h).bind fun _ ↦ .pure _

/-- Statements that mention no hidden variable come to the same end in both states. -/
theorem execAllWith_beside (depth : Nat) : ∀ statements : List Stmt,
    (blockVariables statements).Disjoint hidden →
    Simulates (State.Beside extra hidden (depth + 1)) (execAllWith invoke fuel statements)
      (execAllWith invoke fuel statements)
  | [], _ => .pure _
  | head :: tail, h => by
    obtain ⟨hhead, htail⟩ := List.disjoint_append_left.mp h
    rw [execAllWith]
    refine (head.execWith_beside depth hhead).bind fun flow ↦ ?_
    cases flow with
    | next => exact execAllWith_beside depth tail htail
    | returned value => exact .pure _

end

end

/-! ### Calls -/

section

open Stateful (Simulates)

variable {H : Type} [Host H]

/-- A call comes to the same end whatever scopes its callers have. -/
theorem Callable.invoke_beside (fuel : Nat) (extra : ValueChain H) (hidden : List String)
    (depth : Nat) (callable : Callable H) (args : List Value) :
    Simulates (State.Beside extra hidden depth) (callable.invoke fuel args)
      (callable.invoke fuel args) := by
  have hperform {run : List Stmt → Run H Flow} (hmoves : ∀ body, (run body).Moves State.SameCallers)
      (hrun : ∀ body, Simulates (State.Beside [] [] 1) (run body) (run body))
      (extra : ValueChain H) (hidden : List String) (depth : Nat) (callable : Callable H)
      (args : List Value) :
      Simulates (State.Beside extra hidden depth) (callable.perform run args)
        (callable.perform run args) := by
    by_cases harity : args.length = callable.arity
    · refine Callable.cases_of_arity callable args harity ?_ ?_ ?_ ?_
      · exact fun value ↦ (Run.print_beside value.display).bind fun _ ↦ .pure _
      · exact fun start stop ↦ (Run.ofExcept_simulates _).bind fun _ ↦
          (Run.ofExcept_simulates _).bind fun _ ↦ .pure _
      · intro function args harity
        rw [Callable.perform_host run harity]
        exact Run.host_beside function.body args
      · intro definition args harity
        rw [Callable.perform_procedure run harity]
        refine Run.call_beside _ ((hmoves definition.body).bind fun flow ↦ ?_)
          ((hrun definition.body).bind fun flow ↦ ?_)
        · cases flow <;> exact .pure _
        · cases flow <;> exact .pure _
    · rw [Callable.perform_of_ne run harity]
      exact .throw _
  induction fuel generalizing extra hidden depth callable args with
  | zero => exact hperform (fun _ ↦ .throw _) (fun _ ↦ .throw _) extra hidden depth callable args
  | succ fuel ih =>
    refine hperform (execAllWith_moves (Callable.invoke_moves fuel) fuel) (fun body ↦ ?_)
      extra hidden depth callable args
    exact execAllWith_beside Chain.hides_nil (ih [] []) fuel 0 body (List.disjoint_nil_right _)

end

end ScriptLang
