import ScriptLang.Proofs.Execution.Beside
import ScriptLang.Proofs.Execution.Termination
import ScriptLang.Proofs.Typing.Mentioned

/-!
A run depends only on the names that are looked up. A change of the scope of the host that these
names do not notice can be made before a run or after it: the run comes to the same end, prints the
same, and leaves the same state but for the change.
-/

set_option autoImplicit false
set_option relaxedAutoImplicit false

namespace ScriptLang

/-! ### Changes that some names do not notice -/

/-- The first entry keeps its place, whichever of the two is put in first. -/
theorem Bindings.insert_comm {κ α : Type} [DecidableEq κ] {bindings : Bindings κ α} {key other : κ}
    (hfound : (bindings.find? other).isSome) (hne : other ≠ key) (value value' : α) :
    (bindings.insert key value).insert other value' =
      (bindings.insert other value').insert key value := by
  obtain ⟨entries⟩ := bindings
  simp only [insert, find?, mk.injEq] at hfound ⊢
  induction entries with
  | nil => cases hfound
  | cons head tail ih => grind [place]

/-- Each of the names stands for the same before and after the change, also if it is assigned to. -/
structure Scope.Unnoticed {V F : Type} (names : List String) (change : Scope V F → Scope V F) :
    Prop where
  agreeOn : ∀ scope : Scope V F, scope.AgreeOn names (change scope)
  assign? : ∀ scope : Scope V F, ∀ name ∈ names, ∀ value,
    (change scope).assign? name value = (scope.assign? name value).map change

namespace Scope.Unnoticed

variable {V F : Type} {names : List String}

theorem id : Unnoticed names (id : Scope V F → Scope V F) where
  agreeOn _ := .refl _
  assign? _ _ _ _ := Option.map_id'.symm

/-- A variable whose name is not mentioned may be declared unnoticed. -/
theorem declare {name : String} (hname : name ∉ names) (value : V) :
    Unnoticed names (fun scope : Scope V F ↦ scope.declare name value) where
  agreeOn scope := by
    refine ⟨fun other hother ↦ ?_, fun _ _ _ ↦ rfl⟩
    rw [lookup?_declare, if_neg (ne_of_mem_of_not_mem hother hname)]
  assign? scope other hother value' := by
    have hne := ne_of_mem_of_not_mem hother hname
    unfold Scope.assign?
    rw [lookup?_declare, if_neg hne]
    split
    · rename_i hfound
      exact congrArg (fun vars ↦ some { scope with vars }) (Bindings.insert_comm hfound hne _ _)
    · rfl

/-- A function whose name is not mentioned may be declared unnoticed. -/
theorem declareFunction {name : String} (hname : name ∉ names) (arity : Nat) (value : F) :
    Unnoticed names (fun scope : Scope V F ↦ scope.declareFunction name arity value) where
  agreeOn scope := by
    refine ⟨fun _ _ ↦ rfl, fun other hother count ↦ ?_⟩
    rw [function?_declareFunction, if_neg]
    exact fun hkey ↦ ne_of_mem_of_not_mem hother hname (Prod.mk.inj hkey).1
  assign? scope other _ value' := by
    unfold Scope.assign?
    rw [lookup?_declareFunction]
    split <;> rfl

end Scope.Unnoticed

/-! ### States before and after the change -/

namespace State

variable {H : Type}

def mapGlobals (change : ValueScope H → ValueScope H) (state : State H) : State H :=
  { state with globals := change state.globals }

/-- The second state is the first after the change, and calls lead to the methods or to the host. -/
structure Changed (change : ValueScope H → ValueScope H) (methods : List Method)
    (first second : State H) : Prop where
  changed : second = first.mapGlobals change
  offers : first.Offers methods

namespace Changed

variable {change : ValueScope H → ValueScope H} {methods : List Method} {names : List String}
  {first second : State H}

/-- Only the scope of the host differs, so the objects are the same. -/
theorem objects (h : Changed change methods first second) : second.objects = first.objects := by
  rw [h.changed]
  rfl

theorem sink (h : Changed change methods first second) : second.sink = first.sink := by
  rw [h.changed]
  rfl

theorem with_objects (h : Changed change methods first second) (objects : ObjectStore H) :
    Changed change methods { first with objects } { second with objects } :=
  ⟨congrArg (fun state : State H ↦ { state with objects }) h.changed,
    h.offers.of_scopes objects first.sink⟩

theorem with_sink (h : Changed change methods first second) (sink : Sink) :
    Changed change methods { first with sink } { second with sink } :=
  ⟨congrArg (fun state : State H ↦ { state with sink }) h.changed,
    h.offers.of_scopes first.objects sink⟩

/-- The scopes in sight agree on all names that are mentioned. -/
theorem chain (h : Changed change methods first second) (hchange : Scope.Unnoticed names change) :
    first.chain.AgreeOn names second.chain := by
  obtain ⟨rfl, -⟩ := h
  have hhost : Chain.AgreeOn names [first.module, first.globals]
      [first.module, change first.globals] :=
    ((Chain.AgreeOn.refl []).cons (hchange.agreeOn first.globals)).within first.module
  constructor
  · intro name hname
    change Chain.lookup? (first.locals ++ _) name = Chain.lookup? (first.locals ++ _) name
    rw [Chain.lookup?_append, Chain.lookup?_append]
    exact congrArg _ (hhost.lookup? name hname)
  · intro name hname arity
    change Chain.function? (first.locals ++ _) name arity =
      Chain.function? (first.locals ++ _) name arity
    rw [Chain.function?_append, Chain.function?_append]
    exact congrArg _ (hhost.function? name hname arity)

/-- An assignment to a name that is mentioned succeeds in both states or in neither, and commutes
with the change. -/
theorem assign? (h : Changed change methods first second) (hchange : Scope.Unnoticed names change)
    {name : String} (hname : name ∈ names) (value : Value) :
    Option.Rel (Changed change methods) (first.assign? name value) (second.assign? name value) := by
  obtain ⟨rfl, hoffers⟩ := h
  have hassign : (first.mapGlobals change).assign? name value =
      (first.assign? name value).map (mapGlobals change) := by
    unfold State.assign? mapGlobals
    dsimp only
    rw [hchange.assign? _ _ hname]
    cases first.locals.assign? name value with
    | some locals => rfl
    | none =>
      cases first.module.assign? name value with
      | some module => rfl
      | none => cases first.globals.assign? name value <;> rfl
  rw [hassign]
  cases hafter : first.assign? name value with
  | some after => exact .some ⟨rfl, hoffers.assign? hafter⟩
  | none => exact .none

/-- A declaration commutes with the change: it goes into a scope of the program. -/
theorem declare (h : Changed change methods first second) (name : String) (value : Value) :
    Changed change methods (first.declare name value) (second.declare name value) := by
  obtain ⟨rfl, hoffers⟩ := h
  refine ⟨?_, hoffers.declare name value⟩
  unfold State.declare mapGlobals
  dsimp only
  split <;> rfl

/-- The methods of a program are declared in a module without functions. -/
theorem declareMethods (h : Changed change [] first second) (methods : List Method) :
    Changed change methods (first.declareMethods methods) (second.declareMethods methods) := by
  obtain ⟨rfl, hoffers⟩ := h
  exact ⟨rfl, hoffers.declareMethods methods⟩

end Changed

end State

/-! ### Steps -/

namespace Run

open Stateful (Simulates SameEnd)

variable {H α β : Type} {change : ValueScope H → ValueScope H} {methods : List Method}
  {names : List String}

section

variable (hchange : Scope.Unnoticed names change) {name : String} (hname : name ∈ names)
include hchange hname

/-- A variable that is mentioned has the same value after the change. -/
theorem lookup_changed :
    Simulates (State.Changed change methods) (lookup name : Run H Value) (lookup name) := by
  intro first second h
  rw [lookup_apply, lookup_apply, (h.chain hchange).lookup? name hname]
  cases second.chain.lookup? name with
  | some value => exact .ok h
  | none => exact .error h

/-- A variable that is mentioned is assigned to in the same scope, or in neither state. -/
theorem assign_changed (value : Value) :
    Simulates (State.Changed change methods) (assign name value : Run H Unit)
      (assign name value) := by
  intro first second h
  have hassign := h.assign? hchange hname value
  rw [assign_apply, assign_apply]
  generalize first.assign? name value = one at hassign
  generalize second.assign? name value = other at hassign
  cases hassign with
  | some hafter => exact .ok hafter
  | none => exact .error h

/-- What is called is a method, or does not belong to the program. -/
theorem function_changed {next : Callable H → Run H α} {arity : Nat}
    (hmethod : ∀ method ∈ methods, Simulates (State.Changed change methods)
      (next (.procedure method.procedure)) (next (.procedure method.procedure)))
    (hplain : ∀ callable, (∀ definition, callable ≠ .procedure definition) →
      Simulates (State.Changed change methods) (next callable) (next callable)) :
    Simulates (State.Changed change methods) (function name arity >>= next)
      (function name arity >>= next) := by
  intro first second h
  have hsame := (h.chain hchange).function? name hname arity
  cases hfound : first.chain.function? name arity with
  | none =>
    have hfailed (state : State H) (hstate : state.chain.function? name arity = none) :
        (function name arity >>= next) state =
          .error (.failed (.undefinedFunction name arity)) state :=
      Stateful.bind_of_error (by rw [function_apply, hstate])
    rw [hfailed first hfound, hfailed second (hsame.symm.trans hfound)]
    exact .error h
  | some callable =>
    have hrun (state : State H) (hstate : state.chain.function? name arity = some callable) :
        (function name arity >>= next) state = next callable state :=
      Stateful.bind_of_ok (by rw [function_apply, hstate])
    rw [hrun first hfound, hrun second (hsame.symm.trans hfound)]
    obtain ⟨method, hmem, -, rfl⟩ | hother := h.offers.function? hfound
    · exact hmethod method hmem first second h
    · exact hplain callable hother first second h

end

/-- A field is read alike, since objects are the same. -/
theorem field_changed (ref : ObjectRef) (name : String) :
    Simulates (State.Changed change methods) (field ref name : Run H Value) (field ref name) := by
  intro first second h
  rw [field_apply, field_apply, h.objects]
  exact ofExcept_simulates _ _ _ h

/-- A field is set alike, since objects are the same. -/
theorem setField_changed (ref : ObjectRef) (name : String) (value : Value) :
    Simulates (State.Changed change methods) (setField ref name value : Run H Unit)
      (setField ref name value) := by
  intro first second h
  rw [setField_apply, setField_apply, h.objects]
  cases first.objects.setField ref name value with
  | ok objects => exact .ok (h.with_objects objects)
  | error cause => exact .error h

/-- A method of an object belongs to the host. -/
theorem method_changed {next : Callable H → Run H α} (ref : ObjectRef) (name : String) (arity : Nat)
    (hhost : ∀ function, Simulates (State.Changed change methods) (next (.host function))
      (next (.host function))) :
    Simulates (State.Changed change methods) (method ref name arity >>= next)
      (method ref name arity >>= next) := by
  intro first second h
  cases hfound : first.objects.method ref name arity with
  | ok function =>
    have hrun (state : State H) (hstate : state.objects.method ref name arity = .ok function) :
        (method ref name arity >>= next) state = next (.host function) state :=
      Stateful.bind_of_ok (by rw [method_apply, hstate])
    rw [hrun first hfound, hrun second (h.objects ▸ hfound)]
    exact hhost function first second h
  | error cause =>
    have hfailed (state : State H) (hstate : state.objects.method ref name arity = .error cause) :
        (method ref name arity >>= next) state = .error (.failed cause) state :=
      Stateful.bind_of_error (by rw [method_apply, hstate])
    rw [hfailed first hfound, hfailed second (h.objects ▸ hfound)]
    exact .error h

/-- The same line is printed to the same sink. -/
theorem print_changed (line : String) :
    Simulates (State.Changed change methods) (print line : Run H Unit) (print line) := by
  intro first second h
  rw [print_apply, print_apply, h.sink]
  cases first.sink.print line with
  | ok sink => exact .ok (h.with_sink sink)
  | error cause => exact .error h

/-- A function of the host sees objects alone, which are the same. -/
theorem host_changed [Host H] (body : H) (args : List Value) :
    Simulates (State.Changed change methods) (host body args) (host body args) := by
  intro first second h
  unfold host
  rw [h.objects]
  obtain ⟨result, objects⟩ := Host.run body args first.objects
  cases result with
  | ok value => exact .ok (h.with_objects objects)
  | error cause => exact .error (h.with_objects objects)

/-- A block or a call has scopes of its own in both runs. -/
theorem within_changed {enter leave : State H → State H} {body : Run H α}
    (henter : ∀ {first second}, State.Changed change methods first second →
      State.Changed change methods (enter first) (enter second))
    (hleave : ∀ {first second}, State.Changed change methods first second →
      State.Changed change methods (leave first) (leave second))
    (hbody : Simulates (State.Changed change methods) body body) :
    Simulates (State.Changed change methods) (within enter leave body)
      (within enter leave body) := by
  intro first second h
  have hends := hbody _ _ (henter h)
  unfold within
  generalize body (enter first) = one at hends
  generalize body (enter second) = other at hends
  cases hends with
  | ok hafter => exact .ok (hleave hafter)
  | error hafter => exact .error (hleave hafter)

/-- A block of values is entered and left alike. -/
theorem block_changed {scope : ValueScope H} (hscope : scope.functions = {}) {body : Run H α}
    (hbody : Simulates (State.Changed change methods) body body) :
    Simulates (State.Changed change methods) (block scope body) (block scope body) := by
  refine within_changed ?_ ?_ hbody
  · rintro first _ ⟨rfl, hoffers⟩
    exact ⟨rfl, hoffers.enterBlock hscope⟩
  · rintro first _ ⟨rfl, hoffers⟩
    exact ⟨rfl, hoffers.leaveBlock⟩

/-- A call is entered and left alike, with the module and the host as they are. -/
theorem call_changed {scope : ValueScope H} (hscope : scope.functions = {}) {body : Run H α}
    (hbody : Simulates (State.Changed change methods) body body) :
    Simulates (State.Changed change methods) (call scope body) (call scope body) := by
  refine within_changed ?_ ?_ hbody
  · rintro first _ ⟨rfl, hoffers⟩
    exact ⟨rfl, hoffers.enterCall hscope⟩
  · rintro first _ ⟨rfl, hoffers⟩
    exact ⟨rfl, hoffers.leaveCall⟩

end Run

/-! ### Trees -/

section

open Stateful (Simulates)

variable {H : Type} {change : ValueScope H → ValueScope H} {methods : List Method}
  {names : List String} {invoke : Callable H → List Value → Run H Value}
  (hchange : Scope.Unnoticed names change)
  (hmethod : ∀ method ∈ methods, ∀ args, Simulates (State.Changed change methods)
    (invoke (.procedure method.procedure) args) (invoke (.procedure method.procedure) args))
  (hplain : ∀ callable, (∀ definition, callable ≠ .procedure definition) → ∀ args,
    Simulates (State.Changed change methods) (invoke callable args) (invoke callable args))

include hchange hmethod hplain

-- A mutual recursion over the tree does not name the hypotheses that it shares.
set_option linter.unusedSectionVars false

mutual

/-- An expression whose mentions are among the names ends alike after the change. The recursion
follows the tree. -/
theorem Expr.evalWith_changed : ∀ expr : Expr, expr.mentions ⊆ names →
    Simulates (State.Changed change methods) (expr.evalWith invoke) (expr.evalWith invoke)
  | .literal _ value, _ => .pure _
  | .group _ inner, h => inner.evalWith_changed h
  | .binary _ op left right, h => by
    obtain ⟨hleft, hright⟩ := List.append_subset.mp h
    rw [Expr.evalWith]
    refine (left.evalWith_changed hleft).bind fun first ↦ ?_
    split
    · refine (Run.ofExcept_simulates _).bind fun holds ↦ ?_
      split
      · exact .pure _
      · refine (right.evalWith_changed hright).bind fun second ↦ ?_
        exact (Run.ofExcept_simulates _).bind fun _ ↦ .pure _
    · exact (right.evalWith_changed hright).bind fun second ↦ Run.ofExcept_simulates _
  | .access _ name _, h => Run.lookup_changed hchange (h List.mem_cons_self)
  | .member _ receiver name _, h =>
    (receiver.evalWith_changed h).bind fun _ ↦
      (Run.ofExcept_simulates _).bind fun ref ↦ Run.field_changed ref name
  | .call _ name args _, h => by
    obtain ⟨hname, hargs⟩ := List.cons_subset.mp h
    refine (evalArgsWith_changed args hargs).bind fun values ↦ ?_
    exact Run.function_changed hchange hname (fun method hmem ↦ hmethod method hmem values)
      fun callable hcallable ↦ hplain callable hcallable values
  | .invoke _ receiver name args _, h => by
    obtain ⟨hreceiver, hargs⟩ := List.append_subset.mp h
    refine (receiver.evalWith_changed hreceiver).bind fun object ↦ ?_
    refine (evalArgsWith_changed args hargs).bind fun values ↦ ?_
    refine (Run.ofExcept_simulates _).bind fun ref ↦ ?_
    exact Run.method_changed ref name _ fun function ↦ hplain _ (fun _ heq ↦ by cases heq) _

/-- Arguments whose mentions are among the names have the same values. -/
theorem evalArgsWith_changed : ∀ args : List Expr, argMentions args ⊆ names →
    Simulates (State.Changed change methods) (evalArgsWith invoke args) (evalArgsWith invoke args)
  | [], _ => .pure _
  | head :: tail, h => by
    obtain ⟨hhead, htail⟩ := List.append_subset.mp h
    exact (head.evalWith_changed hhead).bind fun _ ↦
      (evalArgsWith_changed tail htail).bind fun _ ↦ .pure _

end

/-- A declaration whose mentions are among the names gives the same value. -/
theorem Binding.evalWith_changed (binding : Binding) (h : binding.mentions ⊆ names) :
    Simulates (State.Changed change methods) (binding.evalWith invoke)
      (binding.evalWith invoke) := by
  obtain ⟨-, hvalue⟩ := List.append_subset.mp h
  unfold Binding.evalWith
  split
  · rename_i value hwritten
    rw [hwritten] at hvalue
    exact Expr.evalWith_changed hchange hmethod hplain value hvalue
  · exact .pure _

/-- An assignment whose mentions are among the names is made alike. -/
theorem Expr.assignWith_changed (target value : Expr) (htarget : target.mentions ⊆ names)
    (hvalue : value.mentions ⊆ names) :
    Simulates (State.Changed change methods) (target.assignWith invoke value)
      (target.assignWith invoke value) := by
  have hvalue := value.evalWith_changed hchange hmethod hplain hvalue
  unfold Expr.assignWith
  split
  · exact hvalue.bind fun value ↦ Run.assign_changed hchange (htarget List.mem_cons_self) value
  · rename_i receiver name _
    refine hvalue.bind fun value ↦ ?_
    refine (receiver.evalWith_changed hchange hmethod hplain htarget).bind fun object ↦ ?_
    exact (Run.ofExcept_simulates _).bind fun ref ↦ Run.setField_changed ref name value
  · exact .throw _

/-- A condition whose mentions are among the names is decided alike. -/
theorem Expr.conditionWith_changed (condition : Expr) (h : condition.mentions ⊆ names) :
    Simulates (State.Changed change methods) (condition.conditionWith invoke)
      (condition.conditionWith invoke) :=
  (condition.evalWith_changed hchange hmethod hplain h).bind fun _ ↦ Run.ofExcept_simulates _

variable (fuel : Nat)

mutual

/-- A statement whose mentions are among the names ends alike after the change. The recursion
follows the tree. -/
theorem Stmt.execWith_changed : ∀ statement : Stmt, statement.mentions ⊆ names →
    Simulates (State.Changed change methods) (statement.execWith invoke fuel)
      (statement.execWith invoke fuel)
  | .expr value, h => by
    rw [Stmt.execWith, Stateful.discard_eq]
    exact ((value.evalWith_changed hchange hmethod hplain h).bind fun _ ↦ .pure _).bind
      fun _ ↦ .pure _
  | .declare binding, h => by
    rw [Stmt.execWith]
    refine (binding.evalWith_changed hchange hmethod hplain h).bind fun value ↦ ?_
    exact fun first second hstates ↦ .ok (hstates.declare binding.name value)
  | .assign target value, h => by
    obtain ⟨htarget, hvalue⟩ := List.append_subset.mp h
    rw [Stmt.execWith]
    exact (target.assignWith_changed hchange hmethod hplain value htarget hvalue).bind
      fun _ ↦ .pure _
  | .branch condition thenBody elseBody, h => by
    obtain ⟨hcondition, hbodies⟩ := List.append_subset.mp h
    obtain ⟨hthen, helse⟩ := List.append_subset.mp hbodies
    rw [Stmt.execWith]
    refine (condition.conditionWith_changed hchange hmethod hplain hcondition).bind fun holds ↦ ?_
    split
    · exact Run.block_changed rfl (execAllWith_changed thenBody hthen)
    · exact Run.block_changed rfl (execAllWith_changed elseBody helse)
  | .forEach _ name iterable body, h => by
    obtain ⟨hiterable, hbody⟩ := List.append_subset.mp h
    rw [Stmt.execWith]
    refine (iterable.evalWith_changed hchange hmethod hplain hiterable).bind fun _ ↦ ?_
    refine (Run.ofExcept_simulates _).bind fun bounds ↦ ?_
    exact Run.forRange_simulates
      (fun item ↦ Run.block_changed rfl (execAllWith_changed body hbody)) _ _
  | .loop condition body, h => by
    obtain ⟨hcondition, hbody⟩ := List.append_subset.mp h
    rw [Stmt.execWith]
    exact Run.repeatWhile_simulates
      (condition.conditionWith_changed hchange hmethod hplain hcondition)
      (Run.block_changed rfl (execAllWith_changed body hbody)) fuel
  | .ret value, h => by
    rw [Stmt.execWith]
    exact (value.evalWith_changed hchange hmethod hplain h).bind fun _ ↦ .pure _

/-- Statements whose mentions are among the names end alike. -/
theorem execAllWith_changed : ∀ statements : List Stmt, blockMentions statements ⊆ names →
    Simulates (State.Changed change methods) (execAllWith invoke fuel statements)
      (execAllWith invoke fuel statements)
  | [], _ => .pure _
  | head :: tail, h => by
    obtain ⟨hhead, htail⟩ := List.append_subset.mp h
    rw [execAllWith]
    refine (head.execWith_changed hhead).bind fun flow ↦ ?_
    cases flow with
    | next => exact execAllWith_changed tail htail
    | returned value => exact .pure _

end

end

/-! ### Calls and programs -/

section

open Stateful (Simulates SameEnd)

variable {H : Type} [Host H] {change : ValueScope H → ValueScope H} {methods : List Method}
  {names : List String}

/-- A callable ends alike if bodies do, since its own steps look up nothing. -/
theorem Callable.perform_changed {run : List Stmt → Run H Flow} {callable : Callable H}
    (hrun : ∀ definition, callable = .procedure definition →
      Simulates (State.Changed change methods) (run definition.body) (run definition.body))
    (args : List Value) :
    Simulates (State.Changed change methods) (callable.perform run args)
      (callable.perform run args) := by
  by_cases harity : args.length = callable.arity
  · revert hrun
    refine Callable.cases_of_arity callable args harity ?_ ?_ ?_ ?_
    · exact fun value _ ↦ (Run.print_changed value.display).bind fun _ ↦ .pure _
    · exact fun start stop _ ↦ (Run.ofExcept_simulates _).bind fun _ ↦
        (Run.ofExcept_simulates _).bind fun _ ↦ .pure _
    · intro function args harity _
      rw [Callable.perform_host run harity]
      exact Run.host_changed function.body args
    · intro definition args harity hrun
      rw [Callable.perform_procedure run harity]
      refine Run.call_changed (Callable.functions_parameterScope _ _) ?_
      refine (hrun definition rfl).bind fun flow ↦ ?_
      cases flow <;> exact .pure _
  · rw [Callable.perform_of_ne run harity]
    exact .throw _

/-- What is no procedure ends alike with any amount of fuel. -/
theorem Callable.invoke_changed_of_ne (fuel : Nat) {callable : Callable H}
    (hplain : ∀ definition, callable ≠ .procedure definition) (args : List Value) :
    Simulates (State.Changed change methods) (callable.invoke fuel args)
      (callable.invoke fuel args) := by
  have habsurd (run : List Stmt → Run H Flow) : Simulates (State.Changed change methods)
      (callable.perform run args) (callable.perform run args) :=
    perform_changed (fun definition h ↦ absurd h (hplain definition)) args
  cases fuel with
  | zero => exact habsurd _
  | succ fuel => exact habsurd _

variable (hchange : Scope.Unnoticed names change)
include hchange

/-- The induction is on the fuel: the methods that a body calls are called with less. -/
theorem Callable.invoke_changed (hmethods : methods.flatMap Method.mentions ⊆ names) (fuel : Nat)
    {method : Method} (hmem : method ∈ methods) (args : List Value) :
    Simulates (State.Changed change methods)
      ((Callable.procedure method.procedure : Callable H).invoke fuel args)
      ((Callable.procedure method.procedure).invoke fuel args) := by
  induction fuel generalizing method args with
  | zero => exact perform_changed (fun _ _ ↦ .throw _) args
  | succ fuel ih =>
    refine perform_changed (fun definition hdefinition ↦ ?_) args
    cases hdefinition
    have hmentions : method.mentions ⊆ names :=
      fun name hname ↦ hmethods (List.mem_flatMap.mpr ⟨method, hmem, hname⟩)
    have hbody : blockMentions method.body ⊆ names := fun name hname ↦ hmentions
      (List.mem_cons_of_mem _ (List.mem_append_right _ (List.mem_append_right _ hname)))
    exact execAllWith_changed hchange (fun method hmem args ↦ ih hmem args)
      (fun callable hplain ↦ invoke_changed_of_ne fuel hplain) fuel method.body hbody

/-- While fields are evaluated the module has no methods. -/
theorem initializeFields_changed (fuel : Nat) (fields : List Binding)
    (hfields : fields.flatMap Binding.mentions ⊆ names) :
    Simulates (State.Changed change []) (initializeFields fuel fields : Run H Unit)
      (initializeFields fuel fields) := by
  induction fields with
  | nil => exact .pure _
  | cons head tail ih =>
    rw [List.flatMap_cons] at hfields
    obtain ⟨hhead, htail⟩ := List.append_subset.mp hfields
    rw [initializeFields]
    refine (head.evalWith_changed hchange (fun _ hmem ↦ by cases hmem)
      (fun callable hplain ↦ Callable.invoke_changed_of_ne fuel hplain) hhead).bind fun value ↦ ?_
    have hdeclare : Simulates (State.Changed change [])
        (modify (·.declare head.name value) : Run H Unit) (modify (·.declare head.name value)) :=
      fun first second h ↦ .ok (h.declare head.name value)
    exact hdeclare.bind fun _ ↦ ih htail

/-- Wherever the change is made, before a run or after it, the run ends in the same way. -/
theorem Program.run_changed {program : Program} (hprogram : program.mentions ⊆ names)
    (hmain : "main" ∈ names) (fuel : Nat) {state : State H}
    (hoffers : { state with module := {} }.Offers []) :
    SameEnd (fun first second ↦ second = first.mapGlobals change) (program.run fuel state)
      (program.run fuel (state.mapGlobals change)) := by
  obtain ⟨hfields, hmethods⟩ := List.append_subset.mp hprogram
  have hopened : State.Changed change [] { state with module := {} }
      { state.mapGlobals change with module := {} } := ⟨rfl, hoffers⟩
  have hinitialized := initializeFields_changed hchange fuel program.fields hfields _ _ hopened
  refine hinitialized.bind (fun _ _ h ↦ h.changed) fun _ first second h ↦ ?_
  have hcalled : Simulates (State.Changed change program.methods)
      (Run.function "main" 0 >>= fun main ↦ main.invoke fuel [] : Run H Value)
      (Run.function "main" 0 >>= fun main ↦ main.invoke fuel []) :=
    Run.function_changed hchange hmain
      (fun method hmem ↦ Callable.invoke_changed hchange hmethods fuel hmem [])
      (fun callable hplain ↦ Callable.invoke_changed_of_ne fuel hplain [])
  exact (hcalled _ _ (h.declareMethods program.methods)).imp fun _ _ h ↦ h.changed

end

end ScriptLang
