import ScriptLang.Proofs.Correspondence
import ScriptLang.Proofs.Execution.Frames
import ScriptLang.Proofs.Program.CallGraph

/-!
Programs without conditional loops and without recursion end, whatever host they run for. A loop
over a range fixes the count of its turns before the first, so that only calls could go on for ever;
and fuel for as many nested calls as the program has methods is never used up, since each call leads
to fewer methods than its caller does. What a call can stand for is settled by the scopes: block
scopes have no functions, the module has the methods of the program, and the host has no procedure.
-/

set_option autoImplicit false
set_option relaxedAutoImplicit false

namespace ScriptLang

/-! ### What a call can stand for -/

/-- The functions in sight are methods out of `methods`, under their names and counts of parameters,
and functions of the host. -/
structure State.Offers {H : Type} (methods : List Method) (state : State H) : Prop where
  locals : ∀ scope ∈ state.locals, scope.functions = {}
  suspended : ∀ frame ∈ state.suspended, ∀ scope ∈ frame, scope.functions = {}
  module : ∀ name arity callable, state.module.function? name arity = some callable →
    ∃ method ∈ methods, (method.name, method.params.length) = (name, arity) ∧
      callable = .procedure method.procedure
  globals : ∀ name arity definition,
    state.globals.function? name arity ≠ some (.procedure definition)

namespace State.Offers

variable {H : Type} {methods : List Method} {state after : State H}

/-- A function in sight is a method of the program under its own key, or no procedure at all: block
scopes have no functions, and the host has no procedure. -/
theorem function? (h : state.Offers methods) {name : String} {arity : Nat} {callable : Callable H}
    (hfound : state.chain.function? name arity = some callable) :
    (∃ method ∈ methods, (method.name, method.params.length) = (name, arity) ∧
        callable = .procedure method.procedure) ∨
      ∀ definition, callable ≠ .procedure definition := by
  have hlocals : Chain.function? state.locals name arity = none :=
    List.findSome?_eq_none_iff.mpr fun scope hscope ↦ by
      rw [Scope.function?, h.locals scope hscope]
      rfl
  unfold State.chain at hfound
  rw [Chain.function?_append, hlocals, Option.none_or, Chain.function?_cons] at hfound
  cases hmodule : state.module.function? name arity with
  | some found =>
    rw [hmodule] at hfound
    cases hfound
    exact .inl (h.module name arity _ hmodule)
  | none =>
    rw [hmodule, Option.none_or, Chain.function?_cons] at hfound
    right
    rintro definition rfl
    cases hglobals : state.globals.function? name arity with
    | some found =>
      rw [hglobals] at hfound
      cases hfound
      exact h.globals name arity definition hglobals
    | none =>
      rw [hglobals] at hfound
      cases hfound

/-- Nothing but the scopes matters. -/
theorem of_scopes (h : state.Offers methods) (objects : ObjectStore H) (sink : Sink) :
    { state with objects, sink }.Offers methods :=
  ⟨h.locals, h.suspended, h.module, h.globals⟩

/-- A declaration adds a value to the innermost scope and no function. -/
theorem declare (h : state.Offers methods) (name : String) (value : Value) :
    (state.declare name value).Offers methods := by
  unfold State.declare
  split
  · exact ⟨h.locals, h.suspended, h.module, h.globals⟩
  · rename_i scope outer hstate
    refine ⟨fun other hother ↦ ?_, h.suspended, h.module, h.globals⟩
    obtain rfl | houter := List.mem_cons.mp hother
    · exact h.locals scope (hstate ▸ List.mem_cons_self)
    · exact h.locals other (hstate ▸ List.mem_cons_of_mem _ houter)

theorem enterBlock (h : state.Offers methods) {scope : ValueScope H}
    (hscope : scope.functions = {}) :
    (state.enterBlock scope).Offers methods := by
  refine ⟨fun other hother ↦ ?_, h.suspended, h.module, h.globals⟩
  obtain rfl | houter := List.mem_cons.mp hother
  · exact hscope
  · exact h.locals other houter

theorem leaveBlock (h : state.Offers methods) : state.leaveBlock.Offers methods :=
  ⟨fun scope hscope ↦ h.locals scope (List.mem_of_mem_tail hscope), h.suspended, h.module,
    h.globals⟩

/-- The parameters of a call are values, so what is called sees the same methods as its caller. -/
theorem enterCall (h : state.Offers methods) {scope : ValueScope H}
    (hscope : scope.functions = {}) :
    (state.enterCall scope).Offers methods := by
  refine ⟨fun other hother ↦ ?_, fun frame hframe ↦ ?_, h.module, h.globals⟩
  · rw [List.mem_singleton.mp hother]
    exact hscope
  · obtain rfl | houter := List.mem_cons.mp hframe
    · exact h.locals
    · exact h.suspended frame houter

/-- The caller finds its own scopes again when a call is left. -/
theorem leaveCall (h : state.Offers methods) : state.leaveCall.Offers methods := by
  refine ⟨fun scope hscope ↦ ?_, fun frame hframe ↦ ?_, h.module, h.globals⟩
  · cases hsuspended : state.suspended with
    | nil =>
      rw [State.leaveCall, hsuspended] at hscope
      cases hscope
    | cons frame outer =>
      rw [State.leaveCall, hsuspended] at hscope
      exact h.suspended frame (hsuspended ▸ List.mem_cons_self) scope hscope
  · exact h.suspended frame (List.mem_of_mem_tail hframe)

/-- An assignment changes one value and no function. -/
theorem assign? (h : state.Offers methods) {name : String} {value : Value}
    (hassign : state.assign? name value = some after) : after.Offers methods := by
  have hscope {scope changed : ValueScope H} (hchanged : scope.assign? name value = some changed) :
      changed.functions = scope.functions := (Scope.SameNames.of_assign? hchanged).functions
  have hchain (chain changed : ValueChain H) (hchanged : chain.assign? name value = some changed)
      (hchain : ∀ scope ∈ chain, scope.functions = {}) :
      ∀ scope ∈ changed, scope.functions = {} := by
    induction chain generalizing changed with
    | nil => cases hchanged
    | cons head tail ih =>
      rw [Chain.assign?] at hchanged
      have hhead := hchain head List.mem_cons_self
      have htail := fun scope hmem ↦ hchain scope (List.mem_cons_of_mem _ hmem)
      cases hassigned : head.assign? name value with
      | some other =>
        rw [hassigned] at hchanged
        cases hchanged
        exact List.forall_mem_cons.mpr ⟨(hscope hassigned).trans hhead, htail⟩
      | none =>
        rw [hassigned] at hchanged
        obtain ⟨rest, hrest, rfl⟩ := Option.map_eq_some_iff.mp hchanged
        exact List.forall_mem_cons.mpr ⟨hhead, ih rest hrest htail⟩
  unfold State.assign? at hassign
  split at hassign
  · rename_i locals hlocals
    cases hassign
    exact ⟨hchain _ _ hlocals h.locals, h.suspended, h.module, h.globals⟩
  · split at hassign
    · rename_i module hmodule
      cases hassign
      refine ⟨h.locals, h.suspended, fun sought arity callable hfound ↦ ?_, h.globals⟩
      rw [Scope.function?, hscope hmodule] at hfound
      exact h.module sought arity callable hfound
    · obtain ⟨globals, hglobals, rfl⟩ := Option.map_eq_some_iff.mp hassign
      refine ⟨h.locals, h.suspended, h.module, fun sought arity definition ↦ ?_⟩
      rw [Scope.function?, hscope hglobals]
      exact h.globals sought arity definition

/-- Once the methods of a program are declared over a module without functions, they are what the
module offers. -/
theorem declareMethods (h : state.Offers []) (methods : List Method) :
    (state.declareMethods methods).Offers methods := by
  refine ⟨h.locals, h.suspended, ?_, h.globals⟩
  have hfold (rest : List Method) (hrest : rest ⊆ methods) (module : ValueScope H)
      (hmodule : ∀ name arity callable, module.function? name arity = some callable →
        ∃ method ∈ methods, (method.name, method.params.length) = (name, arity) ∧
          callable = .procedure method.procedure) :
      ∀ name arity callable, (rest.foldl (fun module method ↦
          module.declareFunction method.name method.params.length (.procedure method.procedure))
          module).function? name arity = some callable →
        ∃ method ∈ methods, (method.name, method.params.length) = (name, arity) ∧
          callable = .procedure method.procedure := by
    induction rest generalizing module with
    | nil => exact hmodule
    | cons head tail ih =>
      obtain ⟨hhead, htail⟩ := List.cons_subset.mp hrest
      refine ih htail _ fun name arity callable hfound ↦ ?_
      rw [Scope.function?_declareFunction] at hfound
      split at hfound
      · rename_i hkey
        cases hfound
        exact ⟨head, hhead, hkey.symm, rfl⟩
      · exact hmodule name arity callable hfound
  refine hfold methods (List.Subset.refl _) state.module fun name arity callable hfound ↦ ?_
  obtain ⟨method, hmethod, -⟩ := h.module name arity callable hfound
  cases hmethod

end State.Offers

/-! ### Runs that end -/

namespace Run

variable {H α β : Type}

/-- From every state that satisfies `before`, the run ends: in a state that satisfies `after`, or
with an error. -/
def Finishes (before after : State H → Prop) (body : Run H α) : Prop :=
  ∀ state, before state →
    match body state with
    | .ok _ later => after later
    | .error cause _ => cause ≠ .outOfFuel

variable {before middle after : State H → Prop}

theorem Finishes.pure (value : α) : (Pure.pure value : Run H α).Finishes before before :=
  fun _ h ↦ h

theorem Finishes.fail (cause : RuntimeError) : (Run.fail cause : Run H α).Finishes before after :=
  fun _ _ h ↦ by cases h

/-- A result that is there already ends with that result or its failure. -/
theorem Finishes.ofExcept (result : Except RuntimeError α) :
    (Run.ofExcept result : Run H α).Finishes before before := by
  cases result with
  | ok value => exact .pure value
  | error cause => exact .fail cause

/-- The second part need only end for values that the first can give. -/
theorem Finishes.bind {body : Run H α} {next : α → Run H β} (hbody : body.Finishes before middle)
    (hnext : ∀ value, (∃ state later, body state = .ok value later) →
      (next value).Finishes middle after) : (body >>= next).Finishes before after := by
  intro state hstate
  have hfirst := hbody state hstate
  cases hrun : body state with
  | ok value later =>
    rw [hrun] at hfirst
    rw [Stateful.bind_of_ok hrun]
    exact hnext value ⟨state, later, hrun⟩ later hfirst
  | error cause later =>
    rw [hrun] at hfirst
    rw [Stateful.bind_of_error hrun]
    exact hfirst

/-- A computation between entering and leaving ends if it does so by itself, from what entering
gives to what leaving needs. -/
theorem Finishes.within {body : Run H α} {enter leave : State H → State H}
    (hbody : body.Finishes middle middle) (henter : ∀ state, before state → middle (enter state))
    (hleave : ∀ state, middle state → after (leave state)) :
    (within enter leave body).Finishes before after := by
  intro state hstate
  have hinner := hbody (enter state) (henter state hstate)
  unfold Run.within
  cases hrun : body (enter state) with
  | ok value later =>
    rw [hrun] at hinner
    exact hleave later hinner
  | error cause later =>
    rw [hrun] at hinner
    exact hinner

/-- The count of the turns is known before the first of them. -/
theorem Finishes.forRange {body : Int → Run H Flow}
    (hbody : ∀ item, (body item).Finishes before before)
    (count : Nat) (start : Int) : (forRange body count start).Finishes before before := by
  induction count generalizing start with
  | zero => exact .pure _
  | succ count ih =>
    refine (hbody start).bind fun flow _ ↦ ?_
    cases flow with
    | next => exact ih (start + 1)
    | returned value => exact .pure _

variable {methods : List Method}

/-- A block ends if its body ends, and what can be called afterwards is what could be called
before. -/
theorem block_finishes {scope : ValueScope H} (hscope : scope.functions = {}) {body : Run H α}
    (hbody : body.Finishes (State.Offers methods) (State.Offers methods)) :
    (block scope body).Finishes (State.Offers methods) (State.Offers methods) :=
  hbody.within (fun _ h ↦ h.enterBlock hscope) fun _ h ↦ h.leaveBlock

/-- A call ends if the body ends in the scopes of its own, and the caller sees the same methods
again. -/
theorem call_finishes {scope : ValueScope H} (hscope : scope.functions = {}) {body : Run H α}
    (hbody : body.Finishes (State.Offers methods) (State.Offers methods)) :
    (call scope body).Finishes (State.Offers methods) (State.Offers methods) :=
  hbody.within (fun _ h ↦ h.enterCall hscope) fun _ h ↦ h.leaveCall

/-- A variable is found or it is not, and the state stays as it is. -/
theorem lookup_finishes (name : String) :
    (lookup name : Run H Value).Finishes before before := by
  intro state h
  rw [lookup_apply]
  cases state.chain.lookup? name with
  | some value => exact h
  | none => nofun

/-- An assignment ends and changes no function. -/
theorem assign_finishes (name : String) (value : Value) :
    (assign name value : Run H Unit).Finishes (State.Offers methods) (State.Offers methods) := by
  intro state h
  rw [assign_apply]
  cases hassign : state.assign? name value with
  | some later => exact h.assign? hassign
  | none => nofun

/-- A field is read or the read fails, and the state stays as it is. -/
theorem field_finishes (ref : ObjectRef) (name : String) :
    (field ref name : Run H Value).Finishes before before := by
  intro state h
  rw [field_apply]
  exact Finishes.ofExcept _ state h

/-- A field of an object is set without a change to any scope. -/
theorem setField_finishes (ref : ObjectRef) (name : String) (value : Value) :
    (setField ref name value : Run H Unit).Finishes (State.Offers methods)
      (State.Offers methods) := by
  intro state h
  rw [setField_apply]
  cases state.objects.setField ref name value with
  | ok objects => exact h.of_scopes objects state.sink
  | error cause => nofun

/-- A line is printed or the sink fails, and no scope is changed. -/
theorem print_finishes (line : String) :
    (print line : Run H Unit).Finishes (State.Offers methods) (State.Offers methods) := by
  intro state h
  rw [print_apply]
  cases state.sink.print line with
  | ok sink => exact h.of_scopes state.objects sink
  | error cause => nofun

/-- A function of the host ends, and all that it can change is objects and output. -/
theorem host_finishes [Host H] (body : H) (args : List Value) :
    (host body args).Finishes (State.Offers methods) (State.Offers methods) := by
  intro state h
  unfold host
  obtain ⟨result, objects⟩ := Host.run body args state.objects
  cases result with
  | ok value => exact h.of_scopes objects state.sink
  | error cause => nofun

/-- A call by name ends if it does for each method it can stand for, and for all that is no
procedure. -/
theorem function_finishes {invoke : Callable H → List Value → Run H Value} {name : String}
    {arity : Nat} {args : List Value}
    (hmethod : ∀ method ∈ methods, (method.name, method.params.length) = (name, arity) →
      (invoke (.procedure method.procedure) args).Finishes (State.Offers methods)
        (State.Offers methods))
    (hplain : ∀ callable, (∀ definition, callable ≠ .procedure definition) →
      (invoke callable args).Finishes (State.Offers methods) (State.Offers methods)) :
    (function name arity >>= fun callable ↦ invoke callable args).Finishes
      (State.Offers methods) (State.Offers methods) := by
  intro state h
  cases hfound : state.chain.function? name arity with
  | none =>
    have hfailed : function name arity state =
        .error (.failed (.undefinedFunction name arity)) state := by
      rw [function_apply, hfound]
    rw [Stateful.bind_of_error hfailed]
    nofun
  | some callable =>
    have hrun : function name arity state = .ok callable state := by
      rw [function_apply, hfound]
    rw [Stateful.bind_of_ok hrun]
    obtain ⟨method, hmem, hnamed, rfl⟩ | hother := h.function? hfound
    · exact hmethod method hmem hnamed state h
    · exact hplain callable hother state h

end Run

/-! ### Trees whose calls end -/

section

variable {H : Type} {methods : List Method} {invoke : Callable H → List Value → Run H Value}
  {keys : List (String × Nat)}
  (hcall : ∀ name values, (name, values.length) ∈ keys →
    (Run.function name values.length >>= fun callable ↦ invoke callable values).Finishes
      (State.Offers methods) (State.Offers methods))
  (hhost : ∀ function args,
    (invoke (.host function) args).Finishes (State.Offers methods) (State.Offers methods))

/-- As many values are computed as there are arguments, so that a call asks for the key that its
text shows. -/
theorem evalArgsWith_length {args : List Expr} {values : List Value} {state later : State H}
    (hrun : evalArgsWith invoke args state = .ok values later) : values.length = args.length := by
  induction args generalizing values state later with
  | nil =>
    cases hrun
    rfl
  | cons head tail ih =>
    rw [evalArgsWith] at hrun
    obtain ⟨value, middle, -, hrun⟩ := Stateful.bind_eq_ok hrun
    obtain ⟨rest, last, hrest, hrun⟩ := Stateful.bind_eq_ok hrun
    cases hrun
    exact congrArg Nat.succ (ih hrest)

include hcall hhost

-- A mutual recursion over the tree does not name the hypotheses that it shares.
set_option linter.unusedSectionVars false

/-- A method of an object is host code, so that calling it ends without any fuel for the program. -/
theorem method_finishes (ref : ObjectRef) (name : String) (arity : Nat) (args : List Value) :
    (Run.method ref name arity >>= fun callable ↦ invoke callable args).Finishes
      (State.Offers methods) (State.Offers methods) := by
  intro state h
  cases hmethod : state.objects.method ref name arity with
  | ok function =>
    have hfound : Run.method ref name arity state = .ok (.host function) state := by
      rw [Run.method_apply, hmethod]
    rw [Stateful.bind_of_ok hfound]
    exact hhost function args state h
  | error cause =>
    have hfailed : Run.method ref name arity state = .error (.failed cause) state := by
      rw [Run.method_apply, hmethod]
    rw [Stateful.bind_of_error hfailed]
    nofun

mutual

/-- An expression ends if all that it calls does. The recursion follows the tree, since an
expression computes each of its parts once. -/
theorem Expr.evalWith_finishes : ∀ expr : Expr, expr.callees ⊆ keys →
    (expr.evalWith invoke).Finishes (State.Offers methods) (State.Offers methods)
  | .literal _ value, _ => .pure _
  | .group _ inner, h => inner.evalWith_finishes h
  | .binary _ op left right, h => by
    obtain ⟨hleft, hright⟩ := List.append_subset.mp h
    rw [Expr.evalWith]
    refine (left.evalWith_finishes hleft).bind fun first _ ↦ ?_
    split
    · refine (Run.Finishes.ofExcept _).bind fun holds _ ↦ ?_
      split
      · exact .pure _
      · refine (right.evalWith_finishes hright).bind fun second _ ↦ ?_
        exact (Run.Finishes.ofExcept _).bind fun _ _ ↦ .pure _
    · exact (right.evalWith_finishes hright).bind fun second _ ↦ .ofExcept _
  | .access _ name _, _ => Run.lookup_finishes name
  | .member _ receiver name _, h =>
    (receiver.evalWith_finishes h).bind fun _ _ ↦
      (Run.Finishes.ofExcept _).bind fun ref _ ↦ Run.field_finishes ref name
  | .call _ name args _, h => by
    obtain ⟨hname, hargs⟩ := List.cons_subset.mp h
    refine (evalArgsWith_finishes args hargs).bind fun values hvalues ↦ ?_
    obtain ⟨state, later, hrun⟩ := hvalues
    exact hcall name values (evalArgsWith_length hrun ▸ hname)
  | .invoke _ receiver name args _, h => by
    obtain ⟨hreceiver, hargs⟩ := List.append_subset.mp h
    refine (receiver.evalWith_finishes hreceiver).bind fun object _ ↦ ?_
    refine (evalArgsWith_finishes args hargs).bind fun values _ ↦ ?_
    refine (Run.Finishes.ofExcept _).bind fun ref _ ↦ ?_
    exact method_finishes hcall hhost ref name _ _

/-- Arguments are computed one after another, and each ends. -/
theorem evalArgsWith_finishes : ∀ args : List Expr, argCallees args ⊆ keys →
    (evalArgsWith invoke args).Finishes (State.Offers methods) (State.Offers methods)
  | [], _ => .pure _
  | head :: tail, h => by
    obtain ⟨hhead, htail⟩ := List.append_subset.mp h
    rw [evalArgsWith]
    exact (head.evalWith_finishes hhead).bind fun _ _ ↦
      (evalArgsWith_finishes tail htail).bind fun _ _ ↦ .pure _

end

/-- A declaration ends with the value that is written, or with NIL if none is. -/
theorem Binding.evalWith_finishes (binding : Binding) (h : binding.callees ⊆ keys) :
    (binding.evalWith invoke).Finishes (State.Offers methods) (State.Offers methods) := by
  unfold Binding.callees at h
  unfold Binding.evalWith
  split
  · rename_i value hvalue
    rw [hvalue] at h
    exact Expr.evalWith_finishes hcall hhost value h
  · exact .pure _

/-- An assignment ends: the value is computed first, then the target. -/
theorem Expr.assignWith_finishes (target value : Expr)
    (h : value.callees ++ target.callees ⊆ keys) :
    (target.assignWith invoke value).Finishes (State.Offers methods) (State.Offers methods) := by
  obtain ⟨hvalue, htarget⟩ := List.append_subset.mp h
  unfold Expr.assignWith
  split
  · exact (value.evalWith_finishes hcall hhost hvalue).bind
      fun value _ ↦ Run.assign_finishes _ value
  · rename_i receiver name _
    refine (value.evalWith_finishes hcall hhost hvalue).bind fun value _ ↦ ?_
    refine (receiver.evalWith_finishes hcall hhost htarget).bind fun object _ ↦ ?_
    exact (Run.Finishes.ofExcept _).bind fun ref _ ↦ Run.setField_finishes ref name value
  · exact .fail _

theorem Expr.conditionWith_finishes (condition : Expr) (h : condition.callees ⊆ keys) :
    (condition.conditionWith invoke).Finishes (State.Offers methods) (State.Offers methods) :=
  (condition.evalWith_finishes hcall hhost h).bind fun _ _ ↦ .ofExcept _

variable (fuel : Nat)

mutual

/-- A statement without a conditional loop ends if all that it calls does; a loop over a range has
as many turns as the range has numbers. -/
theorem Stmt.execWith_finishes : ∀ statement : Stmt, statement.loopFree = true →
    statement.callees ⊆ keys →
    (statement.execWith invoke fuel).Finishes (State.Offers methods) (State.Offers methods)
  | .expr value, _, h => by
    rw [Stmt.execWith, Stateful.discard_eq]
    exact ((value.evalWith_finishes hcall hhost h).bind fun _ _ ↦ .pure _).bind fun _ _ ↦ .pure _
  | .declare binding, _, h => by
    rw [Stmt.execWith]
    refine (binding.evalWith_finishes hcall hhost h).bind fun value _ ↦ ?_
    exact fun state hstate ↦ hstate.declare binding.name value
  | .assign target value, _, h => by
    rw [Stmt.execWith]
    exact (target.assignWith_finishes hcall hhost value h).bind fun _ _ ↦ .pure _
  | .branch condition thenBody elseBody, hloop, h => by
    obtain ⟨hthenLoop, helseLoop⟩ := Bool.and_eq_true_iff.mp hloop
    obtain ⟨hcondition, hbodies⟩ := List.append_subset.mp h
    obtain ⟨hthen, helse⟩ := List.append_subset.mp hbodies
    rw [Stmt.execWith]
    refine (condition.conditionWith_finishes hcall hhost hcondition).bind fun holds _ ↦ ?_
    split
    · exact Run.block_finishes rfl (execAllWith_finishes thenBody hthenLoop hthen)
    · exact Run.block_finishes rfl (execAllWith_finishes elseBody helseLoop helse)
  | .forEach _ name iterable body, hloop, h => by
    obtain ⟨hiterable, hbody⟩ := List.append_subset.mp h
    rw [Stmt.execWith]
    refine (iterable.evalWith_finishes hcall hhost hiterable).bind fun _ _ ↦ ?_
    refine (Run.Finishes.ofExcept _).bind fun bounds _ ↦ ?_
    exact .forRange (fun item ↦ Run.block_finishes rfl (execAllWith_finishes body hloop hbody)) _ _
  | .ret value, _, h => by
    rw [Stmt.execWith]
    exact (value.evalWith_finishes hcall hhost h).bind fun _ _ ↦ .pure _

/-- Statements end one after another, up to the first that returns. -/
theorem execAllWith_finishes : ∀ statements : List Stmt, blockLoopFree statements = true →
    blockCallees statements ⊆ keys →
    (execAllWith invoke fuel statements).Finishes (State.Offers methods) (State.Offers methods)
  | [], _, _ => .pure _
  | head :: tail, hloop, h => by
    obtain ⟨hheadLoop, htailLoop⟩ := Bool.and_eq_true_iff.mp hloop
    obtain ⟨hhead, htail⟩ := List.append_subset.mp h
    rw [execAllWith]
    refine (head.execWith_finishes hheadLoop hhead).bind fun flow _ ↦ ?_
    cases flow with
    | next => exact execAllWith_finishes tail htailLoop htail
    | returned value => exact .pure _

end

end

/-! ### Calls -/

section

variable {H : Type} [Host H]

omit [Host H] in
/-- A scope of parameters has values only. -/
theorem Callable.functions_parameterScope (params : List String) (args : List Value) :
    (parameterScope params args : ValueScope H).functions = {} := by
  unfold parameterScope
  refine List.foldlRecOn (motive := fun scope : ValueScope H ↦ scope.functions = {}) _ _ rfl ?_
  exact fun _ hscope _ _ ↦ hscope

variable {methods : List Method}

/-- A callable ends if the bodies of procedures do: the host's functions, `print` and `range` end by
themselves. -/
theorem Callable.perform_finishes {run : List Stmt → Run H Flow} {callable : Callable H}
    (hrun : ∀ definition, callable = .procedure definition →
      (run definition.body).Finishes (State.Offers methods) (State.Offers methods))
    (args : List Value) :
    (callable.perform run args).Finishes (State.Offers methods) (State.Offers methods) := by
  by_cases harity : args.length = callable.arity
  · revert hrun
    refine Callable.cases_of_arity callable args harity ?_ ?_ ?_ ?_
    · exact fun value _ ↦ (Run.print_finishes value.display).bind fun _ _ ↦ .pure _
    · exact fun start stop _ ↦ (Run.Finishes.ofExcept _).bind fun _ _ ↦
        (Run.Finishes.ofExcept _).bind fun _ _ ↦ .pure _
    · intro function args harity _
      rw [Callable.perform_host run harity]
      exact Run.host_finishes function.body args
    · intro definition args harity hrun
      rw [Callable.perform_procedure run harity]
      refine Run.call_finishes (Callable.functions_parameterScope _ _) ?_
      refine (hrun definition rfl).bind fun flow _ ↦ ?_
      cases flow <;> exact .pure _
  · rw [Callable.perform_of_ne run harity]
    exact .fail _

/-- What is no procedure uses no fuel, so it ends with any amount of it. -/
theorem Callable.invoke_finishes_of_ne (fuel : Nat) {callable : Callable H}
    (hplain : ∀ definition, callable ≠ .procedure definition) (args : List Value) :
    (callable.invoke fuel args).Finishes (State.Offers methods) (State.Offers methods) := by
  have habsurd (run : List Stmt → Run H Flow) :
      (callable.perform run args).Finishes (State.Offers methods) (State.Offers methods) :=
    perform_finishes (fun definition h ↦ absurd h (hplain definition)) args
  cases fuel with
  | zero => exact habsurd _
  | succ fuel => exact habsurd _

variable {program : Program} (hloops : program.loopFree = true) (hacyclic : program.Acyclic)

include hloops hacyclic

/-- A method ends if there is fuel for as many nested calls as there are methods it leads to. The
induction is on the fuel: what the method calls leads to fewer methods. -/
theorem Callable.invoke_finishes (fuel : Nat) {method : Method} (hmethod : method ∈ program.methods)
    (hfuel : program.rank method < fuel) (args : List Value) :
    ((Callable.procedure method.procedure : Callable H).invoke fuel args).Finishes
      (State.Offers program.methods) (State.Offers program.methods) := by
  induction fuel generalizing method args with
  | zero => exact absurd hfuel (Nat.not_lt_zero _)
  | succ fuel ih =>
    refine perform_finishes (fun definition hdefinition ↦ ?_) args
    cases hdefinition
    have hfree := List.all_eq_true.mp hloops method hmethod
    have hhost (function : HostFunction H) (args : List Value) :
        ((Callable.host function).invoke fuel args).Finishes (State.Offers program.methods)
          (State.Offers program.methods) := invoke_finishes_of_ne fuel (fun _ h ↦ by cases h) args
    refine execAllWith_finishes (fun name values hkey ↦ ?_) hhost fuel method.body hfree
      (List.Subset.refl _)
    refine Run.function_finishes (fun callee hcallee hnamed ↦ ?_) fun callable hplain ↦
      invoke_finishes_of_ne fuel hplain values
    have hless := Program.rank_lt hacyclic ⟨hmethod, hcallee, hnamed ▸ hkey⟩
    exact ih hcallee (hless.trans_le (Nat.le_of_lt_succ hfuel)) values

end

/-! ### Whole programs -/

section

variable {H : Type} [Host H] (fuel : Nat)

/-- Fields are evaluated before the module has a function. -/
theorem initializeFields_finishes (fields : List Binding) :
    (initializeFields fuel fields : Run H Unit).Finishes (State.Offers []) (State.Offers []) := by
  induction fields with
  | nil => exact .pure _
  | cons head tail ih =>
    rw [initializeFields]
    refine (head.evalWith_finishes (fun name values _ ↦ ?_)
      (fun function args ↦ Callable.invoke_finishes_of_ne fuel (fun _ h ↦ by cases h) args)
      (List.Subset.refl _)).bind fun value _ ↦ ?_
    · exact Run.function_finishes (fun _ hmethod ↦ by cases hmethod) fun callable hplain ↦
        Callable.invoke_finishes_of_ne fuel hplain values
    · have hdeclare : (modify (·.declare head.name value) : Run H Unit).Finishes
          (State.Offers []) (State.Offers []) := fun state hstate ↦ hstate.declare head.name value
      exact hdeclare.bind fun _ _ ↦ ih

/-- Fuel for as many nested calls as there are methods is enough for the whole program. -/
theorem Program.run_finishes {program : Program} (hloops : program.loopFree = true)
    (hacyclic : program.Acyclic) (hfuel : program.methods.length ≤ fuel) :
    (program.run fuel : Run H Value).Finishes
      (fun state ↦ { state with module := {} }.Offers []) (State.Offers program.methods) := by
  have hopen : (modify ({ · with module := {} }) : Run H Unit).Finishes
      (fun state ↦ { state with module := {} }.Offers []) (State.Offers []) := fun _ h ↦ h
  have hdeclare : (modify (·.declareMethods program.methods) : Run H Unit).Finishes
      (State.Offers []) (State.Offers program.methods) := fun _ h ↦ h.declareMethods _
  refine hopen.bind fun _ _ ↦ (initializeFields_finishes fuel program.fields).bind fun _ _ ↦
    hdeclare.bind fun _ _ ↦ ?_
  refine Run.function_finishes (fun method hmethod _ ↦ ?_) fun callable hplain ↦
    Callable.invoke_finishes_of_ne fuel hplain []
  have hrank := Program.rank_lt_length hacyclic hmethod
  exact Callable.invoke_finishes hloops hacyclic fuel hmethod (hrank.trans_le hfuel) []

end

end ScriptLang
