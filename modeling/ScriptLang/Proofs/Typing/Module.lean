import ScriptLang.Proofs.Execution.Moment
import ScriptLang.Proofs.Typing.Preservation

/-!
The module of a running program. Its fields are declared one after the other in the same order as
they are checked, and its methods, all at once, under the signatures that were checked. So the state
follows the checked module before each field and when `main` is called.
-/

set_option autoImplicit false
set_option relaxedAutoImplicit false

namespace ScriptLang

/-- Each parameter has the name of a type. -/
def Method.Paired (method : Method) : Prop := method.paramTypes.length = method.params.length

def Program.Paired (program : Program) : Prop := ∀ method ∈ program.methods, method.Paired

/-- A signature has as many parameters as there are types in the head of the method. -/
theorem Method.signature_arity {context : TypeContext} {method : Method} {signature : Signature Ty}
    (hsignature : method.signature context = .ok signature) :
    signature.arity = method.paramTypes.length := by
  obtain ⟨-, htypes, -⟩ := Method.signature_eq_ok.mp hsignature
  exact htypes.length_eq.symm

/-- A scope that has no functions yet. -/
def TypeScope.Plain (scope : TypeScope) : Prop := ∀ name arity, scope.function? name arity = none

section

variable {context : TypeContext}

/-- A declaration of a variable adds no function to its scope. -/
theorem Binding.check_plain {binding : Binding} {outer : TypeChain} {here after : TypeScope}
    (hcheck : binding.check context outer here = .ok after) (hplain : here.Plain) :
    after.Plain := by
  obtain ⟨type, -, hadd⟩ := Binding.check_eq_ok.mp hcheck
  obtain ⟨-, rfl⟩ := TypeScope.add_eq_ok.mp hadd
  exact hplain

/-- The fields of a module add no function to it. -/
theorem checkFields_plain {fields : List Binding} {module after : TypeScope}
    (hcheck : checkFields context module fields = .ok after) (hplain : module.Plain) :
    after.Plain := by
  induction fields generalizing module with
  | nil =>
    cases hcheck
    exact hplain
  | cons head tail ih =>
    obtain ⟨behind, hhead, htail⟩ := checkFields_cons.mp hcheck
    exact ih htail (head.check_plain hhead hplain)

/-- Each field of accepted ones is accepted behind those before it. -/
theorem checkFields_getElem? {fields : List Binding} {module after : TypeScope} {index : Nat}
    {field : Binding} (hcheck : checkFields context module fields = .ok after)
    (hfield : fields[index]? = some field) :
    ∃ before behind, checkFields context module (fields.take index) = .ok before ∧
      field.check context [context.globals] before = .ok behind := by
  induction fields generalizing module index with
  | nil => simp at hfield
  | cons head tail ih =>
    obtain ⟨behind, hhead, htail⟩ := checkFields_cons.mp hcheck
    cases index with
    | zero =>
      rw [List.getElem?_cons_zero, Option.some_inj] at hfield
      subst hfield
      exact ⟨module, behind, rfl, hhead⟩
    | succ index =>
      rw [List.getElem?_cons_succ] at hfield
      obtain ⟨before, last, hbefore, hlast⟩ := ih htail hfield
      exact ⟨before, last, checkFields_cons.mpr ⟨behind, hhead, hbefore⟩, hlast⟩

/-- A function that is there before the methods are declared stays there: a method of its key would
be rejected. -/
theorem declareMethods_keeps {methods : List Method} {fields module : TypeScope} {name : String}
    {arity : Nat} {signature : Signature Ty}
    (hmodule : declareMethods context fields methods = .ok module)
    (hfound : fields.function? name arity = some signature) :
    module.function? name arity = some signature := by
  unfold declareMethods at hmodule
  induction methods generalizing fields with
  | nil =>
    cases hmodule
    exact hfound
  | cons head tail ih =>
    rw [List.foldlM_cons] at hmodule
    obtain ⟨behind, hbehind, htail⟩ := except_bind_eq_ok.mp hmodule
    obtain ⟨other, -, hnew, rfl⟩ := Method.declare_eq_ok.mp hbehind
    refine ih htail ?_
    rw [Scope.function?_declareFunction, if_neg]
    · exact hfound
    · intro hkey
      obtain ⟨rfl, rfl⟩ := Prod.mk.inj hkey
      rw [hnew] at hfound
      cases hfound

/-- Every method of an accepted module can be called by its name and count of parameters. -/
theorem declareMethods_function? {methods : List Method} {fields module : TypeScope}
    (hmodule : declareMethods context fields methods = .ok module) {method : Method}
    (hmethod : method ∈ methods) : ∃ signature, method.signature context = .ok signature ∧
      module.function? method.name signature.arity = some signature := by
  induction methods generalizing fields with
  | nil => cases hmethod
  | cons head tail ih =>
    unfold declareMethods at hmodule
    rw [List.foldlM_cons] at hmodule
    obtain ⟨behind, hbehind, htail⟩ := except_bind_eq_ok.mp hmodule
    obtain heq | htailMember := List.mem_cons.mp hmethod
    · subst heq
      obtain ⟨signature, hsignature, -, rfl⟩ := Method.declare_eq_ok.mp hbehind
      refine ⟨signature, hsignature, declareMethods_keeps htail ?_⟩
      rw [Scope.function?_declareFunction, if_pos rfl]
    · exact ih htail htailMember

/-- The call of the entry of an accepted program has the type `Integer`. -/
theorem Program.entry_infer {program : Program} {fields module : TypeScope}
    (hpaired : program.Paired) (hmain : program.methods.any Method.isMain = true)
    (hmodule : declareMethods context fields program.methods = .ok module) :
    entry.infer [module, context.globals] = .ok .integer := by
  obtain ⟨method, hmethod, hentry⟩ := List.any_eq_true.mp hmain
  unfold Method.isMain at hentry
  obtain ⟨hname, hreturn⟩ := Bool.and_eq_true_iff.mp hentry
  obtain ⟨hname, hparams⟩ := Bool.and_eq_true_iff.mp hname
  obtain ⟨signature, hsignature, hfound⟩ := declareMethods_function? hmodule hmethod
  have harity : signature.arity = 0 := by
    rw [Method.signature_arity hsignature, hpaired method hmethod, List.isEmpty_iff.mp hparams]
    rfl
  have hreturns : signature.returns = .integer := by
    unfold Method.signature at hsignature
    rw [beq_iff_eq.mp hreturn] at hsignature
    obtain ⟨params, -, hsignature⟩ := except_bind_eq_ok.mp hsignature
    obtain ⟨result, hresult, hsignature⟩ := except_bind_eq_ok.mp hsignature
    cases hresult
    cases hsignature
    rfl
  rw [beq_iff_eq.mp hname, harity] at hfound
  refine Expr.infer_call.mpr ⟨signature, ?_, rfl, hreturns⟩
  rw [Chain.function?_cons, List.length_nil, hfound]
  rfl

variable {H : Type} [Host H] {discipline : Discipline H context} {methods : List Method}
  {module : TypeScope} {world : discipline.World} {state : State H}

namespace Discipline.Follows

/-- While a module has no functions, it does not matter which module its functions would be of. -/
theorem declareField (h : discipline.Follows methods module [] world state) (hplain : module.Plain)
    (name : String) {type : Ty} {value : Value}
    (hholds : discipline.Holds world ⟨name, type⟩ value) :
    discipline.Follows methods (module.declare name ⟨name, type⟩) [] world
      (state.declare name value) := by
  have hlocals : state.locals = [] := by
    have hlocals := h.locals
    cases hstate : state.locals with
    | nil => rfl
    | cons scope outer =>
      rw [hstate] at hlocals
      cases hlocals
  have hdeclare : state.declare name value =
      { state with module := state.module.declare name value } := by
    unfold State.declare
    rw [hlocals]
  rw [hdeclare]
  refine ⟨h.locals, ?_, h.globals, h.objects, h.settled⟩
  refine (h.module.declare name hholds).mono fun sought arity first second hfound _ ↦ ?_
  rw [Scope.function?_declare, hplain] at hfound
  cases hfound

/-- When the methods of an accepted module have been declared, the state follows the module. Nothing
has to be known of functions before, as the fields add none. -/
theorem declareMethods {fields : TypeScope} (h : discipline.Follows methods fields [] world state)
    (hplain : fields.Plain)
    (hmodule : ScriptLang.declareMethods context fields methods = .ok module)
    (hpaired : ∀ method ∈ methods, method.Paired)
    (hbodies : ∀ method ∈ methods, method.check context module = .ok ()) :
    discipline.Follows methods module [] world (state.declareMethods methods) := by
  have hstart : Scope.Follows (discipline.Holds world) (Provides context methods module) fields
      state.module := by
    refine h.module.mono fun name arity first second hfound _ ↦ ?_
    rw [hplain] at hfound
    cases hfound
  -- The methods that are still to be declared are among all of them.
  have hdeclared (rest : List Method) (hrest : ∀ method ∈ rest, method ∈ methods)
      (before : TypeScope) (scope : ValueScope H)
      (hbefore : Scope.Follows (discipline.Holds world) (Provides context methods module) before
        scope)
      (hafter : ScriptLang.declareMethods context before rest = .ok module) :
      Scope.Follows (discipline.Holds world) (Provides context methods module) module
        (rest.foldl (fun scope method ↦ scope.declareFunction method.name method.params.length
          (.procedure method.procedure)) scope) := by
    induction rest generalizing before scope with
    | nil =>
      cases hafter
      exact hbefore
    | cons head tail ih =>
      unfold ScriptLang.declareMethods at hafter
      rw [List.foldlM_cons] at hafter
      obtain ⟨behind, hbehind, htail⟩ := except_bind_eq_ok.mp hafter
      obtain ⟨signature, hsignature, -, rfl⟩ := Method.declare_eq_ok.mp hbehind
      rw [List.forall_mem_cons] at hrest
      have harity : signature.arity = head.params.length :=
        (Method.signature_arity hsignature).trans (hpaired head hrest.1)
      rw [harity] at htail
      have hfound := declareMethods_keeps htail
        (by rw [Scope.function?_declareFunction, if_pos rfl])
      exact ih hrest.2 _ _ (hbefore.declareFunction head.name head.params.length
        (.intro hrest.1 hsignature harity hfound (hbodies head hrest.1))) htail
  exact ⟨h.locals, hdeclared methods (fun _ hmem ↦ hmem) fields state.module hstart hmodule,
    h.globals, h.objects, h.settled⟩

end Discipline.Follows

/-- Fields are evaluated in the scopes in which they were checked. -/
theorem initializeFields_follows {fuel : Nat} {fields : List Binding} {after : TypeScope}
    (hcheck : checkFields context module fields = .ok after) (hplain : module.Plain)
    (hsettled : ∀ field ∈ fields, discipline.Settles field)
    (hstate : discipline.Follows methods module [] world state) :
    (initializeFields fuel fields).EnsuresIn world state
      (fun later _ ↦ discipline.Follows methods after [] later)
      (fun later last ↦ ∃ reached count,
        checkFields context module (fields.take count) = .ok reached ∧
          discipline.Follows methods reached [] later last) := by
  induction fields generalizing module world state with
  | nil =>
    cases hcheck
    exact .pure hstate
  | cons head tail ih =>
    obtain ⟨behind, hhead, htail⟩ := checkFields_cons.mp hcheck
    obtain ⟨type, htype, hadd⟩ := Binding.check_eq_ok.mp hhead
    have hbehind := head.check_plain hhead hplain
    obtain ⟨-, rfl⟩ := TypeScope.add_eq_ok.mp hadd
    rw [List.forall_mem_cons] at hsettled
    refine .bind ((Binding.evalWith_gives (Callable.invoke_serves fuel) hstate rfl hsettled.1
      htype).mono (fun later value middle _ hvalue ↦ ?_) fun _ last _ hlast ↦
        ⟨module, 0, rfl, hlast⟩)
    refine .bind (.of_ok rfl ?_)
    refine (ih htail hbehind hsettled.2 (hvalue.2.declareField hplain head.name hvalue.1)).mono
      (fun _ _ _ _ h ↦ h) fun _ last _ hlast ↦ ?_
    obtain ⟨reached, count, hreached, hfollows⟩ := hlast
    exact ⟨reached, count + 1, checkFields_cons.mpr ⟨_, hhead, hreached⟩, hfollows⟩

/-- A run ends with the call of the entry. -/
theorem Program.run_eq (program : Program) (fuel : Nat) :
    (program.run fuel : Run H Value) = (do
      modify opened
      initializeFields fuel program.fields
      modify (·.declareMethods program.methods)
      entry.eval fuel) := rfl

/-- The module of a program at some time of its run: it has the first fields, or it is complete. -/
def Program.Grows (context : TypeContext) (program : Program) (module : TypeScope) : Prop :=
  ∃ count fields, checkFields context {} (program.fields.take count) = .ok fields ∧
    (module = fields ∨ declareMethods context fields program.methods = .ok module)

/-- An accepted program runs to a value of `main` that fits its type. -/
theorem Program.run_settled {program : Program} (fuel : Nat) (hpaired : program.Paired)
    (hcheck : program.check context = .ok ())
    (hsettled : ∀ field ∈ program.fields, discipline.Settles field)
    (hstart : discipline.Follows program.methods {} [] world (opened state)) :
    (program.run fuel).EnsuresIn world state
      (fun later value after ↦ discipline.fits later .integer value ∧ ∃ module,
        program.Grows context module ∧ discipline.Follows program.methods module [] later after)
      (fun later after ↦ ∃ module,
        program.Grows context module ∧
          discipline.Follows program.methods module [] later after) := by
  obtain ⟨hmain, fields, module, hfields, hmodule, hbodies⟩ := Program.check_eq_ok.mp hcheck
  have hplain : TypeScope.Plain {} := fun _ _ ↦ rfl
  rw [Program.run_eq]
  refine .bind (.of_ok rfl (.bind ((initializeFields_follows hfields hplain hsettled hstart).mono
    (fun later _ middle _ hmiddle ↦ ?_) fun _ _ _ ⟨reached, count, hreached, hfollows⟩ ↦
      ⟨reached, ⟨count, reached, hreached, .inl rfl⟩, hfollows⟩)))
  have hcomplete : program.Grows context module :=
    ⟨program.fields.length, fields, by rw [List.take_length]; exact hfields, .inr hmodule⟩
  have hready := hmiddle.declareMethods (checkFields_plain hfields hplain) hmodule hpaired hbodies
  refine .bind (.of_ok rfl ((Expr.evalWith_gives (Callable.invoke_serves fuel) entry hready
    (entry_infer hpaired hmain hmodule)).mono (fun _ value after _ hafter ↦ ?_)
      fun _ after _ hafter ↦ ?_))
  · exact ⟨hafter.1.2, module, hcomplete, hafter.2⟩
  · exact ⟨module, hcomplete, hafter⟩

end

end ScriptLang
