import Mathlib.Data.List.Perm.Basic
import ScriptLang.Proofs.Typing.Reannotation
import ScriptLang.Proofs.Typing.Typable

/-!
The order of the methods of a program does not matter to the checker. Methods of different names or
counts of parameters may be declared in any order: the modules look the same from every body, so the
same bodies are accepted, and the same is written into them.
-/

set_option autoImplicit false
set_option relaxedAutoImplicit false

namespace ScriptLang

/-! ### Scopes that look the same -/

/-- Every name stands for the same in both scopes. -/
structure Scope.Same {V F : Type} (first second : Scope V F) : Prop where
  lookup? : ∀ name, first.lookup? name = second.lookup? name
  function? : ∀ name arity, first.function? name arity = second.function? name arity

namespace Scope.Same

variable {V F : Type} {first second third : Scope V F}

theorem refl (scope : Scope V F) : scope.Same scope := ⟨fun _ ↦ rfl, fun _ _ ↦ rfl⟩

theorem trans (h : first.Same second) (h' : second.Same third) : first.Same third :=
  ⟨fun name ↦ (h.lookup? name).trans (h'.lookup? name),
    fun name arity ↦ (h.function? name arity).trans (h'.function? name arity)⟩

/-- Behind scopes that look the same, the chains around them do. -/
theorem cons (h : first.Same second) (outer : Chain V F) :
    Chain.Same (first :: outer) (second :: outer) where
  lookup? name := by rw [Chain.lookup?_cons, Chain.lookup?_cons, h.lookup?]
  function? name arity := by rw [Chain.function?_cons, Chain.function?_cons, h.function?]

/-- The same function declared in two scopes that look the same keeps them so. -/
theorem declareFunction (h : first.Same second) (name : String) (arity : Nat) (value : F) :
    (first.declareFunction name arity value).Same (second.declareFunction name arity value) where
  lookup? := h.lookup?
  function? other count := by
    rw [Scope.function?_declareFunction, Scope.function?_declareFunction, h.function?]

/-- Functions of different names or counts of parameters do not get in each other's way. -/
theorem declareFunction_comm (scope : Scope V F) {name other : String} {arity count : Nat}
    (hkey : (name, arity) ≠ (other, count)) (value value' : F) :
    ((scope.declareFunction name arity value).declareFunction other count value').Same
      ((scope.declareFunction other count value').declareFunction name arity value) where
  lookup? _ := rfl
  function? sought number := by
    simp only [Scope.function?_declareFunction]
    by_cases hsought : (sought, number) = (name, arity)
    · rw [if_pos hsought, if_neg (hsought ▸ hkey), if_pos hsought]
    · rw [if_neg hsought, if_neg hsought]

end Scope.Same

section

variable {V F α : Type} (key : α → String × Nat) (value : α → F)

/-- The scope with a function for each item, which is found by the key of the item. -/
def Scope.declareEach (scope : Scope V F) (items : List α) : Scope V F :=
  items.foldl (fun scope item ↦
    scope.declareFunction (key item).1 (key item).2 (value item)) scope

/-- The same functions declared in two scopes that look the same keep them so. -/
theorem Scope.Same.declareEach {first second : Scope V F} (h : first.Same second)
    (items : List α) :
    (first.declareEach key value items).Same (second.declareEach key value items) := by
  induction items generalizing first second with
  | nil => exact h
  | cons head tail ih => exact ih (h.declareFunction _ _ _)

/-- Where no two items have the same key, their order does not matter. -/
theorem Scope.declareEach_perm {items others : List α} (hperm : items.Perm others)
    (hdistinct : (items.map key).Nodup) (scope : Scope V F) :
    (scope.declareEach key value items).Same (scope.declareEach key value others) := by
  induction hperm generalizing scope with
  | nil => exact .refl scope
  | cons head _ ih =>
    rw [List.map_cons, List.nodup_cons] at hdistinct
    exact ih hdistinct.2 _
  | swap head next tail =>
    have hne : key next ≠ key head := by
      rw [List.map_cons, List.map_cons, List.nodup_cons] at hdistinct
      exact fun heq ↦ hdistinct.1 (heq ▸ List.mem_cons_self)
    exact (Same.declareFunction_comm scope hne _ _).declareEach key value tail
  | trans hfirst _ ih ih' =>
    exact (ih hdistinct scope).trans (ih' ((hfirst.map key).nodup_iff.mp hdistinct) scope)

end

/-! ### Bodies under modules that look the same -/

section

variable {scopes scopes' : TypeChain} (h : Chain.Same scopes scopes')
include h

theorem Expr.infer_same (expr : Expr) : expr.infer scopes = expr.infer scopes' :=
  (infer_relocate (.refl scopes) expr).symm.trans (infer_relocate h expr)

theorem Expr.checkAs_same (target : Ty) (expr : Expr) :
    expr.checkAs scopes target = expr.checkAs scopes' target :=
  (checkAs_relocate (.refl scopes) target expr).symm.trans (checkAs_relocate h target expr)

omit h

mutual

/-- What is written into an expression depends on what its scopes look like. -/
theorem Expr.annotate_same (h : Chain.Same scopes scopes') :
    ∀ expr : Expr, expr.annotate scopes = expr.annotate scopes'
  | .literal mark value => by rw [Expr.annotate, Expr.annotate, Expr.infer_same h]
  | .group mark inner => by
    rw [Expr.annotate, Expr.annotate, Expr.infer_same h, inner.annotate_same h]
  | .binary mark op left right => by
    rw [Expr.annotate, Expr.annotate, Expr.infer_same h, Expr.infer_same h left,
      left.annotate_same h, right.annotate_same h]
  | .access mark name resolved => by
    rw [Expr.annotate, Expr.annotate, Expr.infer_same h, requireVariable_same h]
  | .member mark receiver name resolved => by
    rw [Expr.annotate, Expr.annotate, Expr.infer_same h, Expr.infer_same h receiver,
      receiver.annotate_same h]
  | .call mark name args resolved => by
    simp only [Expr.annotate, Expr.infer_same h, requireFunction_same h, annotateArgs_same h args]
  | .invoke mark receiver name args resolved => by
    simp only [Expr.annotate, Expr.infer_same h, receiver.annotate_same h,
      annotateArgs_same h args]

theorem annotateArgs_same (h : Chain.Same scopes scopes') : ∀ (args : List Expr)
    (params : List Ty), annotateArgs scopes args params = annotateArgs scopes' args params
  | [], _ => rfl
  | _ :: _, [] => rfl
  | head :: tail, param :: params => by
    rw [annotateArgs, annotateArgs, head.annotate_same h, Expr.checkAs_same h,
      annotateArgs_same h tail]

end

end

section

variable {context : TypeContext} {outer outer' : TypeChain} (houter : Chain.Same outer outer')
  (here : TypeScope)
include houter

/-- The type of a declared variable depends on what the scopes around it look like. -/
theorem Binding.infer_same (binding : Binding) :
    binding.infer context outer here = binding.infer context outer' here :=
  (infer_relocate (.refl context) (.refl outer) here binding).symm.trans
    (infer_relocate (.refl context) houter here binding)

theorem Binding.check_same (binding : Binding) :
    binding.check context outer here = binding.check context outer' here :=
  (check_relocate (.refl context) (.refl outer) here binding).symm.trans
    (check_relocate (.refl context) houter here binding)

theorem Binding.annotate_same (binding : Binding) :
    binding.annotate context outer here = binding.annotate context outer' here := by
  have hvalue : Expr.annotate (here :: outer) = Expr.annotate (here :: outer') :=
    funext (Expr.annotate_same (houter.cons here))
  unfold annotate
  rw [infer_same houter, check_same houter, hvalue]

variable {returns : Ty}

/-- The verdict on a statement depends on what the scopes around it look like. -/
theorem Stmt.check_same (statement : Stmt) :
    statement.check context returns outer here = statement.check context returns outer' here :=
  (check_relocate (.refl context) returns statement here (.refl outer)).symm.trans
    (check_relocate (.refl context) returns statement here houter)

theorem checkBlock_same (statements : List Stmt) :
    checkBlock context returns outer here statements =
      checkBlock context returns outer' here statements :=
  (checkBlock_relocate (.refl context) returns statements here (.refl outer)).symm.trans
    (checkBlock_relocate (.refl context) returns statements here houter)

end

section

variable {context : TypeContext} {returns : Ty}

mutual

/-- What is written into a statement depends on what the scopes around it look like. -/
theorem Stmt.annotate_same {outer outer' : TypeChain} (houter : Chain.Same outer outer')
    (here : TypeScope) : ∀ statement : Stmt,
      statement.annotate context returns outer here =
        statement.annotate context returns outer' here
  | .expr value => by rw [Stmt.annotate, Stmt.annotate, value.annotate_same (houter.cons here)]
  | .declare binding => by rw [Stmt.annotate, Stmt.annotate, Binding.annotate_same houter]
  | .assign target value => by
    simp only [Stmt.annotate, Expr.infer_same (houter.cons here),
      Expr.annotate_same (houter.cons here)]
  | .branch condition thenBody elseBody => by
    simp only [Stmt.annotate, Expr.checkAs_same (houter.cons here),
      Expr.annotate_same (houter.cons here), checkBlock_same (houter.cons here),
      annotateBlock_same (houter.cons here) _ thenBody,
      annotateBlock_same (houter.cons here) _ elseBody]
  | .forEach offset name iterable body => by
    simp only [Stmt.annotate, Expr.checkAs_same (houter.cons here),
      Expr.annotate_same (houter.cons here), annotateBlock_same (houter.cons here) _ body]
  | .loop condition body => by
    simp only [Stmt.annotate, Expr.checkAs_same (houter.cons here),
      Expr.annotate_same (houter.cons here), annotateBlock_same (houter.cons here) _ body]
  | .ret value => by rw [Stmt.annotate, Stmt.annotate, value.annotate_same (houter.cons here)]

theorem annotateBlock_same {outer outer' : TypeChain} (houter : Chain.Same outer outer')
    (here : TypeScope) : ∀ statements : List Stmt,
      annotateBlock context returns outer here statements =
        annotateBlock context returns outer' here statements
  | [] => rfl
  | head :: tail => by
    rw [annotateBlock, annotateBlock, head.annotate_same houter, Stmt.check_same houter]
    cases head.check context returns outer' here with
    | ok behind => exact congrArg _ (annotateBlock_same houter behind tail)
    | error cause => rfl

end

end

/-! ### Programs -/

section

variable {context : TypeContext}

/-- A method gets the same verdict under modules that look the same. -/
theorem Method.check_same {module module' : TypeScope} (h : module.Same module')
    (method : Method) : method.check context module = method.check context module' := by
  unfold check
  simp only [checkBlock_same (h.cons [context.globals])]

/-- The same is written into a method under modules that look the same. -/
theorem Method.annotate_same {module module' : TypeScope} (h : module.Same module')
    (method : Method) : method.annotate context module = method.annotate context module' := by
  unfold annotate
  simp only [annotateBlock_same (h.cons [context.globals])]

/-- Methods that can be declared can be declared in any order, and the modules look the same. -/
theorem declareMethods_perm {methods others : List Method} (hperm : methods.Perm others)
    {module after : TypeScope} (hdeclare : declareMethods context module methods = .ok after) :
    ∃ after', declareMethods context module others = .ok after' ∧ after.Same after' := by
  obtain ⟨signatures, hwritten, hdistinct, hfree, rfl⟩ := declareMethods_iff.mp hdeclare
  obtain ⟨signatures', hwritten', hsignatures⟩ := List.perm_comp_forall₂ hperm.symm hwritten
  have hdistinct' := ((hsignatures.map _).nodup_iff.mpr hdistinct)
  refine ⟨_, declareMethods_iff.mpr ⟨signatures', hwritten', hdistinct',
    fun signature hmem ↦ hfree signature (hsignatures.mem_iff.mp hmem), rfl⟩, ?_⟩
  exact Scope.declareEach_perm (fun signature ↦ (signature.name, signature.arity)) id
    hsignatures.symm hdistinct module

/-- What an accepting check has found, also for the methods in another order. -/
theorem Program.check_perm {program : Program} {methods : List Method}
    (hperm : program.methods.Perm methods) (hcheck : program.check context = .ok ()) :
    Program.check context { program with methods } = .ok () := by
  obtain ⟨hmain, fields, module, hfields, hdeclare, hbodies⟩ := check_eq_ok.mp hcheck
  obtain ⟨module', hdeclare', hsame⟩ := declareMethods_perm hperm hdeclare
  refine check_eq_ok.mpr ⟨hperm.any_eq.symm.trans hmain, fields, module', hfields, hdeclare',
    fun method hmethod ↦ ?_⟩
  rw [← method.check_same hsame]
  exact hbodies method (hperm.mem_iff.mpr hmethod)

/-- Each method of an accepted program is annotated in the same way wherever it stands. -/
theorem Program.annotate_perm {program : Program} {methods : List Method}
    (hperm : program.methods.Perm methods) (hcheck : program.check context = .ok ()) :
    ∃ annotated : Method → Method,
      (program.annotate context).methods = program.methods.map annotated ∧
      Program.annotate context { program with methods } =
        { program.annotate context with methods := methods.map annotated } := by
  obtain ⟨hmain, fields, module, hfields, hdeclare, hbodies⟩ := check_eq_ok.mp hcheck
  obtain ⟨hmain', fields', module', hfields', hdeclare', hbodies'⟩ :=
    check_eq_ok.mp (check_perm hperm hcheck)
  obtain ⟨other, hother, hsame⟩ := declareMethods_perm hperm hdeclare
  cases hfields.symm.trans hfields'
  cases hother.symm.trans hdeclare'
  refine ⟨fun method ↦ (method.signed context).annotate context module, ?_, ?_⟩
  · rw [annotate_eq hmain hfields hdeclare hbodies]
  · rw [annotate_eq hmain hfields hdeclare hbodies, annotate_eq hmain' hfields hdeclare' hbodies']
    simp only [Method.annotate_same hsame]

/-- The methods of an accepted program differ in name or count of parameters. -/
theorem Program.methods_distinct {program : Program} (hpaired : program.Paired)
    (hcheck : program.check context = .ok ()) :
    (program.methods.map fun method ↦ (method.name, method.params.length)).Nodup := by
  obtain ⟨-, fields, module, -, hdeclare, -⟩ := check_eq_ok.mp hcheck
  obtain ⟨signatures, hwritten, hdistinct, -, -⟩ := declareMethods_iff.mp hdeclare
  have hkeys : program.methods.map (fun method ↦ (method.name, method.params.length)) =
      signatures.map fun signature ↦ (signature.name, signature.arity) := by
    clear hdistinct hdeclare
    change ∀ method ∈ program.methods, method.Paired at hpaired
    generalize program.methods = methods at hpaired hwritten
    induction hwritten with
    | nil => rfl
    | @cons head signature tail signatures hhead _ ih =>
      rw [List.forall_mem_cons] at hpaired
      have harity : head.params.length = signature.arity :=
        hpaired.1.symm.trans hhead.params.length_eq
      rw [List.map_cons, List.map_cons, ih hpaired.2, harity, ← hhead.name]
  rw [hkeys]
  exact hdistinct

end

end ScriptLang
