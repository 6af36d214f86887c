import ScriptLang.Proofs.Correspondence
import ScriptLang.Proofs.Program.Mentions
import ScriptLang.Typing.Check

/-!
Checking depends only on the names that are looked up. Where two hosts have made the same known by
these names, a program gets the same verdict, and the same error if it is rejected, whatever else
they have made known.
-/

set_option autoImplicit false
set_option relaxedAutoImplicit false

namespace ScriptLang

/-! ### Chains and contexts that agree -/

section

variable {V F : Type} {names : List String}

/-- Each of the names stands for the same in both scopes. -/
structure Scope.AgreeOn (names : List String) (first second : Scope V F) : Prop where
  lookup? : ∀ name ∈ names, first.lookup? name = second.lookup? name
  function? : ∀ name ∈ names, ∀ arity, first.function? name arity = second.function? name arity

theorem Scope.AgreeOn.refl (scope : Scope V F) : scope.AgreeOn names scope :=
  ⟨fun _ _ ↦ rfl, fun _ _ _ ↦ rfl⟩

/-- Each of the names stands for the same in both chains. -/
structure Chain.AgreeOn (names : List String) (first second : Chain V F) : Prop where
  lookup? : ∀ name ∈ names, first.lookup? name = second.lookup? name
  function? : ∀ name ∈ names, ∀ arity, first.function? name arity = second.function? name arity

namespace Chain.AgreeOn

variable {first second : Chain V F}

theorem refl (chain : Chain V F) : chain.AgreeOn names chain := ⟨fun _ _ ↦ rfl, fun _ _ _ ↦ rfl⟩

/-- Two chains still agree behind scopes that do. -/
theorem cons (h : first.AgreeOn names second) {scope scope' : Scope V F}
    (hscope : scope.AgreeOn names scope') :
    Chain.AgreeOn names (scope :: first) (scope' :: second) where
  lookup? name hname := by
    rw [Chain.lookup?_cons, Chain.lookup?_cons, h.lookup? name hname, hscope.lookup? name hname]
  function? name hname arity := by
    rw [Chain.function?_cons, Chain.function?_cons, h.function? name hname,
      hscope.function? name hname]

theorem within (h : first.AgreeOn names second) (scope : Scope V F) :
    Chain.AgreeOn names (scope :: first) (scope :: second) := h.cons (.refl scope)

end Chain.AgreeOn

end

/-- Both hosts have made the same known by each of the names. -/
structure TypeContext.AgreeOn (names : List String) (first second : TypeContext) : Prop where
  type? : ∀ name ∈ names, first.type? name = second.type? name
  globals : first.globals.AgreeOn names second.globals

section

variable {names : List String}

namespace TypeContext.AgreeOn

variable {context context' : TypeContext} (h : context.AgreeOn names context')
include h

theorem chain : Chain.AgreeOn names [context.globals] [context'.globals] :=
  (Chain.AgreeOn.refl []).cons h.globals

/-- A written type stands for the same under both hosts. -/
theorem resolve {name : String} (hname : name ∈ names) (offset : Nat) :
    context.resolve offset name = context'.resolve offset name := by
  unfold TypeContext.resolve
  rw [h.type? name hname]

theorem resolve_option {name : Option String} (hname : name.toList ⊆ names) (offset : Nat) :
    name.mapM (context.resolve offset) = name.mapM (context'.resolve offset) := by
  cases name with
  | none => rfl
  | some name =>
    rw [Option.mapM_some, Option.mapM_some, h.resolve (hname List.mem_cons_self)]

theorem resolve_list {written : List String} (hwritten : written ⊆ names) (offset : Nat) :
    written.mapM (context.resolve offset) = written.mapM (context'.resolve offset) := by
  induction written with
  | nil => rfl
  | cons head tail ih =>
    obtain ⟨hhead, htail⟩ := List.cons_subset.mp hwritten
    rw [List.mapM_cons, List.mapM_cons, h.resolve hhead, ih htail]

end TypeContext.AgreeOn

/-! ### Expressions -/

section

variable {scopes scopes' : TypeChain}

mutual

/-- The type of an expression depends on the names in it alone. -/
theorem Expr.infer_congr (h : Chain.AgreeOn names scopes scopes') :
    ∀ expr : Expr, expr.mentions ⊆ names → expr.infer scopes = expr.infer scopes'
  | .literal mark value, _ => rfl
  | .group _ inner, hexpr => inner.infer_congr h hexpr
  | .binary _ op left right, hexpr => by
    obtain ⟨hleft, hright⟩ := List.append_subset.mp hexpr
    rw [Expr.infer, Expr.infer, left.infer_congr h hleft, right.infer_congr h hright]
  | .access mark name _, hexpr => by
    rw [Expr.infer, Expr.infer, requireVariable, requireVariable,
      h.lookup? name (hexpr List.mem_cons_self)]
  | .member _ receiver name _, hexpr => by
    rw [Expr.infer, Expr.infer, receiver.infer_congr h hexpr]
  | .call mark name args _, hexpr => by
    obtain ⟨hname, hargs⟩ := List.cons_subset.mp hexpr
    rw [Expr.infer, Expr.infer, requireFunction, requireFunction, h.function? name hname]
    simp only [checkArgs_congr h args _ hargs]
  | .invoke mark receiver name args _, hexpr => by
    obtain ⟨hreceiver, hargs⟩ := List.append_subset.mp hexpr
    rw [Expr.infer, Expr.infer, receiver.infer_congr h hreceiver]
    simp only [checkArgs_congr h args _ hargs]

theorem checkArgs_congr (h : Chain.AgreeOn names scopes scopes') :
    ∀ (args : List Expr) (params : List Ty), argMentions args ⊆ names →
      checkArgs scopes args params = checkArgs scopes' args params
  | [], _, _ => rfl
  | _ :: _, [], _ => rfl
  | head :: tail, param :: params, hargs => by
    obtain ⟨hhead, htail⟩ := List.append_subset.mp hargs
    rw [checkArgs, checkArgs, head.infer_congr h hhead, checkArgs_congr h tail params htail]

end

/-- Whether an expression has the type that is wanted depends on the names in it alone. -/
theorem Expr.checkAs_congr (h : Chain.AgreeOn names scopes scopes') (target : Ty) (expr : Expr)
    (hexpr : expr.mentions ⊆ names) : expr.checkAs scopes target = expr.checkAs scopes' target := by
  unfold checkAs
  rw [expr.infer_congr h hexpr]

end

/-! ### Declarations and statements -/

section

variable {context context' : TypeContext}

section

variable (hcontext : context.AgreeOn names context') {outer outer' : TypeChain}
  (houter : Chain.AgreeOn names outer outer') (here : TypeScope)
include hcontext houter

/-- The type of a declared variable depends on the names in its type and its value alone. -/
theorem Binding.infer_congr (binding : Binding) (hbinding : binding.mentions ⊆ names) :
    binding.infer context outer here = binding.infer context' outer' here := by
  obtain ⟨htype, hvalue⟩ := List.append_subset.mp hbinding
  unfold infer
  rw [hcontext.resolve_option htype]
  refine bind_congr fun written ↦ ?_
  cases hwritten : binding.value with
  | none => cases written <;> rfl
  | some value =>
    rw [hwritten] at hvalue
    cases written with
    | none => exact value.infer_congr (houter.within here) hvalue
    | some type => simp only [value.checkAs_congr (houter.within here) type hvalue]

/-- A declaration extends the scope in the same way under both hosts. -/
theorem Binding.check_congr (binding : Binding) (hbinding : binding.mentions ⊆ names) :
    binding.check context outer here = binding.check context' outer' here := by
  unfold check
  rw [infer_congr hcontext houter here binding hbinding]

end

mutual

/-- A statement is checked in the same way, with the same scope behind it. The recursion follows the
tree; inner blocks start in scopes of their own, so the chains around them still agree. -/
theorem Stmt.check_congr (hcontext : context.AgreeOn names context') (returns : Ty) :
    ∀ (statement : Stmt) {outer outer' : TypeChain} (here : TypeScope),
      Chain.AgreeOn names outer outer' → statement.mentions ⊆ names →
      statement.check context returns outer here = statement.check context' returns outer' here
  | .expr value, _, _, here, houter, h => by
    rw [Stmt.check, Stmt.check, value.infer_congr (houter.within here) h]
  | .declare binding, _, _, here, houter, h => by
    rw [Stmt.check, Stmt.check, binding.check_congr hcontext houter here h]
  | .assign target value, _, _, here, houter, h => by
    obtain ⟨htarget, hvalue⟩ := List.append_subset.mp h
    rw [Stmt.check, Stmt.check, target.infer_congr (houter.within here) htarget,
      value.infer_congr (houter.within here) hvalue]
  | .branch condition thenBody elseBody, _, _, here, houter, h => by
    obtain ⟨hcondition, hbodies⟩ := List.append_subset.mp h
    obtain ⟨hthen, helse⟩ := List.append_subset.mp hbodies
    rw [Stmt.check, Stmt.check, condition.checkAs_congr (houter.within here) _ hcondition,
      checkBlock_congr hcontext returns thenBody {} (houter.within here) hthen,
      checkBlock_congr hcontext returns elseBody {} (houter.within here) helse]
  | .forEach _ name iterable body, _, _, here, houter, h => by
    obtain ⟨hiterable, hbody⟩ := List.append_subset.mp h
    rw [Stmt.check, Stmt.check, iterable.checkAs_congr (houter.within here) _ hiterable,
      checkBlock_congr hcontext returns body _ (houter.within here) hbody]
  | .loop condition body, _, _, here, houter, h => by
    obtain ⟨hcondition, hbody⟩ := List.append_subset.mp h
    rw [Stmt.check, Stmt.check, condition.checkAs_congr (houter.within here) _ hcondition,
      checkBlock_congr hcontext returns body {} (houter.within here) hbody]
  | .ret value, _, _, here, houter, h => by
    rw [Stmt.check, Stmt.check, value.checkAs_congr (houter.within here) _ h]

/-- The statements of a block hand on one scope, which both hosts build up alike. -/
theorem checkBlock_congr (hcontext : context.AgreeOn names context') (returns : Ty) :
    ∀ (block : List Stmt) {outer outer' : TypeChain} (here : TypeScope),
      Chain.AgreeOn names outer outer' → blockMentions block ⊆ names →
      checkBlock context returns outer here block = checkBlock context' returns outer' here block
  | [], _, _, _, _, _ => rfl
  | head :: tail, _, _, here, houter, h => by
    obtain ⟨hhead, htail⟩ := List.append_subset.mp h
    rw [checkBlock, checkBlock, head.check_congr hcontext returns here houter hhead]
    exact bind_congr fun here ↦ checkBlock_congr hcontext returns tail here houter htail

end

/-! ### Programs -/

variable (hcontext : context.AgreeOn names context')
include hcontext

/-- Fields are declared in turn; the module that is built up is the same under both hosts. -/
theorem checkFields_congr (module : TypeScope) (fields : List Binding)
    (hfields : fields.flatMap Binding.mentions ⊆ names) :
    checkFields context module fields = checkFields context' module fields := by
  induction fields generalizing module with
  | nil => rfl
  | cons head tail ih =>
    rw [List.flatMap_cons] at hfields
    obtain ⟨hhead, htail⟩ := List.append_subset.mp hfields
    rw [checkFields, checkFields, head.check_congr hcontext hcontext.chain module hhead]
    exact bind_congr fun module ↦ ih module htail

/-- The signature of a method depends on the types that are written in its head alone. -/
theorem Method.signature_congr (method : Method) (hmethod : method.mentions ⊆ names) :
    method.signature context = method.signature context' := by
  obtain ⟨-, hparts⟩ := List.cons_subset.mp hmethod
  obtain ⟨hparams, hrest⟩ := List.append_subset.mp hparts
  obtain ⟨hreturns, -⟩ := List.append_subset.mp hrest
  unfold signature
  rw [hcontext.resolve_list hparams, hcontext.resolve_option hreturns]

/-- A method body is accepted by both hosts or rejected by both with the same error. -/
theorem Method.check_congr (module : TypeScope) (method : Method)
    (hmethod : method.mentions ⊆ names) :
    method.check context module = method.check context' module := by
  obtain ⟨-, hparts⟩ := List.cons_subset.mp hmethod
  obtain ⟨-, hrest⟩ := List.append_subset.mp hparts
  obtain ⟨-, hbody⟩ := List.append_subset.mp hrest
  have hblock (returns : Ty) (here : TypeScope) :=
    checkBlock_congr hcontext returns method.body here (hcontext.chain.within module) hbody
  unfold check
  rw [method.signature_congr hcontext hmethod]
  simp only [hblock]

/-- The methods of a module are declared with the same signatures, or fail at the same one. -/
theorem declareMethods_congr (module : TypeScope) (methods : List Method)
    (hmethods : methods.flatMap Method.mentions ⊆ names) :
    declareMethods context module methods = declareMethods context' module methods := by
  unfold declareMethods
  induction methods generalizing module with
  | nil => rfl
  | cons head tail ih =>
    rw [List.flatMap_cons] at hmethods
    obtain ⟨hhead, htail⟩ := List.append_subset.mp hmethods
    rw [List.foldlM_cons, List.foldlM_cons, Method.declare, Method.declare,
      head.signature_congr hcontext hhead]
    exact bind_congr fun module ↦ ih module htail

/-- A program gets the same verdict from hosts that agree on the names that it looks up. -/
theorem Program.check_congr (program : Program) (hprogram : program.mentions ⊆ names) :
    program.check context = program.check context' := by
  obtain ⟨hfields, hmethods⟩ := List.append_subset.mp hprogram
  have hbodies (module : TypeScope) : program.methods.forM (Method.check context module) =
      program.methods.forM (Method.check context' module) := by
    clear hfields
    generalize program.methods = methods at hmethods
    induction methods with
    | nil => rfl
    | cons head tail ih =>
      rw [List.flatMap_cons] at hmethods
      obtain ⟨hhead, htail⟩ := List.append_subset.mp hmethods
      simp only [List.forM_eq_forM, List.forM_cons] at ih ⊢
      rw [head.check_congr hcontext module hhead, ih htail]
  unfold check
  simp only [checkFields_congr hcontext _ _ hfields, declareMethods_congr hcontext _ _ hmethods,
    hbodies]

end

end

end ScriptLang
