import ScriptLang.Proofs.Typing.Annotation
import ScriptLang.Proofs.Typing.Reannotation
import ScriptLang.Proofs.Typing.Typable

/-!
Annotated trees. What an accepting check writes into a tree is complete, and can be trusted without
a look at the scopes it was found in: each node has a type, each name and call what it stands for,
and the annotations of a node and of its parts agree.
-/

set_option autoImplicit false
set_option relaxedAutoImplicit false

namespace ScriptLang

mutual

/-- The expression is annotated with a type, which it has if its parts have the types that they are
annotated with. -/
inductive Expr.Annotated : Expr → Ty → Prop
  | literal {offset value type} (hvalue : value.HasType type) :
    Expr.Annotated (.literal ⟨offset, some type⟩ value) type
  | group {offset inner type} (hinner : Expr.Annotated inner type) :
    Expr.Annotated (.group ⟨offset, some type⟩ inner) type
  | binary {offset op left right leftType rightType type} (hleft : Expr.Annotated left leftType)
    (hright : Expr.Annotated right rightType) (hop : op.HasType leftType rightType type) :
    Expr.Annotated (.binary ⟨offset, some type⟩ op left right) type
  | access {offset name} (found : Variable Ty) :
    Expr.Annotated (.access ⟨offset, some found.type⟩ name (some found)) found.type
  | member {offset receiver name receiverType} (found : Variable Ty)
    (hreceiver : Expr.Annotated receiver receiverType)
    (hname : receiverType.field? name = some found) :
    Expr.Annotated (.member ⟨offset, some found.type⟩ receiver name (some found)) found.type
  | call {offset name args} (found : Signature Ty) (hargs : ArgsAnnotated args found.params) :
    Expr.Annotated (.call ⟨offset, some found.returns⟩ name args (some found)) found.returns
  | invoke {offset receiver name args receiverType self params} (found : Signature Ty)
    (hreceiver : Expr.Annotated receiver receiverType)
    (hname : receiverType.method? name (args.length + 1) = some found)
    (hparams : found.params = self :: params) (hargs : ArgsAnnotated args params) :
    Expr.Annotated (.invoke ⟨offset, some found.returns⟩ receiver name args (some found))
      found.returns

/-- Arguments are annotated with types that may be passed for parameters of the listed types, one
for each. -/
inductive ArgsAnnotated : List Expr → List Ty → Prop
  | nil : ArgsAnnotated [] []
  | cons {head tail type param params} (hhead : Expr.Annotated head type)
    (hassignable : param.Assignable type) (htail : ArgsAnnotated tail params) :
    ArgsAnnotated (head :: tail) (param :: params)

end

/-- Annotated arguments are as many as the parameters that they are for. -/
theorem ArgsAnnotated.length_eq : ∀ {args : List Expr} {params : List Ty},
    ArgsAnnotated args params → args.length = params.length
  | _, _, .nil => rfl
  | _, _, .cons _ _ htail => congrArg Nat.succ htail.length_eq

/-- An expression is annotated with a type that may stand where `target` is expected. -/
def Expr.AnnotatedFor (target : Ty) (expr : Expr) : Prop :=
  ∃ type, expr.Annotated type ∧ target.Assignable type

/-- A declaration has its variable, which its value may be assigned to. -/
def Binding.Annotated (binding : Binding) : Prop :=
  ∃ found, binding.resolved = some found ∧ found.name = binding.name ∧
    ∀ value ∈ binding.value, value.AnnotatedFor found.type

/-- All expressions of a statement are annotated, in a method that returns `returns`. -/
inductive Stmt.Annotated (returns : Ty) : Stmt → Prop
  | expr {value type} (hvalue : value.Annotated type) : Annotated returns (.expr value)
  | declare {binding} (hbinding : binding.Annotated) : Annotated returns (.declare binding)
  | assign {target value type} (htarget : target.Annotated type)
    (hvalue : value.AnnotatedFor type) : Annotated returns (.assign target value)
  | branch {condition thenBody elseBody} (hcondition : condition.Annotated .boolean)
    (hthen : ∀ statement ∈ thenBody, Annotated returns statement)
    (helse : ∀ statement ∈ elseBody, Annotated returns statement) :
    Annotated returns (.branch condition thenBody elseBody)
  | forEach {offset name iterable body} (hiterable : iterable.Annotated .range)
    (hbody : ∀ statement ∈ body, Annotated returns statement) :
    Annotated returns (.forEach offset name iterable body)
  | loop {condition body} (hcondition : condition.Annotated .boolean)
    (hbody : ∀ statement ∈ body, Annotated returns statement) :
    Annotated returns (.loop condition body)
  | ret {value} (hvalue : value.AnnotatedFor returns) : Annotated returns (.ret value)

/-- A method has its signature, and the signature says what the body returns. -/
def Method.Annotated (method : Method) : Prop :=
  ∃ found, method.resolved = some found ∧ found.name = method.name ∧
    found.params.length = method.paramTypes.length ∧
    ∀ statement ∈ method.body, statement.Annotated found.returns

structure Program.Annotated (program : Program) : Prop where
  fields : ∀ field ∈ program.fields, field.Annotated
  methods : ∀ method ∈ program.methods, method.Annotated

section

variable {scopes : TypeChain}

mutual

/-- An expression that has a type is annotated with it and below, node by node, with what the rules
want. The recursion follows the tree. -/
theorem Expr.annotate_annotated (hscopes : scopes.Keyed) {type : Ty} :
    ∀ expr : Expr, expr.infer scopes = .ok type → (expr.annotate scopes).Annotated type
  | .literal mark value, htype => by
    rw [Expr.annotate, htype]
    rw [Expr.infer] at htype
    exact .literal (Literal.type_eq_ok.mp htype)
  | .group mark inner, htype => by
    rw [Expr.annotate, htype]
    rw [Expr.infer] at htype
    exact .group (inner.annotate_annotated hscopes htype)
  | .binary mark op left right, htype => by
    obtain ⟨leftType, rightType, hleft, hright, hop⟩ := Expr.infer_binary.mp htype
    rw [Expr.annotate, htype, hleft]
    exact .binary (left.annotate_annotated hscopes hleft) (right.annotate_annotated hscopes hright)
      (BinaryOp.type_eq_ok.mp hop)
  | .access mark name resolved, htype => by
    obtain ⟨found, hfound, rfl⟩ := Expr.infer_access.mp htype
    rw [Expr.annotate, htype, requireVariable_eq_ok.mpr hfound]
    exact .access found
  | .member mark receiver name resolved, htype => by
    obtain ⟨receiverType, found, hreceiver, hfound, rfl⟩ := Expr.infer_member.mp htype
    have hrequired : (receiver.infer scopes >>= (·.requireField mark.offset name)) = .ok found :=
      except_bind_eq_ok.mpr ⟨receiverType, hreceiver, Ty.requireField_eq_ok.mpr hfound⟩
    rw [Expr.annotate, htype, hrequired]
    exact .member found (receiver.annotate_annotated hscopes hreceiver) hfound
  | .call mark name args resolved, htype => by
    obtain ⟨found, hfound, hargs, rfl⟩ := Expr.infer_call.mp htype
    rw [Expr.annotate, htype, requireFunction_eq_ok.mpr hfound]
    exact .call found (annotateArgs_annotated hscopes args hargs (hscopes.function? hfound).1.symm)
  | .invoke mark receiver name args resolved, htype => by
    obtain ⟨receiverType, found, hreceiver, hfound, hargs, rfl⟩ := Expr.infer_invoke.mp htype
    have hrequired : (receiver.infer scopes >>= (·.requireMethod mark.offset name args.length)) =
        .ok found :=
      except_bind_eq_ok.mpr ⟨receiverType, hreceiver, Ty.requireMethod_eq_ok.mpr hfound⟩
    have harity := ((Expr.infer_built hscopes receiver hreceiver).method? hfound).1
    obtain ⟨self, params, hparams⟩ := List.exists_cons_of_length_eq_add_one harity
    rw [Signature.arity, hparams] at harity
    have hlength : args.length = params.length := (Nat.succ.inj harity).symm
    have hargs : checkArgs scopes args params = .ok () := by rwa [hparams] at hargs
    have hannotated := annotateArgs_annotated hscopes args hargs hlength
    rw [hlength, ← hannotated.length_eq] at hfound
    rw [Expr.annotate, htype, hrequired]
    simp only [hparams]
    exact .invoke found (receiver.annotate_annotated hscopes hreceiver) hfound hparams hannotated

/-- Arguments that are accepted are annotated for their parameters. -/
theorem annotateArgs_annotated (hscopes : scopes.Keyed) : ∀ (args : List Expr) {params : List Ty},
    checkArgs scopes args params = .ok () → args.length = params.length →
      ArgsAnnotated (annotateArgs scopes args params) params
  | [], [], _, _ => by
    rw [annotateArgs]
    exact .nil
  | head :: tail, param :: params, hargs, hlength => by
    obtain ⟨hhead, htail⟩ := checkArgs_cons.mp hargs
    obtain ⟨type, htype, hassignable⟩ := Expr.checkAs_eq_ok.mp hhead
    rw [annotateArgs, hhead]
    exact .cons (head.annotate_annotated hscopes htype) (Ty.assignable_iff.mp hassignable)
      (annotateArgs_annotated hscopes tail htail (Nat.succ.inj hlength))

end

/-- An expression that is accepted for a target is annotated for it. -/
theorem Expr.annotate_annotatedFor (hscopes : scopes.Keyed) {expr : Expr} {target : Ty}
    (hcheck : expr.checkAs scopes target = .ok ()) :
    (expr.annotate scopes).AnnotatedFor target := by
  obtain ⟨type, htype, hassignable⟩ := checkAs_eq_ok.mp hcheck
  exact ⟨type, expr.annotate_annotated hscopes htype, Ty.assignable_iff.mp hassignable⟩

/-- Where only one type may stand, an expression is annotated with just that type. -/
theorem Expr.annotate_exact (hscopes : scopes.Keyed) {expr : Expr} {target : Ty}
    (hexact : ∀ source, target.Assignable source → source = target)
    (hcheck : expr.checkAs scopes target = .ok ()) : (expr.annotate scopes).Annotated target := by
  obtain ⟨type, hannotated, hassignable⟩ := expr.annotate_annotatedFor hscopes hcheck
  exact hexact type hassignable ▸ hannotated

end

section

variable {context : TypeContext} {outer : TypeChain} {here after : TypeScope}

/-- A declaration that is accepted is annotated with its variable, and so is its value. -/
theorem Binding.annotate_annotated (houter : outer.Keyed) (hhere : here.Keyed)
    {binding : Binding} (hcheck : binding.check context outer here = .ok after) :
    (binding.annotate context outer here).Annotated := by
  have hscopes := houter.cons hhere
  obtain ⟨type, htype, hadd⟩ := check_eq_ok.mp hcheck
  unfold annotate
  rw [if_pos (typeName_isOk htype), htype, hcheck]
  refine ⟨⟨binding.name, type⟩, rfl, rfl, fun value hvalue ↦ ?_⟩
  obtain ⟨original, horiginal, rfl⟩ := Option.map_eq_some_iff.mp hvalue
  obtain ⟨name, -, -, hwritten⟩ | ⟨other, -, hother, hinfer⟩ := infer_eq_ok.mp htype
  · exact original.annotate_annotatedFor hscopes (hwritten original horiginal)
  · cases horiginal.symm.trans hother
    exact ⟨type, original.annotate_annotated hscopes hinfer, .refl type⟩

variable {returns : Ty}

mutual

/-- A statement that is accepted is annotated in all of its parts. The recursion follows the
tree. -/
theorem Stmt.annotate_annotated (hcontext : context.Built) {outer : TypeChain}
    {here after : TypeScope} (houter : outer.Keyed) (hhere : here.Keyed) :
    ∀ statement : Stmt, statement.check context returns outer here = .ok after →
      (statement.annotate context returns outer here).Annotated returns
  | .expr value, hcheck => by
    obtain ⟨-, -, type, htype⟩ := Stmt.check_expr.mp hcheck
    rw [Stmt.annotate]
    exact .expr (value.annotate_annotated (houter.cons hhere) htype)
  | .declare binding, hcheck => by
    rw [Stmt.annotate]
    exact .declare (binding.annotate_annotated houter hhere (Stmt.check_declare ▸ hcheck))
  | .assign target value, hcheck => by
    obtain ⟨-, htarget, found, expected, hfound, hexpected, hassignable⟩ :=
      Stmt.check_assign.mp hcheck
    rw [Stmt.annotate, if_pos htarget, hfound]
    exact .assign (target.annotate_annotated (houter.cons hhere) hexpected)
      ⟨found, value.annotate_annotated (houter.cons hhere) hfound,
        Ty.assignable_iff.mp hassignable⟩
  | .branch condition thenBody elseBody, hcheck => by
    obtain ⟨-, hcondition, hempty, hthen, helse⟩ := Stmt.check_branch.mp hcheck
    have hsome : ((Except.ok () : Except TypingError Unit).isOk && !thenBody.isEmpty) = true := by
      simpa [Except.isOk, Except.toBool] using hempty
    rw [Stmt.annotate, hcondition, if_pos hsome, hthen]
    exact .branch
      (condition.annotate_exact (houter.cons hhere) (fun _ h ↦ by cases h; rfl) hcondition)
      (annotateBlock_annotated hcontext (houter.cons hhere) .empty thenBody hthen)
      (annotateBlock_annotated hcontext (houter.cons hhere) .empty elseBody helse)
  | .forEach offset name iterable body, hcheck => by
    obtain ⟨-, hiterable, hbody⟩ := Stmt.check_forEach.mp hcheck
    have hstart : TypeScope.Keyed (Scope.declare {} name ⟨name, .integer⟩) :=
      TypeScope.Keyed.empty.declare name (Ty.built_of_plain nofun)
    rw [Stmt.annotate, hiterable]
    exact .forEach
      (iterable.annotate_exact (houter.cons hhere) (fun _ h ↦ by cases h; rfl) hiterable)
      (annotateBlock_annotated hcontext (houter.cons hhere) hstart body hbody)
  | .loop condition body, hcheck => by
    obtain ⟨-, hcondition, hbody⟩ := Stmt.check_loop.mp hcheck
    rw [Stmt.annotate, hcondition]
    exact .loop
      (condition.annotate_exact (houter.cons hhere) (fun _ h ↦ by cases h; rfl) hcondition)
      (annotateBlock_annotated hcontext (houter.cons hhere) .empty body hbody)
  | .ret value, hcheck => by
    rw [Stmt.annotate]
    exact .ret (value.annotate_annotatedFor (houter.cons hhere) (Stmt.check_ret.mp hcheck).2)

/-- A block that is accepted is annotated statement by statement, each in the scope that those
before it leave. -/
theorem annotateBlock_annotated (hcontext : context.Built) {outer : TypeChain} {here : TypeScope}
    (houter : outer.Keyed) (hhere : here.Keyed) : ∀ statements : List Stmt,
    checkBlock context returns outer here statements = .ok () →
      ∀ statement ∈ annotateBlock context returns outer here statements,
        statement.Annotated returns
  | [], _ => by
    rw [annotateBlock]
    exact nofun
  | head :: tail, hcheck => by
    obtain ⟨behind, hhead, htail⟩ := checkBlock_cons.mp hcheck
    rw [annotateBlock, hhead]
    exact List.forall_mem_cons.mpr ⟨head.annotate_annotated hcontext houter hhere hhead,
      annotateBlock_annotated hcontext houter (Stmt.check_keyed hcontext houter hhere hhead) tail
        htail⟩

end

end

/-! ### Programs -/

section

variable {context : TypeContext} (hcontext : context.Built)
include hcontext

/-- The fields of an accepted program are annotated. -/
theorem annotateFields_annotated {module after : TypeScope} (hmodule : module.Keyed)
    {fields : List Binding} (hcheck : checkFields context module fields = .ok after) :
    ∀ field ∈ annotateFields context module fields, field.Annotated := by
  induction fields generalizing module with
  | nil =>
    intro field hfield
    cases hfield
  | cons head tail ih =>
    obtain ⟨behind, hhead, htail⟩ := checkFields_cons.mp hcheck
    rw [annotateFields, hhead]
    exact List.forall_mem_cons.mpr ⟨head.annotate_annotated hcontext.chain hmodule hhead,
      ih (Binding.check_keyed hcontext hcontext.chain hmodule hhead) htail⟩

/-- A method that is accepted is annotated with its signature, and so is its body. -/
theorem Method.annotate_annotated {module : TypeScope} (hmodule : module.Keyed) {method : Method}
    (hcheck : method.check context module = .ok ()) :
    ((method.signed context).annotate context module).Annotated := by
  obtain ⟨signature, start, hsignature, hstart, hbody⟩ := check_eq_ok.mp hcheck
  have hsigned : (method.signed context).signature context = .ok signature := hsignature
  have hresolved : (method.signed context).resolved = some signature := by
    change settle method.resolved (method.signature context) (method.signature context) = _
    rw [hsignature]
    rfl
  obtain ⟨hname, hparams, -⟩ := signature_eq_ok.mp hsignature
  rw [annotate_of_scope hsigned hstart]
  refine ⟨signature, hresolved, hname, hparams.length_eq.symm, ?_⟩
  exact annotateBlock_annotated hcontext (.cons hmodule hcontext.chain)
    (scope_keyed hcontext hsignature hstart) method.body hbody

/-- A program that is accepted is annotated throughout: nothing of its tree is changed but the
annotations, of which none is missing, and which agree with each other at every node. -/
theorem Program.annotate_complete {program : Program} (hcheck : program.check context = .ok ()) :
    (program.annotate context).erase = program.erase ∧ (program.annotate context).Annotated := by
  obtain ⟨hmain, fields, module, hfields, hdeclare, hbodies⟩ := check_eq_ok.mp hcheck
  have hmodule : module.Keyed :=
    declareMethods_keyed hcontext (checkFields_keyed hcontext .empty hfields) hdeclare
  refine ⟨program.relocate_annotate id context, ?_⟩
  rw [annotate_eq hmain hfields hdeclare hbodies]
  refine ⟨annotateFields_annotated hcontext .empty hfields, fun method hmethod ↦ ?_⟩
  obtain ⟨original, horiginal, rfl⟩ := List.mem_map.mp hmethod
  exact Method.annotate_annotated hcontext hmodule (hbodies original horiginal)

omit hcontext in
/-- A program with a loop, and a host that has a counter, is annotated completely. -/
theorem Program.annotate_complete_counted :
    counting.Built ∧ (counted "count").check counting = .ok () ∧
      ((counted "count").annotate counting).erase = (counted "count").erase ∧
      ((counted "count").annotate counting).Annotated :=
  ⟨counting_built, rfl, annotate_complete counting_built rfl⟩

end

end ScriptLang
