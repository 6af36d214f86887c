import ScriptLang.Proofs.Typing.Site
import ScriptLang.Typing.Annotate

/-!
What the checker writes at the nodes of an accepted program. The annotated program has the same
places, and the node at each place is annotated in the scopes in which it was checked.
-/

set_option autoImplicit false
set_option relaxedAutoImplicit false

namespace ScriptLang

/-- The part of a node behind a turn. -/
def Node.part? : Node → Turn → Option Node
  | .expr (.group _ inner), .inner => some (.expr inner)
  | .expr (.binary _ _ left _), .left => some (.expr left)
  | .expr (.binary _ _ _ right), .right => some (.expr right)
  | .expr (.member _ receiver _ _), .receiver => some (.expr receiver)
  | .expr (.call _ _ args _), .arg index => args[index]?.map .expr
  | .expr (.invoke _ receiver _ _ _), .receiver => some (.expr receiver)
  | .expr (.invoke _ _ _ args _), .arg index => args[index]?.map .expr
  | .stmt (.expr value), .value => some (.expr value)
  | .stmt (.declare binding), .value => binding.value.map .expr
  | .stmt (.assign _ value), .value => some (.expr value)
  | .stmt (.assign target _), .target => some (.expr target)
  | .stmt (.branch condition _ _), .condition => some (.expr condition)
  | .stmt (.branch _ thenBody _), .thenBody index => thenBody[index]?.map .stmt
  | .stmt (.branch _ _ elseBody), .elseBody index => elseBody[index]?.map .stmt
  | .stmt (.forEach _ _ iterable _), .value => some (.expr iterable)
  | .stmt (.forEach _ _ _ body), .body index => body[index]?.map .stmt
  | .stmt (.loop condition _), .condition => some (.expr condition)
  | .stmt (.loop _ body), .body index => body[index]?.map .stmt
  | .stmt (.ret value), .value => some (.expr value)
  | _, _ => none

/-- The node that a way through a program begins at. The call that starts the program is not
written in it. -/
def Root.node? (program : Program) : Root → Option Node
  | .field index => (program.fields[index]?.bind Binding.value).map .expr
  | .entry => none
  | .statement name arity index =>
    (program.method? name arity).bind fun method ↦ method.body[index]?.map .stmt

/-- The node of a program at a place. -/
def Program.node? (program : Program) (place : Place) : Option Node := do
  let first ← place.root.node? program
  place.turns.foldlM Node.part? first

/-- The node that a turn leads to is the part of the node before. -/
theorem Program.node?_turn (program : Program) (place : Place) (turn : Turn) :
    program.node? (place.turn turn) = (program.node? place).bind (·.part? turn) := by
  unfold node? Place.turn
  simp only [List.foldlM_append, Option.bind_eq_bind, Option.bind_assoc]
  congr 1
  funext first
  congr 1
  funext node
  simp

/-- What the checker makes of an accepted node. -/
def Site.annotated (context : TypeContext) (site : Site) : Node :=
  match site.node with
  | .expr expr => .expr (expr.annotate site.scopes)
  | .stmt statement => .stmt (statement.annotate context site.returns site.outer site.here)

section

variable {scopes : TypeChain}

/-- An expression is marked with the type that is inferred for it. -/
theorem Expr.annotate_type {expr : Expr} {type : Ty} (htype : expr.infer scopes = .ok type) :
    (expr.annotate scopes).mark.type = some type := by
  cases expr <;> unfold annotate <;> simp [mark, Mark.settle, htype]

/-- An accepted call carries the signature of the function that its name stands for. -/
theorem Expr.annotate_call {mark : Mark} {name : String} {args : List Expr}
    {resolved : Option (Signature Ty)} {type : Ty} {found : Signature Ty}
    (htype : (call mark name args resolved).infer scopes = .ok type)
    (hfound : Chain.function? scopes name args.length = some found) :
    ∃ mark' args', (call mark name args resolved).annotate scopes =
      .call mark' name args' (some found) := by
  rw [annotate, htype, requireFunction_eq_ok.mpr hfound]
  exact ⟨_, _, rfl⟩

/-- The argument at an index is annotated by itself, since annotating arguments changes no scope. -/
theorem annotateArgs_getElem? {args : List Expr} {params : List Ty} {index : Nat}
    (hargs : checkArgs scopes args params = .ok ()) (hindex : index < params.length) :
    (annotateArgs scopes args params)[index]? = args[index]?.map (Expr.annotate scopes) := by
  induction args generalizing params index with
  | nil => simp [annotateArgs]
  | cons head tail ih =>
    match params, hindex with
    | param :: params, hindex =>
      obtain ⟨hhead, htail⟩ := checkArgs_cons.mp hargs
      rw [annotateArgs, hhead]
      cases index with
      | zero => rfl
      | succ index =>
        rw [List.getElem?_cons_succ, List.getElem?_cons_succ]
        exact ih htail (Nat.lt_of_succ_lt_succ hindex)

end

section

variable {context : TypeContext} {outer : TypeChain} {returns : Ty}

/-- The statement at an index is annotated in the scope that those before it leave. -/
theorem annotateBlock_getElem? {body : List Stmt} {start here : TypeScope} {index : Nat}
    {statement : Stmt}
    (hhere : scopeBehind context outer returns start (body.take index) = .ok here)
    (hstatement : body[index]? = some statement) :
    (annotateBlock context returns outer start body)[index]? =
      some (statement.annotate context returns outer here) := by
  induction body generalizing start index with
  | nil => simp at hstatement
  | cons head tail ih =>
    rw [annotateBlock]
    cases index with
    | zero =>
      cases hhere
      rw [List.getElem?_cons_zero, Option.some_inj] at hstatement ⊢
      rw [hstatement]
    | succ index =>
      rw [List.take_succ_cons] at hhere
      obtain ⟨behind, hhead, htail⟩ := scopeBehind_cons.mp hhere
      rw [List.getElem?_cons_succ] at hstatement ⊢
      rw [hhead]
      exact ih htail hstatement

variable {site part : Site}

namespace Site

/-- An expression is annotated in the scopes of its site. -/
theorem annotated_expr {expr : Expr} (hnode : site.node = .expr expr) :
    site.annotated context = .expr (expr.annotate site.scopes) := by
  unfold annotated
  rw [hnode]

/-- A statement is annotated in the scopes of its site, for the result of its method. -/
theorem annotated_stmt {statement : Stmt} (hnode : site.node = .stmt statement) :
    site.annotated context =
      .stmt (statement.annotate context site.returns site.outer site.here) := by
  unfold annotated
  rw [hnode]

/-- An argument of a site is found annotated among the annotated arguments. -/
theorem annotated_arg {params : List Ty} {args : List Expr} {index : Nat}
    (hargs : checkArgs site.scopes args params = .ok ())
    (hpart : site.arg? params args index = some part) :
    (annotateArgs site.scopes args params)[index]?.map Node.expr =
      some (part.annotated context) := by
  obtain ⟨arg, hindex, harg, rfl⟩ := arg?_eq_some.mp hpart
  rw [annotateArgs_getElem? hargs hindex, harg]
  rfl

/-- A statement of a block is found annotated in the annotated block. -/
theorem annotated_inBlock {start : TypeScope} {body : List Stmt} {index : Nat}
    (hpart : inBlock context outer returns start body index = some part) :
    (annotateBlock context returns outer start body)[index]?.map Node.stmt =
      some (part.annotated context) := by
  obtain ⟨statement, here, hstatement, hhere, rfl⟩ := inBlock_eq_some.mp hpart
  rw [annotateBlock_getElem? hhere hstatement]
  rfl

/-- The part of an accepted expression that a turn leads to is annotated as it would be at its own
site. -/
theorem annotated_part?_expr {turn : Turn} {expr : Expr} (hnode : site.node = .expr expr)
    (haccepted : site.Accepted context) (hpart : site.part? context turn = some part) :
    (site.annotated context).part? turn = some (part.annotated context) := by
  obtain ⟨type, htype⟩ := (accepted_expr hnode).mp haccepted
  unfold part? at hpart
  rw [hnode] at hpart
  rw [annotated_expr hnode]
  cases expr with
  | literal mark value => cases turn <;> cases hpart
  | access mark name resolved => cases turn <;> cases hpart
  | group mark inner =>
    cases turn <;> cases hpart
    rw [Expr.annotate]
    rfl
  | binary mark op left right =>
    obtain ⟨leftType, rightType, hleft, hright, -⟩ := Expr.infer_binary.mp htype
    rw [Expr.annotate, hleft]
    cases turn <;> cases hpart <;> rfl
  | member mark receiver name resolved =>
    rw [Expr.annotate]
    cases turn <;> cases hpart
    rfl
  | call mark name args resolved =>
    obtain ⟨found, hfound, hargs, -⟩ := Expr.infer_call.mp htype
    rw [Expr.annotate]
    cases turn with
    | arg index =>
      obtain ⟨other, hother, harg⟩ := Option.bind_eq_some_iff.mp hpart
      rw [hfound] at hother
      cases hother
      simp only [requireFunction_eq_ok.mpr hfound]
      exact annotated_arg hargs harg
    | _ => cases hpart
  | invoke mark receiver name args resolved =>
    obtain ⟨receiverType, found, hreceiver, hfound, hargs, -⟩ := Expr.infer_invoke.mp htype
    rw [Expr.annotate]
    cases turn with
    | receiver =>
      cases hpart
      rfl
    | arg index =>
      obtain ⟨other, hother, hpart⟩ := Option.bind_eq_some_iff.mp hpart
      rw [hreceiver] at hother
      cases hother
      obtain ⟨method, hmethod, harg⟩ := Option.bind_eq_some_iff.mp hpart
      rw [hfound] at hmethod
      cases hmethod
      have hrequired : (receiver.infer site.scopes >>= fun type ↦
          type.requireMethod mark.offset name args.length) = .ok found :=
        except_bind_eq_ok.mpr ⟨receiverType, hreceiver, Ty.requireMethod_eq_ok.mpr hfound⟩
      simp only [hrequired]
      exact annotated_arg hargs harg
    | _ => cases hpart

/-- The part of an accepted statement that a turn leads to is annotated as it would be at its own
site. -/
theorem annotated_part?_stmt {turn : Turn} {statement : Stmt} (hnode : site.node = .stmt statement)
    (haccepted : site.Accepted context) (hpart : site.part? context turn = some part) :
    (site.annotated context).part? turn = some (part.annotated context) := by
  obtain ⟨behind, hcheck⟩ := (accepted_stmt hnode).mp haccepted
  unfold part? at hpart
  rw [hnode] at hpart
  rw [annotated_stmt hnode]
  cases statement with
  | expr value =>
    rw [Stmt.annotate]
    cases turn <;> cases hpart
    rfl
  | declare binding =>
    obtain ⟨type, htype, -⟩ := Binding.check_eq_ok.mp (Stmt.check_declare ▸ hcheck)
    rw [Stmt.annotate]
    cases turn with
    | value =>
      obtain ⟨value, hvalue, rfl⟩ := Option.map_eq_some_iff.mp hpart
      rw [Binding.annotate, if_pos (Binding.typeName_isOk htype)]
      simp only [Node.part?, hvalue, Option.map_some]
      rfl
    | _ => cases hpart
  | assign target value =>
    obtain ⟨-, htarget, found, expected, hfound, hexpected, -⟩ := Stmt.check_assign.mp hcheck
    rw [Stmt.annotate, if_pos htarget]
    have hvalue : value.infer (site.here :: site.outer) = .ok found := hfound
    rw [hvalue]
    cases turn <;> cases hpart <;> rfl
  | branch condition thenBody elseBody =>
    obtain ⟨-, hcondition, hempty, hthen, helse⟩ := Stmt.check_branch.mp hcheck
    have hannotated :
        ((Except.ok () : Except TypingError Unit).isOk && !thenBody.isEmpty) = true := by
      simpa [Except.isOk, Except.toBool] using hempty
    rw [Stmt.annotate, hcondition, if_pos hannotated]
    cases turn with
    | condition =>
      cases hpart
      rfl
    | thenBody index => exact annotated_inBlock hpart
    -- The ELSE branch is written into only if the THEN branch has been accepted.
    | elseBody index =>
      rw [show checkBlock context site.returns (site.here :: site.outer) {} thenBody = .ok () from
        hthen]
      exact annotated_inBlock hpart
    | _ => cases hpart
  | forEach offset name iterable body =>
    obtain ⟨-, hiterable, hbody⟩ := Stmt.check_forEach.mp hcheck
    rw [Stmt.annotate, hiterable]
    cases turn with
    | value =>
      cases hpart
      rfl
    | body index => exact annotated_inBlock hpart
    | _ => cases hpart
  | loop condition body =>
    obtain ⟨-, hcondition, hbody⟩ := Stmt.check_loop.mp hcheck
    rw [Stmt.annotate, hcondition]
    cases turn with
    | condition =>
      cases hpart
      rfl
    | body index => exact annotated_inBlock hpart
    | _ => cases hpart
  | ret value =>
    rw [Stmt.annotate]
    cases turn <;> cases hpart
    rfl

/-- The parts of an accepted node are annotated where they are checked. -/
theorem annotated_part? {turn : Turn} (haccepted : site.Accepted context)
    (hpart : site.part? context turn = some part) :
    (site.annotated context).part? turn = some (part.annotated context) := by
  cases hnode : site.node with
  | expr expr => exact annotated_part?_expr hnode haccepted hpart
  | stmt statement => exact annotated_part?_stmt hnode haccepted hpart

end Site

/-! ### The annotated program -/

/-- The field at an index is annotated in the scope that those before it leave. -/
theorem annotateFields_getElem? {fields : List Binding} {module here : TypeScope} {index : Nat}
    {field : Binding} (hhere : checkFields context module (fields.take index) = .ok here)
    (hfield : fields[index]? = some field) :
    (annotateFields context module fields)[index]? =
      some (field.annotate context [context.globals] here) := by
  induction fields generalizing module index with
  | nil => simp at hfield
  | cons head tail ih =>
    rw [annotateFields]
    cases index with
    | zero =>
      cases hhere
      rw [List.getElem?_cons_zero, Option.some_inj] at hfield ⊢
      rw [hfield]
    | succ index =>
      rw [List.take_succ_cons] at hhere
      obtain ⟨behind, hhead, htail⟩ := checkFields_cons.mp hhere
      rw [List.getElem?_cons_succ] at hfield ⊢
      rw [hhead]
      exact ih htail hfield

/-- The method with the signature that is written at it. -/
def Method.signed (context : TypeContext) (method : Method) : Method :=
  { method with
    resolved := settle method.resolved (method.signature context) (method.signature context) }

/-- Once all methods are declared, all of them have their signatures written in. -/
theorem annotateSignatures_eq {methods : List Method} {fields module : TypeScope}
    (hmodule : declareMethods context fields methods = .ok module) :
    annotateSignatures context fields methods = methods.map (Method.signed context) := by
  unfold declareMethods at hmodule
  induction methods generalizing fields with
  | nil => rfl
  | cons head tail ih =>
    rw [List.foldlM_cons] at hmodule
    obtain ⟨behind, hbehind, htail⟩ := except_bind_eq_ok.mp hmodule
    rw [annotateSignatures, hbehind]
    simp only [ih htail]
    rfl

/-- Bodies that are accepted are all annotated. -/
theorem annotateMethods_eq {methods : List Method} {module : TypeScope}
    (hbodies : ∀ method ∈ methods, method.check context module = .ok ()) :
    annotateMethods context module methods = methods.map (Method.annotate context module) := by
  induction methods with
  | nil => rfl
  | cons head tail ih =>
    rw [List.forall_mem_cons] at hbodies
    rw [annotateMethods, hbodies.1, ih hbodies.2]
    rfl

/-- Annotations do not change what a method is called by. -/
theorem Method.annotate_key (method : Method) (context : TypeContext) (module : TypeScope) :
    (method.annotate context module).name = method.name ∧
      (method.annotate context module).params = method.params := by
  unfold Method.annotate
  split
  · exact ⟨rfl, rfl⟩
  · split <;> exact ⟨rfl, rfl⟩

/-- A method is annotated in the scope of its parameters. -/
theorem Method.annotate_of_scope {method : Method} {module start : TypeScope}
    {signature : Signature Ty} (hsignature : method.signature context = .ok signature)
    (hstart : method.scope signature = .ok start) :
    method.annotate context module =
      { method with
        body :=
          annotateBlock context signature.returns [module, context.globals] start
            method.body } := by
  unfold annotate
  rw [hsignature]
  simp only [hstart]

/-- The body of a method is annotated in the scope of its parameters, for the result of its
signature. -/
theorem Method.annotate_body {method : Method} {module start : TypeScope} {signature : Signature Ty}
    (hsignature : method.signature context = .ok signature)
    (hstart : method.scope signature = .ok start) :
    ((method.signed context).annotate context module).body =
      annotateBlock context signature.returns [module, context.globals] start method.body := by
  have hsigned : (method.signed context).signature context = .ok signature := hsignature
  rw [annotate_of_scope hsigned hstart]
  rfl

variable {program : Program}

/-- A program that is accepted is annotated in all of its fields and methods. -/
theorem Program.annotate_eq {fields module : TypeScope}
    (hmain : program.methods.any Method.isMain = true)
    (hfields : checkFields context {} program.fields = .ok fields)
    (hmodule : declareMethods context fields program.methods = .ok module)
    (hbodies : ∀ method ∈ program.methods, method.check context module = .ok ()) :
    program.annotate context =
      { fields := annotateFields context {} program.fields
        methods := program.methods.map fun method ↦
          (method.signed context).annotate context module } := by
  unfold annotate
  rw [if_pos hmain]
  simp only [hfields, hmodule, annotateSignatures_eq hmodule]
  rw [annotateMethods_eq, List.map_map]
  · rfl
  · intro method hmethod
    obtain ⟨original, horiginal, rfl⟩ := List.mem_map.mp hmethod
    exact hbodies original horiginal

/-- A method of an annotated program is the annotated method of the program. -/
theorem Program.annotate_method? {fields module : TypeScope} {name : String} {arity : Nat}
    (hmain : program.methods.any Method.isMain = true)
    (hfields : checkFields context {} program.fields = .ok fields)
    (hmodule : declareMethods context fields program.methods = .ok module)
    (hbodies : ∀ method ∈ program.methods, method.check context module = .ok ()) :
    (program.annotate context).method? name arity = (program.method? name arity).map fun method ↦
      (method.signed context).annotate context module := by
  rw [annotate_eq hmain hfields hmodule hbodies]
  unfold method?
  rw [List.find?_map]
  congr 2
  funext method
  obtain ⟨hname, hparams⟩ := (method.signed context).annotate_key context module
  change (_ == name && _ == arity) = _
  rw [hname, hparams]
  rfl

/-- In the annotated program, the node at a place is what the checker makes of the node there, in
the scopes in which it meets it. -/
theorem Program.annotate_node? {place : Place} {site : Site} (hpaired : program.Paired)
    (hcheck : program.check context = .ok ()) (hroot : place.root ≠ .entry)
    (hsite : program.site? context place = some site) :
    (program.annotate context).node? place = some (site.annotated context) := by
  obtain ⟨root, turns⟩ := place
  induction turns using List.reverseRecOn generalizing site with
  | nil =>
    obtain ⟨first, hfirst, hpure⟩ := Option.bind_eq_some_iff.mp hsite
    cases hpure
    obtain ⟨hmain, fields, module, hfields, hmodule, hbodies⟩ := Program.check_eq_ok.mp hcheck
    change Option.bind (root.node? (program.annotate context)) _ = _
    rw [Option.bind_eq_some_iff]
    refine ⟨_, ?_, rfl⟩
    cases root with
    | field index =>
      obtain ⟨field, value, here, hfield, hvalue, hhere, rfl⟩ := Root.site?_field.mp hfirst
      obtain ⟨before, behind, hbefore, hbehind⟩ := checkFields_getElem? hfields hfield
      rw [hhere] at hbefore
      cases hbefore
      obtain ⟨type, htype, -⟩ := Binding.check_eq_ok.mp hbehind
      rw [Root.node?, annotate_eq hmain hfields hmodule hbodies]
      simp only [annotateFields_getElem? hhere hfield, Option.bind_some]
      rw [Binding.annotate, if_pos (Binding.typeName_isOk htype)]
      simp only [hvalue, Option.map_some]
      rfl
    | entry => exact (hroot rfl).elim
    | statement name arity index =>
      obtain ⟨other, method, signature, start, hother, hmethod, hsignature, hstart, hblock⟩ :=
        Root.site?_statement.mp hfirst
      rw [Program.module?_eq_some.mpr ⟨fields, hfields, hmodule⟩] at hother
      cases hother
      rw [Root.node?, annotate_method? hmain hfields hmodule hbodies, hmethod]
      simp only [Option.map_some, Option.bind_some, Method.annotate_body hsignature hstart]
      exact Site.annotated_inBlock hblock
  | append_singleton turns turn ih =>
    have hturn := Program.site?_turn context program ⟨root, turns⟩ turn
    rw [Place.turn, hsite] at hturn
    obtain ⟨before, hbefore, hpart⟩ := Option.bind_eq_some_iff.mp hturn.symm
    have hnode := Program.node?_turn (program.annotate context) ⟨root, turns⟩ turn
    rw [Place.turn, ih hroot hbefore] at hnode
    rw [hnode]
    exact Site.annotated_part? (Program.site?_accepted hpaired hcheck hbefore) hpart

end

end ScriptLang
