import ScriptLang.Typing.Check

/-!
Writing the results of type checking into a tree. A node is annotated when it is found correct, and
the nodes behind the first error are left as they are, so that the annotated tree of a rejected
program shows how far checking came.
-/

set_option autoImplicit false
set_option relaxedAutoImplicit false

namespace ScriptLang

/-- The mark with the type that was found, if one was. -/
def Mark.settle (mark : Mark) : Except TypingError Ty → Mark
  | .ok type => { mark with type := some type }
  | .error _ => mark

/-- What a name was found to stand for, if everything about it is correct. -/
def settle {α β : Type} (old : Option α) (found : Except TypingError α)
    (verdict : Except TypingError β) : Option α :=
  match verdict, found with
  | .ok _, .ok value => some value
  | _, _ => old

section

variable (scopes : TypeChain)

mutual

def Expr.annotate : Expr → Expr
  | expr@(.literal mark value) => .literal (mark.settle (expr.infer scopes)) value
  | expr@(.group mark inner) => .group (mark.settle (expr.infer scopes)) inner.annotate
  | expr@(.binary mark op left right) =>
    .binary (mark.settle (expr.infer scopes)) op left.annotate
      (if (left.infer scopes).isOk then right.annotate else right)
  | expr@(.access mark name resolved) =>
    .access (mark.settle (expr.infer scopes)) name
      (settle resolved (requireVariable scopes mark.offset name) (expr.infer scopes))
  | expr@(.member mark receiver name resolved) =>
    .member (mark.settle (expr.infer scopes)) receiver.annotate name
      (settle resolved (receiver.infer scopes >>= (·.requireField mark.offset name))
        (expr.infer scopes))
  | expr@(.call mark name args resolved) =>
    let found := requireFunction scopes mark.offset name args.length
    .call (mark.settle (expr.infer scopes)) name
      (match found with
        | .ok found => annotateArgs args found.params
        | .error _ => args)
      (settle resolved found (expr.infer scopes))
  | expr@(.invoke mark receiver name args resolved) =>
    let found := receiver.infer scopes >>= (·.requireMethod mark.offset name args.length)
    .invoke (mark.settle (expr.infer scopes)) receiver.annotate name
      (match found with
        | .ok found => annotateArgs args (found.params.drop 1)
        | .error _ => args)
      (settle resolved found (expr.infer scopes))

def annotateArgs : List Expr → List Ty → List Expr
  | [], _ => []
  | args, [] => args
  | head :: tail, param :: params =>
    head.annotate ::
      (if (head.checkAs scopes param).isOk then annotateArgs tail params else tail)

end

end

section

variable (context : TypeContext)

def Binding.annotate (outer : TypeChain) (here : TypeScope) (binding : Binding) : Binding :=
  if (binding.typeName.mapM (context.resolve binding.offset)).isOk then
    { binding with
      value := binding.value.map (Expr.annotate (here :: outer))
      resolved :=
        settle binding.resolved
          ((binding.infer context outer here).map fun type ↦ ⟨binding.name, type⟩)
          (binding.check context outer here) }
  else binding

variable (returns : Ty)

mutual

def Stmt.annotate (outer : TypeChain) (here : TypeScope) : Stmt → Stmt
  | .expr value => .expr (value.annotate (here :: outer))
  | .declare binding => .declare (binding.annotate context outer here)
  | .assign target value =>
    if target.isTarget then
      .assign
        (if (value.infer (here :: outer)).isOk then target.annotate (here :: outer) else target)
        (value.annotate (here :: outer))
    else .assign target value
  | .branch condition thenBody elseBody =>
    if (condition.checkAs (here :: outer) .boolean).isOk && !thenBody.isEmpty then
      .branch (condition.annotate (here :: outer)) (annotateBlock (here :: outer) {} thenBody)
        (if (checkBlock context returns (here :: outer) {} thenBody).isOk then
          annotateBlock (here :: outer) {} elseBody
        else elseBody)
    else .branch (condition.annotate (here :: outer)) thenBody elseBody
  | .forEach offset name iterable body =>
    .forEach offset name (iterable.annotate (here :: outer))
      (if (iterable.checkAs (here :: outer) .range).isOk then
        annotateBlock (here :: outer) (Scope.declare {} name ⟨name, .integer⟩) body
      else body)
  | .loop condition body =>
    .loop (condition.annotate (here :: outer))
      (if (condition.checkAs (here :: outer) .boolean).isOk then
        annotateBlock (here :: outer) {} body
      else body)
  | .ret value => .ret (value.annotate (here :: outer))

def annotateBlock (outer : TypeChain) (here : TypeScope) : List Stmt → List Stmt
  | [] => []
  | head :: tail =>
    head.annotate outer here ::
      match head.check context returns outer here with
      | .ok here => annotateBlock outer here tail
      | .error _ => tail

end

end

section

variable (context : TypeContext)

def annotateFields (module : TypeScope) : List Binding → List Binding
  | [] => []
  | head :: tail =>
    head.annotate context [context.globals] module ::
      match head.check context [context.globals] module with
      | .ok module => annotateFields module tail
      | .error _ => tail

def annotateSignatures (module : TypeScope) : List Method → List Method
  | [] => []
  | head :: tail =>
    match head.declare context module with
    | .ok module =>
      { head with
        resolved := settle head.resolved (head.signature context) (head.signature context) } ::
        annotateSignatures module tail
    | .error _ => head :: tail

def Method.annotate (module : TypeScope) (method : Method) : Method :=
  match method.signature context with
  | .error _ => method
  | .ok signature =>
    match method.scope signature with
    | .error _ => method
    | .ok here =>
      { method with
        body :=
          annotateBlock context signature.returns [module, context.globals] here method.body }

def annotateMethods (module : TypeScope) : List Method → List Method
  | [] => []
  | head :: tail =>
    head.annotate context module ::
      if (head.check context module).isOk then annotateMethods module tail else tail

/-- The program with the results of checking it, as far as checking came. -/
def Program.annotate (program : Program) : Program :=
  if program.methods.any Method.isMain then
    let fields := annotateFields context {} program.fields
    match checkFields context {} program.fields with
    | .error _ => { program with fields }
    | .ok module =>
      let methods := annotateSignatures context module program.methods
      match declareMethods context module program.methods with
      | .error _ => { fields, methods }
      | .ok module => { fields, methods := annotateMethods context module methods }
  else program

end

end ScriptLang
