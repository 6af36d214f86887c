import ScriptLang.Typing.Rules

/-!
Type checking. `Expr.infer` finds the type of an expression, `Stmt.check` gives the scope behind a
statement, and `Program.check` accepts a program or names the first error in it. Checking goes
through a tree once and in order, and reads no annotations.
-/

set_option autoImplicit false
set_option relaxedAutoImplicit false

namespace ScriptLang

section

variable (scopes : TypeChain)

mutual

/-- The type of an expression where `scopes` are visible. -/
def Expr.infer : Expr → Except TypingError Ty
  | .literal mark value => value.type mark.offset
  | .group _ inner => inner.infer
  | .binary mark op left right => do
    let leftType ← left.infer
    let rightType ← right.infer
    op.type leftType rightType ⟨mark.offset, left.offset, right.offset⟩
  | .access mark name _ => do
    let found ← requireVariable scopes mark.offset name
    return found.type
  | .member mark receiver name _ => do
    let type ← receiver.infer
    let found ← type.requireField mark.offset name
    return found.type
  | .call mark name args _ => do
    let found ← requireFunction scopes mark.offset name args.length
    checkArgs args found.params
    return found.returns
  | .invoke mark receiver name args _ => do
    let type ← receiver.infer
    let found ← type.requireMethod mark.offset name args.length
    checkArgs args (found.params.drop 1)
    return found.returns

/-- Checks arguments against the types of the parameters they are passed for. -/
def checkArgs : List Expr → List Ty → Except TypingError Unit
  | [], _ => return ()
  | _ :: _, [] => return ()
  | head :: tail, param :: params => do
    let type ← head.infer
    requireAssignable param type head.offset
    checkArgs tail params

end

/-- Checks an expression that stands where `target` is expected. -/
def Expr.checkAs (target : Ty) (expr : Expr) : Except TypingError Unit := do
  let type ← expr.infer scopes
  requireAssignable target type expr.offset

end

/-- Adds a variable to a scope that has none of its name; `offset` is the position of an error. -/
def TypeScope.add (here : TypeScope) (offset : Nat) (name : String) (type : Ty) :
    Except TypingError TypeScope :=
  if (here.lookup? name).isSome then .error (.redefinition name offset)
  else .ok (here.declare name ⟨name, type⟩)

section

variable (context : TypeContext) (outer : TypeChain) (here : TypeScope)

/-- The type of a declared variable: the one that is written, or else that of the initial value,
which does not see the variable. -/
def Binding.infer (binding : Binding) : Except TypingError Ty := do
  match ← binding.typeName.mapM (context.resolve binding.offset), binding.value with
  | none, none => throw (.missingTypeOrValue binding.name binding.offset)
  | some type, none => return type
  | none, some value => value.infer (here :: outer)
  | some type, some value =>
    value.checkAs (here :: outer) type
    return type

/-- Checks a declaration in the scope `here`, and gives the scope with the variable in it. -/
def Binding.check (binding : Binding) : Except TypingError TypeScope := do
  let type ← binding.infer context outer here
  here.add binding.offset binding.name type

end

section

variable (context : TypeContext) (returns : Ty)

mutual

/-- Checks a statement of a method that returns `returns`, in the scope `here` inside `outer`, and
gives the scope behind the statement. -/
def Stmt.check (outer : TypeChain) (here : TypeScope) : Stmt → Except TypingError TypeScope
  | .expr value => do
    discard (value.infer (here :: outer))
    if value.isCall then return here else throw (.invalidStatement value.offset)
  | .declare binding => binding.check context outer here
  | .assign target value => do
    unless target.isTarget do throw (.invalidAssignmentTarget target.offset)
    let found ← value.infer (here :: outer)
    let expected ← target.infer (here :: outer)
    requireAssignable expected found value.offset
    return here
  | .branch condition thenBody elseBody => do
    condition.checkAs (here :: outer) .boolean
    if thenBody.isEmpty then throw (.emptyThenBranch condition.offset)
    checkBlock (here :: outer) {} thenBody
    checkBlock (here :: outer) {} elseBody
    return here
  | .forEach _ name iterable body => do
    iterable.checkAs (here :: outer) .range
    checkBlock (here :: outer) (Scope.declare {} name ⟨name, .integer⟩) body
    return here
  | .loop condition body => do
    condition.checkAs (here :: outer) .boolean
    checkBlock (here :: outer) {} body
    return here
  | .ret value => do
    value.checkAs (here :: outer) returns
    return here

/-- Checks the statements of a block whose scope begins as `here`. -/
def checkBlock (outer : TypeChain) (here : TypeScope) : List Stmt → Except TypingError Unit
  | [] => return ()
  | head :: tail => do
    let here ← head.check outer here
    checkBlock outer here tail

end

end

section

variable (context : TypeContext)

/-- The scope with all fields, each of which sees those before it. -/
def checkFields (module : TypeScope) : List Binding → Except TypingError TypeScope
  | [] => return module
  | head :: tail => do
    let module ← head.check context [context.globals] module
    checkFields module tail

/-- The signature that is written at a method. -/
def Method.signature (method : Method) : Except TypingError (Signature Ty) := do
  let params ← method.paramTypes.mapM (context.resolve method.offset)
  let returns ← method.returnType.mapM (context.resolve method.offset)
  return ⟨method.name, params, returns.getD .nil⟩

/-- Adds a method to a scope that has none of its name and count of parameters. -/
def Method.declare (module : TypeScope) (method : Method) : Except TypingError TypeScope := do
  let signature ← method.signature context
  if (module.function? method.name signature.arity).isSome then
    throw (.redefinition method.name method.offset)
  return module.declareFunction method.name signature.arity signature

/-- The scope with all methods, so that every body can call every method. -/
def declareMethods (module : TypeScope) (methods : List Method) : Except TypingError TypeScope :=
  methods.foldlM (Method.declare context) module

/-- Adds parameters to a scope; `offset` is the position of their method. -/
def declareParams (offset : Nat) (here : TypeScope) (params : List (String × Ty)) :
    Except TypingError TypeScope :=
  params.foldlM (fun here (name, type) ↦ here.add offset name type) here

/-- The scope that the body of a method begins with. -/
def Method.scope (method : Method) (signature : Signature Ty) : Except TypingError TypeScope :=
  declareParams method.offset {} (method.params.zip signature.params)

/-- Checks the body of a method under all fields and methods of its module. -/
def Method.check (module : TypeScope) (method : Method) : Except TypingError Unit := do
  let signature ← method.signature context
  let here ← method.scope signature
  checkBlock context signature.returns [module, context.globals] here method.body

/-- Whether a method can be the entry of a program. -/
def Method.isMain (method : Method) : Bool :=
  method.name == "main" && method.params.isEmpty && method.returnType == some "Integer"

/-- Checks a whole program: its entry, its fields in order, all signatures, and all bodies. -/
def Program.check (program : Program) : Except TypingError Unit := do
  unless program.methods.any Method.isMain do throw .missingMain
  let module ← checkFields context {} program.fields
  let module ← declareMethods context module program.methods
  program.methods.forM (Method.check context module)

end

end ScriptLang
