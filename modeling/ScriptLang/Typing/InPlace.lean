import ScriptLang.Scope.Tree
import ScriptLang.Typing.Check

/-!
Type checking in place. An analyzer lasts from program to program: it holds the types and the scope
of the host, a tree of scopes that grows while it goes through a program, and the type that the
method it is in has to return. It stops at the first error, wherever that is, and what it has done
to its state by then stays done, but for the return type, which each method puts back on its way
out.
-/

set_option autoImplicit false
set_option relaxedAutoImplicit false

namespace ScriptLang

/-- The state of a checker. The scope of the host is number zero of the tree. -/
structure Analyzer where
  records : Bindings String Ty := {}
  scopes : ScopeTree (Variable Ty) (Signature Ty) := .root
  returns : Option Ty := none

namespace Analyzer

/-- What the host has made known. -/
def context (analyzer : Analyzer) : TypeContext where
  records := analyzer.records
  globals := (analyzer.scopes.scope? 0).getD {}

def declare (analyzer : Analyzer) (scope : Nat) (name : String) (type : Ty) : Analyzer :=
  { analyzer with scopes := analyzer.scopes.declare scope name ⟨name, type⟩ }

def declareFunction (analyzer : Analyzer) (scope : Nat) (signature : Signature Ty) : Analyzer :=
  { analyzer with
    scopes := analyzer.scopes.declareFunction scope signature.name signature.arity signature }

/-- The analyzer of a host that adds nothing. -/
def initial : Analyzer :=
  (declareFunction {} 0 ⟨"print", [Ty.any], Ty.nil⟩).declareFunction 0
    ⟨"range", [.integer, .integer], .range⟩

def registerType (analyzer : Analyzer) (type : RecordType Ty) : Analyzer :=
  { analyzer with records := analyzer.records.insert type.name (.record type) }

def defineVariable (analyzer : Analyzer) (name : String) (type : Ty) : Analyzer :=
  analyzer.declare 0 name type

def defineFunction (analyzer : Analyzer) (signature : Signature Ty) : Analyzer :=
  analyzer.declareFunction 0 signature

end Analyzer

/-- A computation on the state of an analyzer. The state is kept when an error is found. -/
abbrev Analysis := EStateM TypingError Analyzer

namespace Analysis

variable {α : Type}

def resolve (offset : Nat) (name : String) : Analysis Ty := do
  ofExcept ((← get).context.resolve offset name)

/-- The type of an expression in the scope with the number `scope`. Expressions change no scope. -/
def infer (scope : Nat) (expr : Expr) : Analysis Ty := do
  ofExcept (expr.infer ((← get).scopes.chain scope))

def checkAs (scope : Nat) (target : Ty) (expr : Expr) : Analysis Unit := do
  let type ← infer scope expr
  ofExcept (requireAssignable target type expr.offset)

/-- Opens a scope inside the scope `parent`, and gives its number. -/
def openScope (parent : Nat) : Analysis Nat := do
  let number := (← get).scopes.nodes.length
  modify fun analyzer ↦ { analyzer with scopes := analyzer.scopes.child parent }
  return number

/-- Adds a variable to a scope that has none of its name; `offset` is the position of an error. -/
def add (scope offset : Nat) (name : String) (type : Ty) : Analysis Unit := do
  if ((← get).scopes.localLookup? scope name).isSome then throw (.redefinition name offset)
  modify (·.declare scope name type)

/-- Goes through the body of a method that returns `type`. The return type that was set before is
put back however the body is left. -/
def returning (type : Ty) (body : Analysis α) : Analysis α := fun analyzer ↦
  match body { analyzer with returns := some type } with
  | .ok value after => .ok value { after with returns := analyzer.returns }
  | .error cause after => .error cause { after with returns := analyzer.returns }

end Analysis

/-- The type of a declared variable, whose initial value does not see the variable. -/
def Binding.analyzeType (scope : Nat) (binding : Binding) : Analysis Ty := do
  match ← binding.typeName.mapM (Analysis.resolve binding.offset), binding.value with
  | none, none => throw (.missingTypeOrValue binding.name binding.offset)
  | some type, none => return type
  | none, some value => Analysis.infer scope value
  | some type, some value =>
    Analysis.checkAs scope type value
    return type

/-- Adds a declared variable to the scope `scope`. -/
def Binding.analyze (scope : Nat) (binding : Binding) : Analysis Unit := do
  let type ← binding.analyzeType scope
  Analysis.add scope binding.offset binding.name type

mutual

def Stmt.analyze (scope : Nat) : Stmt → Analysis Unit
  | .expr value => do
    discard (Analysis.infer scope value)
    unless value.isCall do throw (.invalidStatement value.offset)
  | .declare binding => binding.analyze scope
  | .assign target value => do
    unless target.isTarget do throw (.invalidAssignmentTarget target.offset)
    let found ← Analysis.infer scope value
    let expected ← Analysis.infer scope target
    ofExcept (requireAssignable expected found value.offset)
  | .branch condition thenBody elseBody => do
    Analysis.checkAs scope .boolean condition
    if thenBody.isEmpty then throw (.emptyThenBranch condition.offset)
    analyzeBlock (← Analysis.openScope scope) thenBody
    analyzeBlock (← Analysis.openScope scope) elseBody
  | .forEach _ name iterable body => do
    Analysis.checkAs scope .range iterable
    let inner ← Analysis.openScope scope
    modify (·.declare inner name .integer)
    analyzeBlock inner body
  | .loop condition body => do
    Analysis.checkAs scope .boolean condition
    analyzeBlock (← Analysis.openScope scope) body
  | .ret value => do
    let type ← Analysis.infer scope value
    ofExcept (requireAssignable ((← get).returns.getD .nil) type value.offset)

/-- Goes through the statements of a block, which share the scope `scope`. -/
def analyzeBlock (scope : Nat) : List Stmt → Analysis Unit
  | [] => return ()
  | head :: tail => do
    head.analyze scope
    analyzeBlock scope tail

end

def Method.analyzeSignature (method : Method) : Analysis (Signature Ty) := do
  let params ← method.paramTypes.mapM (Analysis.resolve method.offset)
  let returns ← method.returnType.mapM (Analysis.resolve method.offset)
  return ⟨method.name, params, returns.getD .nil⟩

/-- Adds a method to the module if it has none of its name and count of parameters. -/
def Method.analyzeDeclaration (module : Nat) (method : Method) : Analysis (Signature Ty) := do
  let signature ← method.analyzeSignature
  if (← get).scopes.hasLocalFunction module method.name signature.arity then
    throw (.redefinition method.name method.offset)
  modify (·.declareFunction module signature)
  return signature

def Method.analyzeBody (module : Nat) (method : Method) (signature : Signature Ty) :
    Analysis Unit := do
  let scope ← Analysis.openScope module
  (method.params.zip signature.params).forM fun param ↦
    Analysis.add scope method.offset param.1 param.2
  Analysis.returning signature.returns (analyzeBlock scope method.body)

/-- Goes through a whole program in a module scope of its own. -/
def Program.analyze (program : Program) : Analysis Unit := do
  unless program.methods.any Method.isMain do throw .missingMain
  let module ← Analysis.openScope 0
  program.fields.forM (Binding.analyze module)
  let signatures ← program.methods.mapM (Method.analyzeDeclaration module)
  (program.methods.zip signatures).forM fun known ↦ known.1.analyzeBody module known.2

end ScriptLang
