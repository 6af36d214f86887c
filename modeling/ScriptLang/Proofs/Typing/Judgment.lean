import Mathlib.Data.List.Forall2
import ScriptLang.Typing.Rules

/-!
The type system as rules. An environment says what names stand for; the rules hand environments down
into a program and never change one. Inside a block the variables declared so far stand apart from
those around the block, which they shadow. `Program.Typed` is the judgment on whole programs.
-/

set_option autoImplicit false
set_option relaxedAutoImplicit false

namespace ScriptLang

/-- A value of the second type may stand where the first type is expected. -/
inductive Ty.Assignable : Ty → Ty → Prop
  | refl (type : Ty) : Assignable type type
  | record {target source : RecordType Ty} (hname : target.name = source.name) :
    Assignable (.record target) (.record source)
  | any (source : Ty) : Assignable .any source
  | comparable (source : Ty) : Assignable .comparable source

/-- The types of literals. An integer has to fit in 32 bits, a decimal in the range of doubles. -/
inductive Literal.HasType : Literal → Ty → Prop
  | nil : HasType .nil .nil
  | boolean (value : Bool) : HasType (.boolean value) .boolean
  | character (value : Char) : HasType (.character value) .character
  | string (value : String) : HasType (.string value) .string
  | integer {n : Int} (hlow : -0x80000000 ≤ n) (hhigh : n < 0x80000000) :
    HasType (.integer n) .integer
  | decimal {x : Decimal} (hrange : x.inDoubleRange = true) : HasType (.decimal x) .decimal

/-- The types of the operands of an operator, and of its result. -/
inductive BinaryOp.HasType : BinaryOp → Ty → Ty → Ty → Prop
  | logical {op : BinaryOp} (hop : op ∈ logical) : HasType op .boolean .boolean .boolean
  | comparison {op : BinaryOp} {left right : Ty} (hop : op ∈ comparisons)
    (hleft : Ty.comparable.Assignable left) (hright : left.Assignable right) :
    HasType op left right .boolean
  | join {left right : Ty} (hstring : left = .string ∨ right = .string) :
    HasType .add left right .string
  | arithmetic {op : BinaryOp} {type : Ty} (hop : op ∈ additive ++ multiplicative)
    (htype : type = .integer ∨ type = .decimal) : HasType op type type type

/-- The variables declared so far at one level. -/
abbrev Locals := String → Option Ty

def Locals.empty : Locals := fun _ ↦ none

def Locals.bind (here : Locals) (name : String) (type : Ty) : Locals :=
  fun other ↦ if other = name then some type else here other

/-- What names stand for at a point of a program. -/
@[ext]
structure Env where
  var : String → Option Ty
  fn : String → Nat → Option (Signature Ty)

namespace Env

/-- What the host has made known. -/
def host (context : TypeContext) : Env where
  var name := (context.globals.lookup? name).map fun found ↦ found.type
  fn := context.globals.function?

/-- The environment at a level with the variables `here`. -/
def under (env : Env) (here : Locals) : Env :=
  { env with var := fun name ↦ (here name).or (env.var name) }

/-- The environment with the functions of a module, by name and count of parameters. -/
def withMethods (env : Env) (signatures : List (Signature Ty)) : Env :=
  { env with
    fn := fun name arity ↦
      (signatures.find? fun signature ↦ signature.name = name ∧ signature.arity = arity).or
        (env.fn name arity) }

end Env

/-! ### Expressions -/

section

variable (env : Env)

mutual

inductive Expr.HasType : Expr → Ty → Prop
  | literal {mark value type} (hvalue : value.HasType type) :
    Expr.HasType (.literal mark value) type
  | group {mark inner type} (hinner : Expr.HasType inner type) :
    Expr.HasType (.group mark inner) type
  | binary {mark op left right leftType rightType type} (hleft : Expr.HasType left leftType)
    (hright : Expr.HasType right rightType) (hop : op.HasType leftType rightType type) :
    Expr.HasType (.binary mark op left right) type
  | access {mark name resolved type} (hname : env.var name = some type) :
    Expr.HasType (.access mark name resolved) type
  | member {mark receiver name resolved} {record : RecordType Ty} {field : Variable Ty}
    (hreceiver : Expr.HasType receiver (.record record))
    (hname : record.members.lookup? name = some field) :
    Expr.HasType (.member mark receiver name resolved) field.type
  | call {mark name args resolved} {signature : Signature Ty}
    (hname : env.fn name args.length = some signature) (hargs : ArgsFit args signature.params) :
    Expr.HasType (.call mark name args resolved) signature.returns
  | invoke {mark receiver name args resolved} {record : RecordType Ty} {signature : Signature Ty}
    (hreceiver : Expr.HasType receiver (.record record))
    (hname : record.members.function? name (args.length + 1) = some signature)
    (hargs : ArgsFit args signature.params.tail) :
    Expr.HasType (.invoke mark receiver name args resolved) signature.returns

/-- Arguments may be passed for parameters of the listed types, one for each. -/
inductive ArgsFit : List Expr → List Ty → Prop
  | nil : ArgsFit [] []
  | cons {head tail type param params} (hhead : Expr.HasType head type)
    (hassignable : param.Assignable type) (htail : ArgsFit tail params) :
    ArgsFit (head :: tail) (param :: params)

end

/-- An expression has a type and may stand where `target` is expected. -/
def Expr.Fits (target : Ty) (expr : Expr) : Prop :=
  ∃ type, expr.HasType env type ∧ target.Assignable type

end

/-! ### Declarations and statements -/

section

variable (context : TypeContext)

/-- The type of the variable that is declared: the written one, which the value, if there is one,
may be assigned to, or else the type of the value. The value does not see the variable. -/
inductive Binding.HasType (env : Env) (binding : Binding) : Ty → Prop
  | written {name type} (hname : binding.typeName = some name)
    (htype : context.type? name = some type)
    (hvalue : ∀ value ∈ binding.value, value.Fits env type) : HasType env binding type
  | inferred {value type} (hname : binding.typeName = none) (hvalue : binding.value = some value)
    (htype : value.HasType env type) : HasType env binding type

variable (returns : Ty)

mutual

/-- A statement stands in `env` behind the variables `here` of its block, in a method that returns
`returns`, and the next statement stands behind the last variables. -/
inductive Stmt.Typed : Env → Locals → Stmt → Locals → Prop
  | expr {env here value type} (hcall : value.isCall = true)
    (hvalue : value.HasType (env.under here) type) : Stmt.Typed env here (.expr value) here
  | declare {env here binding type} (htype : binding.HasType context (env.under here) type)
    (hnew : here binding.name = none) :
    Stmt.Typed env here (.declare binding) (here.bind binding.name type)
  | assign {env here target value type} (htarget : target.isTarget = true)
    (htype : target.HasType (env.under here) type) (hvalue : value.Fits (env.under here) type) :
    Stmt.Typed env here (.assign target value) here
  | branch {env here condition thenBody elseBody}
    (hcondition : condition.HasType (env.under here) .boolean) (hsome : thenBody ≠ [])
    (hthen : BlockTyped (env.under here) .empty thenBody)
    (helse : BlockTyped (env.under here) .empty elseBody) :
    Stmt.Typed env here (.branch condition thenBody elseBody) here
  | forEach {env here offset name iterable body}
    (hiterable : iterable.HasType (env.under here) .range)
    (hbody : BlockTyped (env.under here) (Locals.empty.bind name .integer) body) :
    Stmt.Typed env here (.forEach offset name iterable body) here
  | loop {env here condition body} (hcondition : condition.HasType (env.under here) .boolean)
    (hbody : BlockTyped (env.under here) .empty body) :
    Stmt.Typed env here (.loop condition body) here
  | ret {env here value} (hvalue : value.Fits (env.under here) returns) :
    Stmt.Typed env here (.ret value) here

inductive BlockTyped : Env → Locals → List Stmt → Prop
  | nil {env here} : BlockTyped env here []
  | cons {env here behind head tail} (hhead : Stmt.Typed env here head behind)
    (htail : BlockTyped env behind tail) : BlockTyped env here (head :: tail)

end

end

/-! ### Programs -/

section

variable (context : TypeContext)

/-- Fields are typed in order; each sees what the host has made known and the fields before it. -/
inductive FieldsTyped : Locals → List Binding → Locals → Prop
  | nil {here} : FieldsTyped here [] here
  | cons {here head tail type after}
    (htype : head.HasType context ((Env.host context).under here) type)
    (hnew : here head.name = none) (htail : FieldsTyped (here.bind head.name type) tail after) :
    FieldsTyped here (head :: tail) after

/-- The signature that is written at a method; without a type of the result it returns `Nil`. -/
structure Method.HasSignature (method : Method) (signature : Signature Ty) : Prop where
  name : signature.name = method.name
  params : List.Forall₂ (fun name type ↦ context.type? name = some type) method.paramTypes
    signature.params
  returns : (method.returnType = none ∧ signature.returns = .nil) ∨
    ∃ name, method.returnType = some name ∧ context.type? name = some signature.returns

/-- The body of a method stands in `env` behind its parameters, which have different names. -/
structure Method.BodyTyped (env : Env) (method : Method) (signature : Signature Ty) : Prop where
  distinct : method.params.Nodup
  body : BlockTyped context signature.returns env
    (fun name ↦ (method.params.zip signature.params).lookup name) method.body

/-- A program with the types of its fields and the signatures of its methods. -/
structure Program.TypedBy (program : Program) (fields : Locals)
    (signatures : List (Signature Ty)) : Prop where
  fieldsTyped : FieldsTyped context .empty program.fields fields
  written : List.Forall₂ (Method.HasSignature context) program.methods signatures
  distinct : (signatures.map fun signature ↦ (signature.name, signature.arity)).Nodup
  entry : ⟨"main", [], .integer⟩ ∈ signatures
  bodiesTyped : List.Forall₂
    (Method.BodyTyped context (((Env.host context).under fields).withMethods signatures))
    program.methods signatures

def Program.Typed (program : Program) : Prop :=
  ∃ fields signatures, program.TypedBy context fields signatures

end

end ScriptLang
