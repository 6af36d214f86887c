import ScriptLang.Decimal
import ScriptLang.Operator
import ScriptLang.Ty

/-!
The tree of a program: fields of the module, then methods whose bodies are statements over
expressions. Each node has the position of the word it is designated by. Type checking writes its
results into the tree: the type of each expression, and what each name and call stands for.
-/

set_option autoImplicit false
set_option relaxedAutoImplicit false

namespace ScriptLang

inductive Literal
  | nil
  | boolean (value : Bool)
  | integer (value : Int)
  | decimal (value : Decimal)
  | character (value : Char)
  | string (value : String)
  deriving DecidableEq, Inhabited

/-- The position of an expression, and its type once it is checked. -/
structure Mark where
  offset : Nat
  type : Option Ty := none
  deriving Inhabited

/-- An expression. Fields and methods of an object are reached through a receiver by `member` and
`invoke`, variables and functions in scope by `access` and `call`. -/
inductive Expr
  | literal (mark : Mark) (value : Literal)
  | group (mark : Mark) (inner : Expr)
  | binary (mark : Mark) (op : BinaryOp) (left right : Expr)
  | access (mark : Mark) (name : String) (resolved : Option (Variable Ty))
  | member (mark : Mark) (receiver : Expr) (name : String) (resolved : Option (Variable Ty))
  | call (mark : Mark) (name : String) (args : List Expr) (resolved : Option (Signature Ty))
  | invoke (mark : Mark) (receiver : Expr) (name : String) (args : List Expr)
    (resolved : Option (Signature Ty))
  deriving Inhabited

namespace Expr

def mark : Expr → Mark
  | literal mark _ => mark
  | group mark _ => mark
  | binary mark _ _ _ => mark
  | access mark _ _ => mark
  | member mark _ _ _ => mark
  | call mark _ _ _ => mark
  | invoke mark _ _ _ _ => mark

def offset (expr : Expr) : Nat := expr.mark.offset

/-- Whether the expression can be assigned to. -/
def isTarget : Expr → Bool
  | access .. => true
  | member .. => true
  | _ => false

/-- Whether the expression can stand as a statement. -/
def isCall : Expr → Bool
  | call .. => true
  | invoke .. => true
  | _ => false

end Expr

/-- A declaration of a variable, with a type, an initial value, or both. -/
structure Binding where
  name : String
  typeName : Option String
  value : Option Expr
  offset : Nat
  resolved : Option (Variable Ty) := none
  deriving Inhabited

/-- A statement. `branch` and `loop` are the conditional and the conditional loop, `forEach` runs
over a range, and `ret` leaves the method with a value. -/
inductive Stmt
  | expr (value : Expr)
  | declare (binding : Binding)
  | assign (target value : Expr)
  | branch (condition : Expr) (thenBody elseBody : List Stmt)
  | forEach (offset : Nat) (name : String) (iterable : Expr) (body : List Stmt)
  | loop (condition : Expr) (body : List Stmt)
  | ret (value : Expr)
  deriving Inhabited

/-- A method with its parameters and the names of their types, in the same order. -/
structure Method where
  name : String
  params : List String
  paramTypes : List String
  returnType : Option String
  body : List Stmt
  offset : Nat
  resolved : Option (Signature Ty) := none
  deriving Inhabited

/-- A program: the fields of its module, then its methods. -/
structure Program where
  fields : List Binding := []
  methods : List Method := []
  deriving Inhabited

end ScriptLang
