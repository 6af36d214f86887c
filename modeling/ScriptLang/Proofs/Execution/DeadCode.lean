import Mathlib.Data.List.Forall2
import ScriptLang.Proofs.Execution.Returning

/-!
Dead code. What stands behind a statement that always returns is never reached. A tree may lose such
statements in any of its blocks, at any depth; with calls that go alike, it runs as before, step by
step, however the run ends.
-/

set_option autoImplicit false
set_option relaxedAutoImplicit false

namespace ScriptLang

mutual

/-- The second statement is the first, without some of its statements that are never reached. -/
inductive Stmt.Trims : Stmt → Stmt → Prop
  | same (statement : Stmt) : Stmt.Trims statement statement
  | branch {condition : Expr} {thenBody elseBody thenBody' elseBody' : List Stmt}
    (hthen : BlockTrims thenBody thenBody') (helse : BlockTrims elseBody elseBody') :
    Stmt.Trims (.branch condition thenBody elseBody) (.branch condition thenBody' elseBody')
  | forEach {offset : Nat} {name : String} {iterable : Expr} {body body' : List Stmt}
    (hbody : BlockTrims body body') :
    Stmt.Trims (.forEach offset name iterable body) (.forEach offset name iterable body')
  | loop {condition : Expr} {body body' : List Stmt} (hbody : BlockTrims body body') :
    Stmt.Trims (.loop condition body) (.loop condition body')

/-- The second block is the first, without some of its statements that are never reached. -/
inductive BlockTrims : List Stmt → List Stmt → Prop
  | nil : BlockTrims [] []
  | cons {head head' : Stmt} {tail tail' : List Stmt} (hhead : Stmt.Trims head head')
    (htail : BlockTrims tail tail') : BlockTrims (head :: tail) (head' :: tail')
  | cut {head head' : Stmt} (hreturns : head.alwaysReturns = true) (hhead : Stmt.Trims head head')
    (dead : List Stmt) : BlockTrims (head :: dead) [head']

end

theorem BlockTrims.refl (body : List Stmt) : BlockTrims body body := by
  induction body with
  | nil => exact .nil
  | cons head tail ih => exact .cons (.same head) ih

/-- A method that has lost dead code in its body. -/
structure Method.Trims (method other : Method) : Prop where
  name : method.name = other.name
  params : method.params = other.params
  body : BlockTrims method.body other.body

/-- A program that has lost dead code in some of its methods. -/
structure Program.Trims (program other : Program) : Prop where
  fields : program.fields = other.fields
  methods : List.Forall₂ Method.Trims program.methods other.methods

section

variable {H : Type} {invoke : Callable H → List Value → Run H Value} {fuel : Nat}

/-- Nothing that stands behind a statement which always returns is run. -/
theorem execAllWith_cut {head : Stmt} (hreturns : head.alwaysReturns = true) (dead : List Stmt) :
    execAllWith invoke fuel (head :: dead) = execAllWith invoke fuel [head] := by
  funext state
  rw [execAllWith, execAllWith]
  cases hrun : head.execWith invoke fuel state with
  | error cause after => rw [Stateful.bind_of_error hrun, Stateful.bind_of_error hrun]
  | ok flow after =>
    rw [Stateful.bind_of_ok hrun, Stateful.bind_of_ok hrun]
    cases flow with
    | next => exact ((head.execWith_returns hreturns state).ok hrun rfl).elim
    | returned value => rfl

mutual

/-- A statement without its dead code is run like the statement itself, from every state. -/
theorem Stmt.Trims.execWith_eq {statement other : Stmt} :
    statement.Trims other → statement.execWith invoke fuel = other.execWith invoke fuel
  | .same _ => rfl
  | .branch hthen helse => by
    rw [Stmt.execWith, Stmt.execWith, hthen.execAllWith_eq, helse.execAllWith_eq]
  | .forEach hbody => by rw [Stmt.execWith, Stmt.execWith, hbody.execAllWith_eq]
  | .loop hbody => by rw [Stmt.execWith, Stmt.execWith, hbody.execAllWith_eq]

/-- A block without its dead code is run as with it. -/
theorem BlockTrims.execAllWith_eq {body other : List Stmt} :
    BlockTrims body other → execAllWith invoke fuel body = execAllWith invoke fuel other
  | .nil => rfl
  | .cons hhead htail => by
    rw [execAllWith, execAllWith, hhead.execWith_eq, htail.execAllWith_eq]
  | .cut hreturns hhead dead => by
    rw [execAllWith_cut hreturns, execAllWith, hhead.execWith_eq]
    rfl

end

end

end ScriptLang
