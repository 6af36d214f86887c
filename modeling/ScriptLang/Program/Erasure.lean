import ScriptLang.Program

/-!
Trees without annotations. `relocate` drops what type checking wrote into a tree and moves every
position: with the positions kept it is erasure, and with all positions alike it leaves the bare
structure, on which two trees can be compared whatever the layout of their texts.
-/

set_option autoImplicit false
set_option relaxedAutoImplicit false

namespace ScriptLang

variable (move : Nat → Nat)

def Mark.relocate (mark : Mark) : Mark := ⟨move mark.offset, none⟩

mutual

def Expr.relocate : Expr → Expr
  | .literal mark value => .literal (mark.relocate move) value
  | .group mark inner => .group (mark.relocate move) inner.relocate
  | .binary mark op left right => .binary (mark.relocate move) op left.relocate right.relocate
  | .access mark name _ => .access (mark.relocate move) name none
  | .member mark receiver name _ => .member (mark.relocate move) receiver.relocate name none
  | .call mark name args _ => .call (mark.relocate move) name (relocateArgs args) none
  | .invoke mark receiver name args _ =>
    .invoke (mark.relocate move) receiver.relocate name (relocateArgs args) none

def relocateArgs : List Expr → List Expr
  | [] => []
  | head :: tail => head.relocate :: relocateArgs tail

end

def Binding.relocate (binding : Binding) : Binding where
  name := binding.name
  typeName := binding.typeName
  value := binding.value.map (Expr.relocate move)
  offset := move binding.offset

mutual

def Stmt.relocate : Stmt → Stmt
  | .expr value => .expr (value.relocate move)
  | .declare binding => .declare (binding.relocate move)
  | .assign target value => .assign (target.relocate move) (value.relocate move)
  | .branch condition thenBody elseBody =>
    .branch (condition.relocate move) (relocateAll thenBody) (relocateAll elseBody)
  | .forEach offset name iterable body =>
    .forEach (move offset) name (iterable.relocate move) (relocateAll body)
  | .loop condition body => .loop (condition.relocate move) (relocateAll body)
  | .ret value => .ret (value.relocate move)

def relocateAll : List Stmt → List Stmt
  | [] => []
  | head :: tail => head.relocate :: relocateAll tail

end

def Method.relocate (method : Method) : Method where
  name := method.name
  params := method.params
  paramTypes := method.paramTypes
  returnType := method.returnType
  body := relocateAll move method.body
  offset := move method.offset

def Program.relocate (program : Program) : Program where
  fields := program.fields.map (Binding.relocate move)
  methods := program.methods.map (Method.relocate move)

/-- The tree without its annotations. -/
def Program.erase (program : Program) : Program := program.relocate id

/-- The tree without its annotations and positions. -/
def Program.skeleton (program : Program) : Program := program.relocate fun _ ↦ 0

end ScriptLang
