import ScriptLang.Numeral
import ScriptLang.Program
import ScriptLang.Program.Reader
import ScriptLang.Token.Escape

/-!
The grammar of programs, as readers of tokens. Expressions have four levels of binary operators,
each of which associates to the left, over operands that are followed by members and calls. A reader
that goes down into itself is given a list that bounds the depth: each level of nesting consumes a
token, so the tokens that are left are bound enough.
-/

set_option autoImplicit false
set_option relaxedAutoImplicit false

namespace ScriptLang

/-- The value of a literal token, if its text is well formed. -/
def Literal.ofToken? (token : Token) : Option Literal :=
  let text := token.text.toList
  let content := if text.length < 2 then none else Escape.decode (text.drop 1).dropLast
  match token.kind with
  | .integer => (Numeral.integer? text).map .integer
  | .decimal => (Numeral.decimal? text).map .decimal
  | .character =>
    match content with
    | some [value] => some (.character value)
    | _ => none
  | .string => content.map fun value ↦ .string (String.ofList value)
  | .identifier => none
  | .operator => none

/-- The literals that are written as keywords. -/
def Literal.ofKeyword? (text : String) : Option Literal :=
  if text = "TRUE" then some (.boolean true)
  else if text = "FALSE" then some (.boolean false)
  else if text = "NIL" then some .nil
  else none

/-- What can follow an operand after a point: a member, or a call if there are arguments. -/
structure Suffix where
  offset : Nat
  name : String
  args : Option (List Expr)

def Suffix.apply (receiver : Expr) (suffix : Suffix) : Expr :=
  match suffix.args with
  | none => .member ⟨suffix.offset, none⟩ receiver suffix.name none
  | some args => .invoke ⟨suffix.offset, none⟩ receiver suffix.name args none

/-- An operator and the operand on its right. -/
structure Operation where
  offset : Nat
  op : BinaryOp
  right : Expr

def Operation.apply (left : Expr) (operation : Operation) : Expr :=
  .binary ⟨operation.offset, none⟩ operation.op left operation.right

namespace Reader

/-- Consumes the next token if it is one of `ops`, and gives its position too. -/
def acceptOperator (ops : List BinaryOp) : Reader (Option (BinaryOp × Nat))
  | [] => .ok none []
  | token :: rest =>
    match ops.find? fun op ↦ token.isWord op.lexeme with
    | some op => .ok (some (op, token.offset)) rest
    | none => .ok none (token :: rest)

variable (stop : Nat)

/-- An operator of one level with its right operand, if such an operator is next. -/
def operation (ops : List BinaryOp) (operand : Reader Expr) : Reader (Option Operation) := do
  match ← acceptOperator ops with
  | none => return none
  | some (op, offset) => return some ⟨offset, op, ← operand⟩

/-- Operands of one level, joined by its operators from the left. -/
def level (ops : List BinaryOp) (operand : Reader Expr) : Reader Expr := do
  let first ← operand
  return (← many (operation ops operand)).foldl Operation.apply first

/-- One more argument, if a comma is next. -/
def nextArgument (expression : Reader Expr) : Reader (Option Expr) := do
  let comma ← position stop
  if ← accept "," then
    if ← nextIsAny [")"] then throw (.trailingComma comma)
    some <$> expression
  else return none

/-- The arguments of a call after its opening parenthesis, and the closing one. -/
def arguments (expression : Reader Expr) : Reader (List Expr) := do
  if ← accept ")" then return []
  let first ← expression
  let others ← many (nextArgument stop expression)
  unless ← accept ")" do expected stop "',' or ')'"
  return first :: others

/-- A member or a call on an operand, if a point is next. -/
def suffix (expression : Reader Expr) : Reader (Option Suffix) :=
  following "." do
    let offset ← position stop
    let name ← name stop
    return ⟨offset, name, ← following "(" (arguments stop expression)⟩

/-- The operand that begins with `token`, which is consumed. -/
def operandFrom (expression : Reader Expr) (token : Token) : Reader Expr := do
  let mark : Mark := ⟨token.offset, none⟩
  match token.kind with
  | .identifier =>
    match Literal.ofKeyword? token.text with
    | some value => return .literal mark value
    | none =>
      if keywords.contains token.text then throw (.expectedExpression token.text token.offset)
      match ← following "(" (arguments stop expression) with
      | some args => return .call mark token.text args none
      | none => return .access mark token.text none
  | .operator =>
    unless token.spells "(" do throw (.expectedExpression token.text token.offset)
    let inner ← expression
    expectWord stop ")"
    return .group mark inner
  | .integer | .decimal | .character | .string =>
    match Literal.ofToken? token with
    | some value => return .literal mark value
    | none => throw (.invalidLiteral token.text token.offset)

def operand (expression : Reader Expr) : Reader Expr
  | [] => expected stop "an expression" []
  | token :: rest => operandFrom stop expression token rest

/-- An operand with all members and calls on it. -/
def suffixed (expression : Reader Expr) : Reader Expr := do
  let first ← operand stop expression
  return (← many (suffix stop expression)).foldl Suffix.apply first

/-- The levels of binary operators, given a reader for expressions inside parentheses. -/
def levels (expression : Reader Expr) : Reader Expr :=
  level BinaryOp.logical (level BinaryOp.comparisons (level BinaryOp.additive
    (level BinaryOp.multiplicative (suffixed stop expression))))

/-- An expression with at most as many levels of parentheses as `bound` has tokens. -/
def expressionWithin : List Token → Reader Expr
  | [] => expected stop "an expression"
  | _ :: bound => levels stop (expressionWithin bound)

def expression : Reader Expr := fun rest ↦ expressionWithin stop rest rest

/-- A declaration after its keyword. -/
def binding : Reader Binding := do
  let offset ← position stop
  let name ← Reader.name stop
  let typeName ← following ":" (Reader.name stop)
  let value ← following "=" (expression stop)
  expectWord stop ";"
  return { name, typeName, value, offset }

/-- A statement that begins with an expression: an assignment, or the expression alone. -/
def expressionStatement : Reader Stmt := do
  let target ← expression stop
  let value ← following "=" (expression stop)
  expectWord stop ";"
  match value with
  | some value => return .assign target value
  | none => return .expr target

/-- Statements up to the end or one of the words `closers`, which is not consumed. -/
def block (statement : Reader Stmt) (closers : List String) : Reader (List Stmt) :=
  many do
    if ← atEnd then return none
    if ← nextIsAny closers then return none
    some <$> statement

/-- A block after the word that opens it, with the word that closes it. -/
def body (statement : Reader Stmt) : Reader (List Stmt) := do
  expectWord stop "DO"
  let body ← block statement ["END"]
  expectWord stop "END"
  return body

/-- A conditional after its keyword. -/
def branch (statement : Reader Stmt) : Reader Stmt := do
  let condition ← expression stop
  expectWord stop "DO"
  let thenBody ← block statement ["ELSE", "END"]
  let elseBody ← following "ELSE" (block statement ["END"])
  expectWord stop "END"
  return .branch condition thenBody (elseBody.getD [])

/-- A loop over a range after its keyword. -/
def forEach (statement : Reader Stmt) : Reader Stmt := do
  let offset ← position stop
  let name ← Reader.name stop
  expectWord stop "IN"
  let iterable ← expression stop
  return .forEach offset name iterable (← body stop statement)

/-- A conditional loop after its keyword. -/
def loop (statement : Reader Stmt) : Reader Stmt := do
  let condition ← expression stop
  return .loop condition (← body stop statement)

/-- A return statement after its keyword. -/
def ret : Reader Stmt := do
  let value ← expression stop
  expectWord stop ";"
  return .ret value

/-- A statement, given a reader for the statements inside of it. -/
def nested (statement : Reader Stmt) : Reader Stmt := do
  if ← accept "LET" then return .declare (← binding stop)
  if ← accept "IF" then return ← branch stop statement
  if ← accept "FOR" then return ← forEach stop statement
  if ← accept "WHILE" then return ← loop stop statement
  if ← accept "RETURN" then return ← ret stop
  expressionStatement stop

/-- A statement with at most as many levels of blocks as `bound` has tokens. -/
def statementWithin : List Token → Reader Stmt
  | [] => expected stop "an expression"
  | _ :: bound => nested stop (statementWithin bound)

def statement : Reader Stmt := fun rest ↦ statementWithin stop rest rest

/-- A parameter and its type. -/
def parameter : Reader (String × String) := do
  let param ← name stop
  expectWord stop ":"
  return (param, ← name stop)

/-- Parameters up to the closing parenthesis, which is consumed. -/
def parameters : Reader (List (String × String)) := do
  if ← accept ")" then return []
  let first ← parameter stop
  let others ← many (following "," (parameter stop))
  expectWord stop ")"
  return first :: others

/-- A method after its keyword. -/
def method : Reader Method := do
  let offset ← position stop
  let name ← Reader.name stop
  expectWord stop "("
  let params ← parameters stop
  let returnType ← following ":" (Reader.name stop)
  let body ← body stop (statement stop)
  return {
    name, params := params.map Prod.fst, paramTypes := params.map Prod.snd, returnType, body,
    offset }

/-- A whole program: fields, then methods, then the end. -/
def program : Reader Program := do
  let fields ← many (following "LET" (binding stop))
  let methods ← many (following "DEF" (method stop))
  unless ← atEnd do expected stop "'DEF' or end of input"
  return { fields, methods }

end Reader

/-- The tree of a program, or the first error in its tokens. -/
def Program.ofTokens (tokens : List Token) : Except ParseError Program :=
  match Reader.program (endOfTokens tokens) tokens with
  | .ok program _ => .ok program
  | .error cause _ => .error cause

end ScriptLang
