import ScriptLang.Program.Requests

/-!
Reading tokens by position. A cursor moves over a list of tokens that stays as it is, and it can
come to stand behind the end of the list. Whatever might go wrong with it has an outcome of its own:
the token in front of the position is asked for where there is none, an operator that a level takes
is not known, or there is no fuel for one more turn of a loop or one more level of nesting.
-/

set_option autoImplicit false
set_option relaxedAutoImplicit false

namespace ScriptLang

/-- Why a cursor stops. -/
inductive Halt
  | failed (cause : ParseError)
  | unknownOperator (cause : ParseError)
  | outOfRange
  | outOfFuel
  deriving DecidableEq

/-- A computation that moves a position over a list of tokens. -/
abbrev Cursor := ReaderT (List Token) (EStateM Halt Nat)

namespace Cursor

variable {α σ : Type}

def fail (cause : ParseError) : Cursor α := throw (.failed cause)

/-- The next token. -/
def peek : Cursor (Option Token) := do return (← read)[← get]?

def hasNext : Cursor Bool := do return (← get) < (← read).length

/-- Moves on, be there a token or not. -/
def skip : Cursor Unit := modify (· + 1)

/-- Moves on, and gives the token that was next. -/
def advance : Cursor (Option Token) := do
  skip
  return (← read)[(← get) - 1]?

/-- The token in front of the position. -/
def previous : Cursor Token := do
  match ← get with
  | 0 => throw .outOfRange
  | index + 1 =>
    match (← read)[index]? with
    | some token => return token
    | none => throw .outOfRange

/-- Whether the next token is one of the keywords and operators `texts`. -/
def nextIsAny (texts : List String) : Cursor Bool := do
  return (← peek).any fun token ↦ texts.any token.isWord

/-- Moves on if the next token is one of the keywords and operators `texts`. -/
def matchNext (texts : List String) : Cursor Bool := do
  if ← nextIsAny texts then
    skip
    return true
  else return false

/-- Where an error about the position points: to the next token or to the end of the last. -/
def offset : Cursor Nat := do
  match ← peek with
  | some token => return token.offset
  | none => return endOfTokens (← read)

/-- Fails at the next token, which is not what was expected. -/
def expected (what : String) : Cursor α := do
  match ← peek with
  | some token => fail (.expectedToken what token.text token.offset)
  | none => fail (.unexpectedEnd what (← offset))

/-- Consumes the keyword or operator `text`. -/
def consume (text : String) : Cursor Token := do
  if ← matchNext [text] then previous else expected s!"'{text}'"

/-- Consumes a name. -/
def identifier : Cursor String := do
  match ← peek with
  | some token =>
    if token.isName then
      skip
      return token.text
    else expected "an identifier"
  | none => expected "an identifier"

/-- Reads what follows the keyword or operator `text`, if that is next. -/
def following (text : String) (cursor : Cursor α) : Cursor (Option α) := do
  if ← matchNext [text] then some <$> cursor else return none

/-- A loop that takes turns until one gives no new value. -/
def repeatFrom (turn : σ → Cursor (Option σ)) : Nat → σ → Cursor σ
  | 0, _ => throw .outOfFuel
  | fuel + 1, value => do
    match ← turn value with
    | some value => repeatFrom turn fuel value
    | none => return value

/-! ### Expressions -/

/-- Consumes the next token if it is one of the operators `ops`, and gives its position too. -/
def operator (ops : List String) : Cursor (Option (BinaryOp × Nat)) := do
  if ← matchNext ops then
    let token ← previous
    match BinaryOp.ofLexeme? token.text with
    | some op => return some (op, token.offset)
    | none => throw (.unknownOperator (.expectedExpression token.text token.offset))
  else return none

/-- One more operator of a level with its right operand, behind the operand `left`. -/
def operation (ops : List String) (next : Cursor Expr) (left : Expr) : Cursor (Option Expr) := do
  match ← operator ops with
  | some (op, offset) => return some (.binary ⟨offset, none⟩ op left (← next))
  | none => return none

/-- Arguments up to the closing parenthesis, behind those in `args` and a comma. -/
def argumentsFrom (expression : Cursor Expr) : Nat → List Expr → Cursor (List Expr)
  | 0, _ => throw .outOfFuel
  | fuel + 1, args => do
    let arg ← expression
    if ← matchNext [")"] then return args ++ [arg]
    else if ← matchNext [","] then
      if ← nextIsAny [")"] then
        let comma ← previous
        fail (.trailingComma comma.offset)
      else argumentsFrom expression fuel (args ++ [arg])
    else expected "',' or ')'"

section

variable (fuel : Nat)

/-- Operands of one level, joined by its operators from the left. -/
def binaryLevel (ops : List String) (next : Cursor Expr) : Cursor Expr := do
  repeatFrom (operation ops next) fuel (← next)

/-- The arguments of a call after its opening parenthesis, and the closing one. -/
def arguments (expression : Cursor Expr) : Cursor (List Expr) := do
  if ← matchNext [")"] then return [] else argumentsFrom expression fuel []

/-- A member or a call on `receiver`, if a point is next. -/
def suffix (expression : Cursor Expr) (receiver : Expr) : Cursor (Option Expr) :=
  following "." do
    let offset ← offset
    let name ← identifier
    match ← following "(" (arguments fuel expression) with
    | some args => return .invoke ⟨offset, none⟩ receiver name args none
    | none => return .member ⟨offset, none⟩ receiver name none

/-- The operand that begins with `token`, which is consumed, at the position `offset`. -/
def operandFrom (expression : Cursor Expr) (offset : Nat) (token : Token) : Cursor Expr := do
  match token.kind with
  | .identifier =>
    match Literal.ofKeyword? token.text with
    | some value => return .literal ⟨offset, none⟩ value
    | none =>
      if keywords.contains token.text then fail (.expectedExpression token.text offset)
      else
        match ← following "(" (arguments fuel expression) with
        | some args => return .call ⟨offset, none⟩ token.text args none
        | none => return .access ⟨offset, none⟩ token.text none
  | .operator =>
    if token.spells "(" then
      let inner ← expression
      let _ ← consume ")"
      return .group ⟨offset, none⟩ inner
    else fail (.expectedExpression token.text offset)
  | .integer | .decimal | .character | .string =>
    match Literal.ofToken? token with
    | some value => return .literal ⟨offset, none⟩ value
    | none => fail (.invalidLiteral token.text token.offset)

/-- An operand. The next token is consumed whatever it is. -/
def operand (expression : Cursor Expr) : Cursor Expr := do
  let offset ← offset
  match ← advance with
  | some token => operandFrom fuel expression offset token
  | none => fail (.unexpectedEnd "an expression" offset)

/-- An operand with all members and calls on it. -/
def suffixed (expression : Cursor Expr) : Cursor Expr := do
  repeatFrom (suffix fuel expression) fuel (← operand fuel expression)

/-- The levels of binary operators, given a cursor for expressions inside of parentheses. -/
def levels (expression : Cursor Expr) : Cursor Expr :=
  binaryLevel fuel ["AND", "OR"] <|
    binaryLevel fuel ["<", "<=", ">", ">=", "==", "!="] <|
      binaryLevel fuel ["+", "-"] <|
        binaryLevel fuel ["*", "/"] <| suffixed fuel expression

end

def expression : Nat → Cursor Expr
  | 0 => throw .outOfFuel
  | fuel + 1 => levels (fuel + 1) (expression fuel)

/-! ### Statements and programs -/

/-- A parameter and its type. -/
def parameter : Cursor (String × String) := do
  let name ← identifier
  let _ ← consume ":"
  return (name, ← identifier)

/-- One more parameter behind those in `params`, if a comma is next. -/
def nextParameter (params : List (String × String)) : Cursor (Option (List (String × String))) :=
  following "," do return params ++ [← parameter]

/-- One more statement behind those in `statements`, unless one of `closers` or the end is next. -/
def blockItem (statement : Cursor Stmt) (closers : List String) (statements : List Stmt) :
    Cursor (Option (List Stmt)) := do
  if ← hasNext then
    if ← nextIsAny closers then return none
    else return some (statements ++ [← statement])
  else return none

section

variable (fuel : Nat)

/-- Statements up to the end or one of the words `closers`, which is not consumed. -/
def block (statement : Cursor Stmt) (closers : List String) : Cursor (List Stmt) :=
  repeatFrom (blockItem statement closers) fuel []

/-- A declaration after its keyword. -/
def binding : Cursor Binding := do
  let offset ← offset
  let name ← identifier
  let typeName ← following ":" identifier
  let value ← following "=" (expression fuel)
  let _ ← consume ";"
  return { name, typeName, value, offset }

/-- A block after the word that opens it, with the word that closes it. -/
def body (statement : Cursor Stmt) : Cursor (List Stmt) := do
  let _ ← consume "DO"
  let body ← block fuel statement ["END"]
  let _ ← consume "END"
  return body

/-- A conditional after its keyword. -/
def branch (statement : Cursor Stmt) : Cursor Stmt := do
  let condition ← expression fuel
  let _ ← consume "DO"
  let thenBody ← block fuel statement ["ELSE", "END"]
  let elseBody ← following "ELSE" (block fuel statement ["END"])
  let _ ← consume "END"
  return .branch condition thenBody (elseBody.getD [])

/-- A loop over a range after its keyword. -/
def forEach (statement : Cursor Stmt) : Cursor Stmt := do
  let offset ← offset
  let name ← identifier
  let _ ← consume "IN"
  let iterable ← expression fuel
  return .forEach offset name iterable (← body fuel statement)

/-- A conditional loop after its keyword. -/
def loop (statement : Cursor Stmt) : Cursor Stmt := do
  let condition ← expression fuel
  return .loop condition (← body fuel statement)

/-- A return statement after its keyword. -/
def ret : Cursor Stmt := do
  let value ← expression fuel
  let _ ← consume ";"
  return .ret value

/-- A statement that begins with an expression: an assignment, or the expression alone. -/
def expressionStatement : Cursor Stmt := do
  let target ← expression fuel
  let value ← following "=" (expression fuel)
  let _ ← consume ";"
  match value with
  | some value => return .assign target value
  | none => return .expr target

/-- A statement, given a cursor for the statements inside of it. -/
def nested (statement : Cursor Stmt) : Cursor Stmt := do
  if ← matchNext ["LET"] then return .declare (← binding fuel)
  else if ← matchNext ["IF"] then branch fuel statement
  else if ← matchNext ["FOR"] then forEach fuel statement
  else if ← matchNext ["WHILE"] then loop fuel statement
  else if ← matchNext ["RETURN"] then ret fuel
  else expressionStatement fuel

end

def statement : Nat → Cursor Stmt
  | 0 => throw .outOfFuel
  | fuel + 1 => nested (fuel + 1) (statement fuel)

variable (fuel : Nat)

/-- Parameters up to the closing parenthesis, which is consumed. -/
def parameters : Cursor (List (String × String)) := do
  let params ← if ← nextIsAny [")"] then pure []
    else repeatFrom nextParameter fuel [← parameter]
  let _ ← consume ")"
  return params

/-- A method after its keyword. -/
def method : Cursor Method := do
  let offset ← offset
  let name ← identifier
  let _ ← consume "("
  let params ← parameters fuel
  let returnType ← following ":" identifier
  let body ← body fuel (statement fuel)
  return {
    name, params := params.map Prod.fst, paramTypes := params.map Prod.snd, returnType, body,
    offset }

/-- A whole program: fields, then methods, then the end. -/
def program : Cursor Program := do
  let fields ←
    repeatFrom (fun fields ↦ following "LET" do return fields ++ [← binding fuel]) fuel []
  let methods ←
    repeatFrom (fun methods ↦ following "DEF" do return methods ++ [← method fuel]) fuel []
  if ← hasNext then expected "'DEF' or end of input" else return { fields, methods }

/-! ### Requests -/

def answer : Reader.Request → Cursor Reader.Answer
  | .expression => .expression <$> expression fuel
  | .program => .program <$> program fuel

/-- A request, the position at which it was made, and how it ended. -/
structure Call where
  request : Reader.Request
  start : Nat
  result : EStateM.Result Halt Nat Reader.Answer

/-- The position at which a call has ended. -/
def Call.stop (call : Call) : Nat :=
  match call.result with
  | .ok _ stop => stop
  | .error _ stop => stop

/-- What a call has given. -/
def Call.outcome (call : Call) : Except Halt Reader.Answer :=
  match call.result with
  | .ok answer _ => .ok answer
  | .error cause _ => .error cause

/-- The calls of one cursor in answer to requests. Each goes on where the one before has ended. -/
def callsFrom (tokens : List Token) : List Reader.Request → Nat → List Call
  | [], _ => []
  | request :: requests, start =>
    let call : Call := ⟨request, start, answer fuel request tokens start⟩
    call :: callsFrom tokens requests call.stop

/-- The calls of a cursor that begins at the first token. -/
def calls (tokens : List Token) (requests : List Reader.Request) : List Call :=
  callsFrom fuel tokens requests 0

end Cursor

end ScriptLang
