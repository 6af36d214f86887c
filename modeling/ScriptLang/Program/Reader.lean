import ScriptLang.Token

/-!
Reading a list of tokens from the front. A reader consumes tokens and either succeeds or fails, and
in both cases leaves the tokens that it has not consumed, so that reading can go on behind an error.
`stop` is the position that errors at the end of the tokens report.
-/

set_option autoImplicit false
set_option relaxedAutoImplicit false

namespace ScriptLang

/-- Why tokens have no tree, with the position the error points at. -/
inductive ParseError
  | expectedToken (expected found : String) (offset : Nat)
  | unexpectedEnd (expected : String) (offset : Nat)
  | expectedExpression (found : String) (offset : Nat)
  | trailingComma (offset : Nat)
  | invalidLiteral (text : String) (offset : Nat)
  deriving DecidableEq

namespace ParseError

def offset : ParseError → Nat
  | expectedToken _ _ offset
  | unexpectedEnd _ offset
  | expectedExpression _ offset
  | trailingComma offset
  | invalidLiteral _ offset => offset

def message : ParseError → String
  | expectedToken expected found offset => s!"[offset {offset}] Expected {expected}, got '{found}'."
  | unexpectedEnd expected offset => s!"[offset {offset}] Expected {expected}, got end of input."
  | expectedExpression found offset =>
    s!"[offset {offset}] Expected an expression, got '{found}'."
  | trailingComma offset => s!"[offset {offset}] Trailing comma in argument list."
  | invalidLiteral text offset => s!"[offset {offset}] Malformed literal {text}."

end ParseError

/-- A computation that consumes tokens from the front of a list. -/
abbrev Reader := EStateM ParseError (List Token)

namespace Reader

variable {α : Type}

/-- Reads items until `item` finds none, at most one for each token of `bound`. -/
def manyWithin (item : Reader (Option α)) : List Token → Reader (List α)
  | [] => pure []
  | _ :: bound => do
    match ← item with
    | none => return []
    | some head => return head :: (← manyWithin item bound)

/-- Reads items until `item` finds none. Each item consumes a token, so that the tokens that are
left bound their count. -/
def many (item : Reader (Option α)) : Reader (List α) := fun rest ↦ manyWithin item rest rest

/-- Whether the next token is one of the keywords and operators `texts`. -/
def nextIsAny (texts : List String) : Reader Bool :=
  fun rest ↦ .ok (rest.head?.any fun token ↦ texts.any token.isWord) rest

def atEnd : Reader Bool := fun rest ↦ .ok rest.isEmpty rest

/-- Consumes the next token if it is the keyword or operator `text`. -/
def accept (text : String) : Reader Bool
  | [] => .ok false []
  | token :: rest => if token.isWord text then .ok true rest else .ok false (token :: rest)

variable (stop : Nat)

/-- The position of the next token. -/
def position : Reader Nat := fun rest ↦ .ok ((rest.head?.map Token.offset).getD stop) rest

/-- Fails at the next token, which is not what was expected. -/
def expected (what : String) : Reader α
  | [] => .error (.unexpectedEnd what stop) []
  | token :: rest => .error (.expectedToken what token.text token.offset) (token :: rest)

/-- Consumes the keyword or operator `text`. -/
def expectWord (text : String) : Reader Unit := do
  unless ← accept text do expected stop s!"'{text}'"

/-- Consumes a name. -/
def name : Reader String
  | [] => expected stop "an identifier" []
  | token :: rest =>
    if token.isName then .ok token.text rest else expected stop "an identifier" (token :: rest)

/-- Reads what follows the keyword or operator `text`, if that is next. -/
def following (text : String) (reader : Reader α) : Reader (Option α) := do
  if ← accept text then some <$> reader else return none

end Reader

end ScriptLang
