/-!
Tokens are the words of program text: the kind of a word, the text as it is written, and the
position of its first character. Positions count characters from zero. Keywords are identifiers
that are told apart by their text alone.
-/

set_option autoImplicit false
set_option relaxedAutoImplicit false

namespace ScriptLang

inductive TokenKind
  | identifier
  | integer
  | decimal
  | character
  | string
  | operator
  deriving DecidableEq, Inhabited

/-- A word of program text. Quotes and escapes of literals are part of the text. -/
structure Token where
  kind : TokenKind
  text : String
  offset : Nat
  deriving DecidableEq, Inhabited

/-- The identifiers that a program cannot use as names. -/
def keywords : List String :=
  ["LET", "DEF", "DO", "END", "IF", "ELSE", "FOR", "IN", "WHILE", "RETURN", "AND", "OR", "TRUE",
    "FALSE", "NIL"]

namespace Token

/-- The position one past the last character. -/
def stop (token : Token) : Nat := token.offset + token.text.length

def spells (token : Token) (text : String) : Bool := token.text == text

/-- Whether the token is the keyword or operator `text`. Literals never are, whatever they spell. -/
def isWord (token : Token) (text : String) : Bool :=
  (token.kind == .identifier || token.kind == .operator) && token.spells text

/-- Whether the token can name a variable, function or type. -/
def isName (token : Token) : Bool :=
  token.kind == .identifier && !keywords.contains token.text

end Token

/-- The position just past a list of tokens, where an error about its end points. -/
def endOfTokens (tokens : List Token) : Nat := (tokens.getLast?.map Token.stop).getD 0

end ScriptLang
