import ScriptLang.Program.OfTokens

/-!
Reading the same tokens in several goes. Each request reads an expression or a whole program from
what the one before has left, whether that one has failed or not.
-/

set_option autoImplicit false
set_option relaxedAutoImplicit false

namespace ScriptLang.Reader

/-- What is to be read next. -/
inductive Request
  | expression
  | program
  deriving DecidableEq

/-- What a request has read. -/
inductive Answer
  | expression (value : Expr)
  | program (value : Program)
  deriving Inhabited

variable (stop : Nat)

def Request.reader : Request → Reader Answer
  | .expression => .expression <$> Reader.expression stop
  | .program => .program <$> Reader.program stop

/-- The answers to requests, one after the other. -/
def answersFrom : List Request → List Token → List (Except ParseError Answer)
  | [], _ => []
  | request :: requests, tokens =>
    match request.reader stop tokens with
    | .ok answer rest => .ok answer :: answersFrom requests rest
    | .error cause rest => .error cause :: answersFrom requests rest

/-- The answers to requests on a list of tokens. -/
def answers (requests : List Request) (tokens : List Token) : List (Except ParseError Answer) :=
  answersFrom (endOfTokens tokens) requests tokens

end ScriptLang.Reader
