import ScriptLang.Execution.Program
import ScriptLang.Program.OfTokens
import ScriptLang.Token.Scan
import ScriptLang.Typing.Check

/-!
A session runs one program text after another for one host. What the host defines and the values of
its variables and objects last from run to run, and the module of the last program can be asked for
its fields. A text that is rejected before it runs leaves everything as it was.
-/

set_option autoImplicit false
set_option relaxedAutoImplicit false

namespace ScriptLang

/-- Why a text has no result. -/
inductive RunError
  | lex (cause : LexError)
  | parse (cause : ParseError)
  | typing (cause : TypingError)
  | runtime (cause : RuntimeError)
  | outOfFuel
  deriving DecidableEq

def RunError.message : RunError → String
  | lex cause => "lex error: " ++ cause.message
  | parse cause => "parse error: " ++ cause.message
  | typing cause => "analysis error: " ++ cause.message
  | runtime cause => "runtime error: " ++ cause.message
  | outOfFuel => "out of fuel"

def Interruption.toRunError : Interruption → RunError
  | failed cause => .runtime cause
  | outOfFuel => .outOfFuel

/-- The tree of a program text. -/
def Program.ofText (text : String) : Except RunError Program := do
  let tokens ← (scan text).mapError .lex
  (Program.ofTokens tokens).mapError .parse

/-- The tree of a program text, if `context` admits the program. -/
def Program.ofCheckedText (context : TypeContext) (text : String) : Except RunError Program := do
  let program ← Program.ofText text
  (program.check context).mapError .typing
  return program

/-- What a host has made known to programs, and the state its runs have left. -/
structure Session (H : Type) where
  context : TypeContext
  state : State H

namespace Session

variable {H : Type}

/-- The session of a host that adds nothing. -/
def initial (sink : Sink) : Session H := ⟨.initial, .initial sink⟩

def registerType (session : Session H) (type : RecordType Ty) : Session H :=
  { session with context := session.context.register type }

/-- Defines a variable of the host. Its value need not be of the type that programs are told. -/
def defineVariable (session : Session H) (name : String) (type : Ty) (value : Value) :
    Session H where
  context := session.context.defineVariable name type
  state := { session.state with globals := session.state.globals.declare name value }

def defineFunction (session : Session H) (signature : Signature Ty) (body : H) : Session H where
  context := session.context.defineFunction signature
  state :=
    { session.state with
      globals := session.state.globals.declareFunction signature.name signature.arity
        (.host ⟨signature.name, signature.arity, body⟩) }

def addObject (session : Session H) (object : Object H) : ObjectRef × Session H :=
  match session.state.addObject object with
  | (ref, state) => (ref, { session with state })

/-- The value of a field of the last program or of a variable of the host. -/
def global? (session : Session H) (name : String) : Option Value :=
  Chain.lookup? [session.state.module, session.state.globals] name

variable [Host H] (fuel : Nat)

/-- Runs a program that need not be checked. -/
def interpret (session : Session H) (program : Program) : Except RunError Value × Session H :=
  match program.run fuel session.state with
  | .ok value state => (.ok value, { session with state })
  | .error cause state => (.error cause.toRunError, { session with state })

/-- Runs a program text through all stages. -/
def run (session : Session H) (text : String) : Except RunError Value × Session H :=
  match Program.ofCheckedText session.context text with
  | .ok program => session.interpret fuel program
  | .error cause => (.error cause, session)

end Session

end ScriptLang
