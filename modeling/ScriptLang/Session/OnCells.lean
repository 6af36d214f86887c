import ScriptLang.Execution.OnCells
import ScriptLang.Session

/-!
A session whose programs run on cells. What the host defines is put in cells of the scope of the
host, and the cells of its objects are filled whenever the host has had the objects in its hands.
-/

set_option autoImplicit false
set_option relaxedAutoImplicit false

namespace ScriptLang

structure CellSession (H : Type) where
  context : TypeContext
  tracked : Tracked H

namespace CellSession

variable {H : Type}

/-- The session of a host that adds nothing. -/
def initial (sink : Sink) : CellSession H := ⟨.initial, { memory := .initial sink }⟩

def registerType (session : CellSession H) (type : RecordType Ty) : CellSession H :=
  { session with context := session.context.register type }

def defineVariable (session : CellSession H) (name : String) (type : Ty) (value : Value) :
    CellSession H where
  context := session.context.defineVariable name type
  tracked := session.tracked.change (·.declare 0 name value)

def defineFunction (session : CellSession H) (signature : Signature Ty) (body : H) :
    CellSession H where
  context := session.context.defineFunction signature
  tracked := session.tracked.change (·.declareFunction 0 signature.name signature.arity
    (.host ⟨signature.name, signature.arity, body⟩))

def addObject (session : CellSession H) (object : Object H) : ObjectRef × CellSession H :=
  (⟨object.typeName, session.tracked.memory.objects.length⟩,
    { session with
      tracked := session.tracked.change fun memory ↦ memory.store (memory.contents ++ [object]) })

variable [Host H] (fuel : Nat)

/-- Runs a program that need not be checked. -/
def interpret (session : CellSession H) (program : Program) :
    Except RunError Value × CellSession H :=
  match program.runOnCells fuel session.tracked with
  | .ok value tracked => (.ok value, { session with tracked })
  | .error cause tracked => (.error cause.toRunError, { session with tracked })

/-- Runs a program text through all stages. -/
def run (session : CellSession H) (text : String) : Except RunError Value × CellSession H :=
  match Program.ofCheckedText session.context text with
  | .ok program => session.interpret fuel program
  | .error cause => (.error cause, session)

end CellSession

end ScriptLang
