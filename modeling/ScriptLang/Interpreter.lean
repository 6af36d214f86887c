import ScriptLang.Session
import ScriptLang.Typing.InPlace

/-!
A session whose programs are checked in place: one analyzer goes through all of them, and what a
check has done to it is there in the next one.
-/

set_option autoImplicit false
set_option relaxedAutoImplicit false

namespace ScriptLang

structure Interpreter (H : Type) where
  analyzer : Analyzer
  state : State H

namespace Interpreter

variable {H : Type}

/-- The interpreter of a host that adds nothing. -/
def initial (sink : Sink) : Interpreter H := ⟨.initial, .initial sink⟩

/-- What the host has made known, and the state that runs have left. -/
def session (interpreter : Interpreter H) : Session H :=
  ⟨interpreter.analyzer.context, interpreter.state⟩

def registerType (interpreter : Interpreter H) (type : RecordType Ty) : Interpreter H :=
  { interpreter with analyzer := interpreter.analyzer.registerType type }

def defineVariable (interpreter : Interpreter H) (name : String) (type : Ty) (value : Value) :
    Interpreter H where
  analyzer := interpreter.analyzer.defineVariable name type
  state :=
    { interpreter.state with globals := interpreter.state.globals.declare name value }

def defineFunction (interpreter : Interpreter H) (signature : Signature Ty) (body : H) :
    Interpreter H where
  analyzer := interpreter.analyzer.defineFunction signature
  state :=
    { interpreter.state with
      globals := interpreter.state.globals.declareFunction signature.name signature.arity
        (.host ⟨signature.name, signature.arity, body⟩) }

def addObject (interpreter : Interpreter H) (object : Object H) : ObjectRef × Interpreter H :=
  match interpreter.state.addObject object with
  | (ref, state) => (ref, { interpreter with state })

/-- The value of a field of the last program or of a variable of the host. -/
def global? (interpreter : Interpreter H) (name : String) : Option Value :=
  Chain.lookup? [interpreter.state.module, interpreter.state.globals] name

variable [Host H] (fuel : Nat)

/-- Runs a program that need not be checked. -/
def interpret (interpreter : Interpreter H) (program : Program) :
    Except RunError Value × Interpreter H :=
  match program.run fuel interpreter.state with
  | .ok value state => (.ok value, { interpreter with state })
  | .error cause state => (.error cause.toRunError, { interpreter with state })

/-- Runs a program text through all stages. -/
def run (interpreter : Interpreter H) (text : String) : Except RunError Value × Interpreter H :=
  match Program.ofText text with
  | .error cause => (.error cause, interpreter)
  | .ok program =>
    match program.analyze interpreter.analyzer with
    | .error cause analyzer => (.error (.typing cause), { interpreter with analyzer })
    | .ok _ analyzer => interpret fuel { interpreter with analyzer } program

end Interpreter

end ScriptLang
