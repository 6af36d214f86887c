import ScriptLang.Execution.Run

/-!
Running whole programs. The module of a program is opened afresh, its fields are evaluated in order,
its methods are declared over them, and `main` is called.
-/

set_option autoImplicit false
set_option relaxedAutoImplicit false

namespace ScriptLang

section

variable {H : Type} [Host H] (fuel : Nat)

/-- Evaluates and declares fields in order; each sees those before it. -/
def initializeFields : List Binding → Run H Unit
  | [] => return ()
  | head :: tail => do
    let value ← head.evalWith (Callable.invoke fuel)
    modify (·.declare head.name value)
    initializeFields tail

def Method.procedure (method : Method) : Procedure := ⟨method.name, method.params, method.body⟩

/-- Adds methods to the functions of the module. -/
def State.declareMethods (state : State H) (methods : List Method) : State H :=
  { state with
    module := methods.foldl (fun module method ↦
      module.declareFunction method.name method.params.length (.procedure method.procedure))
      state.module }

/-- Runs a program to the result of its `main`. -/
def Program.run (program : Program) : Run H Value := do
  modify ({ · with module := {} })
  initializeFields fuel program.fields
  modify (·.declareMethods program.methods)
  let main ← Run.function "main" 0
  main.invoke fuel []

end

end ScriptLang
