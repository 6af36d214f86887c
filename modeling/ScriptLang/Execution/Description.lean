import ScriptLang.Execution.State
import ScriptLang.Text.Quoted

/-!
Short descriptions of objects and functions, for a host that wants to show them.
-/

set_option autoImplicit false
set_option relaxedAutoImplicit false

namespace ScriptLang

def ObjectRef.description (ref : ObjectRef) : String :=
  "Object \x7b type_name: " ++ quoted ref.typeName ++ " \x7d"

def Procedure.description (procedure : Procedure) : String :=
  "Func \x7b name: " ++ quoted procedure.name ++ ", params: [" ++
    ", ".intercalate (procedure.params.map quoted) ++ "] \x7d"

def Callable.description {H : Type} : Callable H → String
  | print => "Print"
  | range => "Range"
  | host function => "Host(" ++ function.name ++ "/" ++ toString function.arity ++ ")"
  | procedure definition => definition.description

end ScriptLang
