/-!
The binary operators and their spelling. The operators of one level of precedence are listed
together, from the level that binds loosest.
-/

set_option autoImplicit false
set_option relaxedAutoImplicit false

namespace ScriptLang

inductive BinaryOp
  | and
  | or
  | less
  | lessEqual
  | greater
  | greaterEqual
  | equal
  | notEqual
  | add
  | sub
  | mul
  | div
  deriving DecidableEq, Inhabited

namespace BinaryOp

def lexeme : BinaryOp → String
  | and => "AND"
  | or => "OR"
  | less => "<"
  | lessEqual => "<="
  | greater => ">"
  | greaterEqual => ">="
  | equal => "=="
  | notEqual => "!="
  | add => "+"
  | sub => "-"
  | mul => "*"
  | div => "/"

def logical : List BinaryOp := [and, or]

def comparisons : List BinaryOp := [less, lessEqual, greater, greaterEqual, equal, notEqual]

def additive : List BinaryOp := [add, sub]

def multiplicative : List BinaryOp := [mul, div]

def all : List BinaryOp := logical ++ comparisons ++ additive ++ multiplicative

def isComparison (op : BinaryOp) : Bool := comparisons.contains op

/-- The operator that is spelled `text`. -/
def ofLexeme? (text : String) : Option BinaryOp := all.find? fun op ↦ op.lexeme == text

/-- No two operators are spelled alike. -/
theorem lexeme_injective : ∀ first second : BinaryOp, first.lexeme = second.lexeme →
    first = second := by
  intro first second
  cases first <;> cases second <;> simp [lexeme]

theorem ofLexeme?_lexeme (op : BinaryOp) : ofLexeme? op.lexeme = some op := by
  cases op <;> rfl

end BinaryOp

end ScriptLang
