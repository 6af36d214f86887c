import ScriptLang.Decimal.Text
import ScriptLang.Program
import ScriptLang.Token.Escape

/-!
Programs as text. `lexemes` lists the words of a tree in order, and `Program.render` puts a blank
between each two. A negative number is one word, and a decimal is written with all its places.
-/

set_option autoImplicit false
set_option relaxedAutoImplicit false

namespace ScriptLang

/-- A quoted literal between two delimiters. -/
def quotedLexeme (delimiter : Char) (text : List Char) : String :=
  String.ofList (delimiter :: Escape.encode delimiter text ++ [delimiter])

def Literal.lexeme : Literal → String
  | nil => "NIL"
  | boolean true => "TRUE"
  | boolean false => "FALSE"
  | integer n => String.ofList (Decimal.sign n ++ Decimal.digits n.natAbs)
  | decimal x => String.ofList x.placesText
  | character c => quotedLexeme '\'' [c]
  | string text => quotedLexeme '"' text.toList

mutual

def Expr.lexemes : Expr → List String
  | .literal _ value => [value.lexeme]
  | .group _ inner => "(" :: inner.lexemes ++ [")"]
  | .binary _ op left right => left.lexemes ++ op.lexeme :: right.lexemes
  | .access _ name _ => [name]
  | .member _ receiver name _ => receiver.lexemes ++ [".", name]
  | .call _ name args _ => name :: "(" :: (argLexemes args).drop 1 ++ [")"]
  | .invoke _ receiver name args _ =>
    receiver.lexemes ++ "." :: name :: "(" :: (argLexemes args).drop 1 ++ [")"]

/-- The words of arguments, each with a comma in front. -/
def argLexemes : List Expr → List String
  | [] => []
  | head :: tail => "," :: head.lexemes ++ argLexemes tail

end

/-- The words of an optional part after the word that introduces it. -/
def optionalLexemes (word : String) : Option (List String) → List String
  | none => []
  | some lexemes => word :: lexemes

/-- The words of a declaration, its keyword among them. -/
def Binding.lexemes (binding : Binding) : List String :=
  "LET" :: binding.name :: optionalLexemes ":" (binding.typeName.map ([·])) ++
    optionalLexemes "=" (binding.value.map Expr.lexemes) ++ [";"]

mutual

def Stmt.lexemes : Stmt → List String
  | .expr value => value.lexemes ++ [";"]
  | .declare binding => binding.lexemes
  | .assign target value => target.lexemes ++ "=" :: value.lexemes ++ [";"]
  | .branch condition thenBody elseBody =>
    "IF" :: condition.lexemes ++ "DO" :: blockLexemes thenBody ++
      (if elseBody.isEmpty then [] else "ELSE" :: blockLexemes elseBody) ++ ["END"]
  | .forEach _ name iterable body =>
    "FOR" :: name :: "IN" :: iterable.lexemes ++ "DO" :: blockLexemes body ++ ["END"]
  | .loop condition body => "WHILE" :: condition.lexemes ++ "DO" :: blockLexemes body ++ ["END"]
  | .ret value => "RETURN" :: value.lexemes ++ [";"]

def blockLexemes : List Stmt → List String
  | [] => []
  | head :: tail => head.lexemes ++ blockLexemes tail

end

/-- The words of parameters with their types, each with a comma in front. -/
def paramLexemes (params : List (String × String)) : List String :=
  params.flatMap fun (name, type) ↦ [",", name, ":", type]

def Method.lexemes (method : Method) : List String :=
  "DEF" :: method.name :: "(" :: (paramLexemes (method.params.zip method.paramTypes)).drop 1 ++
    ")" :: optionalLexemes ":" (method.returnType.map ([·])) ++
    "DO" :: blockLexemes method.body ++ ["END"]

def Program.lexemes (program : Program) : List String :=
  program.fields.flatMap Binding.lexemes ++ program.methods.flatMap Method.lexemes

/-- A text that reads back as the program, with one blank between words. -/
def Program.render (program : Program) : String := " ".intercalate program.lexemes

end ScriptLang
