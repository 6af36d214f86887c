/-!
Escapes inside quoted literals: a backslash followed by one letter stands for one character.
`Escape.meaning` is the table, `Escape.decode` replaces every escape of a text, and `Escape.encode`
writes a text so that it can stand between its delimiters.
-/

set_option autoImplicit false
set_option relaxedAutoImplicit false

namespace ScriptLang.Escape

/-- The character that a backslash and `letter` stand for. -/
def meaning (letter : Char) : Option Char :=
  match letter with
  | 'n' => some '\n'
  | 'b' => some '\x08'
  | 'r' => some '\r'
  | 't' => some '\t'
  | '\'' => some '\''
  | '"' => some '"'
  | '\\' => some '\\'
  | _ => none

/-- Replaces every escape, or fails at a backslash that begins none. -/
def decode : List Char → Option (List Char)
  | [] => some []
  | head :: tail =>
    if head = '\\' then
      match tail with
      | [] => none
      | letter :: rest => do
        let character ← meaning letter
        let decoded ← decode rest
        return character :: decoded
    else (decode tail).map (head :: ·)

/-- How a character is written in a literal with the delimiter given. -/
def escaped (delimiter c : Char) : List Char :=
  if c = delimiter ∨ c = '\\' then ['\\', c]
  else if c = '\n' then ['\\', 'n']
  else if c = '\r' then ['\\', 'r']
  else [c]

def encode (delimiter : Char) (text : List Char) : List Char := text.flatMap (escaped delimiter)

example : decode ['a', '\\', 'n', '\\', '\\'] = some ['a', '\n', '\\'] := rfl
example : decode ['a', '\\'] = none := rfl

end ScriptLang.Escape
