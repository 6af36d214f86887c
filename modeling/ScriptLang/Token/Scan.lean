import ScriptLang.Token
import ScriptLang.Token.Escape

/-!
Scanning cuts program text into tokens and skips blanks. At each position `lexeme` decides the
kind of word from its first characters and takes the longest such word; nothing but blanks is ever
dropped, and the first malformed word ends the scan with a `LexError`.
-/

set_option autoImplicit false
set_option relaxedAutoImplicit false

namespace ScriptLang

/-- Why text has no tokens, with the position the error points at. -/
inductive LexError
  | unexpectedCharacter (character : Char) (offset : Nat)
  | unterminatedString (offset : Nat)
  | unterminatedCharacter (offset : Nat)
  | invalidEscape (offset : Nat)
  | malformedNumber (offset : Nat)
  deriving DecidableEq

namespace LexError

def offset : LexError → Nat
  | unexpectedCharacter _ offset
  | unterminatedString offset
  | unterminatedCharacter offset
  | invalidEscape offset
  | malformedNumber offset => offset

def message : LexError → String
  | unexpectedCharacter character offset =>
    s!"[offset {offset}] Unexpected character '{character}'."
  | unterminatedString offset => s!"[offset {offset}] Unterminated string literal."
  | unterminatedCharacter offset =>
    s!"[offset {offset}] Unterminated or malformed character literal."
  | invalidEscape offset => s!"[offset {offset}] Invalid escape sequence."
  | malformedNumber offset => s!"[offset {offset}] Malformed number literal."

end LexError

namespace Scan

def isBlank (c : Char) : Bool :=
  c == ' ' || c == '\x08' || c == '\n' || c == '\r' || c == '\t'

/-- Identifiers are ASCII. -/
def isIdentifierStart (c : Char) : Bool := c.isAlpha || c == '_'

def isIdentifierPart (c : Char) : Bool := c.isAlphanum || c == '_' || c == '-'

def isSign (c : Char) : Bool := c == '+' || c == '-'

def isLineBreak (c : Char) : Bool := c == '\n' || c == '\r'

/-- The characters that are an operator on their own and begin no longer one. -/
def isSingleOperator (c : Char) : Bool :=
  ['(', ')', ',', '.', ':', ';', '+', '-', '*', '/'].contains c

/-- The characters that are an operator on their own and also in front of `=`. -/
def isRelationOperator (c : Char) : Bool := ['<', '>', '!', '='].contains c

def startsWithDigit (text : List Char) : Bool := text.head?.any Char.isDigit

/-- A word without its first character, and the text that follows it. -/
structure Lexeme where
  kind : TokenKind
  tail : List Char
  rest : List Char
  deriving DecidableEq

/-- Reads the places of a number after its point, which stands at `offset`. A second point in front
of a digit is an error. -/
def places (offset : Nat) (digits text : List Char) : Except LexError Lexeme :=
  match text.dropWhile Char.isDigit with
  | '.' :: rest =>
    if startsWithDigit rest then
      .error (.malformedNumber (offset + 1 + (text.takeWhile Char.isDigit).length))
    else .ok ⟨.decimal, digits ++ '.' :: text.takeWhile Char.isDigit, '.' :: rest⟩
  | rest => .ok ⟨.decimal, digits ++ '.' :: text.takeWhile Char.isDigit, rest⟩

/-- Reads a number whose first digit or sign stands at `offset`, from the character after it.
A point belongs to the number only in front of a digit. -/
def number (offset : Nat) (text : List Char) : Except LexError Lexeme :=
  match text.dropWhile Char.isDigit with
  | '.' :: rest =>
    if startsWithDigit rest then
      places (offset + 1 + (text.takeWhile Char.isDigit).length) (text.takeWhile Char.isDigit) rest
    else .ok ⟨.integer, text.takeWhile Char.isDigit, '.' :: rest⟩
  | rest => .ok ⟨.integer, text.takeWhile Char.isDigit, rest⟩

/-- Reads the closing quote of a character literal that was opened at `offset`. -/
def closeCharacter (offset : Nat) (content text : List Char) : Except LexError Lexeme :=
  match text with
  | '\'' :: rest => .ok ⟨.character, content ++ ['\''], rest⟩
  | _ => .error (.unterminatedCharacter offset)

/-- Reads a character literal opened at `offset`, from the character after its quote. -/
def character (offset : Nat) (text : List Char) : Except LexError Lexeme :=
  match text with
  | [] => .error (.unterminatedCharacter offset)
  | head :: tail =>
    if head = '\\' then
      match tail with
      | [] => .error (.invalidEscape (offset + 1))
      | letter :: rest =>
        if (Escape.meaning letter).isSome then closeCharacter offset [head, letter] rest
        else .error (.invalidEscape (offset + 1))
    else if head = '\'' || isLineBreak head then .error (.unterminatedCharacter offset)
    else closeCharacter offset [head] tail

/-- Splits the text of a string literal opened at `start` after its closing quote. The text given
stands at `position`. -/
def stringTail (start position : Nat) : List Char → Except LexError (List Char × List Char)
  | [] => .error (.unterminatedString start)
  | head :: tail =>
    if head = '"' then .ok ([head], tail)
    else if head = '\\' then
      match tail with
      | [] => .error (.invalidEscape position)
      | letter :: rest =>
        if (Escape.meaning letter).isSome then
          (stringTail start (position + 2) rest).map fun (taken, rest) ↦
            (head :: letter :: taken, rest)
        else .error (.invalidEscape position)
    else if isLineBreak head then .error (.unterminatedString start)
    else (stringTail start (position + 1) tail).map fun (taken, rest) ↦ (head :: taken, rest)

/-- Reads an operator whose first character is `first`; a relation takes a following `=`. -/
def operator (offset : Nat) (first : Char) (text : List Char) : Except LexError Lexeme :=
  if isRelationOperator first then
    match text with
    | '=' :: rest => .ok ⟨.operator, ['='], rest⟩
    | _ => .ok ⟨.operator, [], text⟩
  else if isSingleOperator first then .ok ⟨.operator, [], text⟩
  else .error (.unexpectedCharacter first offset)

/-- Reads the word that begins with `first` at `offset` and goes on in `text`. -/
def lexeme (offset : Nat) (first : Char) (text : List Char) : Except LexError Lexeme :=
  if isIdentifierStart first then
    .ok ⟨.identifier, text.takeWhile isIdentifierPart, text.dropWhile isIdentifierPart⟩
  else if first.isDigit || (isSign first && startsWithDigit text) then number offset text
  else if first = '\'' then character offset text
  else if first = '"' then
    (stringTail offset (offset + 1) text).map fun (taken, rest) ↦ ⟨.string, taken, rest⟩
  else operator offset first text

/-- The places of a number are taken from the text. -/
private theorem places_append {offset : Nat} {digits text : List Char} {word : Lexeme}
    (hword : places offset digits text = .ok word) :
    word.tail ++ word.rest = digits ++ '.' :: text := by
  have hspan := List.takeWhile_append_dropWhile (p := Char.isDigit) (l := text)
  unfold places at hword
  split at hword
  · rename_i rest hrest
    split at hword
    · cases hword
    · cases hword
      simp [← hrest]
  · cases hword
    simp

/-- The characters of a number are taken from the text. -/
private theorem number_append {offset : Nat} {text : List Char} {word : Lexeme}
    (hword : number offset text = .ok word) : word.tail ++ word.rest = text := by
  have hspan := List.takeWhile_append_dropWhile (p := Char.isDigit) (l := text)
  unfold number at hword
  split at hword
  · rename_i rest hrest
    rw [hrest] at hspan
    split at hword
    · rw [places_append hword, hspan]
    · cases hword
      exact hspan
  · cases hword
    exact hspan

/-- The quote that closes a character is taken from the text. -/
private theorem closeCharacter_append {offset : Nat} {content text : List Char} {word : Lexeme}
    (hword : closeCharacter offset content text = .ok word) :
    word.tail ++ word.rest = content ++ text := by
  unfold closeCharacter at hword
  split at hword
  · cases hword
    simp
  · cases hword

/-- The characters of a character literal are taken from the text. -/
private theorem character_append {offset : Nat} {text : List Char} {word : Lexeme}
    (hword : character offset text = .ok word) : word.tail ++ word.rest = text := by
  unfold character at hword
  split at hword
  · cases hword
  · split at hword
    · split at hword
      · cases hword
      · split at hword
        · simpa using closeCharacter_append hword
        · cases hword
    · split at hword
      · cases hword
      · simpa using closeCharacter_append hword

/-- A string takes the text up to its closing quote. -/
private theorem stringTail_append {start position : Nat} {text taken rest : List Char}
    (hsplit : stringTail start position text = .ok (taken, rest)) : taken ++ rest = text := by
  fun_induction stringTail start position text generalizing taken rest with
  | case1 => cases hsplit
  | case2 => cases hsplit; simp
  | case3 => cases hsplit
  | case4 position letter after _ _ ih =>
    cases hlater : stringTail start (position + 2) after with
    | error => simp [hlater, Except.map] at hsplit
    | ok later =>
      simp only [hlater, Except.map, Except.ok.injEq, Prod.mk.injEq] at hsplit
      obtain ⟨rfl, rfl⟩ := hsplit
      simp [ih hlater]
  | case5 => cases hsplit
  | case6 => cases hsplit
  | case7 position head tail _ _ _ ih =>
    cases hlater : stringTail start (position + 1) tail with
    | error => simp [hlater, Except.map] at hsplit
    | ok later =>
      simp only [hlater, Except.map, Except.ok.injEq, Prod.mk.injEq] at hsplit
      obtain ⟨rfl, rfl⟩ := hsplit
      simp [ih hlater]

/-- An operator of one or two characters is taken from the text. -/
private theorem operator_append {offset : Nat} {first : Char} {text : List Char} {word : Lexeme}
    (hword : operator offset first text = .ok word) : word.tail ++ word.rest = text := by
  unfold operator at hword
  split at hword
  · split at hword <;> cases hword <;> simp
  · split at hword <;> cases hword
    simp

/-- A word and the text after it are the text it was read from. -/
theorem lexeme_append {offset : Nat} {first : Char} {text : List Char} {word : Lexeme}
    (hword : lexeme offset first text = .ok word) : word.tail ++ word.rest = text := by
  unfold lexeme at hword
  split at hword
  · cases hword
    simp
  · split at hword
    · exact number_append hword
    · split at hword
      · exact character_append hword
      · split at hword
        · cases hsplit : stringTail offset (offset + 1) text with
          | error => simp [hsplit, Except.map] at hword
          | ok later =>
            simp only [hsplit, Except.map, Except.ok.injEq] at hword
            cases hword
            exact stringTail_append hsplit
        · exact operator_append hword

/-- The tokens of a text that begins at `offset`. -/
def tokensFrom (offset : Nat) : List Char → Except LexError (List Token)
  | [] => .ok []
  | first :: text =>
    if isBlank first then tokensFrom (offset + 1) text
    else
      match _hword : lexeme offset first text with
      | .error cause => .error cause
      | .ok word =>
        (tokensFrom (offset + 1 + word.tail.length) word.rest).map
          (⟨word.kind, String.ofList (first :: word.tail), offset⟩ :: ·)
termination_by text => text.length
decreasing_by
  · simp
  · have hlength := congrArg List.length (lexeme_append _hword)
    simp only [List.length_append] at hlength
    simp only [List.length_cons]
    omega

end Scan

/-- The tokens of a program text, or the first malformed word. -/
def scan (text : String) : Except LexError (List Token) := Scan.tokensFrom 0 text.toList

end ScriptLang
