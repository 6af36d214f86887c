import ScriptLang.Token.Scan

/-!
Scanning by position. A cursor moves over a text that stays as it is, remembers where the word that
it reads has begun, and can come to stand behind the end of the text. Whatever might go wrong with
it has an outcome of its own: an operator is read where no character is left, a word is cut out of
the text between places that are not in it, or there is no fuel for one more turn of a loop.
-/

set_option autoImplicit false
set_option relaxedAutoImplicit false

namespace ScriptLang

/-- Why a cursor over a text stops. -/
inductive TextHalt
  | failed (cause : LexError)
  | missingOperator (cause : LexError)
  | outOfRange
  | outOfFuel
  deriving DecidableEq

/-- Where a cursor stands, and where the word that it reads has begun. -/
structure TextPlace where
  index : Nat := 0
  start : Nat := 0
  deriving DecidableEq

/-- A computation that moves over a text. -/
abbrev TextCursor := ReaderT (List Char) (EStateM TextHalt TextPlace)

namespace TextCursor

variable {α : Type}

def fail (cause : LexError) : TextCursor α := throw (.failed cause)

/-- The character `ahead` places behind the next one. -/
def peekAt (ahead : Nat) : TextCursor (Option Char) := do return (← read)[(← get).index + ahead]?

/-- The next character. -/
def peek : TextCursor (Option Char) := peekAt 0

/-- Moves on, be there a character or not. -/
def skip : TextCursor Unit := modify fun place ↦ { place with index := place.index + 1 }

/-- Moves on, and gives the character that was next. -/
def advance : TextCursor (Option Char) := do
  skip
  return (← read)[(← get).index - 1]?

/-- Moves on if the next character passes a test. -/
def matchNext (test : Char → Bool) : TextCursor Bool := do
  if (← peek).any test then
    skip
    return true
  else return false

/-- Moves on as long as the next character passes a test. -/
def matchAll (test : Char → Bool) : Nat → TextCursor Unit
  | 0 => throw .outOfFuel
  | fuel + 1 => do if ← matchNext test then matchAll test fuel

/-- The word that was read, up to the next character. The next word begins there. -/
def emit (kind : TokenKind) : TextCursor Token := do
  let text ← read
  let place ← get
  if place.start ≤ place.index ∧ place.index ≤ text.length then
    set { place with start := place.index }
    let word := (text.drop place.start).take (place.index - place.start)
    return ⟨kind, String.ofList word, place.start⟩
  else throw .outOfRange

/-- Whether a point is next, with a digit behind it. -/
def atPlaces : TextCursor Bool := do
  return (← peek) == some '.' && (← peekAt 1).any Char.isDigit

/-- Reads an escape, from its backslash on. -/
def escape : TextCursor Unit := do
  let opened := (← get).index
  let _ ← advance
  match ← advance with
  | some letter =>
    if (Escape.meaning letter).isSome then return () else fail (.invalidEscape opened)
  | none => fail (.invalidEscape opened)

/-- Reads a character literal, from its opening quote on. -/
def character : TextCursor Token := do
  let opened := (← get).start
  let _ ← advance
  match ← peek with
  | some c =>
    if c = '\\' then escape
    else if c = '\'' || Scan.isLineBreak c then fail (.unterminatedCharacter opened)
    else skip
  | none => fail (.unterminatedCharacter opened)
  if ← matchNext (· == '\'') then emit .character else fail (.unterminatedCharacter opened)

/-- Reads what is left of a string literal that was opened at `opened`. -/
def stringRest (opened : Nat) : Nat → TextCursor Token
  | 0 => throw .outOfFuel
  | fuel + 1 => do
    match ← peek with
    | some c =>
      if c = '"' then
        let _ ← advance
        emit .string
      else if c = '\\' then
        escape
        stringRest opened fuel
      else if Scan.isLineBreak c then fail (.unterminatedString opened)
      else
        let _ ← advance
        stringRest opened fuel
    | none => fail (.unterminatedString opened)

/-- Reads an operator; a relation takes a following `=`. -/
def operator : TextCursor Token := do
  match ← advance with
  | some c =>
    if Scan.isRelationOperator c then
      let _ ← matchNext (· == '=')
      emit .operator
    else if Scan.isSingleOperator c then emit .operator
    else fail (.unexpectedCharacter c (← get).start)
  | none => throw (.missingOperator (.unexpectedCharacter '\x00' (← get).start))

section

variable (fuel : Nat)

/-- Reads the places of a number, from its point on. -/
def places : TextCursor Token := do
  let _ ← advance
  matchAll Char.isDigit fuel
  if ← atPlaces then fail (.malformedNumber (← get).index) else emit .decimal

/-- Reads a number, from its sign or its first digit on. -/
def number : TextCursor Token := do
  let _ ← matchNext Scan.isSign
  matchAll Char.isDigit fuel
  if ← atPlaces then places fuel else emit .integer

/-- Reads a string literal, from its opening quote on. -/
def string : TextCursor Token := do
  let opened := (← get).start
  let _ ← advance
  stringRest opened fuel

/-- Reads the word that the next character begins. -/
def token : TextCursor Token := do
  let next ← peek
  let digitBehind := (← peekAt 1).any Char.isDigit
  if next.any Scan.isIdentifierStart then
    matchAll Scan.isIdentifierPart fuel
    emit .identifier
  else if next.any Char.isDigit || (next.any Scan.isSign && digitBehind) then number fuel
  else if next == some '\'' then character
  else if next == some '"' then string fuel
  else operator

end

/-- Reads words and skips blanks up to the end of the text. -/
def tokens : Nat → TextCursor (List Token)
  | 0 => throw .outOfFuel
  | fuel + 1 => do
    match ← peek with
    | none => return []
    | some c =>
      if Scan.isBlank c then
        let _ ← advance
        modify fun place ↦ { place with start := place.index }
        tokens fuel
      else
        let first ← token fuel
        return first :: (← tokens fuel)

/-- The tokens of a text, or why the cursor has stopped. -/
def scan (fuel : Nat) (text : String) : Except TextHalt (List Token) :=
  match tokens fuel text.toList {} with
  | .ok found _ => .ok found
  | .error cause _ => .error cause

end TextCursor

end ScriptLang
