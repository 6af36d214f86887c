import ScriptLang.Proofs.Token.Cursor
import ScriptLang.Proofs.Token.Cut

/-!
Where scanning fails. A word is read from all texts that go on no differently behind it, so that the
text in front of the first malformed word has its tokens by itself. What is wrong with that word is
said by `LexError.Blames`, which also places the character that the error points at.
-/

set_option autoImplicit false
set_option relaxedAutoImplicit false

namespace ScriptLang

namespace Scan

section

variable {offset : Nat} {first : Char} {text rest : List Char}

/-! ### Each kind of word in front of what ends it -/

/-- A text that passes a test is all that passes it, if what follows fails it. -/
theorem span_of_stop {p : Char → Bool} (htext : ∀ c ∈ text, p c = true)
    (hrest : ∀ c ∈ rest.head?, p c = false) :
    (text ++ rest).takeWhile p = text ∧ (text ++ rest).dropWhile p = rest := by
  rw [List.takeWhile_append_of_pos htext, List.dropWhile_append_of_pos htext]
  cases rest with
  | nil => simp
  | cons head tail =>
    have hhead := hrest head rfl
    simp [hhead]

theorem EndsNumber.head_isDigit (h : EndsNumber rest) : ∀ c ∈ rest.head?, c.isDigit = false :=
  (Option.any_eq_false _ _).mp h.1

/-- A text is read as one word of the kind `kind` in front of all that cannot go on with it. -/
def ReadsUpTo (kind : TokenKind) (text : List Char) : Prop :=
  ∃ first tail, text = first :: tail ∧ ∀ offset rest, Stops kind (String.ofList text) rest →
    lexeme offset first (tail ++ rest) = .ok ⟨kind, tail, rest⟩

/-- An identifier is read up to a character that cannot be part of it. -/
theorem readsUpTo_identifier {tail : List Char} (hfirst : isIdentifierStart first = true)
    (htail : ∀ c ∈ tail, isIdentifierPart c = true) : ReadsUpTo .identifier (first :: tail) := by
  refine ⟨first, tail, rfl, fun offset rest hrest ↦ ?_⟩
  obtain ⟨htake, hdrop⟩ := span_of_stop htail hrest
  rw [lexeme, if_pos hfirst, htake, hdrop]

/-- An integer is read up to where no number goes on. -/
theorem readsUpTo_integer {sign digits : List Char} {factor : Int} (hsign : IsSign sign factor)
    (hdigits : IsDigits digits) : ReadsUpTo .integer (sign ++ digits) := by
  obtain ⟨first, tail, hsplit, -, htail, hlexeme⟩ := lexeme_number hsign hdigits
  refine ⟨first, tail, hsplit, fun offset rest hrest ↦ ?_⟩
  have hends : EndsNumber rest := hrest
  obtain ⟨htake, hdrop⟩ := span_of_stop htail hends.head_isDigit
  rw [hlexeme, number, htake, hdrop]
  split
  · rw [hends.2 _ rfl]
    rfl
  · rfl

/-- A decimal is read up to where no number goes on. -/
theorem readsUpTo_decimal {sign whole places : List Char} {factor : Int}
    (hsign : IsSign sign factor) (hwhole : IsDigits whole) (hplaces : IsDigits places) :
    ReadsUpTo .decimal (sign ++ whole ++ '.' :: places) := by
  obtain ⟨first, tail, hsplit, -, htail, hlexeme⟩ := lexeme_number hsign hwhole
  refine ⟨first, tail ++ '.' :: places, by rw [hsplit, List.cons_append], ?_⟩
  intro offset rest hrest
  have hends : EndsNumber rest := hrest
  obtain ⟨htake, hdrop⟩ := span_of_stop hplaces.2 hends.head_isDigit
  rw [List.append_assoc, List.cons_append, hlexeme,
    number_point htail (startsWithDigit_append hplaces rest), Scan.places, htake, hdrop]
  split
  · rw [hends.2 _ rfl]
    rfl
  · rfl

/-- An operator is read up to where no longer operator begins. -/
theorem readsUpTo_operator {text : String} (h : text ∈ operators) :
    ReadsUpTo .operator text.toList := by
  obtain ⟨c, hsplit, hshape⟩ | ⟨c, hsplit, hshape⟩ := operator_cases h
  · refine ⟨c, [], hsplit, fun offset rest hrest ↦ ?_⟩
    rw [hsplit] at hrest
    obtain ⟨hequal, hdigit⟩ := hrest
    have hsign (hc : isSign c = true) : startsWithDigit rest = false := by
      have hc : c = '+' ∨ c = '-' := by simpa [isSign] using hc
      rcases hc with rfl | rfl <;> exact hdigit (by decide)
    rw [List.nil_append, (lexeme_operator hshape offset hsign).2]
    unfold operator
    by_cases hrelation : isRelationOperator c = true
    · have hc : c = '<' ∨ c = '>' ∨ c = '!' ∨ c = '=' := by
        simpa [isRelationOperator] using hrelation
      have hhead : rest.head? ≠ some '=' := by
        rcases hc with rfl | rfl | rfl | rfl <;> exact hequal (by decide)
      rw [if_pos hrelation]
      split
      · exact (hhead rfl).elim
      · rfl
    · rw [if_neg hrelation, if_pos (hshape.resolve_right hrelation)]
  · exact ⟨c, ['='], hsplit, fun offset rest _ ↦ lexeme_relation hshape offset rest⟩

end

end Scan

open Scan

/-- Every well-formed word is read whole in front of all that cannot go on with it. -/
theorem Token.WellFormed.readsUpTo {token : Token} (h : token.WellFormed) :
    ReadsUpTo token.kind token.text.toList := by
  obtain ⟨kind, text, position⟩ := token
  have hspelled {kind : TokenKind} {text : List Char} {value : Literal}
      (h : Literal.Spelled kind text value) : ReadsUpTo kind text := by
    cases h with
    | integer hsign hdigits => exact readsUpTo_integer hsign hdigits
    | decimal hsign hwhole hplaces => exact readsUpTo_decimal hsign hwhole hplaces
    | @character text c hglyph =>
      exact ⟨'\'', text ++ ['\''], rfl, fun offset rest _ ↦ lexeme_character hglyph offset rest⟩
    | @string text value hglyphs =>
      exact ⟨'"', text ++ ['"'], rfl, fun offset rest _ ↦ lexeme_string hglyphs offset rest⟩
  cases kind with
  | identifier =>
    obtain ⟨first, rest, htext, hfirst, hrest⟩ := h
    change text = _ at htext
    subst htext
    rw [String.toList_ofList]
    exact readsUpTo_identifier hfirst hrest
  | operator => exact readsUpTo_operator h
  | integer | decimal | character | string =>
    obtain ⟨value, hvalue⟩ := h
    exact hspelled hvalue

namespace Scan

/-! ### Less text -/

section

variable {offset : Nat} {first : Char} {text rest kept : List Char}

/-- A beginning of a text that is not empty begins like the text. -/
theorem head?_of_begins (hkept : kept <+: rest) : ∀ c ∈ kept.head?, c ∈ rest.head? := by
  obtain ⟨after, rfl⟩ := hkept
  intro c hc
  rw [List.head?_append, Option.mem_def.mp hc]
  rfl

/-- If no digit begins a text, none begins a beginning of it. -/
theorem startsWithDigit_of_begins (hkept : kept <+: rest) (hrest : startsWithDigit rest = false) :
    startsWithDigit kept = false :=
  (Option.any_eq_false _ _).mpr fun c hc ↦
    (Option.any_eq_false _ _).mp hrest c (head?_of_begins hkept c hc)

/-- What ends a word still ends it when the text stops earlier. -/
theorem Stops.of_begins {kind : TokenKind} {text : String} (h : Stops kind text rest)
    (hkept : kept <+: rest) : Stops kind text kept := by
  have hnumber (hends : EndsNumber rest) : EndsNumber kept := by
    refine ⟨startsWithDigit_of_begins hkept hends.1, fun after hafter ↦ ?_⟩
    subst hafter
    obtain ⟨later, rfl⟩ := hkept
    exact startsWithDigit_of_begins (List.prefix_append _ _) (hends.2 _ rfl)
  cases kind with
  | identifier => exact fun c hc ↦ h c (head?_of_begins hkept c hc)
  | integer | decimal => exact hnumber h
  | operator =>
    exact ⟨fun hmem hhead ↦ h.1 hmem (head?_of_begins hkept _ hhead),
      fun hmem ↦ startsWithDigit_of_begins hkept (h.2 hmem)⟩
  | character | string => trivial

/-- A word is read as well when less of the text follows it. -/
theorem lexeme_of_begins {word : Lexeme} (hword : lexeme offset first text = .ok word)
    (hkept : kept <+: word.rest) :
    lexeme offset first (word.tail ++ kept) = .ok ⟨word.kind, word.tail, kept⟩ := by
  obtain ⟨head, tail, hsplit, hread⟩ := (lexeme_wellFormed hword offset).readsUpTo
  rw [String.toList_ofList] at hsplit hread
  obtain ⟨rfl, rfl⟩ := List.cons_eq_cons.mp hsplit
  exact hread offset kept ((lexeme_stops hword).of_begins hkept)

/-- A scan fails at the first malformed word; the text in front of it has tokens. -/
theorem tokensFrom_error {cause : LexError} (htokens : tokensFrom offset text = .error cause) :
    ∃ before first rest tokens, text = before ++ first :: rest ∧ ¬isBlank first = true ∧
      tokensFrom offset before = .ok tokens ∧
      lexeme (offset + before.length) first rest = .error cause := by
  fun_induction tokensFrom offset text with
  | case1 => cases htokens
  | case2 offset first text hblank ih =>
    obtain ⟨before, head, rest, tokens, rfl, hhead, hbefore, hfault⟩ := ih htokens
    refine ⟨first :: before, head, rest, tokens, rfl, hhead, ?_, ?_⟩
    · rw [tokensFrom_of_blank hblank, hbefore]
    · rwa [List.length_cons, Nat.add_comm before.length, ← Nat.add_assoc]
  | case3 offset first text hblank cause' hword =>
    cases htokens
    exact ⟨[], first, text, [], rfl, hblank, tokensFrom.eq_1 offset, hword⟩
  | case4 offset first text hblank word hword ih =>
    have hlater : tokensFrom (offset + 1 + word.tail.length) word.rest = .error cause := by
      cases hlater : tokensFrom (offset + 1 + word.tail.length) word.rest <;>
        rw [hlater] at htokens <;> cases htokens
      rfl
    obtain ⟨before, head, rest, tokens, hrest, hhead, hbefore, hfault⟩ := ih hlater
    have hread := lexeme_of_begins hword (hrest ▸ List.prefix_append before (head :: rest))
    refine ⟨first :: (word.tail ++ before), head, rest,
      ⟨word.kind, String.ofList (first :: word.tail), offset⟩ :: tokens, ?_, hhead, ?_, ?_⟩
    · rw [← lexeme_append hword, hrest, List.cons_append, List.append_assoc]
    · rw [tokensFrom_of_lexeme hblank hread]
      simp only [hbefore]
      rfl
    · rw [List.length_cons, List.length_append]
      convert hfault using 2
      omega

end

end Scan

/-! ### What is wrong with a word -/

/-- What the text that stands at `position` begins with, where no word can be read from it. -/
inductive LexError.Blames (position : Nat) : LexError → List Char → Prop
  /-- No word begins with the character, and it is no blank. -/
  | unexpectedCharacter {c : Char} {rest : List Char} (hblank : isBlank c = false)
    (hword : ∀ word, IsWord word → word.toList.head? ≠ some c) :
    Blames position (.unexpectedCharacter c position) (c :: rest)
  /-- The text or the line ends in front of a closing quote. -/
  | unterminatedString {glyphs value rest : List Char} (hglyphs : Glyphs '"' glyphs value)
    (hrest : ∀ c ∈ rest.head?, isLineBreak c = true) :
    Blames position (.unterminatedString position) ('"' :: (glyphs ++ rest))
  /-- No single character with a closing quote follows. -/
  | unterminatedCharacter {rest : List Char}
    (hrest : ∀ glyph c, Glyph '\'' glyph c → ¬glyph ++ ['\''] <+: rest) :
    Blames position (.unterminatedCharacter position) ('\'' :: rest)
  /-- No letter follows that means something behind a backslash. -/
  | invalidEscape {quote : Char} {glyphs value rest : List Char}
    (hquote : quote = '"' ∨ quote = '\'' ∧ glyphs = []) (hglyphs : Glyphs quote glyphs value)
    (hrest : ∀ letter ∈ rest.head?, Escape.meaning letter = none) :
    Blames position (.invalidEscape (position + 1 + glyphs.length))
      (quote :: (glyphs ++ '\\' :: rest))
  /-- A number with a point is followed by one more point and a digit. -/
  | malformedNumber {number rest : List Char} {value : Literal}
    (hnumber : Literal.Spelled .decimal number value) (hrest : startsWithDigit rest = true) :
    Blames position (.malformedNumber (position + number.length)) (number ++ '.' :: rest)

/-- The character that the error points at. -/
def LexError.character : LexError → Char
  | unexpectedCharacter character _ => character
  | unterminatedString _ => '"'
  | unterminatedCharacter _ => '\''
  | invalidEscape _ => '\\'
  | malformedNumber _ => '.'

namespace Scan

section

variable {position start : Nat} {first : Char} {text rest : List Char} {cause : LexError}

theorem except_map_eq_error {ε α β : Type} {change : α → β} {result : Except ε α} {cause : ε} :
    result.map change = .error cause ↔ result = .error cause := by
  cases result <;> simp [Except.map]

/-- The places of a number fail at a further point with a digit behind it. -/
theorem places_error {digits : List Char} (hfault : places position digits text = .error cause) :
    ∃ after, startsWithDigit after = true ∧
      text = text.takeWhile Char.isDigit ++ '.' :: after ∧
      cause = .malformedNumber (position + 1 + (text.takeWhile Char.isDigit).length) := by
  have hsplit := List.takeWhile_append_dropWhile (p := Char.isDigit) (l := text)
  unfold places at hfault
  split at hfault
  · rename_i after hafter
    split at hfault
    · rename_i hdigit
      cases hfault
      rw [hafter] at hsplit
      exact ⟨after, hdigit, hsplit.symm, rfl⟩
    · cases hfault
  · cases hfault

/-- What is wrong with a number is its second point, and the characters before that are a number. -/
theorem number_blames
    (hnumber : (first.isDigit || (isSign first && startsWithDigit text)) = true)
    (hfault : number position text = .error cause) : cause.Blames position (first :: text) := by
  have hsplit := List.takeWhile_append_dropWhile (p := Char.isDigit) (l := text)
  obtain ⟨sign, whole, factor, hsign, hwhole, hdigits⟩ := number_digits hnumber
  unfold number at hfault
  split at hfault
  · rename_i after hafter
    split at hfault
    · rename_i hpoint
      obtain ⟨later, hlater, htext, rfl⟩ := places_error hfault
      have hspelled := Literal.Spelled.decimal hsign hwhole (isDigits_takeWhile hpoint)
      have hblames : (LexError.malformedNumber _).Blames position _ :=
        .malformedNumber hspelled hlater
      rw [hafter] at hsplit
      simp only [← hdigits, List.append_assoc, List.cons_append, ← htext, hsplit] at hblames
      convert hblames using 2
      rw [List.length_cons, List.length_append, List.length_cons]
      omega
    · cases hfault
  · cases hfault

/-- A character literal without its closing quote is not terminated. -/
theorem closeCharacter_error {content : List Char}
    (hfault : closeCharacter position content text = .error cause) :
    cause = .unterminatedCharacter position := by
  unfold closeCharacter at hfault
  split at hfault <;> cases hfault
  rfl

/-- A character literal fails for its closing quote, or for an escape without a letter that means
something. -/
theorem character_error (hfault : character position text = .error cause) :
    cause = .unterminatedCharacter position ∨
      ∃ rest, text = '\\' :: rest ∧ (∀ letter ∈ rest.head?, Escape.meaning letter = none) ∧
        cause = .invalidEscape (position + 1) := by
  unfold character at hfault
  split at hfault
  · cases hfault
    exact .inl rfl
  rename_i head tail
  split at hfault
  · rename_i hescape
    subst hescape
    split at hfault
    · cases hfault
      exact .inr ⟨[], rfl, by simp, rfl⟩
    · rename_i letter after
      split at hfault
      · exact .inl (closeCharacter_error hfault)
      · rename_i hmeaning
        cases hfault
        refine .inr ⟨letter :: after, rfl, ?_, rfl⟩
        rintro other ⟨⟩
        simpa using hmeaning
  · split at hfault
    · cases hfault
      exact .inl rfl
    · exact .inl (closeCharacter_error hfault)

/-- What is wrong with a character literal is said by its beginning. -/
theorem character_blames (hfault : lexeme position '\'' text = .error cause) :
    cause.Blames position ('\'' :: text) := by
  have hcharacter : character position text = .error cause := hfault
  obtain rfl | ⟨rest, rfl, hrest, rfl⟩ := character_error hcharacter
  · refine .unterminatedCharacter fun glyph c hglyph hprefix ↦ ?_
    obtain ⟨after, rfl⟩ := hprefix
    rw [lexeme_character hglyph] at hfault
    cases hfault
  · exact .invalidEscape (.inr ⟨rfl, rfl⟩) .nil hrest

/-- The characters of a string literal are followed by the end of its line, or by a backslash in
front of no letter that means something. -/
def BreaksOff (start position : Nat) (text : List Char) (cause : LexError) : Prop :=
  ∃ glyphs value rest, Glyphs '"' glyphs value ∧ text = glyphs ++ rest ∧
    ((∀ c ∈ rest.head?, isLineBreak c = true) ∧ cause = .unterminatedString start ∨
      ∃ after, rest = '\\' :: after ∧ (∀ letter ∈ after.head?, Escape.meaning letter = none) ∧
        cause = .invalidEscape (position + glyphs.length))

/-- A glyph more before the fault moves the fault with it. -/
theorem BreaksOff.cons {glyph : List Char} {c : Char} (hglyph : Glyph '"' glyph c)
    (h : BreaksOff start (position + glyph.length) text cause) :
    BreaksOff start position (glyph ++ text) cause := by
  obtain ⟨glyphs, value, rest, hglyphs, rfl, hcause⟩ := h
  refine ⟨glyph ++ glyphs, c :: value, rest, .cons hglyph hglyphs,
    (List.append_assoc _ _ _).symm, ?_⟩
  rwa [List.length_append, ← Nat.add_assoc]

/-- A string fails at the end of its line, or at an escape without a letter that means something.
The induction follows the string. -/
theorem stringTail_error (hfault : stringTail start position text = .error cause) :
    BreaksOff start position text cause := by
  have hstop {position : Nat} {rest : List Char} (hrest : ∀ c ∈ rest.head?, isLineBreak c = true) :
      BreaksOff start position rest (.unterminatedString start) :=
    ⟨[], [], rest, .nil, rfl, .inl ⟨hrest, rfl⟩⟩
  have hescape {position : Nat} {after : List Char}
      (hafter : ∀ letter ∈ after.head?, Escape.meaning letter = none) :
      BreaksOff start position ('\\' :: after) (.invalidEscape position) :=
    ⟨[], [], '\\' :: after, .nil, rfl, .inr ⟨after, rfl, hafter, rfl⟩⟩
  fun_induction stringTail start position text with
  | case1 =>
    cases hfault
    exact hstop (by simp)
  | case2 => cases hfault
  | case3 =>
    cases hfault
    exact hescape (by simp)
  | case4 position letter after hmeaning hquote ih =>
    obtain ⟨c, hc⟩ := Option.isSome_iff_exists.mp hmeaning
    have hglyph : Glyph '"' ['\\', letter] c := .escape hc
    exact .cons hglyph (ih (except_map_eq_error.mp hfault))
  | case5 position letter after hmeaning hquote =>
    cases hfault
    refine hescape ?_
    rintro other ⟨⟩
    simpa using hmeaning
  | case6 position head tail hquote hplain hbreak =>
    cases hfault
    refine hstop ?_
    rintro other ⟨⟩
    exact hbreak
  | case7 position head tail hquote hplain hbreak ih =>
    have hglyph : Glyph '"' [head] head := .plain hquote hplain (Bool.eq_false_iff.mpr hbreak)
    exact .cons hglyph (ih (except_map_eq_error.mp hfault))

/-- What is wrong with a string is said by its beginning. -/
theorem string_blames (hfault : stringTail position (position + 1) text = .error cause) :
    cause.Blames position ('"' :: text) := by
  obtain ⟨glyphs, value, rest, hglyphs, rfl, hcause⟩ := stringTail_error hfault
  obtain ⟨hrest, rfl⟩ | ⟨after, rfl, hafter, rfl⟩ := hcause
  · exact .unterminatedString hglyphs hrest
  · exact .invalidEscape (.inl rfl) hglyphs hafter

/-- No operator begins with the character that is unexpected. -/
theorem operator_error (hfault : operator position first text = .error cause) :
    isRelationOperator first = false ∧ isSingleOperator first = false ∧
      cause = .unexpectedCharacter first position := by
  unfold operator at hfault
  split at hfault
  · split at hfault <;> cases hfault
  · rename_i hrelation
    split at hfault
    · cases hfault
    · rename_i hsingle
      cases hfault
      exact ⟨Bool.eq_false_iff.mpr hrelation, Bool.eq_false_iff.mpr hsingle, rfl⟩

/-- Signs are operators by themselves. -/
theorem isSign_of_isSingleOperator {c : Char} (h : isSingleOperator c = false) :
    isSign c = false := by
  by_contra hsign
  rw [Bool.not_eq_false] at hsign
  have hc : c = '+' ∨ c = '-' := by simpa [isSign] using hsign
  rcases hc with rfl | rfl <;> cases h

/-- What is wrong with the first word of a text that begins with no blank. -/
theorem lexeme_blames (hblank : ¬isBlank first = true)
    (hfault : lexeme position first text = .error cause) :
    cause.Blames position (first :: text) := by
  have hlexeme := hfault
  unfold lexeme at hfault
  split at hfault
  · cases hfault
  rename_i hstart
  split at hfault
  · rename_i hnumber
    exact number_blames hnumber hfault
  rename_i hnumber
  split at hfault
  · rename_i hquote
    subst hquote
    exact character_blames hlexeme
  rename_i hcharacter
  split at hfault
  · rename_i hquote
    subst hquote
    exact string_blames (except_map_eq_error.mp hfault)
  rename_i hstring
  obtain ⟨hrelation, hsingle, rfl⟩ := operator_error hfault
  refine .unexpectedCharacter (Bool.eq_false_iff.mpr hblank) fun word hword hhead ↦ ?_
  obtain ⟨kind, hwell⟩ := hword
  obtain ⟨head, tail, hsplit, -, hread⟩ := hwell.readsWhole
  change word.toList = head :: tail at hsplit
  rw [hsplit] at hhead
  obtain rfl : head = first := by simpa using hhead
  have hdigit : head.isDigit = false := by
    rw [Bool.or_eq_true, not_or] at hnumber
    exact Bool.eq_false_iff.mpr hnumber.1
  have hread := hread 0 [] .nil
  rw [lexeme, if_neg hstart, hdigit, isSign_of_isSingleOperator hsingle] at hread
  simp [hcharacter, hstring, operator, hrelation, hsingle] at hread

end

end Scan

/-! ### Where the fault is -/

/-- The error points at a character of the word that cannot be read, or at one behind which it
cannot go on. -/
theorem LexError.Blames.points {position : Nat} {cause : LexError} {text : List Char}
    (h : cause.Blames position text) :
    ∃ behind, cause.offset = position + behind ∧ text[behind]? = some cause.character := by
  cases h with
  | unexpectedCharacter | unterminatedString | unterminatedCharacter => exact ⟨0, rfl, rfl⟩
  | @invalidEscape quote glyphs =>
    refine ⟨glyphs.length + 1, Nat.add_right_comm _ _ _, ?_⟩
    rw [List.getElem?_cons_succ, List.getElem?_append_right (Nat.le_refl _), Nat.sub_self]
    rfl
  | @malformedNumber number =>
    refine ⟨number.length, rfl, ?_⟩
    rw [List.getElem?_append_right (Nat.le_refl _), Nat.sub_self]
    rfl

/-- The first word that cannot be read begins at `position`. -/
structure LexError.FoundAt (cause : LexError) (text : String) (position : Nat) : Prop where
  before : ∃ tokens, scan (String.ofList (text.toList.take position)) = .ok tokens
  begins : ∃ first rest, text.toList.drop position = first :: rest ∧ isBlank first = false ∧
    lexeme position first rest = .error cause
  blames : cause.Blames position (text.toList.drop position)
  within : position ≤ cause.offset ∧ cause.offset < text.length
  pointed : text.toList[cause.offset]? = some cause.character

/-- Scanning by position is scanning, and never reads an operator where the text has ended; where it
fails, it fails at the first word that cannot be read. -/
theorem scan_error_found (text : String) :
    (∀ fuel, text.length + 1 < fuel →
      TextCursor.scan fuel text = (scan text).mapError .failed ∧
        ∀ cause, TextCursor.scan fuel text ≠ .error (.missingOperator cause)) ∧
    ∀ cause, scan text = .error cause → ∃ position, cause.FoundAt text position := by
  refine ⟨fun fuel hfuel ↦ ?_, fun cause hscan ↦ ?_⟩
  · have heq := TextCursor.scan_eq text hfuel
    refine ⟨heq, fun cause hmissing ↦ ?_⟩
    rw [heq] at hmissing
    cases hscan : scan text <;> rw [hscan] at hmissing <;> cases hmissing
  · obtain ⟨before, first, rest, tokens, hsplit, hblank, htokens, hfault⟩ :=
      tokensFrom_error hscan
    rw [Nat.zero_add] at hfault
    have hdrop : text.toList.drop before.length = first :: rest := by rw [hsplit, List.drop_left]
    have htake : text.toList.take before.length = before := by rw [hsplit, List.take_left]
    have hblames := lexeme_blames hblank hfault
    obtain ⟨behind, hoffset, hbehind⟩ := hblames.points
    have hpointed : text.toList[cause.offset]? = some cause.character := by
      rw [hoffset, ← List.getElem?_drop, hdrop, hbehind]
    refine ⟨before.length, ⟨tokens, ?_⟩, ⟨first, rest, hdrop, ?_, hfault⟩, ?_, ⟨?_, ?_⟩, hpointed⟩
    · rw [htake, scan, String.toList_ofList, htokens]
    · exact Bool.eq_false_iff.mpr hblank
    · rwa [hdrop]
    · rw [hoffset]
      exact Nat.le_add_right _ _
    · rw [← String.length_toList]
      exact (List.getElem?_eq_some_iff.mp hpointed).1

/-- A bad escape in a string, a second point in a number, and a quote that nothing closes. -/
theorem scan_error_found_literals :
    (scan "x \"a\\qb\"" = .error (.invalidEscape 4) ∧
      ∃ position, (LexError.invalidEscape 4).FoundAt "x \"a\\qb\"" position) ∧
    (scan "f(1.2.3)" = .error (.malformedNumber 5) ∧
      ∃ position, (LexError.malformedNumber 5).FoundAt "f(1.2.3)" position) ∧
    (scan "'" = .error (.unterminatedCharacter 0) ∧
      ∃ position, (LexError.unterminatedCharacter 0).FoundAt "'" position) ∧
    TextCursor.scan 9 "x # y" = .error (.failed (.unexpectedCharacter '#' 2)) := by
  have hescape : scan "x \"a\\qb\"" = .error (.invalidEscape 4) := by cbv
  have hnumber : scan "f(1.2.3)" = .error (.malformedNumber 5) := by cbv
  have hquote : scan "'" = .error (.unterminatedCharacter 0) := by cbv
  have hcharacter : scan "x # y" = .error (.unexpectedCharacter '#' 2) := by cbv
  have hcursor := (scan_error_found "x # y").1 9 (by decide)
  exact ⟨⟨hescape, (scan_error_found _).2 _ hescape⟩, ⟨hnumber, (scan_error_found _).2 _ hnumber⟩,
    ⟨hquote, (scan_error_found _).2 _ hquote⟩, hcursor.1.trans (by rw [hcharacter]; rfl)⟩

end ScriptLang
