import ScriptLang.Proofs.Token.Scanned

/-!
Words with blanks between them. Every well-formed word is read whole in front of a blank or of the
end, so that a list of such words, written one behind the other with a blank between each two, is
scanned into tokens of the same texts. The kind of a word is fixed by its text.
-/

set_option autoImplicit false
set_option relaxedAutoImplicit false

namespace ScriptLang

namespace Scan

/-- Nothing follows, or a blank does. -/
def Ends (rest : List Char) : Prop := ∀ c ∈ rest.head?, isBlank c = true

theorem Ends.nil : Ends [] := nofun

theorem Ends.blank (rest : List Char) : Ends (' ' :: rest) := fun c hc ↦ by cases hc; rfl

section

variable {rest text : List Char} {p : Char → Bool}

/-- Of a text in front of a blank, all is taken that satisfies a test which no blank satisfies. -/
theorem Ends.span (h : Ends rest) (htext : ∀ c ∈ text, p c = true)
    (hp : ∀ c, isBlank c = true → p c = false) :
    (text ++ rest).takeWhile p = text ∧ (text ++ rest).dropWhile p = rest := by
  rw [List.takeWhile_append_of_pos htext, List.dropWhile_append_of_pos htext]
  cases rest with
  | nil => simp
  | cons head tail =>
    have hhead := hp head (h head rfl)
    simp [hhead]

/-- What ends in a blank begins with no other character. -/
theorem Ends.head_ne (h : Ends rest) {c : Char} (hc : isBlank c = false) (tail : List Char) :
    rest ≠ c :: tail := by
  rintro rfl
  rw [h c rfl] at hc
  cases hc

theorem isBlank_cases {c : Char} (h : isBlank c = true) :
    c = ' ' ∨ c = '\x08' ∨ c = '\n' ∨ c = '\r' ∨ c = '\t' := by
  simpa [isBlank, or_assoc] using h

theorem isDigit_of_isBlank (c : Char) (h : isBlank c = true) : c.isDigit = false := by
  obtain rfl | rfl | rfl | rfl | rfl := isBlank_cases h <;> rfl

theorem isIdentifierPart_of_isBlank (c : Char) (h : isBlank c = true) :
    isIdentifierPart c = false := by
  obtain rfl | rfl | rfl | rfl | rfl := isBlank_cases h <;> rfl

/-- A blank ends digits. -/
theorem Ends.startsWithDigit (h : Ends rest) : startsWithDigit rest = false := by
  cases rest with
  | nil => rfl
  | cons head tail => exact isDigit_of_isBlank head (h head rfl)

/-- What can begin an identifier can go on with it. -/
theorem isIdentifierPart_of_isIdentifierStart {c : Char} (h : isIdentifierStart c = true) :
    isIdentifierPart c = true := by
  unfold isIdentifierStart isIdentifierPart Char.isAlphanum at *
  rw [Bool.or_eq_true] at h
  obtain h | h := h <;> simp [h]

theorem isBlank_of_isIdentifierStart {c : Char} (h : isIdentifierStart c = true) :
    isBlank c = false := by
  by_contra hblank
  have hpart := isIdentifierPart_of_isBlank c (Bool.not_eq_false _ ▸ hblank)
  rw [isIdentifierPart_of_isIdentifierStart h] at hpart
  cases hpart

/-- No identifier begins with a digit. -/
theorem isIdentifierStart_of_isDigit {c : Char} (h : c.isDigit = true) :
    isIdentifierStart c = false := by
  by_contra hstart
  unfold isIdentifierStart Char.isAlpha Char.isUpper Char.isLower at hstart
  unfold Char.isDigit at h
  simp only [Bool.not_eq_false, Bool.or_eq_true, Bool.and_eq_true, decide_eq_true_eq, beq_iff_eq,
    UInt32.le_iff_toNat_le, ge_iff_le] at h hstart
  change 48 ≤ c.toNat ∧ c.toNat ≤ 57 at h
  change (65 ≤ c.toNat ∧ c.toNat ≤ 90 ∨ 97 ≤ c.toNat ∧ c.toNat ≤ 122) ∨ c = '_' at hstart
  obtain (hupper | hlower) | rfl := hstart
  · omega
  · omega
  · exact absurd h (by decide)

end

/-! ### Each kind of word in front of a blank -/

/-- A text is read as one word of the kind `kind` in front of a blank, whatever stands before. -/
def ReadsWhole (kind : TokenKind) (text : List Char) : Prop :=
  ∃ first tail, text = first :: tail ∧ isBlank first = false ∧
    ∀ offset rest, Ends rest → lexeme offset first (tail ++ rest) = .ok ⟨kind, tail, rest⟩

/-- An identifier is read whole in front of a blank. -/
theorem readsWhole_identifier {first : Char} {tail : List Char}
    (hfirst : isIdentifierStart first = true) (htail : ∀ c ∈ tail, isIdentifierPart c = true) :
    ReadsWhole .identifier (first :: tail) := by
  refine ⟨first, tail, rfl, isBlank_of_isIdentifierStart hfirst, fun offset rest hrest ↦ ?_⟩
  obtain ⟨htake, hdrop⟩ := hrest.span htail isIdentifierPart_of_isBlank
  rw [lexeme, if_pos hfirst, htake, hdrop]

/-- Digits with or without a sign are read as a number, from behind their first character. -/
theorem lexeme_number {sign digits : List Char} {factor : Int} (hsign : IsSign sign factor)
    (hdigits : IsDigits digits) : ∃ first tail, sign ++ digits = first :: tail ∧
      isBlank first = false ∧ (∀ c ∈ tail, c.isDigit = true) ∧
      ∀ offset after, lexeme offset first (tail ++ after) = number offset (tail ++ after) := by
  obtain ⟨head, others, rfl, hhead⟩ := hdigits.exists_cons
  have hsigned {c : Char} (hstart : isIdentifierStart c = false) (hc : isSign c = true)
      (offset : Nat) (after : List Char) :
      lexeme offset c (head :: others ++ after) = number offset (head :: others ++ after) := by
    have hnumber :
        (c.isDigit || (isSign c && startsWithDigit (head :: others ++ after))) = true := by
      rw [hc, Bool.true_and, Bool.or_eq_true]
      exact .inr hhead
    rw [lexeme, hstart, if_neg Bool.false_ne_true, if_pos hnumber]
  cases hsign with
  | none =>
    refine ⟨head, others, rfl, ?_, fun c hc ↦ hdigits.2 c (List.mem_cons_of_mem head hc), ?_⟩
    · by_contra hblank
      rw [isDigit_of_isBlank head (Bool.not_eq_false _ ▸ hblank)] at hhead
      cases hhead
    · intro offset after
      rw [lexeme, isIdentifierStart_of_isDigit hhead, if_neg Bool.false_ne_true,
        if_pos (by rw [hhead, Bool.true_or])]
  | plus => exact ⟨'+', head :: others, rfl, rfl, hdigits.2, hsigned rfl rfl⟩
  | minus => exact ⟨'-', head :: others, rfl, rfl, hdigits.2, hsigned rfl rfl⟩

/-- An integer is read whole in front of a blank. -/
theorem readsWhole_integer {sign digits : List Char} {factor : Int} (hsign : IsSign sign factor)
    (hdigits : IsDigits digits) : ReadsWhole .integer (sign ++ digits) := by
  obtain ⟨first, tail, hsplit, hblank, htail, hlexeme⟩ := lexeme_number hsign hdigits
  refine ⟨first, tail, hsplit, hblank, fun offset rest hrest ↦ ?_⟩
  obtain ⟨htake, hdrop⟩ := hrest.span htail isDigit_of_isBlank
  rw [hlexeme, number, htake, hdrop]
  split
  · exact (hrest.head_ne rfl _ rfl).elim
  · rfl

/-- A text that begins with digits begins with a digit. -/
theorem startsWithDigit_append {digits : List Char} (h : IsDigits digits)
    (rest : List Char) : startsWithDigit (digits ++ rest) = true := by
  obtain ⟨head, others, rfl, hhead⟩ := h.exists_cons
  exact hhead

/-- Behind its whole part, a number with a point goes on with its places. -/
theorem number_point {whole rest : List Char} (hwhole : ∀ c ∈ whole, c.isDigit = true)
    (hrest : startsWithDigit rest = true) (offset : Nat) :
    number offset (whole ++ '.' :: rest) = places (offset + 1 + whole.length) whole rest := by
  have htake : (whole ++ '.' :: rest).takeWhile Char.isDigit = whole := by
    rw [List.takeWhile_append_of_pos hwhole]
    simp [show ('.' : Char).isDigit = false from rfl]
  have hdrop : (whole ++ '.' :: rest).dropWhile Char.isDigit = '.' :: rest := by
    rw [List.dropWhile_append_of_pos hwhole]
    simp [show ('.' : Char).isDigit = false from rfl]
  rw [number, htake, hdrop]
  simp only [hrest, if_true]

/-- A decimal is read whole in front of a blank. -/
theorem readsWhole_decimal {sign whole places : List Char} {factor : Int}
    (hsign : IsSign sign factor) (hwhole : IsDigits whole) (hplaces : IsDigits places) :
    ReadsWhole .decimal (sign ++ whole ++ '.' :: places) := by
  obtain ⟨first, tail, hsplit, hblank, htail, hlexeme⟩ := lexeme_number hsign hwhole
  refine ⟨first, tail ++ '.' :: places, by rw [hsplit, List.cons_append], hblank,
    fun offset rest hrest ↦ ?_⟩
  obtain ⟨htake, hdrop⟩ := hrest.span hplaces.2 isDigit_of_isBlank
  rw [List.append_assoc, List.cons_append, hlexeme,
    number_point htail (startsWithDigit_append hplaces rest), Scan.places, htake, hdrop]
  split
  · exact (hrest.head_ne rfl _ rfl).elim
  · rfl

/-- A character literal is read to its closing quote, whatever follows. -/
theorem lexeme_character {text : List Char} {c : Char} (hglyph : Glyph '\'' text c)
    (offset : Nat) (rest : List Char) : lexeme offset '\'' (text ++ ['\''] ++ rest) =
      .ok ⟨.character, text ++ ['\''], rest⟩ := by
  have hlexeme : lexeme offset '\'' (text ++ ['\''] ++ rest) =
      character offset (text ++ '\'' :: rest) := by
    rw [List.append_assoc]
    rfl
  rw [hlexeme]
  cases hglyph with
  | plain hquote hescape hbreak =>
    rw [List.singleton_append, character, if_neg hescape, if_neg (by simp [hquote, hbreak])]
    rfl
  | escape hmeaning =>
    change (if (Escape.meaning _).isSome = true then _ else _) = _
    rw [hmeaning]
    rfl

theorem readsWhole_character {text : List Char} {c : Char} (hglyph : Glyph '\'' text c) :
    ReadsWhole .character ('\'' :: text ++ ['\'']) :=
  ⟨'\'', text ++ ['\''], rfl, rfl, fun offset rest _ ↦ lexeme_character hglyph offset rest⟩

/-- The glyphs of a string are read to the closing quote, whatever follows. The induction is on the
glyphs. -/
theorem stringTail_of_glyphs {text value : List Char} (hglyphs : Glyphs '"' text value)
    (start position : Nat) (rest : List Char) :
    stringTail start position (text ++ '"' :: rest) = .ok (text ++ ['"'], rest) := by
  induction hglyphs generalizing position with
  | nil =>
    rw [List.nil_append, stringTail.eq_def]
    rfl
  | @cons first others c value hfirst _ ih =>
    cases hfirst with
    | plain hquote hescape hbreak =>
      rw [List.singleton_append, List.cons_append, stringTail.eq_def]
      simp only [if_neg hquote, if_neg hescape, hbreak, Bool.false_eq_true, if_false, ih]
      rfl
    | @escape letter c hmeaning =>
      change stringTail start position ('\\' :: letter :: (others ++ '"' :: rest)) = _
      rw [stringTail.eq_def]
      simp only [show ('\\' : Char) ≠ '"' by decide, hmeaning, Option.isSome_some, if_true,
        if_false, ih]
      rfl

/-- A string is read to its closing quote, whatever follows. -/
theorem lexeme_string {text value : List Char} (hglyphs : Glyphs '"' text value) (offset : Nat)
    (rest : List Char) :
    lexeme offset '"' (text ++ ['"'] ++ rest) = .ok ⟨.string, text ++ ['"'], rest⟩ := by
  have hlexeme : lexeme offset '"' (text ++ ['"'] ++ rest) =
      (stringTail offset (offset + 1) (text ++ '"' :: rest)).map fun part ↦
        ⟨.string, part.1, part.2⟩ := by
    rw [List.append_assoc]
    rfl
  rw [hlexeme, stringTail_of_glyphs hglyphs]
  rfl

theorem readsWhole_string {text value : List Char} (hglyphs : Glyphs '"' text value) :
    ReadsWhole .string ('"' :: text ++ ['"']) :=
  ⟨'"', text ++ ['"'], rfl, rfl, fun offset rest _ ↦ lexeme_string hglyphs offset rest⟩

/-- The first characters of operators begin no other kind of word, but a sign in front of a digit
begins a number. -/
theorem lexeme_operator {c : Char}
    (hc : isSingleOperator c = true ∨ isRelationOperator c = true) (offset : Nat)
    {after : List Char} (hafter : isSign c = true → startsWithDigit after = false) :
    isBlank c = false ∧ lexeme offset c after = operator offset c after := by
  have hplain : ['(', ')', ',', '.', ':', ';', '+', '-', '*', '/', '<', '>', '!', '='].all fun c ↦
      !(isBlank c || isIdentifierStart c || c.isDigit || c == '\'' || c == '"') := by decide
  have hmem : c ∈ ['(', ')', ',', '.', ':', ';', '+', '-', '*', '/', '<', '>', '!', '='] := by
    obtain hc | hc := hc
    · exact List.mem_append_left ['<', '>', '!', '='] (List.contains_iff_mem.mp hc)
    · exact List.mem_append_right ['(', ')', ',', '.', ':', ';', '+', '-', '*', '/']
        (List.contains_iff_mem.mp hc)
  have hothers := List.all_eq_true.mp hplain c hmem
  simp only [Bool.not_eq_true', Bool.or_eq_false_iff, beq_eq_false_iff_ne] at hothers
  obtain ⟨⟨⟨⟨hblank, hstart⟩, hdigit⟩, hcharacter⟩, hstring⟩ := hothers
  have hnumber : (isSign c && startsWithDigit after) = false := by
    rw [Bool.and_eq_false_iff, or_iff_not_imp_left, Bool.not_eq_false]
    exact hafter
  refine ⟨hblank, ?_⟩
  simp [lexeme, hstart, hdigit, hnumber, hcharacter, hstring]

/-- An operator is one character, or a relation in front of `=`. -/
theorem operator_cases {text : String} (h : text ∈ operators) :
    (∃ c, text.toList = [c] ∧ (isSingleOperator c = true ∨ isRelationOperator c = true)) ∨
      ∃ c, text.toList = [c, '='] ∧ isRelationOperator c = true := by
  have hshapes : ∀ other ∈ operators,
      (∃ c, other.toList = [c] ∧ (isSingleOperator c = true ∨ isRelationOperator c = true)) ∨
        ∃ c, other.toList = [c, '='] ∧ isRelationOperator c = true := by
    simp [operators, isSingleOperator, isRelationOperator]
  exact hshapes text h

theorem lexeme_relation {c : Char} (hc : isRelationOperator c = true) (offset : Nat)
    (rest : List Char) : lexeme offset c ('=' :: rest) = .ok ⟨.operator, ['='], rest⟩ := by
  rw [(lexeme_operator (.inr hc) offset fun _ ↦ rfl).2, operator, if_pos hc]

/-- An operator is read whole in front of a blank. -/
theorem readsWhole_operator {text : String} (h : text ∈ operators) :
    ReadsWhole .operator text.toList := by
  obtain ⟨c, hsplit, hshape⟩ | ⟨c, hsplit, hshape⟩ := operator_cases h
  · refine ⟨c, [], hsplit, (lexeme_operator hshape 0 fun _ ↦ Ends.nil.startsWithDigit).1,
      fun offset rest hrest ↦ ?_⟩
    rw [List.nil_append, (lexeme_operator hshape offset fun _ ↦ hrest.startsWithDigit).2]
    unfold operator
    split
    · split
      · exact (hrest.head_ne rfl _ rfl).elim
      · rfl
    · rename_i hrelation
      rw [if_pos (hshape.resolve_right hrelation)]
  · exact ⟨c, ['='], hsplit, (lexeme_operator (.inr hshape) 0 fun _ ↦ Ends.nil.startsWithDigit).1,
      fun offset rest _ ↦ lexeme_relation hshape offset rest⟩

end Scan

open Scan

/-- Every well-formed word is read whole in front of a blank. -/
theorem Token.WellFormed.readsWhole {token : Token} (h : token.WellFormed) :
    ReadsWhole token.kind token.text.toList := by
  obtain ⟨kind, text, position⟩ := token
  have hspelled {kind : TokenKind} {text : List Char} {value : Literal}
      (h : Literal.Spelled kind text value) : ReadsWhole kind text := by
    cases h with
    | integer hsign hdigits => exact readsWhole_integer hsign hdigits
    | decimal hsign hwhole hplaces => exact readsWhole_decimal hsign hwhole hplaces
    | character hglyph => exact readsWhole_character hglyph
    | string hglyphs => exact readsWhole_string hglyphs
  cases kind with
  | identifier =>
    obtain ⟨first, rest, htext, hfirst, hrest⟩ := h
    change text = _ at htext
    subst htext
    rw [String.toList_ofList]
    exact readsWhole_identifier hfirst hrest
  | operator => exact readsWhole_operator h
  | integer | decimal | character | string =>
    obtain ⟨value, hvalue⟩ := h
    exact hspelled hvalue

/-- A text is a well-formed word of one kind only. -/
theorem Token.WellFormed.kind_eq {first second : Token} (hfirst : first.WellFormed)
    (hsecond : second.WellFormed) (htext : first.text = second.text) :
    first.kind = second.kind := by
  obtain ⟨head, tail, hsplit, -, hread⟩ := hfirst.readsWhole
  obtain ⟨head', tail', hsplit', -, hread'⟩ := hsecond.readsWhole
  rw [htext, hsplit'] at hsplit
  cases hsplit
  have hkind := hread 0 [] .nil
  rw [hread' 0 [] .nil] at hkind
  exact congrArg Lexeme.kind (Except.ok.inj hkind).symm

/-! ### Words with blanks between them -/

/-- A text that is a well-formed word of some kind. -/
def IsWord (text : String) : Prop := ∃ kind, Token.WellFormed ⟨kind, text, 0⟩

namespace Scan

section

variable {offset : Nat} {first : Char} {text : List Char}

/-- Blanks are skipped. -/
theorem tokensFrom_of_blank (hblank : isBlank first = true) :
    tokensFrom offset (first :: text) = tokensFrom (offset + 1) text := by
  rw [tokensFrom, if_pos hblank]

/-- A word that fails ends the scan. -/
theorem tokensFrom_of_error {cause : LexError} (hblank : ¬isBlank first = true)
    (hword : lexeme offset first text = .error cause) :
    tokensFrom offset (first :: text) = .error cause := by
  rw [tokensFrom, if_neg hblank]
  split
  · rename_i hother
    rw [hword] at hother
    cases hother
    rfl
  · rename_i hother
    rw [hword] at hother
    cases hother

/-- A word that is read becomes a token, and the scan goes on behind it. -/
theorem tokensFrom_of_lexeme {word : Lexeme} (hblank : ¬isBlank first = true)
    (hword : lexeme offset first text = .ok word) :
    tokensFrom offset (first :: text) = (tokensFrom (offset + 1 + word.tail.length) word.rest).map
      (⟨word.kind, String.ofList (first :: word.tail), offset⟩ :: ·) := by
  rw [tokensFrom, if_neg hblank]
  split
  · rename_i hother
    rw [hword] at hother
    cases hother
  · rename_i hother
    rw [hword] at hother
    cases hother
    rfl

end

/-- A word in front of a blank becomes one token with its text. -/
theorem tokensFrom_word {word : String} (hword : IsWord word) (offset : Nat) {rest : List Char}
    (hrest : Ends rest) : ∃ token after, token.text = word ∧
      tokensFrom offset (word.toList ++ rest) = (tokensFrom after rest).map (token :: ·) := by
  obtain ⟨kind, hwell⟩ := hword
  obtain ⟨first, tail, hsplit, hblank, hread⟩ := hwell.readsWhole
  change word.toList = first :: tail at hsplit
  refine ⟨⟨kind, String.ofList (first :: tail), offset⟩, offset + 1 + tail.length, ?_, ?_⟩
  · rw [← hsplit, String.ofList_toList]
  · rw [hsplit, List.cons_append,
      tokensFrom_of_lexeme (Bool.eq_false_iff.mp hblank) (hread offset rest hrest)]

/-- Words that each have a blank before them end what is before them. -/
theorem ends_spaced (words : List String) : Ends (words.flatMap fun word ↦ ' ' :: word.toList) := by
  cases words with
  | nil => exact .nil
  | cons word words => exact .blank _

/-- Words, each with a blank in front, are scanned into tokens of the same texts. -/
theorem tokensFrom_spaced {words : List String} (hwords : ∀ word ∈ words, IsWord word)
    (offset : Nat) : ∃ tokens, tokensFrom offset (words.flatMap fun word ↦ ' ' :: word.toList) =
      .ok tokens ∧ tokens.map Token.text = words := by
  induction words generalizing offset with
  | nil => exact ⟨[], by rw [List.flatMap_nil, tokensFrom], rfl⟩
  | cons word words ih =>
    rw [List.forall_mem_cons] at hwords
    obtain ⟨token, after, htext, htoken⟩ :=
      tokensFrom_word hwords.1 (offset + 1) (ends_spaced words)
    obtain ⟨tokens, htokens, htexts⟩ := ih hwords.2 after
    refine ⟨token :: tokens, ?_, by rw [List.map_cons, htext, htexts]⟩
    rw [List.flatMap_cons, List.cons_append, tokensFrom_of_blank rfl, htoken, htokens]
    rfl

end Scan

/-- A text of words is the first word and the others behind blanks. -/
theorem toList_intercalate_blank (word : String) (words : List String) :
    (" ".intercalate (word :: words)).toList =
      word.toList ++ words.flatMap fun word ↦ ' ' :: word.toList := by
  rw [String.toList_intercalate, List.map_cons]
  induction words generalizing word with
  | nil => rw [List.map_nil, List.intercalate_singleton, List.flatMap_nil, List.append_nil]
  | cons next words ih =>
    rw [List.map_cons, List.intercalate_cons_cons, ih, List.flatMap_cons, List.append_assoc]
    rfl

/-- Words with one blank between each two are scanned into tokens of the same texts. -/
theorem scan_intercalate {words : List String} (hwords : ∀ word ∈ words, IsWord word) :
    ∃ tokens, scan (" ".intercalate words) = .ok tokens ∧ tokens.map Token.text = words := by
  unfold scan
  cases words with
  | nil => exact ⟨[], by rw [String.intercalate_nil]; exact tokensFrom.eq_1 0, rfl⟩
  | cons word words =>
    rw [List.forall_mem_cons] at hwords
    obtain ⟨token, after, htext, htoken⟩ := tokensFrom_word hwords.1 0 (ends_spaced words)
    obtain ⟨tokens, htokens, htexts⟩ := tokensFrom_spaced hwords.2 after
    refine ⟨token :: tokens, ?_, by rw [List.map_cons, htext, htexts]⟩
    rw [toList_intercalate_blank, htoken, htokens]
    rfl

end ScriptLang
