import ScriptLang.Program.OfTokens
import ScriptLang.Token.Scan

/-!
The shapes of tokens. `Literal.Spelled` says which texts of which kind stand for a value, and
`Token.WellFormed` lists the shapes of all kinds, which are those that scanning produces. A
well-formed literal has exactly one value, and no well-formed token is mistaken for a word of
another kind.
-/

set_option autoImplicit false
set_option relaxedAutoImplicit false

namespace ScriptLang

/-- One or more digits. -/
def IsDigits (text : List Char) : Prop := text ≠ [] ∧ ∀ c ∈ text, c.isDigit = true

/-- A sign in front of digits, which may be left out. -/
inductive IsSign : List Char → Int → Prop
  | none : IsSign [] 1
  | plus : IsSign ['+'] 1
  | minus : IsSign ['-'] (-1)

/-- How one character stands between `quote`s: as it is, or as an escape. -/
inductive Glyph (quote : Char) : List Char → Char → Prop
  | plain {c : Char} (hquote : c ≠ quote) (hescape : c ≠ '\\')
    (hbreak : Scan.isLineBreak c = false) : Glyph quote [c] c
  | escape {letter c : Char} (hmeaning : Escape.meaning letter = some c) :
    Glyph quote ['\\', letter] c

inductive Glyphs (quote : Char) : List Char → List Char → Prop
  | nil : Glyphs quote [] []
  | cons {first rest : List Char} {c : Char} {text : List Char} (hfirst : Glyph quote first c)
    (hrest : Glyphs quote rest text) : Glyphs quote (first ++ rest) (c :: text)

/-- The texts of literals and their values. The scale of a decimal is the count of its places. -/
inductive Literal.Spelled : TokenKind → List Char → Literal → Prop
  | integer {sign digits : List Char} {factor : Int} (hsign : IsSign sign factor)
    (hdigits : IsDigits digits) :
    Spelled .integer (sign ++ digits) (.integer (factor * Nat.ofDigitChars 10 digits 0))
  | decimal {sign whole places : List Char} {factor : Int} (hsign : IsSign sign factor)
    (hwhole : IsDigits whole) (hplaces : IsDigits places) :
    Spelled .decimal (sign ++ whole ++ '.' :: places)
      (.decimal ⟨factor * Nat.ofDigitChars 10 (whole ++ places) 0, places.length⟩)
  | character {text : List Char} {c : Char} (hglyph : Glyph '\'' text c) :
    Spelled .character ('\'' :: text ++ ['\'']) (.character c)
  | string {text value : List Char} (hglyphs : Glyphs '"' text value) :
    Spelled .string ('"' :: text ++ ['"']) (.string (String.ofList value))

/-- The operators and marks of the language. -/
def operators : List String :=
  ["==", "!=", "<=", ">=", "(", ")", ",", ".", ":", ";", "=", "+", "-", "*", "/", "<", ">", "!"]

namespace Token

/-- The shapes of the kinds of tokens. -/
def WellFormed (token : Token) : Prop :=
  match token.kind with
  | .identifier => ∃ first rest, token.text = String.ofList (first :: rest) ∧
      Scan.isIdentifierStart first = true ∧ ∀ c ∈ rest, Scan.isIdentifierPart c = true
  | .operator => token.text ∈ operators
  | kind => ∃ value, Literal.Spelled kind token.text.toList value

/-- The token is the keyword or the operator `word`. -/
def Is (token : Token) (word : String) : Prop :=
  token.text = word ∧ token.kind = if word ∈ keywords then .identifier else .operator

/-- A token that is a word is no other word. -/
theorem Is.isWord_eq {token : Token} {word : String} (h : token.Is word) (text : String) :
    token.isWord text = (word == text) := by
  obtain ⟨htext, hkind⟩ := h
  have hwords : (token.kind == .identifier || token.kind == .operator) = true := by
    rw [hkind]
    split <;> rfl
  unfold isWord spells
  rw [hwords, htext, Bool.true_and]

/-- A word is told by its text, for identifiers and operators alike. -/
theorem isWord_eq_true {token : Token} {word : String} :
    token.isWord word = true ↔
      (token.kind = .identifier ∨ token.kind = .operator) ∧ token.text = word := by
  simp [isWord, spells]

/-- A well-formed token that is taken for a word is that word. -/
theorem WellFormed.is_of_isWord {token : Token} (h : token.WellFormed) {word : String}
    (hword : word ∈ keywords ++ operators) (hfound : token.isWord word = true) :
    token.Is word := by
  obtain ⟨hkind, htext⟩ := isWord_eq_true.mp hfound
  refine ⟨htext, ?_⟩
  unfold WellFormed at h
  obtain hkind | hkind := hkind
  · rw [hkind] at h ⊢
    obtain ⟨first, rest, hspelled, hfirst, -⟩ := h
    have hstart : ∀ other ∈ operators,
        other.toList.head?.any Scan.isIdentifierStart = false := by decide
    obtain hkeyword | hoperator := List.mem_append.mp hword
    · rw [if_pos hkeyword]
    · have hfalse := hstart word hoperator
      rw [← htext, hspelled] at hfalse
      simp [hfirst] at hfalse
  · rw [hkind] at h ⊢
    have hdisjoint : ∀ other ∈ operators, other ∉ keywords := by decide
    rw [if_neg (hdisjoint word (htext ▸ h))]

/-- Keywords and operators are well formed. -/
theorem Is.wellFormed {token : Token} {word : String} (h : token.Is word)
    (hword : word ∈ keywords ++ operators) : token.WellFormed := by
  obtain ⟨htext, hkind⟩ := h
  unfold WellFormed
  by_cases hkeyword : word ∈ keywords
  · rw [if_pos hkeyword] at hkind
    have hshape : ∀ keyword ∈ keywords, (keyword.toList.head?.any Scan.isIdentifierStart &&
        keyword.toList.tail.all Scan.isIdentifierPart) = true := by decide
    have hword := hshape word hkeyword
    rw [hkind, htext]
    cases hspelled : word.toList with
    | nil => simp [hspelled] at hword
    | cons first rest =>
      refine ⟨first, rest, by rw [← hspelled, String.ofList_toList], ?_⟩
      simpa [hspelled] using hword
  · rw [if_neg hkeyword] at hkind
    rw [hkind, htext]
    exact (List.mem_append.mp hword).resolve_left hkeyword

theorem exists_isName : ∃ token : Token, token.isName = true ∧ token.WellFormed :=
  ⟨⟨.identifier, "x", 0⟩, by decide, 'x', [], rfl, by decide, by simp⟩

end Token

/-! ### The values of literals -/

/-- Digits begin with a digit. -/
theorem IsDigits.exists_cons {digits : List Char} (h : IsDigits digits) :
    ∃ head tail, digits = head :: tail ∧ head.isDigit = true := by
  obtain ⟨hne, hall⟩ := h
  cases digits with
  | nil => exact (hne rfl).elim
  | cons head tail => exact ⟨head, tail, rfl, hall head List.mem_cons_self⟩

namespace Numeral

/-- Digits are read as the number that they spell. -/
theorem natural?_digits {digits : List Char} (h : IsDigits digits) :
    natural? digits = some (Nat.ofDigitChars 10 digits 0) := by
  have hall : digits.all Char.isDigit = true := List.all_eq_true.mpr h.2
  simp [natural?, h.1, hall]

theorem signed?_digits {digits : List Char} (h : IsDigits digits) :
    signed? digits = some (Nat.ofDigitChars 10 digits 0 : Int) := by
  obtain ⟨head, tail, rfl, hdigit⟩ := h.exists_cons
  have hminus : head ≠ '-' := fun heq ↦ by subst heq; cases hdigit
  have hplus : head ≠ '+' := fun heq ↦ by subst heq; cases hdigit
  rw [signed?, if_neg hminus, if_neg hplus, natural?_digits h]
  rfl

/-- A plus in front of digits changes nothing, a minus changes the sign. -/
theorem signed?_dropPlus {sign digits : List Char} {factor : Int} (hsign : IsSign sign factor)
    (hdigits : IsDigits digits) (tail : List Char) :
    ∃ kept, dropPlus (sign ++ digits ++ tail) = kept ++ digits ++ tail ∧ '.' ∉ kept ∧
      ∀ places, (∀ c ∈ places, c.isDigit = true) → signed? (kept ++ (digits ++ places)) =
        some (factor * Nat.ofDigitChars 10 (digits ++ places) 0) := by
  have hjoined {places : List Char} (hplaces : ∀ c ∈ places, c.isDigit = true) :
      IsDigits (digits ++ places) :=
    ⟨by simp [hdigits.1], by simpa [or_imp, forall_and] using ⟨hdigits.2, hplaces⟩⟩
  obtain ⟨first, rest, rfl, hfirst⟩ := hdigits.exists_cons
  have hplus : first ≠ '+' := fun heq ↦ by subst heq; cases hfirst
  cases hsign with
  | none =>
    refine ⟨[], by simp [dropPlus, hplus], by simp, fun places hplaces ↦ ?_⟩
    rw [List.nil_append, signed?_digits (hjoined hplaces), Int.one_mul]
  | plus =>
    refine ⟨[], by simp [dropPlus], by simp, fun places hplaces ↦ ?_⟩
    rw [List.nil_append, signed?_digits (hjoined hplaces), Int.one_mul]
  | minus =>
    refine ⟨['-'], by simp [dropPlus], by simp, fun places hplaces ↦ ?_⟩
    rw [List.singleton_append, signed?, if_pos rfl, natural?_digits (hjoined hplaces),
      Int.neg_one_mul]
    rfl

/-- An integer is read with its sign. -/
theorem integer?_spelled {sign digits : List Char} {factor : Int} (hsign : IsSign sign factor)
    (hdigits : IsDigits digits) :
    integer? (sign ++ digits) = some (factor * Nat.ofDigitChars 10 digits 0) := by
  obtain ⟨kept, hkept, -, hvalue⟩ := signed?_dropPlus hsign hdigits []
  have hvalue := hvalue [] (by simp)
  rw [List.append_nil, List.append_nil] at hkept
  rw [List.append_nil] at hvalue
  rw [integer?, hkept, hvalue]

/-- A decimal is read with its sign, and its scale is the count of its places. -/
theorem decimal?_spelled {sign whole places : List Char} {factor : Int} (hsign : IsSign sign factor)
    (hwhole : IsDigits whole) (hplaces : IsDigits places) :
    decimal? (sign ++ whole ++ '.' :: places) =
      some ⟨factor * Nat.ofDigitChars 10 (whole ++ places) 0, places.length⟩ := by
  obtain ⟨kept, hkept, hpoint, hvalue⟩ := signed?_dropPlus hsign hwhole ('.' :: places)
  have hclear : ∀ c ∈ kept ++ whole, (c != '.') = true := by
    intro c hc
    obtain hc | hc := List.mem_append.mp hc
    · exact bne_iff_ne.mpr fun heq ↦ hpoint (heq ▸ hc)
    · exact bne_iff_ne.mpr fun heq ↦ by have hdigit := hwhole.2 c hc; subst heq; cases hdigit
  rw [decimal?, hkept, pointed?]
  simp only [List.takeWhile_append_of_pos hclear, List.dropWhile_append_of_pos hclear]
  simp only [List.takeWhile_cons, List.dropWhile_cons, bne_self_eq_false, Bool.false_eq_true,
    if_false, List.append_nil, List.tail_cons, List.append_assoc, hvalue places hplaces.2]
  rfl

end Numeral

/-- Glyphs are decoded to the characters that they stand for. -/
theorem Glyphs.decode {quote : Char} {text value : List Char} (h : Glyphs quote text value) :
    Escape.decode text = some value := by
  induction h with
  | nil => rfl
  | @cons first rest c text hfirst _ ih =>
    cases hfirst with
    | plain _ hescape _ =>
      rw [List.singleton_append, Escape.decode.eq_def]
      simp [hescape, ih]
    | escape hmeaning => simp [Escape.decode, hmeaning, ih]

/-- What stands between the quotes is decoded. -/
theorem quoted_content {quote : Char} {text : List Char} :
    (if (quote :: text ++ [quote]).length < 2 then none
      else Escape.decode ((quote :: text ++ [quote]).drop 1).dropLast) = Escape.decode text := by
  rw [if_neg (by simp)]
  simp

/-- A text that is spelled like a literal is read as its value. -/
theorem Literal.Spelled.ofToken? {token : Token} {value : Literal}
    (h : Spelled token.kind token.text.toList value) : Literal.ofToken? token = some value := by
  unfold Literal.ofToken?
  generalize token.kind = kind at h
  generalize token.text.toList = text at h
  cases h with
  | integer hsign hdigits => simp only [Numeral.integer?_spelled hsign hdigits, Option.map_some]
  | decimal hsign hwhole hplaces =>
    simp only [Numeral.decimal?_spelled hsign hwhole hplaces, Option.map_some]
  | @character text c hglyph =>
    have hdecode := (Glyphs.cons hglyph .nil).decode
    rw [List.append_nil] at hdecode
    simp only [quoted_content, hdecode]
  | string hglyphs => simp only [quoted_content, hglyphs.decode, Option.map_some]

/-- A text has at most one value as a literal. -/
theorem Literal.Spelled.eq {token : Token} {first second : Literal}
    (hfirst : Spelled token.kind token.text.toList first)
    (hsecond : Spelled token.kind token.text.toList second) : first = second := by
  have h := hfirst.ofToken?
  rw [hsecond.ofToken?] at h
  cases h
  rfl

end ScriptLang
