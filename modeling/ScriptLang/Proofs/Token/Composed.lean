import Mathlib
import ScriptLang.Proofs.Token.Spaced

/-!
Texts with blanks between them. Where a scan has come to the end of a text, a blank that follows is
no part of the last word, so a text, a blank and another text have the tokens of both texts, those
of the second moved to their places, and the error of the second if it has one.
-/

set_option autoImplicit false
set_option relaxedAutoImplicit false

namespace ScriptLang

/-! ### Texts that begin elsewhere -/

/-- The token, `count` characters further on. -/
def Token.shift (count : Nat) (token : Token) : Token :=
  { token with offset := token.offset + count }

/-- The error, `count` characters further on. -/
def LexError.shift (count : Nat) : LexError → LexError
  | unexpectedCharacter character offset => unexpectedCharacter character (offset + count)
  | unterminatedString offset => unterminatedString (offset + count)
  | unterminatedCharacter offset => unterminatedCharacter (offset + count)
  | invalidEscape offset => invalidEscape (offset + count)
  | malformedNumber offset => malformedNumber (offset + count)

namespace Scan

section

variable (count offset : Nat) (text : List Char)

/-- The places of a number move with it, and so does its fault. -/
theorem places_shift (digits : List Char) : places (offset + count) digits text =
    (places offset digits text).mapError (LexError.shift count) := by
  unfold places
  split
  · split
    · rw [Except.mapError, LexError.shift]
      congr 2
      omega
    · rfl
  · rfl

/-- A number moves with its position. -/
theorem number_shift : number (offset + count) text =
    (number offset text).mapError (LexError.shift count) := by
  unfold number
  split
  · split
    · rw [← places_shift]
      congr 1
      omega
    · rfl
  · rfl

/-- The closing quote of a character moves with its position. -/
theorem closeCharacter_shift (content : List Char) :
    closeCharacter (offset + count) content text =
      (closeCharacter offset content text).mapError (LexError.shift count) := by
  unfold closeCharacter
  split <;> rfl

/-- A character literal moves with its position. -/
theorem character_shift : character (offset + count) text =
    (character offset text).mapError (LexError.shift count) := by
  have hnext : offset + count + 1 = offset + 1 + count := Nat.add_right_comm _ _ _
  unfold character
  rw [hnext]
  split
  · rfl
  split
  · split
    · rfl
    · split
      · exact closeCharacter_shift count offset _ _
      · rfl
  · split
    · rfl
    · exact closeCharacter_shift count offset _ _

theorem mapError_map {ε ε' α β : Type} (result : Except ε α) (change : α → β) (blame : ε → ε') :
    (result.map change).mapError blame = (result.mapError blame).map change := by
  cases result <;> rfl

/-- A string moves with its position, also the one at which an escape is wrong. -/
theorem stringTail_shift (start position : Nat) :
    stringTail (start + count) (position + count) text =
      (stringTail start position text).mapError (LexError.shift count) := by
  have hsum (step : Nat) : position + count + step = position + step + count :=
    Nat.add_right_comm _ _ _
  fun_induction stringTail start position text with
  | case1 => rfl
  | case2 =>
    rw [stringTail.eq_def]
    rfl
  | case3 => rfl
  | case4 position letter rest hmeaning hquote ih =>
    rw [stringTail.eq_def]
    simp only [if_neg hquote, if_true, hmeaning]
    rw [hsum, ih fun step ↦ Nat.add_right_comm _ _ _, mapError_map]
  | case5 position letter rest hmeaning hquote =>
    rw [stringTail.eq_def]
    simp only [if_neg hquote, if_true, hmeaning]
    rfl
  | case6 position head tail hquote hescape hbreak =>
    rw [stringTail.eq_def]
    simp only [if_neg hquote, if_neg hescape, if_pos hbreak]
    rfl
  | case7 position head tail hquote hescape hbreak ih =>
    rw [stringTail.eq_def]
    simp only [if_neg hquote, if_neg hescape, if_neg hbreak]
    rw [hsum, ih fun step ↦ Nat.add_right_comm _ _ _, mapError_map]

/-- An operator moves with its position. -/
theorem operator_shift (first : Char) : operator (offset + count) first text =
    (operator offset first text).mapError (LexError.shift count) := by
  unfold operator
  split
  · split <;> rfl
  · split <;> rfl

/-- The word that is read does not depend on where it stands. -/
theorem lexeme_shift (first : Char) : lexeme (offset + count) first text =
    (lexeme offset first text).mapError (LexError.shift count) := by
  unfold lexeme
  split
  · rfl
  split
  · exact number_shift count offset text
  split
  · exact character_shift count offset text
  split
  · rw [Nat.add_right_comm, stringTail_shift, mapError_map]
  · exact operator_shift count offset text first

end

/-- The tokens or the error of a text that begins `count` characters further on. -/
def shifted (count : Nat) (result : Except LexError (List Token)) : Except LexError (List Token) :=
  (result.map (·.map (Token.shift count))).mapError (LexError.shift count)

/-- A scan moves with its position: tokens and errors are those of the text at its beginning,
further on. -/
theorem tokensFrom_shift (count offset : Nat) (text : List Char) :
    tokensFrom (offset + count) text = shifted count (tokensFrom offset text) := by
  fun_induction tokensFrom offset text with
  | case1 => rw [tokensFrom]; rfl
  | case2 offset first text hblank ih =>
    rw [tokensFrom_of_blank hblank, Nat.add_right_comm, ih]
  | case3 offset first text hblank cause hword =>
    have hshift := lexeme_shift count offset text first
    rw [hword] at hshift
    rw [tokensFrom_of_error hblank hshift]
    rfl
  | case4 offset first text hblank word hword ih =>
    have hshift := lexeme_shift count offset text first
    rw [hword] at hshift
    have hsum : offset + count + 1 + word.tail.length =
      offset + 1 + word.tail.length + count := by omega
    rw [tokensFrom_of_lexeme hblank hshift, hsum, ih]
    cases tokensFrom (offset + 1 + word.tail.length) word.rest <;> rfl

/-! ### A blank behind a text -/

section

variable {offset : Nat} {first : Char} {text rest : List Char} {word : Lexeme}

/-- A blank does not change which characters at the beginning of a text satisfy a test that no
blank satisfies. -/
theorem Ends.takeWhile (h : Ends rest) {p : Char → Bool}
    (hp : ∀ c, isBlank c = true → p c = false) (text : List Char) :
    (text ++ rest).takeWhile p = text.takeWhile p ∧
      (text ++ rest).dropWhile p = text.dropWhile p ++ rest := by
  induction text with
  | nil =>
    obtain ⟨htake, hdrop⟩ := h.span (List.forall_mem_nil _) hp
    exact ⟨htake, hdrop⟩
  | cons head tail ih =>
    rw [List.cons_append, List.takeWhile_cons, List.dropWhile_cons, List.takeWhile_cons,
      List.dropWhile_cons]
    split
    · exact ⟨congrArg (head :: ·) ih.1, ih.2⟩
    · exact ⟨rfl, rfl⟩

/-- Behind a word that has ended, a digit begins the text only if it did so before. -/
theorem Ends.startsWithDigit_append (h : Ends rest) (text : List Char) :
    Scan.startsWithDigit (text ++ rest) = Scan.startsWithDigit text := by
  cases text with
  | nil => exact h.startsWithDigit
  | cons head tail => rfl

/-- What ends in a blank begins with no other character than before. -/
theorem Ends.append_ne (h : Ends rest) {c : Char} (hc : isBlank c = false)
    (htext : ∀ tail, text ≠ c :: tail) (tail : List Char) : text ++ rest ≠ c :: tail := by
  cases text with
  | nil => exact h.head_ne hc tail
  | cons head others =>
    intro heq
    obtain ⟨rfl, -⟩ := List.cons_eq_cons.mp heq
    exact htext others rfl

/-- The word, with more text behind it. -/
def Lexeme.before (rest : List Char) (word : Lexeme) : Lexeme :=
  { word with rest := word.rest ++ rest }

variable (h : Ends rest)
include h

/-- The places of a number are read alike in front of a blank. -/
theorem places_before {digits : List Char} (hword : places offset digits text = .ok word) :
    places offset digits (text ++ rest) = .ok (word.before rest) := by
  obtain ⟨htake, hdrop⟩ := h.takeWhile isDigit_of_isBlank text
  unfold places at hword ⊢
  rw [htake, hdrop]
  split at hword
  · rename_i after hafter
    rw [hafter, List.cons_append]
    simp only [h.startsWithDigit_append]
    split at hword
    · cases hword
    · rename_i hdigit
      cases hword
      rw [if_neg hdigit]
      rfl
  · rename_i hpoint
    cases hword
    split
    · rename_i after hafter
      exact (h.append_ne rfl hpoint after hafter).elim
    · rfl

/-- A number is read alike in front of a blank. -/
theorem number_before (hword : number offset text = .ok word) :
    number offset (text ++ rest) = .ok (word.before rest) := by
  obtain ⟨htake, hdrop⟩ := h.takeWhile isDigit_of_isBlank text
  unfold number at hword ⊢
  rw [htake, hdrop]
  split at hword
  · rename_i after hafter
    rw [hafter, List.cons_append]
    simp only [h.startsWithDigit_append]
    split at hword
    · rename_i hdigit
      rw [if_pos hdigit]
      exact places_before h hword
    · rename_i hdigit
      cases hword
      rw [if_neg hdigit]
      rfl
  · rename_i hpoint
    cases hword
    split
    · rename_i after hafter
      exact (h.append_ne rfl hpoint after hafter).elim
    · rfl

omit h in
/-- A closing quote is read alike in front of a blank. -/
theorem closeCharacter_before {content : List Char}
    (hword : closeCharacter offset content text = .ok word) :
    closeCharacter offset content (text ++ rest) = .ok (word.before rest) := by
  unfold closeCharacter at hword
  split at hword
  · cases hword
    rfl
  · cases hword

omit h in
/-- A character literal is read alike in front of a blank. -/
theorem character_before (hword : character offset text = .ok word) :
    character offset (text ++ rest) = .ok (word.before rest) := by
  unfold character at hword
  split at hword
  · cases hword
  rename_i head tail
  rw [List.cons_append, character.eq_def]
  dsimp only
  split at hword
  · rename_i hescape
    rw [if_pos hescape]
    split at hword
    · cases hword
    · rename_i letter after
      rw [List.cons_append]
      split at hword
      · rename_i hmeaning
        simp only [hmeaning, if_true]
        exact closeCharacter_before hword
      · cases hword
  · rename_i hescape
    rw [if_neg hescape]
    split at hword
    · cases hword
    · rename_i hplain
      rw [if_neg hplain]
      exact closeCharacter_before hword

omit h in
/-- A string is read alike in front of a blank, since its closing quote is in it. -/
theorem stringTail_before {start position : Nat} {taken after : List Char}
    (hsplit : stringTail start position text = .ok (taken, after)) :
    stringTail start position (text ++ rest) = .ok (taken, after ++ rest) := by
  fun_induction stringTail start position text generalizing taken after with
  | case1 => cases hsplit
  | case2 =>
    cases hsplit
    rw [List.cons_append, stringTail.eq_def]
    rfl
  | case3 => cases hsplit
  | case4 position letter later hmeaning hquote ih =>
    obtain ⟨⟨inner, last⟩, hinner, hpair⟩ := except_map_eq_ok.mp hsplit
    cases hpair
    rw [List.cons_append, List.cons_append, stringTail.eq_def]
    simp only [if_neg hquote, if_true, hmeaning]
    rw [ih hinner]
    rfl
  | case5 => cases hsplit
  | case6 => cases hsplit
  | case7 position head tail hquote hescape hbreak ih =>
    obtain ⟨⟨inner, last⟩, hinner, hpair⟩ := except_map_eq_ok.mp hsplit
    cases hpair
    rw [List.cons_append, stringTail.eq_def]
    simp only [if_neg hquote, if_neg hescape, if_neg hbreak]
    rw [ih hinner]
    rfl

/-- An operator is read alike in front of a blank, which is no `=`. -/
theorem operator_before (hword : operator offset first text = .ok word) :
    operator offset first (text ++ rest) = .ok (word.before rest) := by
  unfold operator at hword ⊢
  split at hword
  · rename_i hrelation
    rw [if_pos hrelation]
    split at hword
    · cases hword
      rfl
    · rename_i hequal
      cases hword
      split
      · rename_i after hafter
        exact (h.append_ne rfl hequal after hafter).elim
      · rfl
  · rename_i hrelation
    rw [if_neg hrelation]
    split at hword
    · rename_i hsingle
      cases hword
      rw [if_pos hsingle]
      rfl
    · cases hword

/-- A word that is read in a text is read there too if a blank follows the text. -/
theorem lexeme_before (hword : lexeme offset first text = .ok word) :
    lexeme offset first (text ++ rest) = .ok (word.before rest) := by
  unfold lexeme at hword ⊢
  rw [h.startsWithDigit_append]
  split at hword
  · rename_i hstart
    obtain ⟨htake, hdrop⟩ := h.takeWhile isIdentifierPart_of_isBlank text
    cases hword
    rw [if_pos hstart, htake, hdrop]
    rfl
  rename_i hstart
  rw [if_neg hstart]
  split at hword
  · rename_i hnumber
    rw [if_pos hnumber]
    exact number_before h hword
  rename_i hnumber
  rw [if_neg hnumber]
  split at hword
  · rename_i hquote
    rw [if_pos hquote]
    exact character_before hword
  rename_i hquote
  rw [if_neg hquote]
  split at hword
  · rename_i hstring
    obtain ⟨⟨taken, after⟩, hsplit, hpair⟩ := except_map_eq_ok.mp hword
    cases hpair
    rw [if_pos hstring, stringTail_before hsplit]
    rfl
  · rename_i hstring
    rw [if_neg hstring]
    exact operator_before h hword

/-- A text is scanned to its end before the scan goes on in what follows. -/
theorem tokensFrom_append {tokens : List Token} (htokens : tokensFrom offset text = .ok tokens) :
    tokensFrom offset (text ++ rest) =
      (tokensFrom (offset + text.length) rest).map (tokens ++ ·) := by
  fun_induction tokensFrom offset text generalizing tokens with
  | case1 =>
    cases htokens
    rw [List.nil_append, List.length_nil, Nat.add_zero]
    cases tokensFrom _ rest <;> rfl
  | case2 offset first text hblank ih =>
    rw [List.cons_append, tokensFrom_of_blank hblank, ih htokens, List.length_cons, Nat.add_assoc,
      Nat.add_comm 1]
  | case3 => cases htokens
  | case4 offset first text hblank word hword ih =>
    obtain ⟨later, hlater, rfl⟩ := except_map_eq_ok.mp htokens
    have hlong := lexeme_before h hword
    have hlength := congrArg List.length (lexeme_append hword)
    rw [List.length_append] at hlength
    have hstop : offset + 1 + word.tail.length + word.rest.length =
        offset + (first :: text).length := by
      rw [List.length_cons]
      omega
    rw [List.cons_append, tokensFrom_of_lexeme hblank hlong]
    change (tokensFrom (offset + 1 + word.tail.length) (word.rest ++ rest)).map _ = _
    rw [ih hlater, hstop]
    cases tokensFrom (offset + (first :: text).length) rest <;> rfl

end

/-- Blanks are skipped. -/
theorem tokensFrom_blanks {blanks : List Char} (hblanks : ∀ c ∈ blanks, isBlank c = true)
    (offset : Nat) (text : List Char) :
    tokensFrom offset (blanks ++ text) = tokensFrom (offset + blanks.length) text := by
  induction blanks generalizing offset with
  | nil => rfl
  | cons c blanks ih =>
    rw [List.forall_mem_cons] at hblanks
    rw [List.cons_append, tokensFrom_of_blank hblanks.1, ih hblanks.2, List.length_cons,
      Nat.add_assoc, Nat.add_comm 1]

end Scan

open Scan

/-! ### Texts and words with blanks between them -/

/-- One or more blanks. -/
def IsGap (text : String) : Prop := text ≠ "" ∧ ∀ c ∈ text.toList, isBlank c = true

instance (text : String) : Decidable (IsGap text) :=
  decidable_of_iff (text ≠ "" ∧ text.toList.all isBlank = true)
    (and_congr_right fun _ ↦ List.all_eq_true)

/-- A text behind another and a gap has its own tokens or its own error, further on by the length of
both. -/
theorem scan_append {before gap : String} {tokens : List Token} (hscan : scan before = .ok tokens)
    (hgap : IsGap gap) (after : String) : scan (before ++ gap ++ after) =
      (shifted (before.length + gap.length) (scan after)).map (tokens ++ ·) := by
  obtain ⟨hne, hblanks⟩ := hgap
  have hends : Ends (gap.toList ++ after.toList) := by
    cases hsplit : gap.toList with
    | nil => exact (hne (String.toList_eq_nil_iff.mp hsplit)).elim
    | cons head tail =>
      rintro c ⟨⟩
      exact hblanks head (hsplit ▸ List.mem_cons_self)
  unfold scan at hscan ⊢
  rw [String.toList_append, String.toList_append, List.append_assoc, tokensFrom_append hends hscan,
    tokensFrom_blanks hblanks, Nat.zero_add, String.length_toList, String.length_toList,
    ← tokensFrom_shift, Nat.zero_add]

/-- A well-formed word is scanned into one token. -/
theorem scan_word {kind : TokenKind} {text : String} (hword : Token.WellFormed ⟨kind, text, 0⟩) :
    scan text = .ok [⟨kind, text, 0⟩] := by
  obtain ⟨first, tail, hsplit, hblank, hread⟩ := hword.readsWhole
  change text.toList = first :: tail at hsplit
  have hlexeme := hread 0 [] .nil
  rw [List.append_nil] at hlexeme
  unfold scan
  rw [hsplit, tokensFrom_of_lexeme (Bool.eq_false_iff.mp hblank) hlexeme, tokensFrom, ← hsplit,
    String.ofList_toList]
  rfl

/-- Words one behind the other, each but the first with the text in front that parts it from the
word before. Where the tokens stand is left open. -/
def joined (first : Token) : List (String × Token) → String
  | [] => first.text
  | (gap, next) :: others => first.text ++ gap ++ joined next others

/-- The tokens of words that are joined, from the position of the first on. -/
def placed (offset : Nat) (first : Token) : List (String × Token) → List Token
  | [] => [{ first with offset }]
  | (gap, next) :: others =>
    { first with offset } :: placed (offset + first.text.length + gap.length) next others

/-- Words that are placed further on are placed alike. -/
theorem placed_shift (count offset : Nat) (first : Token) (others : List (String × Token)) :
    placed (offset + count) first others =
      (placed offset first others).map (Token.shift count) := by
  induction others generalizing offset first with
  | nil => rfl
  | cons entry others ih =>
    have hsum : offset + count + first.text.length + entry.1.length =
        offset + first.text.length + entry.1.length + count := by omega
    rw [placed, placed, hsum, ih]
    rfl

/-- Well-formed words with gaps between them are read as these words at their places. The induction
is on the words behind the first. -/
theorem scan_joined (first : Token) (others : List (String × Token)) (hfirst : first.WellFormed)
    (hothers : ∀ entry ∈ others, IsGap entry.1 ∧ entry.2.WellFormed) :
    scan (joined first others) = .ok (placed 0 first others) := by
  induction others generalizing first with
  | nil => exact scan_word hfirst
  | cons entry others ih =>
    obtain ⟨⟨hgap, hnext⟩, hothers⟩ := List.forall_mem_cons.mp hothers
    have hplaced := placed_shift (first.text.length + entry.1.length) 0 entry.2 others
    rw [Nat.zero_add] at hplaced
    rw [joined, scan_append (scan_word hfirst) hgap, ih entry.2 hnext hothers, placed,
      Nat.zero_add, hplaced]
    rfl

/-- Scanning composes over blanks. A text that is scanned, blanks and any other text have the
tokens of the first and those of the second, moved behind the blanks, or the error of the second,
moved in the same way. Every text that has the shape of a kind is one token of that kind, so words
with blanks between them are scanned into these words at their places. -/
theorem scan_composes :
    (∀ before gap after tokens, scan before = .ok tokens → IsGap gap →
      (∀ later, scan after = .ok later → scan (before ++ gap ++ after) =
        .ok (tokens ++ later.map (Token.shift (before.length + gap.length)))) ∧
      ∀ cause, scan after = .error cause → scan (before ++ gap ++ after) =
        .error (cause.shift (before.length + gap.length))) ∧
    (∀ kind text, Token.WellFormed ⟨kind, text, 0⟩ → scan text = .ok [⟨kind, text, 0⟩]) ∧
    ∀ first others, first.WellFormed →
      (∀ entry ∈ others, IsGap entry.1 ∧ entry.2.WellFormed) →
      scan (joined first others) = .ok (placed 0 first others) := by
  refine ⟨fun before gap after tokens hscan hgap ↦ ?_, fun _ _ ↦ scan_word, scan_joined⟩
  have happend := scan_append hscan hgap after
  refine ⟨fun later hlater ↦ ?_, fun cause hcause ↦ ?_⟩
  · rw [happend, hlater]
    rfl
  · rw [happend, hcause]
    rfl

/-- A sign at the end of the first text does not go on over the gap, and an error behind a gap is
where it is. -/
theorem scan_composes_signs :
    scan ("n -" ++ " \n" ++ "+1 =") = .ok [⟨.identifier, "n", 0⟩, ⟨.operator, "-", 2⟩,
      ⟨.integer, "+1", 5⟩, ⟨.operator, "=", 8⟩] ∧
    scan ("1." ++ "\t" ++ "5 #") = .error (.unexpectedCharacter '#' 5) ∧
    scan "<=" = .ok [⟨.operator, "<=", 0⟩] ∧
    scan "<=  = =" = .ok [⟨.operator, "<=", 0⟩, ⟨.operator, "=", 4⟩, ⟨.operator, "=", 6⟩] := by
  have hgap : IsGap " \n" := by decide
  have htab : IsGap "\t" := by decide
  have hless : Token.WellFormed ⟨.operator, "<=", 0⟩ := show "<=" ∈ operators by decide
  have hequal : Token.WellFormed ⟨.operator, "=", 0⟩ := show "=" ∈ operators by decide
  refine ⟨(scan_composes.1 "n -" " \n" "+1 =" _ (by cbv) hgap).1 _ (by cbv),
    (scan_composes.1 "1." "\t" "5 #" _ (by cbv) htab).2 (.unexpectedCharacter '#' 2) (by cbv),
    scan_composes.2.1 .operator "<=" hless, ?_⟩
  have hblank : IsGap " " := by decide
  refine scan_composes.2.2 ⟨.operator, "<=", 0⟩
    [("  ", ⟨.operator, "=", 0⟩), (" ", ⟨.operator, "=", 0⟩)] hless ?_
  exact List.forall_mem_cons.mpr ⟨⟨by decide, hequal⟩,
    List.forall_mem_singleton.mpr ⟨hblank, hequal⟩⟩

end ScriptLang
