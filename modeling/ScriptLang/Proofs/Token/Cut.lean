import Mathlib
import ScriptLang.Proofs.Token.Spaced

/-!
How scanning cuts a text. Tokens stand one behind the other, the characters of a token are the
ones at its place, and all that stands between tokens is blank, so that nothing of the text is
lost. A token ends where no longer word begins at its place.
-/

set_option autoImplicit false
set_option relaxedAutoImplicit false

namespace ScriptLang

namespace Scan

/-- No number goes on in the text: neither a digit follows nor a point in front of a digit. -/
def EndsNumber (rest : List Char) : Prop :=
  startsWithDigit rest = false ∧ ∀ after, rest = '.' :: after → startsWithDigit after = false

/-- What follows a word cannot be a part of it. A closing quote ends a literal in front of every
text. -/
def Stops (kind : TokenKind) (text : String) (rest : List Char) : Prop :=
  match kind with
  | .identifier => ∀ c ∈ rest.head?, isIdentifierPart c = false
  | .integer | .decimal => EndsNumber rest
  | .operator => (text ∈ ["<", ">", "!", "="] → rest.head? ≠ some '=') ∧
      (text ∈ ["+", "-"] → startsWithDigit rest = false)
  | .character | .string => True

section

variable {offset : Nat} {first : Char} {text : List Char} {word : Lexeme}

/-- What is left behind characters that pass a test begins with one that fails it. -/
theorem head?_dropWhile (p : Char → Bool) : ∀ c ∈ (text.dropWhile p).head?, p c = false := by
  intro c hc
  have hhead := List.head?_dropWhile_not p text
  rw [Option.mem_def.mp hc] at hhead
  simpa using hhead

theorem startsWithDigit_dropWhile : startsWithDigit (text.dropWhile Char.isDigit) = false :=
  (Option.any_eq_false _ _).mpr (head?_dropWhile Char.isDigit)

/-- The places of a number end where no number goes on. -/
theorem places_ends {digits : List Char} (hword : places offset digits text = .ok word) :
    EndsNumber word.rest := by
  unfold places at hword
  split at hword
  · split at hword
    · cases hword
    · rename_i hdigit
      cases hword
      exact ⟨rfl, fun after heq ↦ by cases heq; exact Bool.eq_false_iff.mpr hdigit⟩
  · rename_i hpoint
    cases hword
    exact ⟨startsWithDigit_dropWhile, fun after heq ↦ (hpoint after heq).elim⟩

/-- A number ends where no number goes on. -/
theorem number_ends (hword : number offset text = .ok word) : EndsNumber word.rest := by
  unfold number at hword
  split at hword
  · split at hword
    · exact places_ends hword
    · rename_i hdigit
      cases hword
      exact ⟨rfl, fun after heq ↦ by cases heq; exact Bool.eq_false_iff.mpr hdigit⟩
  · rename_i hpoint
    cases hword
    exact ⟨startsWithDigit_dropWhile, fun after heq ↦ (hpoint after heq).elim⟩

/-- An operator ends where no longer one begins, and no number either if it is a sign. -/
theorem operator_stops (hdigit : isSign first = true → startsWithDigit text = false)
    (hword : operator offset first text = .ok word) :
    Stops .operator (String.ofList (first :: word.tail)) word.rest := by
  unfold operator at hword
  split at hword
  · split at hword
    · cases hword
      constructor <;> intro hmem <;> simp [← String.toList_inj] at hmem
    · rename_i hrelation hequal
      cases hword
      refine ⟨fun _ hhead ↦ ?_, fun hmem ↦ hdigit ?_⟩
      · obtain ⟨after, rfl⟩ := List.head?_eq_some_iff.mp hhead
        exact hequal after rfl
      · simpa [← String.toList_inj, isSign] using hmem
  · rename_i hrelation
    split at hword
    · cases hword
      refine ⟨fun hmem ↦ (hrelation ?_).elim, fun hmem ↦ hdigit ?_⟩
      · simpa [← String.toList_inj, isRelationOperator] using hmem
      · simpa [← String.toList_inj, isSign] using hmem
    · cases hword

/-- A word is not cut off in front of its end. -/
theorem lexeme_stops (hword : lexeme offset first text = .ok word) :
    Stops word.kind (String.ofList (first :: word.tail)) word.rest := by
  unfold lexeme at hword
  split at hword
  · cases hword
    exact head?_dropWhile isIdentifierPart
  split at hword
  · rename_i hnumber
    have hends := number_ends hword
    obtain ⟨hkind | hkind, -⟩ := number_spelled hnumber hword <;> rw [hkind] <;> exact hends
  rename_i hnumber
  split at hword
  · rename_i hquote
    subst hquote
    rw [(character_spelled hword).1]
    trivial
  split at hword
  · obtain ⟨⟨taken, rest⟩, -, hpair⟩ := except_map_eq_ok.mp hword
    cases hpair
    trivial
  · rw [(operator_mem hword).1]
    refine operator_stops (fun hsign ↦ ?_) hword
    rw [Bool.or_eq_true, not_or, hsign, Bool.true_and] at hnumber
    exact Bool.eq_false_iff.mpr hnumber.2

/-! ### The longest word -/

/-- Characters that pass a test are among the first that do. -/
theorem prefix_takeWhile {p : Char → Bool} (htext : ∀ c ∈ text, p c = true) (after : List Char) :
    text <+: (text ++ after).takeWhile p := by
  rw [List.takeWhile_append_of_pos htext]
  exact List.prefix_append _ _

/-- Digits that follow the first character of a number belong to it. -/
theorem number_prefix {tail after : List Char} (htail : ∀ c ∈ tail, c.isDigit = true)
    (hword : number offset (tail ++ after) = .ok word) : tail <+: word.tail := by
  have htake := prefix_takeWhile htail after
  unfold number at hword
  split at hword
  · split at hword
    · rename_i hdigit
      obtain ⟨-, places, -, hsplit⟩ := places_tail hdigit hword
      rw [hsplit]
      exact htake.trans (List.prefix_append _ _)
    · cases hword
      exact htake
  · cases hword
    exact htake

/-- Digits behind a point belong to the places of the number. -/
theorem places_prefix {whole tail after : List Char} (htail : ∀ c ∈ tail, c.isDigit = true)
    (hword : places offset whole (tail ++ after) = .ok word) :
    whole ++ '.' :: tail <+: word.tail := by
  have hplaces : whole ++ '.' :: tail <+:
      whole ++ '.' :: (tail ++ after).takeWhile Char.isDigit :=
    (List.prefix_append_right_inj whole).mpr
      (List.cons_prefix_cons.mpr ⟨rfl, prefix_takeWhile htail after⟩)
  unfold places at hword
  split at hword
  · split at hword <;> cases hword
    exact hplaces
  · cases hword
    exact hplaces

end

/-- What is read in front of `text` and more is no shorter than `text`. -/
def ReadsAtLeast (text : List Char) : Prop :=
  ∃ first tail, text = first :: tail ∧
    ∀ offset after word, lexeme offset first (tail ++ after) = .ok word → tail <+: word.tail

/-- Where the text of a literal stands, no shorter word is read. -/
theorem readsAtLeast_spelled {kind : TokenKind} {text : List Char} {value : Literal}
    (h : Literal.Spelled kind text value) : ReadsAtLeast text := by
  cases h with
  | integer hsign hdigits =>
    obtain ⟨first, tail, hsplit, -, htail, hlexeme⟩ := lexeme_number hsign hdigits
    refine ⟨first, tail, hsplit, fun offset after word hword ↦ ?_⟩
    rw [hlexeme] at hword
    exact number_prefix htail hword
  | @decimal sign whole places factor hsign hwhole hplaces =>
    obtain ⟨first, tail, hsplit, -, htail, hlexeme⟩ := lexeme_number hsign hwhole
    refine ⟨first, tail ++ '.' :: places, by rw [hsplit, List.cons_append],
      fun offset after word hword ↦ ?_⟩
    rw [List.append_assoc, List.cons_append, hlexeme,
      number_point htail (startsWithDigit_append hplaces after)] at hword
    exact places_prefix hplaces.2 hword
  | @character text c hglyph =>
    refine ⟨'\'', text ++ ['\''], rfl, fun offset after word hword ↦ ?_⟩
    rw [lexeme_character hglyph] at hword
    cases hword
    exact List.prefix_rfl
  | @string text value hglyphs =>
    refine ⟨'"', text ++ ['"'], rfl, fun offset after word hword ↦ ?_⟩
    rw [lexeme_string hglyphs] at hword
    cases hword
    exact List.prefix_rfl

/-- Where an operator stands, no shorter word is read. -/
theorem readsAtLeast_operator {text : String} (h : text ∈ operators) :
    ReadsAtLeast text.toList := by
  obtain ⟨c, hsplit, -⟩ | ⟨c, hsplit, hrelation⟩ := operator_cases h
  · exact ⟨c, [], hsplit, fun _ _ _ _ ↦ List.nil_prefix⟩
  · refine ⟨c, ['='], hsplit, fun offset after word hword ↦ ?_⟩
    rw [List.singleton_append, lexeme_relation hrelation] at hword
    cases hword
    exact List.prefix_rfl

end Scan

open Scan

/-- Where a word stands, no shorter one is read. -/
theorem IsWord.readsAtLeast {text : String} (h : IsWord text) : ReadsAtLeast text.toList := by
  obtain ⟨kind, hwell⟩ := h
  cases kind with
  | identifier =>
    obtain ⟨first, tail, htext, hfirst, htail⟩ := hwell
    change text = _ at htext
    rw [htext, String.toList_ofList]
    refine ⟨first, tail, rfl, fun offset after word hword ↦ ?_⟩
    rw [lexeme, if_pos hfirst] at hword
    cases hword
    exact prefix_takeWhile htail after
  | operator => exact readsAtLeast_operator hwell
  | integer | decimal | character | string =>
    obtain ⟨value, hvalue⟩ := hwell
    exact readsAtLeast_spelled hvalue

/-- A token has a text. -/
theorem Token.WellFormed.text_ne_nil {token : Token} (h : token.WellFormed) :
    token.text.toList ≠ [] := by
  obtain ⟨first, tail, hsplit, -⟩ := h.readsWhole
  rw [hsplit]
  exact List.cons_ne_nil _ _

/-- A token stops behind its first character at the earliest. -/
theorem Token.WellFormed.offset_lt_stop {token : Token} (h : token.WellFormed) :
    token.offset < token.stop := by
  have hlength := List.length_pos_iff.mpr h.text_ne_nil
  rw [String.length_toList] at hlength
  exact Nat.lt_add_of_pos_right hlength

/-- The token stands in front of `rest`: its text has the shape of its kind, and the text before
and in `rest` begins with no longer word. -/
structure Token.CutBefore (token : Token) (rest : List Char) : Prop where
  wellFormed : token.WellFormed
  stops : Stops token.kind token.text rest
  longest : ∀ word, IsWord word → word.toList <+: token.text.toList ++ rest →
    word.length ≤ token.text.length

namespace Scan

/-- A lexeme is well-formed, ends where it must, and no longer word begins where it does. -/
theorem lexeme_cut {offset : Nat} {first : Char} {text : List Char} {word : Lexeme}
    (hword : lexeme offset first text = .ok word) :
    Token.CutBefore ⟨word.kind, String.ofList (first :: word.tail), offset⟩ word.rest where
  wellFormed := lexeme_wellFormed hword offset
  stops := lexeme_stops hword
  longest other hother hprefix := by
    obtain ⟨head, tail, hsplit, hread⟩ := hother.readsAtLeast
    change other.toList <+: (String.ofList (first :: word.tail)).toList ++ word.rest at hprefix
    rw [String.toList_ofList, List.cons_append, lexeme_append hword, hsplit] at hprefix
    obtain ⟨rfl, after, rfl⟩ := List.cons_prefix_cons.mp hprefix
    rw [← String.length_toList, ← String.length_toList, hsplit, String.toList_ofList]
    exact Nat.succ_le_succ (hread offset after word hword).length_le

/-- The tokens cut the text that begins at `offset`: blanks are skipped, words are tokens. -/
inductive Cut : Nat → List Char → List Token → Prop
  | nil {offset : Nat} : Cut offset [] []
  | blank {offset : Nat} {c : Char} {text : List Char} {tokens : List Token}
    (hblank : isBlank c = true) (hrest : Cut (offset + 1) text tokens) :
    Cut offset (c :: text) tokens
  | word {token : Token} {rest : List Char} {tokens : List Token} (hcut : token.CutBefore rest)
    (hrest : Cut token.stop rest tokens) :
    Cut token.offset (token.text.toList ++ rest) (token :: tokens)

/-- A scan that ends well cuts the text. The induction follows the scan. -/
theorem tokensFrom_cut {offset : Nat} {text : List Char} {tokens : List Token}
    (htokens : tokensFrom offset text = .ok tokens) : Cut offset text tokens := by
  fun_induction tokensFrom offset text generalizing tokens with
  | case1 =>
    cases htokens
    exact .nil
  | case2 offset first text hblank ih => exact .blank hblank (ih htokens)
  | case3 => cases htokens
  | case4 offset first text _ word hword ih =>
    obtain ⟨later, hlater, rfl⟩ := except_map_eq_ok.mp htokens
    have hcut := lexeme_cut hword
    have hstop : Token.stop ⟨word.kind, String.ofList (first :: word.tail), offset⟩ =
        offset + 1 + word.tail.length := by
      rw [Token.stop, String.length_ofList, List.length_cons, Nat.add_right_comm, Nat.add_assoc]
    have hrest := Cut.word hcut (hstop ▸ ih hlater)
    rw [String.toList_ofList, List.cons_append, lexeme_append hword] at hrest
    exact hrest

namespace Cut

variable {offset : Nat} {text : List Char} {tokens : List Token}

/-- A token of a text splits it at its place. -/
theorem exists_split (h : Cut offset text tokens) : ∀ token ∈ tokens, ∃ before rest,
    text = before ++ (token.text.toList ++ rest) ∧ token.offset = offset + before.length ∧
      token.CutBefore rest := by
  induction h with
  | nil => exact fun token htoken ↦ (List.not_mem_nil htoken).elim
  | blank _ _ ih =>
    intro token htoken
    obtain ⟨before, rest, rfl, hoffset, hcut⟩ := ih token htoken
    refine ⟨_ :: before, rest, rfl, ?_, hcut⟩
    rw [hoffset, List.length_cons, Nat.add_right_comm, Nat.add_assoc]
  | @word first rest tokens hcut _ ih =>
    refine List.forall_mem_cons.mpr ⟨⟨[], rest, rfl, rfl, hcut⟩, fun token htoken ↦ ?_⟩
    obtain ⟨before, rest, rfl, hoffset, hcut⟩ := ih token htoken
    refine ⟨first.text.toList ++ before, rest, (List.append_assoc _ _ _).symm, ?_, hcut⟩
    rw [hoffset, List.length_append, String.length_toList, Token.stop, Nat.add_assoc]

/-- A token stops before the next begins. -/
theorem pairwise (h : Cut offset text tokens) :
    tokens.Pairwise fun first second ↦ first.stop ≤ second.offset := by
  induction h with
  | nil => exact .nil
  | blank _ _ ih => exact ih
  | word _ hrest ih =>
    refine List.pairwise_cons.mpr ⟨fun token htoken ↦ ?_, ih⟩
    obtain ⟨before, rest, -, hoffset, -⟩ := hrest.exists_split token htoken
    rw [hoffset]
    exact Nat.le_add_right _ _

/-- Tokens follow each other, so each has a place of its own. -/
theorem pairwise_offset (h : Cut offset text tokens) : tokens.Pairwise fun first second ↦
    first.offset < second.offset ∧ first.stop ≤ second.offset := by
  refine h.pairwise.imp_of_mem fun hfirst _ hstop ↦ ⟨?_, hstop⟩
  obtain ⟨_, _, -, -, hcut⟩ := h.exists_split _ hfirst
  exact hcut.wellFormed.offset_lt_stop.trans_le hstop

/-- A token is told by its position. -/
theorem eq_of_offset_eq (h : Cut offset text tokens) {first second : Token}
    (hfirst : first ∈ tokens) (hsecond : second ∈ tokens) (heq : first.offset = second.offset) :
    first = second := by
  have hnodup : (tokens.map Token.offset).Nodup :=
    List.pairwise_map.mpr (h.pairwise_offset.imp fun hlt ↦ Nat.ne_of_lt hlt.1)
  exact List.inj_on_of_nodup_map hnodup hfirst hsecond heq

/-- A character in none of the tokens is blank. -/
theorem isBlank_of_outside (h : Cut offset text tokens) : ∀ i c, text[i]? = some c →
    (∀ token ∈ tokens, offset + i < token.offset ∨ token.stop ≤ offset + i) →
      isBlank c = true := by
  induction h with
  | nil => exact fun i c hc ↦ nomatch hc
  | blank hblank _ ih =>
    intro i c hc houtside
    cases i with
    | zero =>
      cases hc
      exact hblank
    | succ i =>
      refine ih i c hc fun token htoken ↦ ?_
      rw [Nat.add_assoc, Nat.add_comm 1]
      exact houtside token htoken
  | @word first rest tokens hcut _ ih =>
    intro i c hc houtside
    rw [List.forall_mem_cons, Token.stop] at houtside
    obtain ⟨hfirst, hothers⟩ := houtside
    have hi : first.text.toList.length ≤ i := by
      rw [String.length_toList]
      omega
    obtain ⟨j, rfl⟩ := Nat.exists_eq_add_of_le hi
    rw [List.getElem?_append_right hi, Nat.add_sub_cancel_left] at hc
    refine ih j c hc fun token htoken ↦ ?_
    rw [Token.stop, Nat.add_assoc, ← String.length_toList]
    exact hothers token htoken

/-- The tokens with the gaps in front of them, and what follows the last one, are the text. -/
theorem exists_gaps (h : Cut offset text tokens) :
    ∃ (pieces : List (List Char × Token)) (last : List Char), pieces.map Prod.snd = tokens ∧
      (∀ gap ∈ last :: pieces.map Prod.fst, gap.all isBlank = true) ∧
      text = (pieces.flatMap fun piece ↦ piece.1 ++ piece.2.text.toList) ++ last := by
  induction h with
  | nil => exact ⟨[], [], rfl, by simp, rfl⟩
  | @blank offset c text tokens hblank _ ih =>
    obtain ⟨pieces, last, rfl, hgaps, rfl⟩ := ih
    cases pieces with
    | nil => exact ⟨[], c :: last, rfl, by simpa [hblank] using hgaps, rfl⟩
    | cons piece pieces =>
      refine ⟨(c :: piece.1, piece.2) :: pieces, last, rfl, ?_, by simp⟩
      simpa [hblank] using hgaps
  | @word token rest tokens _ _ ih =>
    obtain ⟨pieces, last, rfl, hgaps, rfl⟩ := ih
    exact ⟨([], token) :: pieces, last, rfl, by simpa using hgaps, by simp⟩

end Cut

/-- How the tokens of a text lie in it. Places count characters. -/
structure Tiles (text : List Char) (tokens : List Token) : Prop where
  ordered : tokens.Pairwise fun first second ↦
    first.offset < second.offset ∧ first.stop ≤ second.offset
  within : ∀ token ∈ tokens, token.offset < token.stop ∧ token.stop ≤ text.length
  slice : ∀ token ∈ tokens,
    (text.drop token.offset).take (token.stop - token.offset) = token.text.toList
  gap : ∀ i c, text[i]? = some c → (∀ token ∈ tokens, i < token.offset ∨ token.stop ≤ i) →
    c ∈ [' ', '\x08', '\n', '\r', '\t']
  cut : ∀ token ∈ tokens, token.CutBefore (text.drop token.stop)
  rebuilt : ∃ (pieces : List (List Char × Token)) (last : List Char),
    pieces.map Prod.snd = tokens ∧
      (∀ gap ∈ last :: pieces.map Prod.fst, gap.all isBlank = true) ∧
      text = (pieces.flatMap fun piece ↦ piece.1 ++ piece.2.text.toList) ++ last

/-- A token stands in the text where it says, and stops within the text. -/
theorem Cut.drop_eq {text : List Char} {tokens : List Token} (h : Cut 0 text tokens)
    {token : Token} (htoken : token ∈ tokens) :
    text.drop token.offset = token.text.toList ++ text.drop token.stop ∧
      token.stop ≤ text.length ∧ token.CutBefore (text.drop token.stop) := by
  obtain ⟨before, rest, rfl, hoffset, hcut⟩ := h.exists_split token htoken
  rw [Nat.zero_add] at hoffset
  have hstop : token.stop = (before ++ token.text.toList).length := by
    rw [Token.stop, hoffset, List.length_append, String.length_toList]
  have hdrop : (before ++ (token.text.toList ++ rest)).drop token.stop = rest := by
    rw [← List.append_assoc, hstop, List.drop_left]
  rw [hdrop, hoffset, List.drop_left, hstop, ← List.append_assoc]
  exact ⟨rfl, (List.prefix_append _ _).length_le, hcut⟩

/-- Tokens that cut a text lie in it one behind the other, with blanks between them. -/
theorem Cut.tiles {text : List Char} {tokens : List Token} (h : Cut 0 text tokens) :
    Tiles text tokens where
  ordered := h.pairwise_offset
  within token htoken := by
    obtain ⟨-, hlength, hcut⟩ := h.drop_eq htoken
    exact ⟨hcut.wellFormed.offset_lt_stop, hlength⟩
  slice token htoken := by
    rw [(h.drop_eq htoken).1, Token.stop, Nat.add_sub_cancel_left, ← String.length_toList,
      List.take_left]
  gap i c hc houtside := by
    have hblank := h.isBlank_of_outside i c hc fun token htoken ↦ by
      rw [Nat.zero_add]
      exact houtside token htoken
    simpa using isBlank_cases hblank
  cut token htoken := (h.drop_eq htoken).2.2
  rebuilt := h.exists_gaps

end Scan

/-- Scanning loses nothing of a text and takes the longest word at each place. -/
theorem scan_tiles {text : String} {tokens : List Token} (hscan : scan text = .ok tokens) :
    Tiles text.toList tokens :=
  (tokensFrom_cut hscan).tiles

/-- Words, a sign, a decimal with a point behind it, a relation and an escape. -/
theorem scan_tiles_declaration : ∃ tokens, scan "LET n = -2.5.x <= '\\n'" = .ok tokens ∧
    tokens.map Token.text = ["LET", "n", "=", "-2.5", ".", "x", "<=", "'\\n'"] ∧
    Tiles "LET n = -2.5.x <= '\\n'".toList tokens := by
  have hscan : scan "LET n = -2.5.x <= '\\n'" = .ok [⟨.identifier, "LET", 0⟩,
      ⟨.identifier, "n", 4⟩, ⟨.operator, "=", 6⟩, ⟨.decimal, "-2.5", 8⟩, ⟨.operator, ".", 12⟩,
      ⟨.identifier, "x", 13⟩, ⟨.operator, "<=", 15⟩, ⟨.character, "'\\n'", 18⟩] := by cbv
  exact ⟨_, hscan, rfl, scan_tiles hscan⟩

end ScriptLang
