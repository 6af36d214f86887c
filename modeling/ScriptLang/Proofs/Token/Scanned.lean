import Mathlib.Data.List.TakeWhile
import ScriptLang.Proofs.Token.Shape

/-!
Scanning produces well-formed tokens only. Each kind of word is cut off where its shape is complete.
-/

set_option autoImplicit false
set_option relaxedAutoImplicit false

namespace ScriptLang

namespace Scan

variable {offset : Nat} {first : Char} {text : List Char} {word : Lexeme}

/-- The digits that a text begins with are one or more. -/
theorem isDigits_takeWhile (h : startsWithDigit text = true) :
    IsDigits (text.takeWhile Char.isDigit) := by
  refine ⟨?_, fun c hc ↦ List.mem_takeWhile_imp hc⟩
  cases text with
  | nil => cases h
  | cons head tail =>
    have hhead : head.isDigit = true := h
    rw [List.takeWhile_cons, if_pos hhead]
    exact List.cons_ne_nil _ _

/-- A number begins with digits, which may have a sign in front. -/
theorem number_digits (hnumber : (first.isDigit || (isSign first && startsWithDigit text)) = true) :
    ∃ sign digits factor, IsSign sign factor ∧ IsDigits digits ∧
      first :: text.takeWhile Char.isDigit = sign ++ digits := by
  by_cases hdigit : first.isDigit = true
  · refine ⟨[], first :: text.takeWhile Char.isDigit, 1, .none, ⟨List.cons_ne_nil _ _, ?_⟩, rfl⟩
    exact List.forall_mem_cons.mpr ⟨hdigit, fun c hc ↦ List.mem_takeWhile_imp hc⟩
  · rw [Bool.eq_false_iff.mpr hdigit, Bool.false_or, Bool.and_eq_true_iff] at hnumber
    obtain ⟨hsign, hdigits⟩ := hnumber
    have hsign : first = '+' ∨ first = '-' := by simpa [isSign] using hsign
    obtain rfl | rfl := hsign
    · exact ⟨['+'], _, 1, .plus, isDigits_takeWhile hdigits, rfl⟩
    · exact ⟨['-'], _, -1, .minus, isDigits_takeWhile hdigits, rfl⟩

/-- The places of a number are digits behind its point. -/
theorem places_tail {digits : List Char} (hdigit : startsWithDigit text = true)
    (hword : places offset digits text = .ok word) : word.kind = .decimal ∧
      ∃ places, IsDigits places ∧ word.tail = digits ++ '.' :: places := by
  have hplaces := isDigits_takeWhile hdigit
  unfold places at hword
  split at hword
  · split at hword <;> cases hword
    exact ⟨rfl, _, hplaces, rfl⟩
  · cases hword
    exact ⟨rfl, _, hplaces, rfl⟩

/-- A number has the spelling of an integer or of a decimal. -/
theorem number_spelled
    (hnumber : (first.isDigit || (isSign first && startsWithDigit text)) = true)
    (hword : number offset text = .ok word) :
    (word.kind = .integer ∨ word.kind = .decimal) ∧
      ∃ value, Literal.Spelled word.kind (first :: word.tail) value := by
  obtain ⟨sign, digits, factor, hsign, hdigits, hsplit⟩ := number_digits hnumber
  have hinteger : Literal.Spelled .integer (first :: text.takeWhile Char.isDigit)
      (.integer (factor * Nat.ofDigitChars 10 digits 0)) := hsplit ▸ .integer hsign hdigits
  unfold number at hword
  split at hword
  · split at hword
    · rename_i hdigit
      obtain ⟨hkind, places, hplaces, htail⟩ := places_tail hdigit hword
      refine ⟨.inr hkind, ?_⟩
      rw [hkind, htail, ← List.cons_append, hsplit]
      exact ⟨_, .decimal hsign hdigits hplaces⟩
    · cases hword
      exact ⟨.inl rfl, _, hinteger⟩
  · cases hword
    exact ⟨.inl rfl, _, hinteger⟩

/-- A glyph between quotes is a character literal. -/
theorem closeCharacter_spelled {content : List Char} {c : Char} (hglyph : Glyph '\'' content c)
    (hword : closeCharacter offset content text = .ok word) :
    word.kind = .character ∧ ∃ value, Literal.Spelled .character ('\'' :: word.tail) value := by
  unfold closeCharacter at hword
  split at hword
  · cases hword
    exact ⟨rfl, _, .character hglyph⟩
  · cases hword

/-- A character literal that is read has a spelling. -/
theorem character_spelled (hword : character offset text = .ok word) :
    word.kind = .character ∧ ∃ value, Literal.Spelled .character ('\'' :: word.tail) value := by
  unfold character at hword
  split at hword
  · cases hword
  · split at hword
    · rename_i head tail hescape
      subst hescape
      split at hword
      · cases hword
      · split at hword
        · rename_i letter rest hmeaning
          obtain ⟨c, hc⟩ := Option.isSome_iff_exists.mp hmeaning
          exact closeCharacter_spelled (.escape hc) hword
        · cases hword
    · rename_i head tail hescape
      split at hword
      · cases hword
      · rename_i hplain
        rw [Bool.or_eq_true, not_or, decide_eq_true_eq] at hplain
        exact closeCharacter_spelled
          (.plain hplain.1 hescape (Bool.eq_false_iff.mpr hplain.2)) hword

theorem except_map_eq_ok {ε α β : Type} {change : α → β} {first : Except ε α} {result : β} :
    first.map change = .ok result ↔ ∃ value, first = .ok value ∧ change value = result := by
  cases first <;> simp [Except.map]

/-- A string that is read has a spelling between its quotes. -/
theorem stringTail_glyphs {start position : Nat} {taken rest : List Char}
    (hsplit : stringTail start position text = .ok (taken, rest)) :
    ∃ content value, taken = content ++ ['"'] ∧ Glyphs '"' content value := by
  fun_induction stringTail start position text generalizing taken rest with
  | case1 => cases hsplit
  | case2 =>
    cases hsplit
    exact ⟨[], [], rfl, .nil⟩
  | case3 => cases hsplit
  | case4 position letter after hmeaning _ ih =>
    obtain ⟨⟨later, last⟩, hlater, hpair⟩ := except_map_eq_ok.mp hsplit
    cases hpair
    obtain ⟨content, value, rfl, hglyphs⟩ := ih hlater
    obtain ⟨c, hc⟩ := Option.isSome_iff_exists.mp hmeaning
    exact ⟨_, _, rfl, .cons (.escape hc) hglyphs⟩
  | case5 => cases hsplit
  | case6 => cases hsplit
  | case7 position head tail hquote hescape hbreak ih =>
    obtain ⟨⟨later, last⟩, hlater, hpair⟩ := except_map_eq_ok.mp hsplit
    cases hpair
    obtain ⟨content, value, rfl, hglyphs⟩ := ih hlater
    exact ⟨_, _, rfl, .cons (.plain hquote hescape (Bool.eq_false_iff.mpr hbreak)) hglyphs⟩

/-- An operator that is read is one of the operators. -/
theorem operator_mem (hword : operator offset first text = .ok word) :
    word.kind = .operator ∧ String.ofList (first :: word.tail) ∈ operators := by
  unfold operator at hword
  split at hword
  · rename_i hrelation
    have hmem : (['<', '>', '!', '='].all fun c ↦ decide (String.ofList [c, '='] ∈ operators ∧
        String.ofList [c] ∈ operators)) = true := by decide
    obtain ⟨hpair, hsingle⟩ :=
      of_decide_eq_true (List.all_eq_true.mp hmem first (List.contains_iff_mem.mp hrelation))
    split at hword <;> cases hword
    · exact ⟨rfl, hpair⟩
    · exact ⟨rfl, hsingle⟩
  · split at hword
    · rename_i hsingle
      cases hword
      have hmem : (['(', ')', ',', '.', ':', ';', '+', '-', '*', '/'].all fun c ↦
          decide (String.ofList [c] ∈ operators)) = true := by decide
      exact ⟨rfl, of_decide_eq_true
        (List.all_eq_true.mp hmem first (List.contains_iff_mem.mp hsingle))⟩
    · cases hword

/-- Every lexeme that is read is well-formed as a token. -/
theorem lexeme_wellFormed (hword : lexeme offset first text = .ok word) (position : Nat) :
    Token.WellFormed ⟨word.kind, String.ofList (first :: word.tail), position⟩ := by
  have hspelled {value : Literal} {kind : TokenKind} (hkind : word.kind = kind)
      (hvalue : Literal.Spelled kind (first :: word.tail) value) :
      ∃ value, Literal.Spelled kind (String.ofList (first :: word.tail)).toList value :=
    ⟨value, by rw [String.toList_ofList]; exact hvalue⟩
  unfold lexeme at hword
  split at hword
  · rename_i hstart
    cases hword
    exact ⟨first, _, rfl, hstart, fun c hc ↦ List.mem_takeWhile_imp hc⟩
  split at hword
  · rename_i hnumber
    obtain ⟨hkind, value, hvalue⟩ := number_spelled hnumber hword
    unfold Token.WellFormed
    obtain hkind | hkind := hkind <;> rw [hkind] at hvalue <;> simp only [hkind]
    · exact hspelled hkind hvalue
    · exact hspelled hkind hvalue
  split at hword
  · rename_i hquote
    subst hquote
    obtain ⟨hkind, value, hvalue⟩ := character_spelled hword
    unfold Token.WellFormed
    simp only [hkind]
    exact hspelled hkind hvalue
  split at hword
  · rename_i hquote
    subst hquote
    obtain ⟨⟨taken, rest⟩, hsplit, hpair⟩ := except_map_eq_ok.mp hword
    cases hpair
    obtain ⟨content, value, rfl, hglyphs⟩ := stringTail_glyphs hsplit
    exact hspelled rfl (.string hglyphs)
  · obtain ⟨hkind, hmem⟩ := operator_mem hword
    unfold Token.WellFormed
    simp only [hkind]
    exact hmem

/-- Every token of a scan is well-formed. The induction follows the scan. -/
theorem tokensFrom_wellFormed {tokens : List Token}
    (htokens : tokensFrom offset text = .ok tokens) : ∀ token ∈ tokens, token.WellFormed := by
  fun_induction tokensFrom offset text generalizing tokens with
  | case1 =>
    cases htokens
    intro token htoken
    cases htoken
  | case2 offset first text hblank ih => exact ih htokens
  | case3 => cases htokens
  | case4 offset first text hblank word hword ih =>
    obtain ⟨later, hlater, rfl⟩ := except_map_eq_ok.mp htokens
    exact List.forall_mem_cons.mpr ⟨lexeme_wellFormed hword offset, ih hlater⟩

end Scan

theorem scan_wellFormed {text : String} {tokens : List Token} (hscan : scan text = .ok tokens) :
    ∀ token ∈ tokens, token.WellFormed :=
  Scan.tokensFrom_wellFormed hscan

end ScriptLang
