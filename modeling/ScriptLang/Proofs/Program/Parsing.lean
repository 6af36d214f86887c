import Mathlib
import ScriptLang.Proofs.Program.Accepts
import ScriptLang.Proofs.Token.Scanned

/-!
Programs are read as the grammar says, and an error points at the first token behind which no
program goes on. Reading stops at the same token wherever the end of the tokens is said to be, so
what fails once fails in front of every list of tokens with the same beginning.
-/

set_option autoImplicit false
set_option relaxedAutoImplicit false

namespace ScriptLang

open Grammar

namespace Reader

variable {stop : Nat} {tokens rest : List Token} {program : Program} {cause : ParseError}

/-- A program that is read has no tokens left. -/
theorem program_rest (hread : Reader.program stop tokens = .ok program rest) : rest = [] := by
  obtain ⟨fields, middle, -, hread⟩ := Stateful.bind_eq_ok hread
  obtain ⟨methods, last, -, hread⟩ := Stateful.bind_eq_ok hread
  cases last with
  | nil =>
    cases hread
    rfl
  | cons token last => cases hread

/-- On well-formed tokens a program is read exactly if the grammar has it for all of them. -/
theorem program_eq_ok_iff (hwell : ∀ token ∈ tokens, token.WellFormed) :
    Reader.program stop tokens = .ok program [] ↔ Source tokens program := by
  refine ⟨fun hread ↦ ?_, fun hsource ↦ program_accepts hwell hsource⟩
  obtain ⟨used, rfl, hsource, -⟩ := program_reads.ok tokens program [] ⟨Nat.le_refl _, hwell⟩ hread
  rwa [List.append_nil]

/-- What fails behind `used` is refused there, whatever comes later. -/
def Refuses (stop : Nat) (used tail : List Token) : Prop :=
  tail ≠ [] → ∀ other : List Token, other.head? = tail.head? →
    ∃ failure left, Reader.program stop (used ++ other) = .error failure left

/-- What is the beginning of a program is not refused before its end. -/
theorem Refuses.length_le {used tail used' tail' : List Token} (h : Refuses stop used tail)
    (hwell : ∀ token ∈ tokens, token.WellFormed) (hused : tokens = used ++ tail)
    (hused' : tokens = used' ++ tail') (hcompletes : Completes Source used') :
    used'.length ≤ used.length := by
  obtain ⟨more, program, hmore, hsource⟩ := hcompletes
  have hfine : ∀ token ∈ used' ++ more, token.WellFormed := fun token htoken ↦
    (List.mem_append.mp htoken).elim
      (fun hmem ↦ hwell token (hused' ▸ List.mem_append_left tail' hmem)) (hmore token)
  obtain ⟨middle, rfl, htail⟩ | ⟨middle, rfl, -⟩ :=
    List.append_eq_append_iff.mp (hused.symm.trans hused')
  · -- A longer beginning would go on at the token that is refused.
    cases middle with
    | nil => rw [List.append_nil]
    | cons token middle =>
      obtain ⟨failure, left, hfailure⟩ := h (by rw [htail]; exact nofun)
        (token :: middle ++ more) (by rw [htail]; rfl)
      rw [List.append_assoc] at hsource hfine
      rw [program_accepts hfine hsource] at hfailure
      cases hfailure
  · rw [List.length_append]
    exact Nat.le_add_right _ _

/-- Reading fails at the same token, wherever the end of the tokens is said to be. -/
theorem refuses_of_error (hwell : ∀ token ∈ tokens, token.WellFormed)
    (hread : Reader.program stop tokens = .error cause rest) :
    ∃ used tail, tokens = used ++ tail ∧ cause.Blames stop used tail ∧ Completes Source used ∧
      ∀ stop', Refuses stop' used tail := by
  obtain ⟨used, tail, hused, hblames, hcompletes, hrefuses⟩ :=
    program_reads.error tokens cause rest ⟨Nat.le_refl _, hwell⟩ hread
  refine ⟨used, tail, hused, hblames, hcompletes, fun stop' ↦ ?_⟩
  -- With another end the tokens are refused too, at a place that neither reading can go beyond.
  cases hother : Reader.program stop' tokens with
  | ok program rest =>
    obtain rfl := program_rest hother
    have hsource := (program_eq_ok_iff hwell).mp hother
    rw [program_accepts hwell hsource] at hread
    cases hread
  | error cause' rest' =>
    obtain ⟨used', tail', hused', -, hcompletes', hrefuses'⟩ :=
      program_reads.error tokens cause' rest' ⟨Nat.le_refl _, hwell⟩ hother
    have hlength : used.length = used'.length :=
      Nat.le_antisymm (Refuses.length_le hrefuses' hwell hused' hused hcompletes)
        (Refuses.length_le hrefuses hwell hused hused' hcompletes')
    obtain ⟨rfl, rfl⟩ := List.append_inj (hused.symm.trans hused') hlength
    exact hrefuses'

end Reader

namespace Program

variable {tokens : List Token} {program : Program} {cause : ParseError}

/-- A parse is a run of the reader with the end of the tokens as the place of errors at the end. -/
theorem ofTokens_eq_ok : ofTokens tokens = .ok program ↔
    Reader.program (endOfTokens tokens) tokens = .ok program [] := by
  unfold ofTokens
  cases hread : Reader.program (endOfTokens tokens) tokens with
  | ok found rest =>
    obtain rfl := Reader.program_rest hread
    simp
  | error cause rest => simp

/-- A parse fails as the reader does, whatever tokens are left. -/
theorem ofTokens_eq_error : ofTokens tokens = .error cause ↔
    ∃ rest, Reader.program (endOfTokens tokens) tokens = .error cause rest := by
  unfold ofTokens
  cases hread : Reader.program (endOfTokens tokens) tokens with
  | ok found rest => simp
  | error cause rest => simp

/-- Reading accepts the grammar, and gives the only tree of the tokens. -/
theorem ofTokens_iff_source (hwell : ∀ token ∈ tokens, token.WellFormed) (program : Program) :
    (ofTokens tokens = .ok program ↔ Source tokens program) ∧
      ∀ other, Source tokens program → Source tokens other → other = program := by
  refine ⟨ofTokens_eq_ok.trans (Reader.program_eq_ok_iff hwell), fun other hfirst hsecond ↦ ?_⟩
  have hread : Reader.program (endOfTokens tokens) tokens = .ok program [] :=
    Reader.program_accepts hwell hfirst
  rw [Reader.program_accepts hwell hsecond] at hread
  cases hread
  rfl

/-- The tokens of `LET x = 1 + 2 * 3;` have one tree, in which the product is inside of the sum. -/
theorem ofTokens_iff_source_product :
    ∃ tokens, scan "LET x = 1 + 2 * 3;" = .ok tokens ∧ ∃ program : Program,
      program.fields.map Binding.value = [some (.binary ⟨10, none⟩ .add
        (.literal ⟨8, none⟩ (.integer 1)) (.binary ⟨14, none⟩ .mul
          (.literal ⟨12, none⟩ (.integer 2)) (.literal ⟨16, none⟩ (.integer 3))))] ∧
      Source tokens program ∧ ∀ other, Source tokens other → other = program := by
  have hscan : scan "LET x = 1 + 2 * 3;" = .ok [⟨.identifier, "LET", 0⟩, ⟨.identifier, "x", 4⟩,
      ⟨.operator, "=", 6⟩, ⟨.integer, "1", 8⟩, ⟨.operator, "+", 10⟩, ⟨.integer, "2", 12⟩,
      ⟨.operator, "*", 14⟩, ⟨.integer, "3", 16⟩, ⟨.operator, ";", 17⟩] := by cbv
  have hread : ofTokens [⟨.identifier, "LET", 0⟩, ⟨.identifier, "x", 4⟩,
      ⟨.operator, "=", 6⟩, ⟨.integer, "1", 8⟩, ⟨.operator, "+", 10⟩, ⟨.integer, "2", 12⟩,
      ⟨.operator, "*", 14⟩, ⟨.integer, "3", 16⟩, ⟨.operator, ";", 17⟩] = .ok {
        fields := [{
          name := "x", typeName := none, offset := 4,
          value := some (.binary ⟨10, none⟩ .add (.literal ⟨8, none⟩ (.integer 1))
            (.binary ⟨14, none⟩ .mul (.literal ⟨12, none⟩ (.integer 2))
              (.literal ⟨16, none⟩ (.integer 3)))) }] } := by cbv
  obtain ⟨hiff, hunique⟩ := ofTokens_iff_source (scan_wellFormed hscan) _
  have hsource := hiff.mp hread
  exact ⟨_, hscan, _, rfl, hsource, fun other hother ↦ hunique other hsource hother⟩

/-- The tokens are the beginning of a list that has a tree. -/
def Viable (tokens : List Token) : Prop := ∃ more program, ofTokens (tokens ++ more) = .ok program

/-- The error is about the token behind the first `count` ones, or about the end. -/
inductive BlamesAt (tokens : List Token) (count : Nat) : ParseError → Prop
  | ended {what : String} {last : Token} (hcount : count = tokens.length)
    (hlast : tokens.getLast? = some last) : BlamesAt tokens count (.unexpectedEnd what last.stop)
  | token {what : String} {token : Token} (htoken : tokens[count]? = some token) :
    BlamesAt tokens count (.expectedToken what token.text token.offset)
  | expression {token : Token} (htoken : tokens[count]? = some token) :
    BlamesAt tokens count (.expectedExpression token.text token.offset)
  | comma {before : Nat} {comma closing : Token} (hcount : count = before + 1)
    (hbefore : tokens[before]? = some comma) (hcomma : comma.Is ",")
    (htoken : tokens[count]? = some closing) (hclosing : closing.Is ")") :
    BlamesAt tokens count (.trailingComma comma.offset)

/-- Tokens that begin a phrase can be completed to a program. -/
theorem viable_of_completes {used : List Token} (hwell : ∀ token ∈ used, token.WellFormed)
    (h : Reader.Completes Source used) : Viable used := by
  obtain ⟨more, program, hmore, hsource⟩ := h
  have hall : ∀ token ∈ used ++ more, token.WellFormed := fun token htoken ↦
    (List.mem_append.mp htoken).elim (hwell token) (hmore token)
  exact ⟨more, program, ofTokens_eq_ok.mpr (Reader.program_accepts hall hsource)⟩

/-- Nothing that goes on behind a refused token has a tree. -/
theorem length_le_of_viable {used tail : List Token} (h : ∀ stop, Reader.Refuses stop used tail)
    {count : Nat} (hcount : count ≤ (used ++ tail).length)
    (hviable : Viable ((used ++ tail).take count)) : count ≤ used.length := by
  by_contra hlonger
  obtain ⟨more, program, hread⟩ := hviable
  rw [List.length_append] at hcount
  have htail : tail ≠ [] := by
    rintro rfl
    rw [List.length_nil] at hcount
    omega
  have hhead : (tail.take (count - used.length) ++ more).head? = tail.head? := by
    cases tail with
    | nil => exact (htail rfl).elim
    | cons token tail =>
      obtain ⟨extra, hextra⟩ : ∃ extra, count - used.length = extra + 1 :=
        ⟨count - used.length - 1, by omega⟩
      rw [hextra]
      rfl
  rw [List.take_append, List.take_of_length_le (by omega), List.append_assoc] at hread
  rw [ofTokens_eq_ok] at hread
  obtain ⟨failure, left, hfailure⟩ := h _ htail _ hhead
  rw [hread] at hfailure
  cases hfailure

/-- An error that blames what comes behind the tokens that were used is about this position of the
whole list. -/
theorem blamesAt_of_blames {used tail : List Token}
    (h : cause.Blames (endOfTokens (used ++ tail)) used tail) (hnonempty : used ++ tail ≠ []) :
    BlamesAt (used ++ tail) used.length cause := by
  cases h with
  | ended what =>
    rw [List.append_nil] at hnonempty ⊢
    obtain ⟨last, hlast⟩ := Option.ne_none_iff_exists'.mp
      (mt List.getLast?_eq_none_iff.mp hnonempty)
    have hstop : endOfTokens used = last.stop := by
      rw [endOfTokens, hlast]
      rfl
    rw [hstop]
    exact .ended rfl hlast
  | token what token rest => exact .token (by simp)
  | expression token rest => exact .expression (by simp)
  | comma rest hbefore hcomma hclosing =>
    subst hbefore
    exact .comma (List.length_append ..) (by simp) hcomma (by simp) hclosing

/-- An error is at the end of the longest viable beginning of the tokens. -/
theorem error_of_scanned {text : String} (hscan : scan text = .ok tokens)
    (hread : ofTokens tokens = .error cause) :
    ∃ count, IsGreatest {count | count ≤ tokens.length ∧ Viable (tokens.take count)} count ∧
      BlamesAt tokens count cause := by
  have hwell := scan_wellFormed hscan
  obtain ⟨rest, herror⟩ := ofTokens_eq_error.mp hread
  obtain ⟨used, tail, rfl, hblames, hcompletes, hrefuses⟩ := Reader.refuses_of_error hwell herror
  have hnonempty : used ++ tail ≠ [] := by
    intro hnil
    rw [hnil] at hread
    cases hread
  have hviable : Viable ((used ++ tail).take used.length) := by
    rw [List.take_left]
    exact viable_of_completes (fun token htoken ↦ hwell token (List.mem_append_left tail htoken))
      hcompletes
  refine ⟨used.length, ⟨⟨?_, hviable⟩, ?_⟩, blamesAt_of_blames hblames hnonempty⟩
  · rw [List.length_append]
    exact Nat.le_add_right _ _
  · rintro count ⟨hcount, hlonger⟩
    exact length_le_of_viable hrefuses hcount hlonger

/-- No program goes on at the closing parenthesis, and the comma in front of it is blamed. -/
theorem error_of_scanned_trailing :
    ∃ tokens, scan "LET x = f(1,);" = .ok tokens ∧ ofTokens tokens = .error (.trailingComma 11) ∧
      ∃ count, IsGreatest {count | count ≤ tokens.length ∧ Viable (tokens.take count)} count ∧
        BlamesAt tokens count (.trailingComma 11) := by
  have hscan : scan "LET x = f(1,);" = .ok [⟨.identifier, "LET", 0⟩, ⟨.identifier, "x", 4⟩,
      ⟨.operator, "=", 6⟩, ⟨.identifier, "f", 8⟩, ⟨.operator, "(", 9⟩, ⟨.integer, "1", 10⟩,
      ⟨.operator, ",", 11⟩, ⟨.operator, ")", 12⟩, ⟨.operator, ";", 13⟩] := by cbv
  have hread : ofTokens [⟨.identifier, "LET", 0⟩, ⟨.identifier, "x", 4⟩,
      ⟨.operator, "=", 6⟩, ⟨.identifier, "f", 8⟩, ⟨.operator, "(", 9⟩, ⟨.integer, "1", 10⟩,
      ⟨.operator, ",", 11⟩, ⟨.operator, ")", 12⟩, ⟨.operator, ";", 13⟩] =
        .error (.trailingComma 11) := by cbv
  exact ⟨_, hscan, hread, error_of_scanned hscan hread⟩

end Program

end ScriptLang
