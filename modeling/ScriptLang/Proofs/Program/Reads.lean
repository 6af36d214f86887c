import ScriptLang.Proofs.Program.Bounds
import ScriptLang.Proofs.Program.Grammar

/-!
What it is for a reader to read a phrase. It succeeds on a phrase, after which it has looked at one
token more, and when it fails, what it has consumed can still become a phrase, while the next token
cannot stand there. The rules build such readers from smaller ones.
-/

set_option autoImplicit false
set_option relaxedAutoImplicit false

namespace ScriptLang

/-- An error of reading that stops behind `before`, in front of some tokens: it is about the first
of them, about the end, or about the comma in front of a closing parenthesis. -/
inductive ParseError.Blames (stop : Nat) (before : List Token) : List Token → ParseError → Prop
  | ended (what : String) : Blames stop before [] (.unexpectedEnd what stop)
  | token (what : String) (token : Token) (rest : List Token) :
    Blames stop before (token :: rest) (.expectedToken what token.text token.offset)
  | expression (token : Token) (rest : List Token) :
    Blames stop before (token :: rest) (.expectedExpression token.text token.offset)
  | comma {earlier : List Token} {comma closing : Token} (rest : List Token)
    (hbefore : before = earlier ++ [comma]) (hcomma : comma.Is ",") (hclosing : closing.Is ")") :
    Blames stop before (closing :: rest) (.trailingComma comma.offset)

/-- An error behind some tokens is one behind more tokens. -/
theorem ParseError.Blames.append {stop : Nat} {before tail : List Token} {cause : ParseError}
    (h : cause.Blames stop before tail) (earlier : List Token) :
    cause.Blames stop (earlier ++ before) tail := by
  cases h with
  | ended what => exact .ended what
  | token what token rest => exact .token what token rest
  | expression token rest => exact .expression token rest
  | comma rest hbefore hcomma hclosing =>
    exact .comma rest (by rw [hbefore, List.append_assoc]) hcomma hclosing

theorem head?_append_congr {α : Type} (first : List α) {second third : List α}
    (h : second.head? = third.head?) : (first ++ second).head? = (first ++ third).head? := by
  rw [List.head?_append, List.head?_append, h]

namespace Reader

open Grammar

variable {α β : Type}

/-- At most `size` tokens, all of which are well formed. -/
def Fits (size : Nat) (tokens : List Token) : Prop :=
  tokens.length ≤ size ∧ ∀ token ∈ tokens, token.WellFormed

namespace Fits

variable {size : Nat} {tokens first second : List Token} {token : Token}

theorem mono {larger : Nat} (h : Fits size tokens) (hle : size ≤ larger) : Fits larger tokens :=
  ⟨Nat.le_trans h.1 hle, h.2⟩

theorem sublist (h : Fits size tokens) (hsub : first.Sublist tokens) : Fits size first :=
  ⟨Nat.le_trans hsub.length_le h.1, fun token htoken ↦ h.2 token (hsub.subset htoken)⟩

theorem nil : Fits size [] := ⟨Nat.zero_le size, nofun⟩

theorem left (h : Fits size (first ++ second)) : Fits size first :=
  h.sublist (List.sublist_append_left first second)

theorem right (h : Fits size (first ++ second)) : Fits size second :=
  h.sublist (List.sublist_append_right first second)

theorem head (h : Fits size (token :: tokens)) : token.WellFormed := h.2 token List.mem_cons_self

theorem tail (h : Fits size (token :: tokens)) : Fits (size - 1) tokens :=
  ⟨Nat.le_sub_one_of_lt h.1, fun token htoken ↦ h.2 token (List.mem_cons_of_mem _ htoken)⟩

theorem behind (h : Fits size (token :: tokens)) : Fits size tokens :=
  h.tail.mono (Nat.sub_le size 1)

end Fits

/-- The tokens are the beginning of a phrase, the rest of which is well formed. -/
def Completes (phrase : Phrase α) (tokens : List Token) : Prop :=
  ∃ more value, (∀ token ∈ more, Token.WellFormed token) ∧ phrase (tokens ++ more) value

/-- On at most `size` well-formed tokens, `reader` reads `phrase`. -/
structure Reads (stop size : Nat) (reader : Reader α) (phrase : Phrase α) : Prop where
  ok : ∀ tokens value rest, Fits size tokens → reader tokens = .ok value rest →
    ∃ used, tokens = used ++ rest ∧ phrase used value ∧
      ∀ other : List Token, other.head? = rest.head? → reader (used ++ other) = .ok value other
  error : ∀ tokens cause rest, Fits size tokens → reader tokens = .error cause rest →
    ∃ used tail, tokens = used ++ tail ∧ cause.Blames stop used tail ∧ Completes phrase used ∧
      (tail ≠ [] → ∀ other : List Token, other.head? = tail.head? →
        ∃ failure left, reader (used ++ other) = .error failure left)

namespace Reads

variable {stop size : Nat} {reader : Reader α} {phrase : Phrase α}

/-- A reader of a phrase reads every wider phrase. -/
theorem imp {phrase' : Phrase α} (h : Reads stop size reader phrase)
    (himp : ∀ tokens value, phrase tokens value → phrase' tokens value) :
    Reads stop size reader phrase' := by
  constructor
  · intro tokens value rest hfits hread
    obtain ⟨used, hused, hphrase, hlocal⟩ := h.ok tokens value rest hfits hread
    exact ⟨used, hused, himp used value hphrase, hlocal⟩
  · intro tokens cause rest hfits hread
    obtain ⟨used, tail, htail, hblames, ⟨more, value, hmore, hphrase⟩, hlocal⟩ :=
      h.error tokens cause rest hfits hread
    exact ⟨used, tail, htail, hblames, ⟨more, value, hmore, himp _ value hphrase⟩, hlocal⟩

theorem mono {smaller : Nat} (h : Reads stop size reader phrase) (hle : smaller ≤ size) :
    Reads stop smaller reader phrase :=
  ⟨fun tokens value rest hfits ↦ h.ok tokens value rest (hfits.mono hle),
    fun tokens cause rest hfits ↦ h.error tokens cause rest (hfits.mono hle)⟩

/-- There is a phrase, as the reader must do something with no tokens. -/
theorem inhabited (h : Reads stop size reader phrase) : Completes phrase [] := by
  cases hread : reader [] with
  | ok value rest =>
    obtain ⟨used, hused, hphrase, -⟩ := h.ok [] value rest .nil hread
    obtain rfl := (List.append_eq_nil_iff.mp hused.symm).1
    exact ⟨[], value, by simp, hphrase⟩
  | error cause rest =>
    obtain ⟨used, tail, hused, -, hmore, -⟩ :=
      h.error [] cause rest .nil hread
    obtain rfl := (List.append_eq_nil_iff.mp hused.symm).1
    exact hmore

/-- Nothing is read where a value is given at once. -/
theorem pure (value : α) : Reads stop size (pure value) (Nothing value) := by
  constructor
  · intro tokens found rest _ hread
    cases hread
    exact ⟨[], rfl, .intro, fun _ _ ↦ rfl⟩
  · intro tokens cause rest _ hread
    cases hread

/-- What fails without consuming anything, and blames what it stops at. -/
theorem failing (h : ∀ tokens, ∃ cause rest, reader tokens = .error cause rest ∧
    cause.Blames stop [] tokens) (hphrase : Completes phrase []) :
    Reads stop size reader phrase := by
  constructor
  · intro tokens value rest _ hread
    obtain ⟨cause, left, herror, -⟩ := h tokens
    rw [herror] at hread
    cases hread
  · intro tokens cause rest _ hread
    obtain ⟨cause', left, herror, hblames⟩ := h tokens
    rw [herror] at hread
    cases hread
    refine ⟨[], tokens, rfl, hblames, hphrase, fun _ other _ ↦ ?_⟩
    obtain ⟨failure, left, hfailure, -⟩ := h other
    exact ⟨failure, left, hfailure⟩

/-- A missing token is a fault where nothing can be the beginning of the phrase. -/
theorem expected (what : String) (hphrase : Completes phrase []) :
    Reads stop size (Reader.expected stop what) phrase := by
  refine failing (fun tokens ↦ ?_) hphrase
  cases tokens with
  | nil => exact ⟨_, _, rfl, .ended what⟩
  | cons token tokens => exact ⟨_, _, rfl, .token what token tokens⟩

/-- All that is read with no tokens is the end. -/
theorem of_nil {what : String} {rest : List Token}
    (h : reader [] = .error (.unexpectedEnd what stop) rest)
    (hphrase : Completes phrase []) : Reads stop 0 reader phrase := by
  constructor
  · intro tokens value rest hfits hread
    obtain rfl := List.eq_nil_of_length_eq_zero (Nat.le_zero.mp hfits.1)
    rw [h] at hread
    cases hread
  · intro tokens cause rest hfits hread
    obtain rfl := List.eq_nil_of_length_eq_zero (Nat.le_zero.mp hfits.1)
    rw [h] at hread
    cases hread
    exact ⟨[], [], rfl, .ended what, hphrase, fun htail ↦ (htail rfl).elim⟩

/-- Two readers one after another read two phrases one after another. An error of the second is
behind what the first has used, and the first can tell where it stops by the next token alone. -/
theorem bind {next : α → Reader β} {phrase' : α → Phrase β} (h : Reads stop size reader phrase)
    (hnext : ∀ value, Reads stop size (next value) (phrase' value)) :
    Reads stop size (reader >>= next) (Then phrase phrase') := by
  constructor
  · intro tokens result rest hfits hread
    obtain ⟨value, middle, hfirst, hsecond⟩ := Stateful.bind_eq_ok hread
    obtain ⟨used, rfl, hphrase, hlocal⟩ := h.ok tokens value middle hfits hfirst
    obtain ⟨used', rfl, hphrase', hlocal'⟩ :=
      (hnext value).ok middle result rest hfits.right hsecond
    refine ⟨used ++ used', (List.append_assoc ..).symm, .intro hphrase hphrase',
      fun other hother ↦ ?_⟩
    rw [List.append_assoc]
    refine (Stateful.bind_of_ok (hlocal (used' ++ other) ?_)).trans (hlocal' other hother)
    exact head?_append_congr used' hother
  · intro tokens cause rest hfits hread
    obtain hfirst | ⟨value, middle, hfirst, hsecond⟩ := Stateful.bind_eq_error hread
    · -- The first part stops early, and any second part completes it.
      obtain ⟨used, tail, hused, hblames, ⟨more, value, hmore, hphrase⟩, hlocal⟩ :=
        h.error tokens cause rest hfits hfirst
      obtain ⟨last, result, hlast, hphrase'⟩ := (hnext value).inhabited
      refine ⟨used, tail, hused, hblames, ⟨more ++ last, result, ?_, ?_⟩,
        fun htail other hother ↦ ?_⟩
      · exact fun token htoken ↦ (List.mem_append.mp htoken).elim (hmore token) (hlast token)
      · rw [← List.append_assoc]
        exact .intro hphrase hphrase'
      · obtain ⟨failure, left, hfailure⟩ := hlocal htail other hother
        exact ⟨failure, left, Stateful.bind_of_error hfailure⟩
    · obtain ⟨used, rfl, hphrase, hlocal⟩ := h.ok tokens value middle hfits hfirst
      obtain ⟨used', tail, rfl, hblames, ⟨more, result, hmore, hphrase'⟩, hlocal'⟩ :=
        (hnext value).error middle cause rest hfits.right hsecond
      refine ⟨used ++ used', tail, (List.append_assoc ..).symm, hblames.append used,
        ⟨more, result, hmore, ?_⟩, fun htail other hother ↦ ?_⟩
      · rw [List.append_assoc]
        exact .intro hphrase hphrase'
      · obtain ⟨failure, left, hfailure⟩ := hlocal' htail other hother
        refine ⟨failure, left, ?_⟩
        rw [List.append_assoc]
        refine (Stateful.bind_of_ok (hlocal (used' ++ other) ?_)).trans hfailure
        exact head?_append_congr used' hother

/-- A change of the value changes nothing of what is read. -/
theorem map (change : α → β) (h : Reads stop size reader phrase) :
    Reads stop size (change <$> reader) (Then phrase fun value ↦ Nothing (change value)) := by
  rw [Stateful.map_eq]
  exact h.bind fun value ↦ .pure (change value)

/-- The next token decides between what is behind it, which has fewer tokens, and something else. -/
theorem of_token {reader other : Reader α} (test : Token → Bool) (next : Token → Reader α)
    (phrase : Token → Phrase α) {phrase' : Phrase α}
    (htrue : ∀ token tokens, test token = true → reader (token :: tokens) = next token tokens)
    (hfalse : ∀ tokens : List Token, (∀ token ∈ tokens.head?, test token = false) →
      reader tokens = other tokens)
    (hnext : ∀ token, token.WellFormed → test token = true →
      Reads stop (size - 1) (next token) (phrase token))
    (hother : Reads stop size other phrase') :
    Reads stop size reader fun tokens value ↦
      (∃ token rest, tokens = token :: rest ∧ token.WellFormed ∧ test token = true ∧
        phrase token rest value) ∨ phrase' tokens value := by
  constructor
  · intro tokens value rest hfits hread
    obtain hnone | ⟨token, tokens, rfl, hfound⟩ := next_cases test tokens
    · rw [hfalse tokens hnone] at hread
      obtain ⟨used, hused, hphrase, hlocal⟩ := hother.ok tokens value rest hfits hread
      refine ⟨used, hused, .inr hphrase, fun later hlater ↦ ?_⟩
      have hhead : (used ++ later).head? = tokens.head? := hused ▸ head?_append_congr used hlater
      exact (hfalse _ (hhead ▸ hnone)).trans (hlocal later hlater)
    · rw [htrue token tokens hfound] at hread
      obtain ⟨used, rfl, hphrase, hlocal⟩ :=
        (hnext token hfits.head hfound).ok tokens value rest hfits.tail hread
      refine ⟨token :: used, rfl, .inl ⟨token, used, rfl, hfits.head, hfound, hphrase⟩,
        fun later hlater ↦ ?_⟩
      exact (htrue token _ hfound).trans (hlocal later hlater)
  · intro tokens cause rest hfits hread
    obtain hnone | ⟨token, tokens, rfl, hfound⟩ := next_cases test tokens
    · rw [hfalse tokens hnone] at hread
      obtain ⟨used, tail, hused, hblames, ⟨more, value, hmore, hphrase⟩, hlocal⟩ :=
        hother.error tokens cause rest hfits hread
      refine ⟨used, tail, hused, hblames, ⟨more, value, hmore, .inr hphrase⟩,
        fun htail later hlater ↦ ?_⟩
      have hhead : (used ++ later).head? = tokens.head? := hused ▸ head?_append_congr used hlater
      obtain ⟨failure, left, hfailure⟩ := hlocal htail later hlater
      exact ⟨failure, left, (hfalse _ (hhead ▸ hnone)).trans hfailure⟩
    · rw [htrue token tokens hfound] at hread
      obtain ⟨used, tail, rfl, hblames, ⟨more, value, hmore, hphrase⟩, hlocal⟩ :=
        (hnext token hfits.head hfound).error tokens cause rest hfits.tail hread
      refine ⟨token :: used, tail, rfl, hblames.append [token],
        ⟨more, value, hmore, .inl ⟨token, _, rfl, hfits.head, hfound, hphrase⟩⟩,
        fun htail later hlater ↦ ?_⟩
      obtain ⟨failure, left, hfailure⟩ := hlocal htail later hlater
      exact ⟨failure, left, (htrue token _ hfound).trans hfailure⟩

/-- A word decides between what is behind it and something else. -/
theorem accept_then {text : String} {other : Reader α} {phrase' : Phrase α}
    (htext : text ∈ keywords ++ operators) (h : Reads stop (size - 1) reader phrase)
    (hother : Reads stop size other phrase') :
    Reads stop size (accept text >>= fun found ↦ if found = true then reader else other)
      fun tokens value ↦ Behind phrase text tokens value ∨ phrase' tokens value := by
  refine (of_token (fun token ↦ token.isWord text) (fun _ ↦ reader) (fun _ ↦ phrase) ?_ ?_
    (fun _ _ _ ↦ h) hother).imp ?_
  · intro token tokens hfound
    exact Stateful.bind_of_ok (accept_of_isWord hfound)
  · intro tokens hnone
    cases tokens with
    | nil => rfl
    | cons token tokens => exact Stateful.bind_of_ok (accept_of_not_isWord (hnone token rfl))
  · rintro tokens value (⟨token, rest, rfl, hwell, hfound, hphrase⟩ | hphrase)
    · exact .inl (.intro (hwell.is_of_isWord htext hfound) hphrase)
    · exact .inr hphrase

/-- A part behind a word is read if the word is next, and the other way is to read nothing. -/
theorem following {text : String} (htext : text ∈ keywords ++ operators)
    (h : Reads stop (size - 1) reader phrase) :
    Reads stop size (following text reader) (Maybe (Behind phrase text)) := by
  refine (accept_then htext (h.map some) (.pure none)).imp fun tokens value hphrase ↦ ?_
  obtain hphrase | hphrase := hphrase
  · cases hphrase with
    | intro hword hmapped =>
      cases hmapped with
      | intro hfirst hnothing =>
        cases hnothing
        rw [List.append_nil]
        exact .some (.intro hword hfirst)
  · cases hphrase
    exact .none

/-- A required word is read, or it is missing. -/
theorem expectWord {text : String} (htext : text ∈ keywords ++ operators) :
    Reads stop size (Reader.expectWord stop text) (Word text) := by
  have hword : Token.Is ⟨if text ∈ keywords then .identifier else .operator, text, 0⟩ text :=
    ⟨rfl, rfl⟩
  have hcompletes : Completes (Word text) [] :=
    ⟨[_], (), by simpa using hword.wellFormed htext, .intro hword⟩
  refine (accept_then htext (.pure ()) (.expected _ hcompletes)).imp fun tokens value hphrase ↦ ?_
  obtain hphrase | hphrase := hphrase
  · cases hphrase with
    | intro hword hnothing =>
      cases hnothing
      exact .intro hword
  · exact hphrase

/-- A name alone. -/
theorem name : Reads stop size (Reader.name stop) TypeName := by
  have hcompletes : Completes TypeName [] := by
    obtain ⟨token, hname, hwell⟩ := Token.exists_isName
    exact ⟨[token], token.text, by simpa using hwell, .intro hname⟩
  refine (of_token Token.isName (fun token ↦ Pure.pure token.text) (fun token ↦ Nothing token.text)
    ?_ ?_ (fun token _ _ ↦ .pure token.text) (.expected "an identifier" hcompletes)).imp ?_
  · exact fun token tokens hname ↦ name_of_isName hname
  · intro tokens hnone
    cases tokens with
    | nil => rfl
    | cons token tokens => exact name_of_not_isName (hnone token rfl)
  · rintro tokens value (⟨token, rest, rfl, -, hname, ⟨⟩⟩ | hname)
    · exact .intro hname
    · exact hname

/-- A name with its position, and what comes behind it. -/
theorem positioned {next : Nat → String → Reader α} {phrase : Token → Phrase α}
    (hnext : ∀ token, Reads stop (size - 1) (next token.offset token.text) (phrase token)) :
    Reads stop size
      (position stop >>= fun offset ↦ Reader.name stop >>= fun text ↦ next offset text)
      fun tokens value ↦ ∃ name rest, tokens = name :: rest ∧ name.isName = true ∧
        phrase name rest value := by
  have hcompletes : Completes (fun tokens value ↦ ∃ name rest, tokens = name :: rest ∧
      name.isName = true ∧ phrase name rest value) [] := by
    obtain ⟨token, hname, hwell⟩ := Token.exists_isName
    obtain ⟨more, value, hmore, hphrase⟩ := (hnext token).inhabited
    exact ⟨token :: more, value, List.forall_mem_cons.mpr ⟨hwell, hmore⟩, token, more, rfl, hname,
      hphrase⟩
  refine (of_token Token.isName (fun token ↦ next token.offset token.text) phrase ?_ ?_
    (fun token _ _ ↦ hnext token) (.expected "an identifier" hcompletes)).imp ?_
  · intro token tokens hname
    exact (Stateful.bind_of_ok rfl).trans (Stateful.bind_of_ok (name_of_isName hname))
  · intro tokens hnone
    refine (Stateful.bind_of_ok rfl).trans ?_
    cases tokens with
    | nil => exact Stateful.bind_of_error rfl
    | cons token tokens => exact Stateful.bind_of_error (name_of_not_isName (hnone token rfl))
  · rintro tokens value (⟨token, rest, rfl, -, hname, hphrase⟩ | hphrase)
    · exact ⟨token, rest, rfl, hname, hphrase⟩
    · exact hphrase

/-- A look at the next token decides whether there is anything to read. -/
theorem peek_then {test : List Token → Bool} {item : Reader (Option α)}
    (htest : ∀ first second : List Token, first.head? = second.head? → test first = test second)
    (h : Reads stop size item (Maybe phrase)) :
    Reads stop size
      ((fun rest ↦ .ok (test rest) rest) >>= fun found ↦
        if found = true then Pure.pure Option.none else item) (Maybe phrase) := by
  have hrun (tokens : List Token) :
      ((fun rest ↦ .ok (test rest) rest : Reader Bool) >>= fun found ↦
        if found = true then Pure.pure Option.none else item) tokens =
        if test tokens = true then .ok none tokens else item tokens := by
    refine (Stateful.bind_of_ok rfl).trans ?_
    split <;> rfl
  constructor
  · intro tokens value rest hfits hread
    rw [hrun] at hread
    split at hread
    · rename_i hfound
      cases hread
      refine ⟨[], rfl, .none, fun other hother ↦ ?_⟩
      rw [List.nil_append, hrun, htest other tokens hother, if_pos hfound]
    · rename_i hfound
      obtain ⟨used, hused, hphrase, hlocal⟩ := h.ok tokens value rest hfits hread
      refine ⟨used, hused, hphrase, fun other hother ↦ ?_⟩
      rw [hrun, htest _ tokens (hused ▸ head?_append_congr used hother), if_neg hfound]
      exact hlocal other hother
  · intro tokens cause rest hfits hread
    rw [hrun] at hread
    split at hread
    · cases hread
    · rename_i hfound
      obtain ⟨used, tail, hused, hblames, hmore, hlocal⟩ :=
        h.error tokens cause rest hfits hread
      refine ⟨used, tail, hused, hblames, hmore, fun htail other hother ↦ ?_⟩
      rw [hrun, htest _ tokens (hused ▸ head?_append_congr used hother), if_neg hfound]
      exact hlocal htail other hother

section

variable {item : Reader (Option α)}

/-- What `manyWithin` reads does not depend on the bound, if that has as many tokens as are left. -/
theorem manyWithin_ok (hitem : Reads stop size item (Maybe phrase))
    (hphrase : ∀ value, ¬phrase [] value) (hend : item [] = .ok none []) (bound : List Token) :
    ∀ tokens values rest, Fits size tokens → tokens.length ≤ bound.length →
      manyWithin item bound tokens = .ok values rest →
      ∃ used, tokens = used ++ rest ∧ Many phrase used values ∧
        ∀ other bound' : List Token, other.head? = rest.head? →
          (used ++ other).length ≤ bound'.length →
            manyWithin item bound' (used ++ other) = .ok values other := by
  induction bound with
  | nil =>
    -- The bound runs out only at the end, where there is no item either.
    intro tokens values rest _ hbound hread
    obtain rfl := List.eq_nil_of_length_eq_zero (Nat.le_zero.mp hbound)
    cases hread
    refine ⟨[], rfl, .nil, fun other bound' hother _ ↦ manyWithin_of_none ?_⟩
    cases other with
    | nil => exact hend
    | cons token other => cases hother
  | cons _ bound ih =>
    intro tokens values rest hfits hbound hread
    obtain ⟨found, middle, hfirst, hsecond⟩ := Stateful.bind_eq_ok hread
    obtain ⟨used, rfl, hfound, hlocal⟩ := hitem.ok tokens found middle hfits hfirst
    cases hfound with
    | none =>
      cases hsecond
      exact ⟨[], rfl, .nil, fun other bound' hother _ ↦ manyWithin_of_none (hlocal other hother)⟩
    | @some _ head hhead =>
      have hne : used ≠ [] := fun hnil ↦ hphrase head (hnil ▸ hhead)
      obtain ⟨tail, last, htail, hpure⟩ := Stateful.bind_eq_ok hsecond
      cases hpure
      obtain ⟨used', rfl, htail', hlocal'⟩ :=
        ih middle tail rest hfits.right (length_le_of_item hne hbound) htail
      refine ⟨used ++ used', (List.append_assoc ..).symm, .cons hhead htail',
        fun other bound' hother hbound' ↦ ?_⟩
      rw [List.append_assoc] at hbound' ⊢
      obtain ⟨shorter, hshorter, hrun⟩ :=
        manyWithin_of_some (hlocal _ (head?_append_congr used' hother)) hne hbound'
      rw [hrun]
      exact Stateful.bind_of_ok (hlocal' other shorter hother hshorter)

/-- What is the beginning of an item is the beginning of any number of them. -/
theorem completes_many {used : List Token} (h : Completes (Maybe phrase) used) :
    Completes (Many phrase) used := by
  obtain ⟨more, found, hmore, hfound⟩ := h
  generalize hwhole : used ++ more = whole at hfound
  cases hfound with
  | none => exact ⟨more, [], hmore, hwhole ▸ .nil⟩
  | @some _ head hhead =>
    have hone := Many.cons hhead .nil
    rw [List.append_nil, ← hwhole] at hone
    exact ⟨more, [head], hmore, hone⟩

/-- A repetition fails in an item, behind the items that were read. The induction is on the
bound. -/
theorem manyWithin_error (hitem : Reads stop size item (Maybe phrase))
    (hphrase : ∀ value, ¬phrase [] value) (bound : List Token) :
    ∀ tokens cause rest, Fits size tokens → tokens.length ≤ bound.length →
      manyWithin item bound tokens = .error cause rest →
      ∃ used tail, tokens = used ++ tail ∧ cause.Blames stop used tail ∧
        Completes (Many phrase) used ∧
        (tail ≠ [] → ∀ other bound' : List Token, other.head? = tail.head? →
          (used ++ other).length ≤ bound'.length →
            ∃ failure left, manyWithin item bound' (used ++ other) = .error failure left) := by
  induction bound with
  | nil =>
    intro tokens cause rest _ _ hread
    cases hread
  | cons _ bound ih =>
    intro tokens cause rest hfits hbound hread
    obtain hfirst | ⟨found, middle, hfirst, hsecond⟩ := Stateful.bind_eq_error hread
    · obtain ⟨used, tail, rfl, hblames, hmore, hlocal⟩ :=
        hitem.error tokens cause rest hfits hfirst
      refine ⟨used, tail, rfl, hblames, completes_many hmore,
        fun htail other bound' hother hbound' ↦ ?_⟩
      obtain ⟨failure, left, hfailure⟩ := hlocal htail other hother
      refine ⟨failure, left, manyWithin_of_error (fun hnil ↦ htail ?_) hfailure hbound'⟩
      rw [← List.head?_eq_none_iff, ← hother, (List.append_eq_nil_iff.mp hnil).2]
      rfl
    · obtain ⟨used, rfl, hfound, hlocal⟩ := hitem.ok tokens found middle hfits hfirst
      cases hfound with
      | none => cases hsecond
      | @some _ head hhead =>
        have hne : used ≠ [] := fun hnil ↦ hphrase head (hnil ▸ hhead)
        obtain htail | ⟨tail, last, htail, hpure⟩ := Stateful.bind_eq_error hsecond
        · obtain ⟨used', tail, rfl, hblames, ⟨more, values, hmore, hvalues⟩, hlocal'⟩ :=
            ih middle cause rest hfits.right (length_le_of_item hne hbound) htail
          refine ⟨used ++ used', tail, (List.append_assoc ..).symm, hblames.append used,
            ⟨more, head :: values, hmore, ?_⟩, fun htail other bound' hother hbound' ↦ ?_⟩
          · rw [List.append_assoc]
            exact .cons hhead hvalues
          · rw [List.append_assoc] at hbound' ⊢
            obtain ⟨shorter, hshorter, hrun⟩ :=
              manyWithin_of_some (hlocal _ (head?_append_congr used' hother)) hne hbound'
            obtain ⟨failure, left, hfailure⟩ := hlocal' htail other shorter hother hshorter
            rw [hrun]
            exact ⟨failure, left, Stateful.bind_of_error hfailure⟩
        · cases hpure

/-- What reads an item or nothing is repeated until it finds nothing. -/
theorem many (hitem : Reads stop size item (Maybe phrase)) (hphrase : ∀ value, ¬phrase [] value)
    (hend : item [] = .ok none []) : Reads stop size (many item) (Many phrase) := by
  constructor
  · intro tokens values rest hfits hread
    obtain ⟨used, hused, hmany, hlocal⟩ :=
      hitem.manyWithin_ok hphrase hend tokens tokens values rest hfits (Nat.le_refl _) hread
    exact ⟨used, hused, hmany, fun other hother ↦ hlocal other _ hother (Nat.le_refl _)⟩
  · intro tokens cause rest hfits hread
    obtain ⟨used, tail, hused, hblames, hmore, hlocal⟩ :=
      hitem.manyWithin_error hphrase tokens tokens cause rest hfits (Nat.le_refl _) hread
    exact ⟨used, tail, hused, hblames, hmore,
      fun htail other hother ↦ hlocal htail other _ hother (Nat.le_refl _)⟩

end

end Reads

end Reader

end ScriptLang
