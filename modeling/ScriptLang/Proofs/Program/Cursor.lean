import ScriptLang.Program.Cursor
import ScriptLang.Proofs.Program.Bounds

/-!
A cursor is a reader. From any position, also behind the end of the tokens, it comes to the end that
a reader comes to on the tokens that are left, so with enough fuel none of its faults occurs. And it
looks one token ahead: a result depends on the tokens that are consumed and on the next one.
-/

set_option autoImplicit false
set_option relaxedAutoImplicit false

namespace ScriptLang

/-- Whether an error leaves the position one behind the end: at the end, looking for an operand
moves on and looking for anything else does not. -/
def ParseError.overruns : ParseError → Bool
  | unexpectedEnd what _ => what == "an expression"
  | _ => false

namespace Reader

variable {rest : List Token}

/-- A word is not read where the next token, if there is one, is another. -/
theorem accept_of_head {text : String} (h : ∀ token ∈ rest.head?, token.isWord text = false) :
    accept text rest = .ok false rest := by
  cases rest with
  | nil => rfl
  | cons token rest => exact accept_of_not_isWord (h token rfl)

/-- A name is missing where the next token, if there is one, is none. -/
theorem name_of_head {stop : Nat} (h : ∀ token ∈ rest.head?, token.isName = false) :
    name stop rest = expected stop "an identifier" rest := by
  cases rest with
  | nil => rfl
  | cons token rest => exact name_of_not_isName (h token rfl)

/-- What comes behind a missing token is not read. -/
theorem expected_bind {α β : Type} (stop : Nat) (what : String) (next : α → Reader β) :
    expected stop what >>= next = expected stop what := by
  funext rest
  cases rest <;> rfl

end Reader

namespace Cursor

variable {α β σ : Type}

section

variable {first : Cursor α} {next : α → Cursor β} {tokens : List Token} {start middle : Nat}

theorem bind_of_ok {value : α} (hfirst : first tokens start = .ok value middle) :
    (first >>= next) tokens start = next value tokens middle := Stateful.bind_of_ok hfirst

theorem bind_of_error {cause : Halt} (hfirst : first tokens start = .error cause middle) :
    (first >>= next) tokens start = .error cause middle := Stateful.bind_of_error hfirst

/-- A cursor in two parts ends well only if both do. -/
theorem bind_eq_ok {result : β} {stop : Nat}
    (hrun : (first >>= next) tokens start = .ok result stop) :
    ∃ value middle, first tokens start = .ok value middle ∧
      next value tokens middle = .ok result stop := Stateful.bind_eq_ok hrun

/-- Only what the first part does matters to what follows. -/
theorem bind_congr_run {other : Cursor α} {start' : Nat}
    (h : first tokens start = other tokens start') :
    (first >>= next) tokens start = (other >>= next) tokens start' := by
  cases hother : other tokens start' with
  | ok value middle => rw [bind_of_ok (h.trans hother), bind_of_ok hother]
  | error cause middle => rw [bind_of_error (h.trans hother), bind_of_error hother]

theorem map_eq (change : α → β) : change <$> first = first >>= fun value ↦ pure (change value) :=
  map_eq_pure_bind change first

end

/-! ### Looking one token ahead -/

/-- A success at `stop` depends on the tokens that were consumed and on the one at `stop`. -/
def Near (cursor : Cursor α) : Prop :=
  ∀ tokens start value stop, cursor tokens start = .ok value stop → start ≤ stop ∧
    ∀ others : List Token, (∀ index, start ≤ index → index ≤ stop →
      others[index]? = tokens[index]?) → cursor others start = .ok value stop

/-- A success consumes a token. -/
def Advances (cursor : Cursor α) : Prop :=
  ∀ tokens start value stop, cursor tokens start = .ok value stop → start < stop

/-- A success with a value consumes a token. -/
def AdvancesIfSome (cursor : Cursor (Option α)) : Prop :=
  ∀ tokens start value stop, cursor tokens start = .ok (some value) stop → start < stop

namespace Near

variable {first : Cursor α} {next : α → Cursor β}

theorem pure (value : α) : Near (pure value) := by
  intro tokens start found stop hrun
  cases hrun
  exact ⟨Nat.le_refl _, fun _ _ ↦ rfl⟩

theorem of_error (h : ∀ tokens start value stop, first tokens start ≠ .ok value stop) :
    Near first := fun tokens start value stop hrun ↦ (h tokens start value stop hrun).elim

/-- Cursors may be put one after another: the second looks at most one token behind its own end. -/
theorem bind (h : Near first) (hnext : ∀ value, Near (next value)) : Near (first >>= next) := by
  intro tokens start result stop hrun
  obtain ⟨value, middle, hfirst, hlast⟩ := bind_eq_ok hrun
  obtain ⟨hstart, hsame⟩ := h tokens start value middle hfirst
  obtain ⟨hmiddle, hsame'⟩ := hnext value tokens middle result stop hlast
  refine ⟨Nat.le_trans hstart hmiddle, fun others hothers ↦ ?_⟩
  have hfirst' := hsame others fun index hlow hhigh ↦
    hothers index hlow (Nat.le_trans hhigh hmiddle)
  have hlast' := hsame' others fun index hlow hhigh ↦
    hothers index (Nat.le_trans hstart hlow) hhigh
  exact (bind_of_ok hfirst').trans hlast'

theorem map (change : α → β) (h : Near first) : Near (change <$> first) := by
  rw [map_eq]
  exact h.bind fun value ↦ .pure (change value)

end Near

/-- It is enough that the first of two cursors consumes a token. -/
theorem Advances.bind {first : Cursor α} {next : α → Cursor β} (h : Advances first)
    (hnext : ∀ value, Near (next value)) : Advances (first >>= next) := by
  intro tokens start result stop hrun
  obtain ⟨value, middle, hfirst, hlast⟩ := bind_eq_ok hrun
  exact Nat.lt_of_lt_of_le (h tokens start value middle hfirst)
    (hnext value tokens middle result stop hlast).1

theorem Advances.map {first : Cursor α} (change : α → β) (h : Advances first) :
    Advances (change <$> first) := by
  rw [map_eq]
  exact h.bind fun value ↦ .pure (change value)

/-! ### The same end -/

/-- Two ends with the same value or error. The tokens that the second has left begin at the position
of the first, which is at most one behind the end of all tokens, unless it began there. -/
inductive Matches (tokens : List Token) (start : Nat) :
    EStateM.Result Halt Nat α → EStateM.Result ParseError (List Token) α → Prop
  | ok {value : α} {stop : Nat} {rest : List Token} (hrest : rest = tokens.drop stop)
    (hstart : start ≤ stop) (hstop : stop ≤ max start tokens.length) :
    Matches tokens start (.ok value stop) (.ok value rest)
  | error {cause : ParseError} {stop : Nat} {rest : List Token} (hcause : cause.overruns = false)
    (hrest : rest = tokens.drop stop) (hstart : start ≤ stop)
    (hstop : stop ≤ max start tokens.length) :
    Matches tokens start (.error (.failed cause) stop) (.error cause rest)
  | overrun {cause : ParseError} (hcause : cause.overruns = true) :
    Matches tokens start (.error (.failed cause) (max start tokens.length + 1)) (.error cause [])

namespace Matches

variable {tokens : List Token} {start middle : Nat} {result other : EStateM.Result Halt Nat α}
  {result' : EStateM.Result ParseError (List Token) α}

/-- What began later has begun. -/
theorem of_later (h : Matches tokens middle result result') (hstart : start ≤ middle)
    (hmiddle : middle ≤ max start tokens.length) : Matches tokens start result result' := by
  have hmax : max middle tokens.length = max start tokens.length := by omega
  cases h with
  | ok hrest hlow hhigh => exact .ok hrest (Nat.le_trans hstart hlow) (hmax ▸ hhigh)
  | error hcause hrest hlow hhigh =>
    exact .error hcause hrest (Nat.le_trans hstart hlow) (hmax ▸ hhigh)
  | overrun hcause => exact hmax ▸ .overrun hcause

/-- The end of a cursor follows from where it began and from the end of the reader. -/
theorem eq (h : Matches tokens start result result') (hother : Matches tokens start other result') :
    result = other := by
  have hstops {stop stop' : Nat} (hdrop : tokens.drop stop = tokens.drop stop')
      (hlow : start ≤ stop) (hhigh : stop ≤ max start tokens.length) (hlow' : start ≤ stop')
      (hhigh' : stop' ≤ max start tokens.length) : stop = stop' := by
    have hlength := congrArg List.length hdrop
    rw [List.length_drop, List.length_drop] at hlength
    omega
  cases h with
  | ok hrest hlow hhigh =>
    cases hother with
    | ok hrest' hlow' hhigh' =>
      rw [hstops (hrest.symm.trans hrest') hlow hhigh hlow' hhigh']
  | error hcause hrest hlow hhigh =>
    cases hother with
    | error _ hrest' hlow' hhigh' =>
      rw [hstops (hrest.symm.trans hrest') hlow hhigh hlow' hhigh']
    | overrun hoverrun => exact (Bool.false_ne_true (hcause.symm.trans hoverrun)).elim
  | overrun hcause =>
    cases hother with
    | error hother => exact (Bool.false_ne_true (hother.symm.trans hcause)).elim
    | overrun => rfl

/-- Two ends of first parts match in what comes behind, if it does so from every position that the
first can come to. -/
theorem bind {first : Cursor α} {first' : Reader α} {rest : List Token} {next : α → Cursor β}
    {next' : α → Reader β} (h : Matches tokens start (first tokens start) (first' rest))
    (hnext : ∀ value middle, start ≤ middle → middle ≤ max start tokens.length →
      Matches tokens middle (next value tokens middle) (next' value (tokens.drop middle))) :
    Matches tokens start ((first >>= next) tokens start) ((first' >>= next') rest) := by
  generalize hrun : first tokens start = one at h
  generalize hread : first' rest = other at h
  cases h with
  | ok hrest hlow hhigh =>
    rw [bind_of_ok hrun, Stateful.bind_of_ok hread, hrest]
    exact (hnext _ _ hlow hhigh).of_later hlow hhigh
  | error hcause hrest hlow hhigh =>
    rw [bind_of_error hrun, Stateful.bind_of_error hread]
    exact .error hcause hrest hlow hhigh
  | overrun hcause =>
    rw [bind_of_error hrun, Stateful.bind_of_error hread]
    exact .overrun hcause

end Matches

/-- With fewer than `size` tokens left, the cursor comes to the end that the reader comes to, and it
looks one token ahead. -/
structure Follows (size : Nat) (cursor : Cursor α) (reader : Nat → Reader α) : Prop where
  ends : ∀ tokens start, tokens.length - start < size →
    Matches tokens start (cursor tokens start) (reader (endOfTokens tokens) (tokens.drop start))
  near : cursor.Near

/-- There is a token at a position, and it begins what is left, or nothing is left. -/
theorem next_cases (tokens : List Token) (start : Nat) :
    (tokens[start]? = none ∧ tokens.drop start = [] ∧ tokens.length ≤ start) ∨
      ∃ token, tokens[start]? = some token ∧
        tokens.drop start = token :: tokens.drop (start + 1) ∧ start < tokens.length := by
  obtain hlt | hge := Nat.lt_or_ge start tokens.length
  · exact .inr ⟨tokens[start], List.getElem?_eq_getElem hlt, List.drop_eq_getElem_cons hlt, hlt⟩
  · exact .inl ⟨List.getElem?_eq_none hge, List.drop_eq_nil_of_le hge, hge⟩

/-! ### Steps -/

section

variable {tokens : List Token} {start : Nat} {texts : List String}

theorem nextIsAny_apply : nextIsAny texts tokens start =
    .ok (tokens[start]?.any fun token ↦ texts.any token.isWord) start := rfl

/-- A word that is next is consumed. -/
theorem matchNext_of_true (h : (tokens[start]?.any fun token ↦ texts.any token.isWord) = true) :
    matchNext texts tokens start = .ok true (start + 1) := by
  refine (bind_of_ok nextIsAny_apply).trans ?_
  rw [h]
  rfl

/-- A word that is not next is not consumed, nor is the end of the tokens. -/
theorem matchNext_of_false (h : (tokens[start]?.any fun token ↦ texts.any token.isWord) = false) :
    matchNext texts tokens start = .ok false start := by
  refine (bind_of_ok nextIsAny_apply).trans ?_
  rw [h]
  rfl

/-- A word that was found is behind the cursor. -/
theorem lt_of_matchNext {stop : Nat} (h : matchNext texts tokens start = .ok true stop) :
    start < stop := by
  cases hfound : tokens[start]?.any fun token ↦ texts.any token.isWord with
  | false =>
    rw [matchNext_of_false hfound] at h
    cases h
  | true =>
    rw [matchNext_of_true hfound] at h
    cases h
    exact Nat.lt_succ_self start

/-- The token before the cursor is the one that was consumed last. -/
theorem previous_apply {token : Token} (h : tokens[start]? = some token) :
    previous tokens (start + 1) = .ok token (start + 1) := by
  have hget : (get : Cursor Nat) tokens (start + 1) = .ok (start + 1) (start + 1) := rfl
  have hread : (read : Cursor (List Token)) tokens (start + 1) = .ok tokens (start + 1) := rfl
  refine (bind_of_ok hget).trans ((bind_of_ok hread).trans ?_)
  rw [h]
  rfl

theorem any_isWord (text : String) :
    (fun token : Token ↦ [text].any token.isWord) = fun token ↦ token.isWord text := by
  funext token
  exact Bool.or_false _

/-- A word that is required and next is consumed. -/
theorem consume_of_isWord {text : String} {token : Token} (h : tokens[start]? = some token)
    (hword : token.isWord text = true) : consume text tokens start = .ok token (start + 1) := by
  have hfound : (tokens[start]?.any fun token ↦ [text].any token.isWord) = true := by
    rw [any_isWord, h]
    exact hword
  exact (bind_of_ok (matchNext_of_true hfound)).trans (previous_apply h)

/-- A word that is required and not next is reported with the token that is. -/
theorem consume_of_not_isWord {text : String}
    (h : (tokens[start]?.any fun token ↦ token.isWord text) = false) :
    consume text tokens start = expected s!"'{text}'" tokens start :=
  bind_of_ok (matchNext_of_false (any_isWord text ▸ h))

theorem peek_eq {next : Option Token} (h : tokens[start]? = next) :
    peek tokens start = .ok next start := h ▸ rfl

theorem offset_of_some {token : Token} (h : tokens[start]? = some token) :
    offset tokens start = .ok token.offset start :=
  (bind_of_ok (peek_eq h)).trans rfl

theorem offset_of_none (h : tokens[start]? = none) :
    offset tokens start = .ok (endOfTokens tokens) start :=
  (bind_of_ok (peek_eq h)).trans rfl

/-- The token that is there instead is part of the report. -/
theorem expected_of_some {what : String} {token : Token} (h : tokens[start]? = some token) :
    (expected what : Cursor α) tokens start =
      .error (.failed (.expectedToken what token.text token.offset)) start :=
  (bind_of_ok (peek_eq h)).trans rfl

/-- At the end of the tokens their end is reported. -/
theorem expected_of_none {what : String} (h : tokens[start]? = none) :
    (expected what : Cursor α) tokens start =
      .error (.failed (.unexpectedEnd what (endOfTokens tokens))) start :=
  (bind_of_ok (peek_eq h)).trans (bind_of_ok (offset_of_none h))

/-- A name that is next is consumed. -/
theorem identifier_of_isName {token : Token} (h : tokens[start]? = some token)
    (hname : token.isName = true) : identifier tokens start = .ok token.text (start + 1) := by
  refine (bind_of_ok (peek_eq h)).trans ?_
  dsimp only
  rw [if_pos hname]
  rfl

/-- A name that is missing is reported, and the token is not consumed. -/
theorem identifier_of_not_isName (h : tokens[start]?.any Token.isName = false) :
    identifier tokens start = expected "an identifier" tokens start := by
  cases hnext : tokens[start]? with
  | none => exact bind_of_ok (peek_eq hnext)
  | some token =>
    rw [hnext, Option.any_some] at h
    refine (bind_of_ok (peek_eq hnext)).trans ?_
    dsimp only
    rw [if_neg (Bool.eq_false_iff.mp h)]

end

/-- A word in quotation marks is never the text for a missing operand. -/
theorem quoted_ne (text : String) : s!"'{text}'" ≠ "an expression" := by
  intro h
  have hhead := congrArg (fun text ↦ text.toList.head?) h
  simp only [String.toList_append, List.head?_append] at hhead
  cases hhead

/-- Reporting a missing token is no success. -/
theorem expected_ne_ok (what : String) (tokens : List Token) (start : Nat) (value : α)
    (stop : Nat) : (expected what : Cursor α) tokens start ≠ .ok value stop := by
  intro hrun
  cases hnext : tokens[start]? with
  | none =>
    rw [expected_of_none hnext] at hrun
    cases hrun
  | some token =>
    rw [expected_of_some hnext] at hrun
    cases hrun

/-- Behind a missing token nothing is read. -/
theorem expected_bind (what : String) (next : α → Cursor β) :
    expected what >>= next = expected what := by
  funext tokens start
  cases hnext : tokens[start]? with
  | none => rw [expected_of_none hnext, bind_of_error (expected_of_none hnext)]
  | some token => rw [expected_of_some hnext, bind_of_error (expected_of_some hnext)]

namespace Near

/-- Testing the next token looks at it alone. -/
theorem nextIsAny (texts : List String) : Near (nextIsAny texts) := by
  intro tokens start value stop hrun
  rw [nextIsAny_apply] at hrun
  cases hrun
  exact ⟨Nat.le_refl _, fun others hothers ↦
    by rw [nextIsAny_apply, hothers start (Nat.le_refl _) (Nat.le_refl _)]⟩

theorem matchNext (texts : List String) : Near (matchNext texts) := by
  refine (nextIsAny texts).bind fun found ↦ ?_
  cases found with
  | false => exact .pure false
  | true =>
    intro tokens start value stop hrun
    cases hrun
    exact ⟨Nat.le_succ _, fun _ _ ↦ rfl⟩

/-- Reading a name looks at one token. -/
theorem identifier : Near identifier := by
  intro tokens start value stop hrun
  cases hname : tokens[start]?.any Token.isName with
  | false =>
    rw [identifier_of_not_isName hname] at hrun
    exact (expected_ne_ok _ _ _ _ _ hrun).elim
  | true =>
    obtain ⟨token, hsome, hname⟩ := (Option.any_eq_true _ _).mp hname
    rw [identifier_of_isName hsome hname] at hrun
    cases hrun
    refine ⟨Nat.le_succ _, fun others hothers ↦ identifier_of_isName ?_ hname⟩
    rw [hothers start (Nat.le_refl _) (Nat.le_succ _), hsome]

/-- A required word looks at one token. -/
theorem consume (text : String) : Near (consume text) := by
  intro tokens start value stop hrun
  cases hfound : tokens[start]?.any fun token ↦ token.isWord text with
  | false =>
    rw [consume_of_not_isWord hfound] at hrun
    exact (expected_ne_ok _ _ _ _ _ hrun).elim
  | true =>
    obtain ⟨token, hsome, hword⟩ := (Option.any_eq_true _ _).mp hfound
    rw [consume_of_isWord hsome hword] at hrun
    cases hrun
    refine ⟨Nat.le_succ _, fun others hothers ↦ consume_of_isWord ?_ hword⟩
    rw [hothers start (Nat.le_refl _) (Nat.le_succ _), hsome]

/-- A name that is found has a position, so the end of the tokens is not asked for. -/
theorem offset_identifier {next : Nat → String → Cursor β}
    (hnext : ∀ offset name, Near (next offset name)) :
    Near (offset >>= fun offset ↦ Cursor.identifier >>= next offset) := by
  intro tokens start value stop hrun
  obtain ⟨offset, middle, hoffset, hlast⟩ := bind_eq_ok hrun
  cases hstart : tokens[start]? with
  | none =>
    rw [offset_of_none hstart] at hoffset
    cases hoffset
    obtain ⟨name, middle, hname, -⟩ := bind_eq_ok hlast
    rw [identifier_of_not_isName (hstart ▸ rfl)] at hname
    exact (expected_ne_ok _ _ _ _ _ hname).elim
  | some token =>
    rw [offset_of_some hstart] at hoffset
    cases hoffset
    obtain ⟨hle, hsame⟩ := (identifier.bind (hnext token.offset)) _ _ _ _ hlast
    refine ⟨hle, fun others hothers ↦ ?_⟩
    have hstart' := (hothers start (Nat.le_refl _) hle).trans hstart
    exact (bind_of_ok (offset_of_some hstart')).trans (hsame others hothers)

end Near

/-! ### One step of a cursor and one of a reader -/

/-- A test of the next token finds a token that passes it, or it fails, also at the end. -/
theorem found_cases (tokens : List Token) (start : Nat) (test : Token → Bool) :
    (tokens[start]?.any test = true ∧ ∃ token, tokens[start]? = some token ∧ test token = true ∧
      tokens.drop start = token :: tokens.drop (start + 1) ∧ start < tokens.length) ∨
      (tokens[start]?.any test = false ∧
        ∀ token ∈ (tokens.drop start).head?, test token = false) := by
  rw [List.head?_drop]
  obtain ⟨hnone, -, -⟩ | ⟨token, hsome, hdrop, hlt⟩ := next_cases tokens start
  · exact .inr (hnone ▸ ⟨rfl, nofun⟩)
  · rw [hsome]
    cases htest : test token with
    | true => exact .inl ⟨htest, token, rfl, htest, hdrop, hlt⟩
    | false =>
      refine .inr ⟨htest, ?_⟩
      rintro _ ⟨⟩
      exact htest

section

variable {tokens : List Token} {start : Nat} {text : String}

/-- Only what is behind a word needs to be followed there. -/
theorem matchNext_ends {next : Bool → Cursor β} {next' : Bool → Reader β}
    (htrue : ∀ token, tokens[start]? = some token → token.isWord text = true →
      Matches tokens (start + 1) (next true tokens (start + 1))
        (next' true (tokens.drop (start + 1))))
    (hfalse : (tokens[start]?.any fun token ↦ token.isWord text) = false →
      (∀ token ∈ (tokens.drop start).head?, token.isWord text = false) →
      Matches tokens start (next false tokens start) (next' false (tokens.drop start))) :
    Matches tokens start ((matchNext [text] >>= next) tokens start)
      ((Reader.accept text >>= next') (tokens.drop start)) := by
  obtain ⟨hfound, token, hsome, hword, hdrop, hlt⟩ | ⟨hfound, hhead⟩ :=
    found_cases tokens start fun token ↦ token.isWord text
  · rw [bind_of_ok (matchNext_of_true (any_isWord text ▸ hfound)), hdrop,
      Stateful.bind_of_ok (Reader.accept_of_isWord hword)]
    exact (htrue token hsome hword).of_later (Nat.le_succ _) (by omega)
  · rw [bind_of_ok (matchNext_of_false (any_isWord text ▸ hfound)),
      Stateful.bind_of_ok (Reader.accept_of_head hhead)]
    exact hfalse hfound hhead

end

namespace Follows

variable {size : Nat} {first : Cursor α} {first' : Nat → Reader α} {next : α → Cursor β}
  {next' : Nat → α → Reader β}

theorem mono {smaller : Nat} (h : Follows size first first') (hle : smaller ≤ size) :
    Follows smaller first first' :=
  ⟨fun tokens start hsize ↦ h.ends tokens start (Nat.lt_of_lt_of_le hsize hle), h.near⟩

theorem pure (value : α) : Follows size (pure value) fun _ ↦ Pure.pure value :=
  ⟨fun _ _ _ ↦ .ok rfl (Nat.le_refl _) (Nat.le_max_left _ _), .pure value⟩

/-- A failure other than that of a missing operand leaves the same tokens on both sides. -/
theorem fail {cause : ParseError} (hcause : cause.overruns = false) :
    Follows size (fail cause : Cursor α) fun _ ↦ throw cause :=
  ⟨fun _ _ _ ↦ .error hcause rfl (Nat.le_refl _) (Nat.le_max_left _ _), .of_error nofun⟩

/-- A cursor in two parts follows a reader in two parts, since the second is left no more tokens. -/
theorem bind (h : Follows size first first')
    (hnext : ∀ value, Follows size (next value) fun stop ↦ next' stop value) :
    Follows size (first >>= next) fun stop ↦ first' stop >>= next' stop := by
  refine ⟨fun tokens start hsize ↦ ?_, h.near.bind fun value ↦ (hnext value).near⟩
  exact (h.ends tokens start hsize).bind fun value middle hlow _ ↦
    (hnext value).ends tokens middle (by omega)

theorem map (change : α → β) (h : Follows size first first') :
    Follows size (change <$> first) fun stop ↦ change <$> first' stop := by
  simp only [map_eq, Stateful.map_eq]
  exact h.bind fun value ↦ .pure (change value)

/-- A missing token is reported alike, except where an operand is missing, which moves the cursor
on. -/
theorem expected {what : String} (hwhat : what ≠ "an expression") :
    Follows size (expected what : Cursor α) fun stop ↦ Reader.expected stop what := by
  refine ⟨fun tokens start _ ↦ ?_, .of_error (expected_ne_ok what)⟩
  obtain ⟨hnone, hdrop, -⟩ | ⟨token, hsome, hdrop, -⟩ := next_cases tokens start
  · rw [expected_of_none hnone, hdrop]
    exact .error (beq_eq_false_iff_ne.mpr hwhat) hdrop.symm (Nat.le_refl _) (Nat.le_max_left _ _)
  · rw [expected_of_some hsome, hdrop]
    exact .error rfl hdrop.symm (Nat.le_refl _) (Nat.le_max_left _ _)

theorem nextIsAny (texts : List String) :
    Follows size (nextIsAny texts) fun _ ↦ Reader.nextIsAny texts := by
  refine ⟨fun tokens start _ ↦ ?_, .nextIsAny texts⟩
  have hhead : (tokens.drop start).head? = tokens[start]? := List.head?_drop
  rw [nextIsAny_apply, Reader.nextIsAny, hhead]
  exact .ok rfl (Nat.le_refl _) (Nat.le_max_left _ _)

/-- Whether there is a next token is what the reader asks the other way round. -/
theorem hasNext : Follows size hasNext fun _ ↦ (!·) <$> Reader.atEnd := by
  refine ⟨fun tokens start _ ↦ ?_, fun tokens start value stop hrun ↦ ?_⟩
  · have hnext : decide (start < tokens.length) = !(tokens.drop start).isEmpty := by
      obtain ⟨-, hdrop, hle⟩ | ⟨token, -, hdrop, hlt⟩ := next_cases tokens start
      · rw [hdrop]
        exact decide_eq_false (Nat.not_lt.mpr hle)
      · rw [hdrop]
        exact decide_eq_true hlt
    have hrun : Cursor.hasNext tokens start = .ok (decide (start < tokens.length)) start := rfl
    rw [hrun, hnext]
    exact .ok rfl (Nat.le_refl _) (Nat.le_max_left _ _)
  · cases hrun
    refine ⟨Nat.le_refl _, fun others hothers ↦ ?_⟩
    have hnext := hothers start (Nat.le_refl _) (Nat.le_refl _)
    have hlength : start < others.length ↔ start < tokens.length := by
      rw [← Nat.not_le, ← Nat.not_le, ← List.getElem?_eq_none_iff, ← List.getElem?_eq_none_iff,
        hnext]
    change EStateM.Result.ok (decide (start < others.length)) start = .ok _ _
    rw [decide_eq_decide.mpr hlength]

/-- What depends on whether there is a next token may be compared for either answer. -/
theorem hasNext_bind {next : Bool → Cursor β} {next' : Nat → Bool → Reader β}
    (hnext : ∀ ended, Follows size (next !ended) fun stop ↦ next' stop ended) :
    Follows size (Cursor.hasNext >>= next) fun stop ↦ Reader.atEnd >>= next' stop := by
  have hmore (more : Bool) : Follows size (next more) fun stop ↦ next' stop !more := by
    have hended := hnext !more
    rwa [Bool.not_not] at hended
  have hbind := hasNext.bind hmore
  simpa only [bind_map_left, Bool.not_not] using hbind

/-- What is read behind a word is read from fewer tokens. -/
theorem matchNext_then {text : String} {other : Cursor α} {other' : Nat → Reader α}
    (h : Follows size first first') (hother : Follows (size + 1) other other') :
    Follows (size + 1) (matchNext [text] >>= fun found ↦ if found = true then first else other)
      fun stop ↦ Reader.accept text >>= fun found ↦
        if found = true then first' stop else other' stop := by
  refine ⟨fun tokens start hsize ↦ matchNext_ends (fun token hsome _ ↦ ?_) fun _ _ ↦ ?_,
    (Near.matchNext [text]).bind fun found ↦ ?_⟩
  · obtain ⟨hlt, -⟩ := List.getElem?_eq_some_iff.mp hsome
    exact h.ends tokens (start + 1) (by omega)
  · exact hother.ends tokens start hsize
  · cases found with
    | true => exact h.near
    | false => exact hother.near

/-- Reading a word, if it is next, is the same for both. -/
theorem matchNext (text : String) :
    Follows size (matchNext [text]) fun _ ↦ Reader.accept text := by
  refine ⟨fun tokens start _ ↦ ?_, .matchNext [text]⟩
  rw [← bind_pure (Cursor.matchNext [text]), ← bind_pure (Reader.accept text)]
  exact matchNext_ends (fun _ _ _ ↦ .ok rfl (Nat.le_refl _) (Nat.le_max_left _ _))
    fun _ _ ↦ .ok rfl (Nat.le_refl _) (Nat.le_max_left _ _)

/-- A part behind a word is left fewer tokens, so it may follow up to a smaller size. -/
theorem following {text : String} (h : Follows size first first') :
    Follows (size + 1) (following text first) fun stop ↦ Reader.following text (first' stop) :=
  .matchNext_then (h.map some) (.pure none)

/-- A required name is the same for both. -/
theorem identifier : Follows size identifier Reader.name := by
  refine ⟨fun tokens start hsize ↦ ?_, .identifier⟩
  obtain ⟨-, token, hsome, hname, hdrop, hlt⟩ | ⟨hfound, hhead⟩ :=
    found_cases tokens start Token.isName
  · rw [identifier_of_isName hsome hname, hdrop, Reader.name_of_isName hname]
    exact .ok rfl (Nat.le_succ _) (by omega)
  · have hexpected : Follows size (Cursor.expected "an identifier" : Cursor String)
      fun stop ↦ Reader.expected stop "an identifier" := expected (by decide)
    rw [identifier_of_not_isName hfound, Reader.name_of_head hhead]
    exact hexpected.ends tokens start hsize

/-- A required word is the same for both, but for its token. -/
theorem consume (text : String) : Follows size ((fun _ ↦ ()) <$> consume text)
    fun stop ↦ Reader.expectWord stop text := by
  refine ⟨fun tokens start hsize ↦ ?_, (Near.consume text).map _⟩
  rw [map_eq]
  obtain ⟨-, token, hsome, hword, hdrop, hlt⟩ | ⟨hfound, hhead⟩ :=
    found_cases tokens start fun token ↦ token.isWord text
  · rw [bind_of_ok (consume_of_isWord hsome hword), hdrop]
    have hread : Reader.expectWord (endOfTokens tokens) text (token :: tokens.drop (start + 1)) =
        .ok () (tokens.drop (start + 1)) :=
      Stateful.bind_of_ok (Reader.accept_of_isWord hword)
    rw [hread]
    exact .ok rfl (Nat.le_succ _) (by omega)
  · have hread : Reader.expectWord (endOfTokens tokens) text (tokens.drop start) =
        Reader.expected (endOfTokens tokens) s!"'{text}'" (tokens.drop start) :=
      Stateful.bind_of_ok (Reader.accept_of_head hhead)
    have hexpected : Follows size (Cursor.expected s!"'{text}'" : Cursor Unit)
      fun stop ↦ Reader.expected stop s!"'{text}'" := expected (quoted_ne text)
    have hrun : (Cursor.consume text >>= fun _ ↦ Pure.pure ()) tokens start =
        (Cursor.expected s!"'{text}'" : Cursor Unit) tokens start :=
      (bind_congr_run (consume_of_not_isWord hfound)).trans (by rw [expected_bind])
    rw [hrun, hread]
    exact hexpected.ends tokens start hsize

/-- A part behind a required word is left fewer tokens, so it may follow up to a smaller size. -/
theorem consume_then {text : String} (h : Follows size first first') :
    Follows size (Cursor.consume text >>= fun _ ↦ first)
      fun stop ↦ Reader.expectWord stop text >>= fun _ ↦ first' stop := by
  have hbind := (consume text).bind fun _ ↦ h
  rwa [bind_map_left] at hbind

/-- A name that is found has a position. -/
theorem offset_identifier {next : Nat → String → Cursor β} {next' : Nat → Nat → String → Reader β}
    (hnext : ∀ offset name, Follows size (next offset name) fun stop ↦ next' stop offset name) :
    Follows size (offset >>= fun offset ↦ Cursor.identifier >>= next offset) fun stop ↦
      Reader.position stop >>= fun offset ↦ Reader.name stop >>= next' stop offset := by
  refine ⟨fun tokens start hsize ↦ ?_,
    .offset_identifier fun offset name ↦ (hnext offset name).near⟩
  have hends (offset : Nat) := (identifier.bind (hnext offset)).ends tokens start hsize
  obtain ⟨hnone, hdrop, -⟩ | ⟨token, hsome, hdrop, -⟩ := next_cases tokens start
  · have hends := hends (endOfTokens tokens)
    rw [bind_of_ok (offset_of_none hnone)]
    rw [hdrop] at hends ⊢
    exact hends
  · have hends := hends token.offset
    rw [bind_of_ok (offset_of_some hsome)]
    rw [hdrop] at hends ⊢
    exact hends

end Follows

/-! ### Loops -/

section

variable {item : Reader (Option α)} {use : List α → Reader β} {bound rest after : List Token}

/-- A repetition with one more item is the item and the rest of the repetition. -/
theorem manyWithin_bind_of_some {token : Token} {head : α} (h : item rest = .ok (some head) after) :
    (Reader.manyWithin item (token :: bound) >>= use) rest =
      (Reader.manyWithin item bound >>= fun tail ↦ use (head :: tail)) after := by
  have hmany : Reader.manyWithin item (token :: bound) rest =
    (Reader.manyWithin item bound >>= fun tail ↦ pure (head :: tail)) after := Stateful.bind_of_ok h
  cases htail : Reader.manyWithin item bound after with
  | ok tail left =>
    have hread := hmany.trans (Stateful.bind_of_ok htail)
    rw [Stateful.bind_of_ok hread, Stateful.bind_of_ok htail]
  | error cause left =>
    have hread := hmany.trans (Stateful.bind_of_error htail)
    rw [Stateful.bind_of_error hread, Stateful.bind_of_error htail]

/-- A repetition whose item fails does so wherever it stands. -/
theorem manyWithin_bind_of_error {cause : ParseError} (hrest : rest ≠ [])
    (hbound : rest.length ≤ bound.length) (h : item rest = .error cause after) :
    (Reader.manyWithin item bound >>= use) rest = .error cause after :=
  Stateful.bind_of_error (Reader.manyWithin_of_error hrest h hbound)

end

/-- A loop looks one token ahead if each turn does. The induction is on the fuel. -/
theorem Near.repeatFrom {turn : σ → Cursor (Option σ)} (h : ∀ value, Near (turn value)) (fuel : Nat)
    (value : σ) : Near (repeatFrom turn fuel value) := by
  induction fuel generalizing value with
  | zero => exact .of_error nofun
  | succ fuel ih =>
    refine (h value).bind fun found ↦ ?_
    cases found with
    | some value => exact ih value
    | none => exact .pure value

section

variable {size : Nat} {turn : σ → Cursor (Option σ)} {item : Nat → Reader (Option α)}
  {step : σ → α → σ}
  (hturn : ∀ value, Follows size (turn value) fun stop ↦ Option.map (step value) <$> item stop)
  (hadvances : ∀ value, AdvancesIfSome (turn value)) (hend : ∀ stop, item stop [] = .ok none [])
include hturn hadvances hend

/-- A loop of turns comes to the end of a repetition of items, where each turn adds its item to what
is carried. The induction is on the fuel; each turn consumes a token, so the bound of the repetition
shrinks with it. -/
theorem repeatFrom_ends (tokens : List Token) (fuel : Nat) {start : Nat} {bound : List Token}
    (hsize : tokens.length - start < size) (hfuel : tokens.length - start < fuel)
    (hbound : tokens.length - start ≤ bound.length) (value : σ) :
    Matches tokens start (repeatFrom turn fuel value tokens start)
      ((Reader.manyWithin (item (endOfTokens tokens)) bound >>= fun items ↦
        pure (items.foldl step value)) (tokens.drop start)) := by
  induction fuel generalizing start bound value with
  | zero => exact (Nat.not_lt_zero _ hfuel).elim
  | succ fuel ih =>
    have hends := (hturn value).ends tokens start hsize
    have hleft : (tokens.drop start).length ≤ bound.length := List.length_drop ▸ hbound
    rw [Stateful.map_eq] at hends
    unfold Cursor.repeatFrom
    generalize hrun : turn value tokens start = result at hends
    cases hitem : item (endOfTokens tokens) (tokens.drop start) with
    | error cause rest =>
      have hrest : tokens.drop start ≠ [] := by
        intro hnil
        rw [hnil, hend] at hitem
        cases hitem
      rw [Stateful.bind_of_error hitem] at hends
      rw [manyWithin_bind_of_error hrest hleft hitem]
      cases hends with
      | error hcause hrest hlow hhigh =>
        rw [bind_of_error hrun]
        exact .error hcause hrest hlow hhigh
      | overrun hcause =>
        rw [bind_of_error hrun]
        exact .overrun hcause
    | ok found rest =>
      rw [Stateful.bind_of_ok hitem] at hends
      cases hends with
      | ok hrest hlow hhigh =>
        cases found with
        | none =>
          -- Without a bound there are no tokens, and the item ends there too.
          have hread : Reader.manyWithin (item (endOfTokens tokens)) bound (tokens.drop start) =
              .ok [] rest := by
            cases bound with
            | nil =>
              have hnil := List.eq_nil_of_length_eq_zero (Nat.le_zero.mp hleft)
              rw [hnil, hend] at hitem
              cases hitem
              rw [hnil]
              rfl
            | cons _ bound => exact Stateful.bind_of_ok hitem
          rw [bind_of_ok hrun, Stateful.bind_of_ok hread]
          exact .ok hrest hlow hhigh
        | some head =>
          -- A turn that goes on has consumed a token, which pays for fuel and bound.
          have hlt := hadvances value tokens start _ _ hrun
          cases bound with
          | nil =>
            have hnone : tokens.length - start = 0 := Nat.le_zero.mp hbound
            omega
          | cons _ bound =>
            rw [List.length_cons] at hbound
            rw [bind_of_ok hrun, manyWithin_bind_of_some hitem, hrest]
            exact (ih (by omega) (by omega) (by omega) (step value head)).of_later hlow hhigh

end

/-- A loop with enough fuel for all tokens follows a repetition. -/
theorem Follows.repeatFrom {size : Nat} {turn : σ → Cursor (Option σ)}
    {item : Nat → Reader (Option α)} {step : σ → α → σ}
    (hturn : ∀ value, Follows size (turn value) fun stop ↦ Option.map (step value) <$> item stop)
    (hadvances : ∀ value, AdvancesIfSome (turn value)) (hend : ∀ stop, item stop [] = .ok none [])
    {fuel : Nat} (hfuel : size ≤ fuel) (value : σ) :
    Follows size (repeatFrom turn fuel value) fun stop ↦
      Reader.many (item stop) >>= fun items ↦ Pure.pure (items.foldl step value) := by
  refine ⟨fun tokens start hsize ↦ ?_, .repeatFrom (fun value ↦ (hturn value).near) fuel value⟩
  have hbound : tokens.length - start ≤ (tokens.drop start).length :=
    Nat.le_of_eq List.length_drop.symm
  exact repeatFrom_ends hturn hadvances hend tokens fuel hsize (Nat.lt_of_lt_of_le hsize hfuel)
    hbound value

/-- A loop that puts what it reads at the end of a list. -/
theorem Follows.repeatFrom_append {size : Nat} {turn : List α → Cursor (Option (List α))}
    {item : Nat → Reader (Option α)}
    (hturn : ∀ values, Follows size (turn values) fun stop ↦
      Option.map (fun value ↦ values ++ [value]) <$> item stop)
    (hadvances : ∀ values, AdvancesIfSome (turn values)) (hend : ∀ stop, item stop [] = .ok none [])
    {fuel : Nat} (hfuel : size ≤ fuel) (values : List α) :
    Follows size (Cursor.repeatFrom turn fuel values) fun stop ↦
      (values ++ ·) <$> Reader.many (item stop) := by
  have happend (items : List α) :
      items.foldl (fun values value ↦ values ++ [value]) values = values ++ items := by
    induction items generalizing values with
    | nil => exact (List.append_nil values).symm
    | cons head tail ih => rw [List.foldl_cons, ih, List.append_assoc, List.singleton_append]
  have hfollows := Follows.repeatFrom hturn hadvances hend hfuel values
  simpa only [happend, ← Stateful.map_eq] using hfollows

end Cursor

end ScriptLang
