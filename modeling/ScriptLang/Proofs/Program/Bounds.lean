import ScriptLang.Program.OfTokens
import ScriptLang.Proofs.Stateful

/-!
The bounds on the depth of nesting do not matter. A reader that goes down into itself is called with
fewer tokens than it was given, so any bound with as many tokens as are left gives the same result,
and readers of expressions and statements satisfy their grammar rules as equations.
-/

set_option autoImplicit false
set_option relaxedAutoImplicit false

namespace ScriptLang.Reader

variable {α β : Type}

/-- A test of the next token fails, also at the end, or there is a token that passes it. -/
theorem next_cases (test : Token → Bool) (tokens : List Token) :
    (∀ token ∈ tokens.head?, test token = false) ∨
      ∃ token rest, tokens = token :: rest ∧ test token = true := by
  cases tokens with
  | nil => exact .inl (by simp)
  | cons token tokens =>
    cases hfound : test token with
    | true => exact .inr ⟨token, tokens, rfl, hfound⟩
    | false => exact .inl (by simpa using hfound)

section

variable {token : Token} {rest : List Token}

theorem accept_of_isWord {text : String} (h : token.isWord text = true) :
    accept text (token :: rest) = .ok true rest := if_pos h

theorem accept_of_not_isWord {text : String} (h : token.isWord text = false) :
    accept text (token :: rest) = .ok false (token :: rest) := if_neg (Bool.eq_false_iff.mp h)

/-- An operator is read if the next token spells one of those that are looked for. -/
theorem acceptOperator_cons (ops : List BinaryOp) :
    acceptOperator ops (token :: rest) =
      match ops.find? fun op ↦ token.isWord op.lexeme with
      | some op => .ok (some (op, token.offset)) rest
      | none => .ok none (token :: rest) := rfl

theorem name_of_isName {stop : Nat} (h : token.isName = true) :
    name stop (token :: rest) = .ok token.text rest := if_pos h

/-- A name is missing where the next token is none, and the token is not consumed. -/
theorem name_of_not_isName {stop : Nat} (h : token.isName = false) :
    name stop (token :: rest) = expected stop "an identifier" (token :: rest) :=
  if_neg (Bool.eq_false_iff.mp h)

end

section

variable {item : Reader (Option α)} {bound tokens first later : List Token}

/-- A repetition ends before the first item that is not there. -/
theorem manyWithin_of_none (h : item tokens = .ok none tokens) :
    manyWithin item bound tokens = .ok [] tokens := by
  cases bound with
  | nil => rfl
  | cons _ bound => exact Stateful.bind_of_ok h

/-- What an item consumes may be taken off the bound. -/
theorem length_le_of_item {token : Token} (hfirst : first ≠ [])
    (hbound : (first ++ later).length ≤ (token :: bound).length) :
    later.length ≤ bound.length := by
  have hpositive := List.length_pos_iff.mpr hfirst
  rw [List.length_append, List.length_cons] at hbound
  omega

/-- An item that is there shortens what is left, so the bound of a repetition is enough for all
items. -/
theorem manyWithin_of_some {head : α} (h : item (first ++ later) = .ok (some head) later)
    (hfirst : first ≠ []) (hbound : (first ++ later).length ≤ bound.length) :
    ∃ shorter : List Token, later.length ≤ shorter.length ∧ manyWithin item bound (first ++ later) =
      (manyWithin item shorter >>= fun tail ↦ pure (head :: tail)) later := by
  cases bound with
  | nil =>
    have hnil := List.eq_nil_of_length_eq_zero (Nat.le_zero.mp hbound)
    exact (hfirst (List.append_eq_nil_iff.mp hnil).1).elim
  | cons _ bound => exact ⟨bound, length_le_of_item hfirst hbound, Stateful.bind_of_ok h⟩

/-- An item that fails ends the repetition with its failure. -/
theorem manyWithin_of_error {cause : ParseError} {rest : List Token} (htokens : tokens ≠ [])
    (h : item tokens = .error cause rest) (hbound : tokens.length ≤ bound.length) :
    manyWithin item bound tokens = .error cause rest := by
  cases bound with
  | nil => exact (htokens (List.eq_nil_of_length_eq_zero (Nat.le_zero.mp hbound))).elim
  | cons _ bound => exact Stateful.bind_of_error h

end

/-- On at most `size` tokens two readers do the same, and neither leaves more than it is given. -/
def Tracks (size : Nat) (first second : Reader α) : Prop :=
  ∀ tokens : List Token, tokens.length ≤ size → first tokens = second tokens ∧
    ∀ value rest, first tokens = .ok value rest → rest.length ≤ tokens.length

namespace Tracks

variable {stop size : Nat} {first second : Reader α}

theorem pure (value : α) : Tracks size (pure value) (pure value) := by
  refine fun tokens _ ↦ ⟨rfl, fun found rest hread ↦ ?_⟩
  cases hread
  exact Nat.le_refl _

/-- Readers that only fail agree as far as they are the same. -/
theorem of_error (h : ∀ tokens, ∃ cause rest, first tokens = .error cause rest) :
    Tracks size first first := by
  refine fun tokens _ ↦ ⟨rfl, fun found rest hread ↦ ?_⟩
  obtain ⟨cause, after, herror⟩ := h tokens
  rw [herror] at hread
  cases hread

/-- Readers may be put one after another, since the second is given no more tokens than the
first. -/
theorem bind {next next' : α → Reader β} (h : Tracks size first second)
    (hnext : ∀ value, Tracks size (next value) (next' value)) :
    Tracks size (first >>= next) (second >>= next') := by
  intro tokens hlength
  obtain ⟨heq, hrest⟩ := h tokens hlength
  cases hfirst : first tokens with
  | ok value middle =>
    have hmiddle := hrest value middle hfirst
    obtain ⟨hsame, hlast⟩ := hnext value middle (Nat.le_trans hmiddle hlength)
    rw [Stateful.bind_of_ok hfirst, Stateful.bind_of_ok (heq.symm.trans hfirst)]
    exact ⟨hsame, fun found rest hread ↦ Nat.le_trans (hlast found rest hread) hmiddle⟩
  | error cause middle =>
    rw [Stateful.bind_of_error hfirst, Stateful.bind_of_error (heq.symm.trans hfirst)]
    exact ⟨rfl, fun found rest hread ↦ by cases hread⟩

/-- Changing the value changes nothing of what is left. -/
theorem map (change : α → β) (h : Tracks size first second) :
    Tracks size (change <$> first) (change <$> second) := by
  rw [Stateful.map_eq, Stateful.map_eq]
  exact h.bind fun value ↦ .pure (change value)

theorem mono {other : Nat} (h : Tracks size first second) (hle : other ≤ size) :
    Tracks other first second := fun tokens hlength ↦ h tokens (Nat.le_trans hlength hle)

/-- A look at the next token leaves every token. -/
theorem peek (read : List Token → α) :
    Tracks size (fun tokens ↦ .ok (read tokens) tokens) fun tokens ↦ .ok (read tokens) tokens := by
  refine fun tokens _ ↦ ⟨rfl, fun found rest hread ↦ ?_⟩
  cases hread
  exact Nat.le_refl _

/-- Reading a word, if it is next, takes at most one token. -/
theorem accept (text : String) : Tracks size (accept text) (Reader.accept text) := by
  refine fun tokens _ ↦ ⟨rfl, fun found rest hread ↦ ?_⟩
  cases tokens with
  | nil =>
    cases hread
    exact Nat.le_refl _
  | cons token tokens =>
    cases hword : token.isWord text with
    | true =>
      rw [accept_of_isWord hword] at hread
      cases hread
      exact Nat.le_succ _
    | false =>
      rw [accept_of_not_isWord hword] at hread
      cases hread
      exact Nat.le_refl _

/-- What is read behind a word is read from fewer tokens. -/
theorem accept_then {text : String} {other other' : Reader α} (h : Tracks size first second)
    (hother : Tracks (size + 1) other other') :
    Tracks (size + 1) (Reader.accept text >>= fun found ↦ if found = true then first else other)
      (Reader.accept text >>= fun found ↦ if found = true then second else other') := by
  intro tokens hlength
  cases tokens with
  | nil => exact hother [] hlength
  | cons token tokens =>
    cases hword : token.isWord text with
    | true =>
      rw [Stateful.bind_of_ok (accept_of_isWord hword),
        Stateful.bind_of_ok (accept_of_isWord hword)]
      obtain ⟨hsame, hlast⟩ := h tokens (Nat.le_of_succ_le_succ hlength)
      exact ⟨hsame, fun found rest hread ↦ Nat.le_succ_of_le (hlast found rest hread)⟩
    | false =>
      rw [Stateful.bind_of_ok (accept_of_not_isWord hword),
        Stateful.bind_of_ok (accept_of_not_isWord hword)]
      exact hother _ hlength

/-- A part behind a word is given fewer tokens than there were, so it may be compared up to a
smaller size. -/
theorem following {text : String} (h : Tracks size first second) :
    Tracks (size + 1) (following text first) (Reader.following text second) :=
  accept_then (h.map some) (.pure none)

theorem expected (what : String) :
    Tracks size (Reader.expected stop what : Reader α) (Reader.expected stop what) :=
  of_error fun tokens ↦ by cases tokens <;> exact ⟨_, _, rfl⟩

/-- A required word takes one token or fails. -/
theorem expectWord (text : String) :
    Tracks size (Reader.expectWord stop text) (Reader.expectWord stop text) := by
  refine (accept text).bind fun found ↦ ?_
  cases found with
  | true => exact .pure ()
  | false => exact expected _

/-- A required name takes one token or fails. -/
theorem name : Tracks size (Reader.name stop) (Reader.name stop) := by
  refine fun tokens _ ↦ ⟨rfl, fun found rest hread ↦ ?_⟩
  cases tokens with
  | nil => cases hread
  | cons token tokens =>
    cases hname : token.isName with
    | true =>
      rw [name_of_isName hname] at hread
      cases hread
      exact Nat.le_succ _
    | false =>
      rw [name_of_not_isName hname] at hread
      cases hread

/-- Repetitions agree if their items do, by induction on the bound. -/
theorem manyWithin {item item' : Reader (Option α)} (h : Tracks size item item')
    (bound : List Token) : Tracks size (manyWithin item bound) (Reader.manyWithin item' bound) := by
  induction bound with
  | nil => exact .pure []
  | cons _ bound ih =>
    refine h.bind fun found ↦ ?_
    cases found with
    | none => exact .pure []
    | some head => exact ih.bind fun tail ↦ .pure (head :: tail)

theorem many {item item' : Reader (Option α)} (h : Tracks size item item') :
    Tracks size (many item) (Reader.many item') :=
  fun tokens hlength ↦ h.manyWithin tokens tokens hlength

end Tracks

/-! ### Expressions -/

section

variable {stop size : Nat} {first second : Reader Expr}

/-- A tier of operators agrees if its operands do. -/
theorem level_tracks (ops : List BinaryOp) (h : Tracks size first second) :
    Tracks size (level ops first) (level ops second) := by
  refine h.bind fun left ↦ .bind (.many ?_) fun operations ↦ .pure _
  have hoperator : Tracks size (acceptOperator ops) (acceptOperator ops) := by
    refine fun tokens _ ↦ ⟨rfl, fun found rest hread ↦ ?_⟩
    cases tokens with
    | nil =>
      cases hread
      exact Nat.le_refl _
    | cons token tokens =>
      rw [acceptOperator_cons] at hread
      split at hread <;> cases hread
      · exact Nat.le_succ _
      · exact Nat.le_refl _
  refine hoperator.bind fun found ↦ ?_
  cases found with
  | none => exact .pure none
  | some found => exact h.bind fun right ↦ .pure _

/-- Arguments agree if expressions do. -/
theorem arguments_tracks (h : Tracks size first second) :
    Tracks size (arguments stop first) (arguments stop second) := by
  refine .bind (.accept ")") fun found ↦ ?_
  cases found with
  | true => exact .pure []
  | false =>
    refine h.bind fun head ↦ .bind (.many ?_) fun others ↦ .bind (.accept ")") fun closed ↦ ?_
    · refine .bind (.peek _) fun comma ↦ .bind (.accept ",") fun found ↦ ?_
      cases found with
      | false => exact .pure none
      | true =>
        refine .bind (.peek _) fun trailing ↦ ?_
        cases trailing with
        | true => exact .of_error fun tokens ↦ ⟨_, _, rfl⟩
        | false => exact h.map some
    · cases closed with
      | true => exact .pure _
      | false => exact .bind (.expected _) fun _ ↦ .pure _

/-- What is attached by a dot is given fewer tokens, so its expressions may be compared up to a
smaller size. -/
theorem suffix_tracks (h : Tracks size first second) :
    Tracks (size + 1) (suffix stop first) (suffix stop second) := by
  refine .following (.bind (.peek _) fun offset ↦ .bind .name fun name ↦
    .bind ?_ fun args ↦ .pure _)
  exact (Tracks.following (arguments_tracks h)).mono (Nat.le_succ size)

/-- Operands that begin with the same token agree if expressions do on what is behind it. -/
theorem operandFrom_tracks (stop : Nat) (h : Tracks size first second) (token : Token) :
    Tracks size (operandFrom stop first token) (operandFrom stop second token) := by
  unfold operandFrom
  split
  · split
    · exact .pure _
    · split
      · exact .of_error fun tokens ↦ ⟨_, _, rfl⟩
      · refine .bind ((Tracks.following (arguments_tracks h)).mono (Nat.le_succ size)) fun args ↦ ?_
        cases args <;> exact .pure _
  · split
    · exact h.bind fun inner ↦ .bind (.expectWord _) fun _ ↦ .pure _
    · exact .of_error fun tokens ↦ ⟨_, _, rfl⟩
  all_goals
    split
    · exact .pure _
    · exact .of_error fun tokens ↦ ⟨_, _, rfl⟩

/-- An operand takes its first token, so its parts may be compared up to a smaller size. -/
theorem operand_tracks (h : Tracks size first second) :
    Tracks (size + 1) (operand stop first) (operand stop second) := by
  intro tokens hlength
  cases tokens with
  | nil => exact ⟨rfl, fun found rest hread ↦ by cases hread⟩
  | cons token tokens =>
    obtain ⟨hsame, hlast⟩ :=
      operandFrom_tracks stop h token tokens (Nat.le_of_succ_le_succ hlength)
    exact ⟨hsame, fun found rest hread ↦ Nat.le_succ_of_le (hlast found rest hread)⟩

/-- Expressions inside of parentheses have fewer tokens. -/
theorem levels_tracks (h : Tracks size first second) :
    Tracks (size + 1) (levels stop first) (levels stop second) := by
  have hsuffixed : Tracks (size + 1) (suffixed stop first) (suffixed stop second) :=
    (operand_tracks h).bind fun left ↦ .bind (.many (suffix_tracks h)) fun suffixes ↦ .pure _
  exact level_tracks _ (level_tracks _ (level_tracks _ (level_tracks _ hsuffixed)))

/-- Without any token an expression is missing. -/
theorem levels_nil : levels stop first [] = .error (.unexpectedEnd "an expression" stop) [] := by
  have hoperand : operand stop first [] = .error (.unexpectedEnd "an expression" stop) [] := rfl
  unfold levels level suffixed
  rw [Stateful.bind_of_error]
  rw [Stateful.bind_of_error]
  rw [Stateful.bind_of_error]
  rw [Stateful.bind_of_error]
  exact Stateful.bind_of_error hoperand

theorem expressionWithin_nil (bound : List Token) :
    expressionWithin stop bound [] = .error (.unexpectedEnd "an expression" stop) [] := by
  cases bound with
  | nil => rfl
  | cons token bound => exact levels_nil

/-- Two bounds with at least as many tokens as are left give the same expression. The induction is
on the size. -/
theorem expressionWithin_tracks {bound bound' : List Token} (hbound : size ≤ bound.length)
    (hbound' : size ≤ bound'.length) :
    Tracks size (expressionWithin stop bound) (expressionWithin stop bound') := by
  induction size generalizing bound bound' with
  | zero =>
    intro tokens hlength
    obtain rfl := List.eq_nil_of_length_eq_zero (Nat.le_zero.mp hlength)
    rw [expressionWithin_nil, expressionWithin_nil]
    exact ⟨rfl, fun found rest hread ↦ by cases hread⟩
  | succ size ih =>
    match bound, bound', hbound, hbound' with
    | _ :: bound, _ :: bound', hbound, hbound' =>
      exact levels_tracks
        (ih (Nat.le_of_succ_le_succ hbound) (Nat.le_of_succ_le_succ hbound'))

theorem expression_tracks : Tracks size (expression stop) (expression stop) :=
  fun tokens _ ↦ ⟨rfl,
    (expressionWithin_tracks (Nat.le_refl _) (Nat.le_refl _) tokens (Nat.le_refl _)).2⟩

/-- An expression has the levels of operators, over expressions inside of parentheses. -/
theorem expression_eq : expression stop = levels stop (expression stop) := by
  funext tokens
  cases tokens with
  | nil => exact (expressionWithin_nil []).trans levels_nil.symm
  | cons token tokens =>
    refine (levels_tracks (fun inner hinner ↦ ?_) _ (Nat.le_refl _)).1
    exact expressionWithin_tracks hinner (Nat.le_refl _) inner (Nat.le_refl _)

end

/-! ### Statements -/

section

variable {stop size : Nat} {first second : Reader Stmt}

/-- A declaration takes tokens from the front. -/
theorem binding_tracks : Tracks size (binding stop) (binding stop) := by
  refine .bind (.peek _) fun offset ↦ .bind .name fun name ↦ .bind ?_ fun typeName ↦
    .bind ?_ fun value ↦ .bind (.expectWord ";") fun _ ↦ .pure _
  · exact (Tracks.following .name).mono (Nat.le_succ size)
  · exact (Tracks.following expression_tracks).mono (Nat.le_succ size)

theorem expressionStatement_tracks :
    Tracks size (expressionStatement stop) (expressionStatement stop) := by
  refine expression_tracks.bind fun target ↦ .bind ?_ fun value ↦ .bind (.expectWord ";") fun _ ↦ ?_
  · exact (Tracks.following expression_tracks).mono (Nat.le_succ size)
  · cases value <;> exact .pure _

/-- Blocks agree if statements do. -/
theorem block_tracks (closers : List String) (h : Tracks size first second) :
    Tracks size (block first closers) (block second closers) := by
  refine .many (.bind (.peek _) fun ended ↦ ?_)
  cases ended with
  | true => exact .pure none
  | false =>
    refine .bind (.peek _) fun closed ↦ ?_
    cases closed with
    | true => exact .pure none
    | false => exact h.map some

/-- Blocks between DO and END agree if statements do. -/
theorem body_tracks (h : Tracks size first second) :
    Tracks size (body stop first) (body stop second) :=
  .bind (.expectWord "DO") fun _ ↦ .bind (block_tracks _ h) fun _ ↦
    .bind (.expectWord "END") fun _ ↦ .pure _

/-- Conditionals agree if statements do. -/
theorem branch_tracks (h : Tracks size first second) :
    Tracks size (branch stop first) (branch stop second) := by
  refine expression_tracks.bind fun condition ↦ .bind (.expectWord "DO") fun _ ↦
    .bind (block_tracks _ h) fun thenBody ↦ .bind ?_ fun elseBody ↦
      .bind (.expectWord "END") fun _ ↦ .pure _
  exact (Tracks.following (block_tracks _ h)).mono (Nat.le_succ size)

/-- Loops over a range agree if statements do. -/
theorem forEach_tracks (h : Tracks size first second) :
    Tracks size (forEach stop first) (forEach stop second) :=
  .bind (.peek _) fun _ ↦ .bind .name fun _ ↦ .bind (.expectWord "IN") fun _ ↦
    expression_tracks.bind fun _ ↦ .bind (body_tracks h) fun _ ↦ .pure _

/-- Statements inside of blocks have fewer tokens. -/
theorem nested_tracks (h : Tracks size first second) :
    Tracks (size + 1) (nested stop first) (nested stop second) :=
  .accept_then (binding_tracks.bind fun _ ↦ .pure _) (
    .accept_then (branch_tracks h) (
      .accept_then (forEach_tracks h) (
        .accept_then (expression_tracks.bind fun _ ↦ .bind (body_tracks h) fun _ ↦ .pure _) (
          .accept_then (expression_tracks.bind fun _ ↦ .bind (.expectWord ";") fun _ ↦ .pure _)
            expressionStatement_tracks))))

theorem nested_nil : nested stop first [] = .error (.unexpectedEnd "an expression" stop) [] := by
  have hnone (text : String) : accept text [] = .ok false [] := rfl
  refine (Stateful.bind_of_ok (hnone "LET")).trans ((Stateful.bind_of_ok (hnone "IF")).trans ?_)
  refine (Stateful.bind_of_ok (hnone "FOR")).trans ((Stateful.bind_of_ok (hnone "WHILE")).trans ?_)
  refine (Stateful.bind_of_ok (hnone "RETURN")).trans ?_
  exact Stateful.bind_of_error (expressionWithin_nil [])

theorem statementWithin_nil (bound : List Token) :
    statementWithin stop bound [] = .error (.unexpectedEnd "an expression" stop) [] := by
  cases bound with
  | nil => rfl
  | cons token bound => exact nested_nil

/-- Two bounds with at least as many tokens as are left give the same statement. The induction is on
the size. -/
theorem statementWithin_tracks {bound bound' : List Token} (hbound : size ≤ bound.length)
    (hbound' : size ≤ bound'.length) :
    Tracks size (statementWithin stop bound) (statementWithin stop bound') := by
  induction size generalizing bound bound' with
  | zero =>
    intro tokens hlength
    obtain rfl := List.eq_nil_of_length_eq_zero (Nat.le_zero.mp hlength)
    rw [statementWithin_nil, statementWithin_nil]
    exact ⟨rfl, fun found rest hread ↦ by cases hread⟩
  | succ size ih =>
    match bound, bound', hbound, hbound' with
    | _ :: bound, _ :: bound', hbound, hbound' =>
      exact nested_tracks
        (ih (Nat.le_of_succ_le_succ hbound) (Nat.le_of_succ_le_succ hbound'))

/-- A statement has statements inside of its blocks. -/
theorem statement_eq : statement stop = nested stop (statement stop) := by
  funext tokens
  cases tokens with
  | nil => exact (statementWithin_nil []).trans nested_nil.symm
  | cons token tokens =>
    refine (nested_tracks (fun inner hinner ↦ ?_) _ (Nat.le_refl _)).1
    exact statementWithin_tracks hinner (Nat.le_refl _) inner (Nat.le_refl _)

end

end ScriptLang.Reader
