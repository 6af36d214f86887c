import Mathlib
import ScriptLang.Proofs.Program.Following

/-!
A cursor that is used again and again, also behind errors and behind the end of the tokens. Every
call ends as the reader ends on the tokens that are left, with the same answer or error. No call
moves the position back, and what a call reads is decided by the tokens that it consumes and by the
next one.
-/

set_option autoImplicit false
set_option relaxedAutoImplicit false

namespace ScriptLang.Cursor

/-- The tokens that the reader leaves are those from the position on, also behind the end. -/
theorem Matches.cases_rest {α : Type} {tokens : List Token} {start : Nat}
    {result : EStateM.Result Halt Nat α} {result' : EStateM.Result ParseError (List Token) α}
    (h : Matches tokens start result result') : ∃ stop, start ≤ stop ∧
      ((∃ value, result = .ok value stop ∧ result' = .ok value (tokens.drop stop)) ∨
        ∃ cause, result = .error (.failed cause) stop ∧
          result' = .error cause (tokens.drop stop)) := by
  cases h with
  | ok hrest hstart _ => exact ⟨_, hstart, .inl ⟨_, rfl, hrest ▸ rfl⟩⟩
  | error _ hrest hstart _ => exact ⟨_, hstart, .inr ⟨_, rfl, hrest ▸ rfl⟩⟩
  | overrun _ =>
    have hnil : tokens.drop (max start tokens.length + 1) = [] :=
      List.drop_eq_nil_of_le (by omega)
    exact ⟨_, by omega, .inr ⟨_, rfl, hnil ▸ rfl⟩⟩

/-- Each request is answered by its reader on the tokens that are left. -/
theorem answer_follows (fuel : Nat) (request : Reader.Request) :
    Follows fuel (answer fuel request) fun stop ↦ request.reader stop := by
  cases request with
  | expression => exact (expression_follows fuel).map Reader.Answer.expression
  | program => exact (program_follows fuel).map Reader.Answer.program

section

variable {tokens : List Token} {fuel : Nat}

/-- With enough fuel a request at any position is answered as its reader answers on the tokens from
there. -/
theorem answer_matches (hfuel : tokens.length < fuel) (request : Reader.Request) (start : Nat) :
    Matches tokens start (answer fuel request tokens start)
      (request.reader (endOfTokens tokens) (tokens.drop start)) :=
  (answer_follows fuel request).ends tokens start (Nat.lt_of_le_of_lt (Nat.sub_le _ _) hfuel)

/-- More fuel than there are tokens is enough. -/
theorem answer_fuel_eq (hfuel : tokens.length < fuel) {fuel' : Nat} (hfuel' : tokens.length < fuel')
    (request : Reader.Request) (start : Nat) :
    answer fuel' request tokens start = answer fuel request tokens start :=
  (answer_matches hfuel' request start).eq (answer_matches hfuel request start)

/-- What was read between two positions depends on the tokens up to the end of it, and on no later
one. -/
theorem answer_local (hfuel : tokens.length < fuel) {request : Reader.Request} {start stop : Nat}
    {read : Reader.Answer} (hread : answer fuel request tokens start = .ok read stop)
    {others : List Token} {fuel' : Nat} (hfuel' : others.length < fuel')
    (hothers : ∀ index, start ≤ index → index ≤ stop → others[index]? = tokens[index]?) :
    answer fuel' request others start = .ok read stop := by
  -- With one fuel for both lists the cursor takes the same steps.
  let most := max fuel fuel'
  have hmost : tokens.length < most := Nat.lt_of_lt_of_le hfuel (Nat.le_max_left _ _)
  have hmost' : others.length < most := Nat.lt_of_lt_of_le hfuel' (Nat.le_max_right _ _)
  have hread' := (answer_fuel_eq hfuel hmost request start).trans hread
  rw [answer_fuel_eq hmost' hfuel']
  exact ((answer_follows most request).near tokens start read stop hread').2 others hothers

/-- A request for an expression consumes a token, and never more than there are. -/
theorem answer_expression_advances (hfuel : tokens.length < fuel) {start stop : Nat}
    {read : Reader.Answer} (hread : answer fuel .expression tokens start = .ok read stop) :
    start < stop ∧ stop ≤ tokens.length := by
  have hmatches := answer_matches hfuel .expression start
  rw [hread] at hmatches
  have hlt : start < stop :=
    (expression_advances fuel).map Reader.Answer.expression tokens start read stop hread
  generalize Reader.Request.reader _ _ _ = result at hmatches
  cases hmatches with
  | ok _ _ hstop => exact ⟨hlt, by omega⟩

/-! ### Calls in a row -/

/-- Each call of a history is answered as a request at its position alone. -/
theorem callsFrom_result (requests : List Reader.Request) (start : Nat) :
    ∀ call ∈ callsFrom fuel tokens requests start,
      call.result = answer fuel call.request tokens call.start := by
  induction requests generalizing start with
  | nil => exact nofun
  | cons request requests ih => exact List.forall_mem_cons.mpr ⟨rfl, ih _⟩

/-- More fuel than there are tokens changes nothing in a history of requests. -/
theorem callsFrom_fuel_eq (hfuel : tokens.length < fuel) {fuel' : Nat}
    (hfuel' : tokens.length < fuel') (requests : List Reader.Request) (start : Nat) :
    callsFrom fuel' tokens requests start = callsFrom fuel tokens requests start := by
  induction requests generalizing start with
  | nil => rfl
  | cons request requests ih =>
    rw [callsFrom, callsFrom, answer_fuel_eq hfuel hfuel', ih]

/-- Requests one after another are answered as by readers on the tokens that each has left to the
next. -/
theorem callsFrom_outcome (hfuel : tokens.length < fuel) (requests : List Reader.Request)
    (start : Nat) :
    (callsFrom fuel tokens requests start).map Call.outcome =
      (Reader.answersFrom (endOfTokens tokens) requests (tokens.drop start)).map
        (Except.mapError Halt.failed) := by
  induction requests generalizing start with
  | nil => rfl
  | cons request requests ih =>
    rw [callsFrom, Reader.answersFrom]
    obtain ⟨stop, -, ⟨read, hrun, hread⟩ | ⟨cause, hrun, hread⟩⟩ :=
      (answer_matches hfuel request start).cases_rest
    · rw [hrun, hread]
      exact congrArg _ (ih stop)
    · rw [hrun, hread]
      exact congrArg _ (ih stop)

end

/-- With more fuel than there are tokens, however much, a cursor over any tokens answers any
requests as a reader does. Each call ends as the reader ends on the tokens from its position on,
with an answer or with an error of the grammar and never with a fault of the cursor, and not before
the position at which it began. An expression that is read has a token and ends within the tokens.
An answer stays the same whatever stands before the call and behind the token next to its end. -/
theorem calls_sound {tokens : List Token} {fuel : Nat} (hfuel : tokens.length < fuel)
    (requests : List Reader.Request) :
    (calls fuel tokens requests).map Call.outcome =
        (Reader.answers requests tokens).map (Except.mapError Halt.failed) ∧
      (∀ more, tokens.length < more → calls more tokens requests = calls fuel tokens requests) ∧
      ∀ call ∈ calls fuel tokens requests,
        let read := call.request.reader (endOfTokens tokens) (tokens.drop call.start)
        ((∃ answer, call.result = .ok answer call.stop ∧
            read = .ok answer (tokens.drop call.stop)) ∨
          ∃ cause, call.result = .error (.failed cause) call.stop ∧
            read = .error cause (tokens.drop call.stop)) ∧
        call.start ≤ call.stop ∧
        ∀ answer, call.result = .ok answer call.stop →
          (call.request = .expression → call.start < call.stop ∧ call.stop ≤ tokens.length) ∧
          ∀ (others : List Token) (enough : Nat), others.length < enough →
            (∀ index, call.start ≤ index → index ≤ call.stop → others[index]? = tokens[index]?) →
            Cursor.answer enough call.request others call.start = .ok answer call.stop := by
  refine ⟨callsFrom_outcome hfuel requests 0,
    fun more hmore ↦ callsFrom_fuel_eq hfuel hmore requests 0, fun call hcall ↦ ?_⟩
  have hresult : call.result = answer fuel call.request tokens call.start :=
    callsFrom_result requests 0 call hcall
  intro read
  obtain ⟨stop, hstart, hended⟩ := (answer_matches hfuel call.request call.start).cases_rest
  rw [← hresult] at hended
  have hstop : call.stop = stop := by
    unfold Call.stop
    obtain ⟨answer, hrun, -⟩ | ⟨cause, hrun, -⟩ := hended <;> rw [hrun]
  rw [hstop]
  refine ⟨hended, hstart, fun answer hread ↦ ⟨fun hrequest ↦ ?_, fun others enough henough ↦ ?_⟩⟩
  · rw [hresult, hrequest] at hread
    exact answer_expression_advances hfuel hread
  · rw [hresult] at hread
    exact answer_local hfuel hread henough

/-- Tokens that no text has. The calls go on behind errors and behind the end, and the expression in
the middle is read alike from any tokens that have those four at its place. -/
theorem calls_sound_malformed :
    let tokens : List Token := [⟨.operator, ")", 7⟩, ⟨.integer, "x", 7⟩, ⟨.identifier, "a", 3⟩,
      ⟨.operator, "<=", 0⟩, ⟨.identifier, "b", 9⟩, ⟨.character, "+", 1⟩]
    let requests := [.expression, .expression, .expression, .expression, .expression, .program]
    tokens.length < 7 ∧
      (calls 7 tokens requests).map (fun call ↦ (call.start, call.stop, call.outcome.isOk)) =
        [(0, 1, false), (1, 2, false), (2, 5, true), (5, 6, false), (6, 7, false), (7, 7, true)] ∧
      ∀ (others : List Token) (enough : Nat), others.length < enough →
        (∀ index, 2 ≤ index → index ≤ 5 → others[index]? = tokens[index]?) →
        answer enough .expression others 2 = .ok (.expression (.binary ⟨0, none⟩ .lessEqual
          (.access ⟨3, none⟩ "a" none) (.access ⟨9, none⟩ "b" none))) 5 := by
  intro tokens requests
  refine ⟨by decide, by cbv, ?_⟩
  have hthird : (calls 7 tokens requests)[2]? = some ⟨.expression, 2, .ok (.expression
      (.binary ⟨0, none⟩ .lessEqual (.access ⟨3, none⟩ "a" none)
        (.access ⟨9, none⟩ "b" none))) 5⟩ := by cbv
  obtain ⟨-, -, hcalls⟩ := @calls_sound tokens 7 (by decide) requests
  obtain ⟨-, -, hread⟩ := hcalls _ (List.mem_of_getElem? hthird)
  exact (hread _ rfl).2

end ScriptLang.Cursor
