import ScriptLang.Proofs.Stateful
import ScriptLang.Proofs.Typing.Module
import ScriptLang.Session

/-!
Program texts that a session accepts and rejects. The tree of an accepted text is admitted by the
checker, and each parameter in it is written with a type. A rejected text has a cause that no run
can have.
-/

set_option autoImplicit false
set_option relaxedAutoImplicit false

namespace ScriptLang

theorem except_mapError_eq_ok {ε δ α : Type} {change : ε → δ} {first : Except ε α} {value : α} :
    first.mapError change = .ok value ↔ first = .ok value := by
  cases first <;> simp [Except.mapError]

namespace Reader

variable {α : Type} {property : α → Prop} {item : Reader (Option α)} {reader : Reader α}
  {tokens rest : List Token}

/-- What each item is like, all items that are read are like. -/
theorem manyWithin_forall
    (hitem : ∀ tokens found rest, item tokens = .ok (some found) rest → property found)
    {bound : List Token} {items : List α} (hread : manyWithin item bound tokens = .ok items rest) :
    ∀ found ∈ items, property found := by
  induction bound generalizing tokens items with
  | nil =>
    cases hread
    intro found hfound
    cases hfound
  | cons _ bound ih =>
    obtain ⟨head, middle, hhead, hread⟩ := Stateful.bind_eq_ok hread
    cases head with
    | none =>
      cases hread
      intro found hfound
      cases hfound
    | some head =>
      obtain ⟨tail, after, htail, hread⟩ := Stateful.bind_eq_ok hread
      cases hread
      intro found hfound
      obtain rfl | hfound := List.mem_cons.mp hfound
      · exact hitem _ _ _ hhead
      · exact ih htail found hfound

/-- What holds of a part holds of it behind its word. -/
theorem following_forall
    (hreader : ∀ tokens found rest, reader tokens = .ok found rest → property found)
    {text : String} {found : α} (hread : following text reader tokens = .ok (some found) rest) :
    property found := by
  obtain ⟨accepted, middle, -, hread⟩ := Stateful.bind_eq_ok hread
  cases accepted with
  | false => cases hread
  | true =>
    rw [if_pos rfl, Stateful.map_eq] at hread
    obtain ⟨value, after, hvalue, hread⟩ := Stateful.bind_eq_ok hread
    cases hread
    exact hreader _ _ _ hvalue

/-- A method that is read has as many names of parameters as types. -/
theorem method_paired {stop : Nat} {found : Method} (hread : method stop tokens = .ok found rest) :
    found.Paired := by
  obtain ⟨offset, _, -, hread⟩ := Stateful.bind_eq_ok hread
  obtain ⟨name, _, -, hread⟩ := Stateful.bind_eq_ok hread
  obtain ⟨_, _, -, hread⟩ := Stateful.bind_eq_ok hread
  obtain ⟨params, _, -, hread⟩ := Stateful.bind_eq_ok hread
  obtain ⟨returnType, _, -, hread⟩ := Stateful.bind_eq_ok hread
  obtain ⟨body, _, -, hread⟩ := Stateful.bind_eq_ok hread
  cases hread
  change (params.map Prod.snd).length = (params.map Prod.fst).length
  rw [List.length_map, List.length_map]

/-- All methods of a program that is read have as many names of parameters as types. -/
theorem program_paired {stop : Nat} {found : Program}
    (hread : program stop tokens = .ok found rest) :
    found.Paired := by
  obtain ⟨fields, _, -, hread⟩ := Stateful.bind_eq_ok hread
  obtain ⟨methods, _, hmethods, hread⟩ := Stateful.bind_eq_ok hread
  obtain ⟨ended, _, -, hread⟩ := Stateful.bind_eq_ok hread
  have : found.methods = methods := by
    cases ended with
    | true =>
      cases hread
      rfl
    | false =>
      obtain ⟨_, _, hfail, -⟩ := Stateful.bind_eq_ok hread
      unfold expected at hfail
      split at hfail <;> cases hfail
  rw [Program.Paired, this]
  exact manyWithin_forall (fun _ _ _ ↦ following_forall fun _ _ _ ↦ method_paired) hmethods

end Reader

/-- A program that is read from tokens is paired. -/
theorem Program.ofTokens_paired {tokens : List Token} {program : Program}
    (hprogram : Program.ofTokens tokens = .ok program) : program.Paired := by
  unfold ofTokens at hprogram
  split at hprogram
  · rename_i hread
    cases hprogram
    exact Reader.program_paired hread
  · cases hprogram

/-- A text that is accepted is read as a paired program which the check accepts. -/
theorem Program.ofCheckedText_eq_ok {context : TypeContext} {text : String} {program : Program}
    (haccepted : Program.ofCheckedText context text = .ok program) :
    program.Paired ∧ program.check context = .ok () := by
  obtain ⟨found, hfound, haccepted⟩ := except_bind_eq_ok.mp haccepted
  obtain ⟨⟨⟩, hcheck, haccepted⟩ := except_bind_eq_ok.mp haccepted
  cases haccepted
  obtain ⟨tokens, -, hprogram⟩ := except_bind_eq_ok.mp hfound
  exact ⟨ofTokens_paired (except_mapError_eq_ok.mp hprogram), except_mapError_eq_ok.mp hcheck⟩

/-- Whether a text with this cause was rejected before it ran. -/
def RunError.isRejection : RunError → Bool
  | lex _ => true
  | parse _ => true
  | typing _ => true
  | runtime _ => false
  | outOfFuel => false

theorem except_mapError_eq_error {ε δ α : Type} {change : ε → δ} {first : Except ε α} {cause : δ} :
    first.mapError change = .error cause ↔
      ∃ inner, first = .error inner ∧ change inner = cause := by
  cases first <;> simp [Except.mapError]

/-- A text that is not read is rejected before anything is run. -/
theorem Program.ofText_eq_error {text : String} {cause : RunError}
    (hrejected : Program.ofText text = .error cause) : cause.isRejection = true := by
  unfold ofText at hrejected
  obtain hscan | ⟨_, -, hparse⟩ := except_bind_eq_error.mp hrejected
  · obtain ⟨_, -, rfl⟩ := except_mapError_eq_error.mp hscan
    rfl
  · obtain ⟨_, -, rfl⟩ := except_mapError_eq_error.mp hparse
    rfl

/-- A text that is not accepted is rejected before anything is run. -/
theorem Program.ofCheckedText_eq_error {context : TypeContext} {text : String} {cause : RunError}
    (hrejected : Program.ofCheckedText context text = .error cause) : cause.isRejection = true := by
  unfold ofCheckedText at hrejected
  obtain htext | ⟨program, -, hrejected⟩ := except_bind_eq_error.mp hrejected
  · exact Program.ofText_eq_error htext
  · obtain hcheck | ⟨_, -, hpure⟩ := except_bind_eq_error.mp hrejected
    · obtain ⟨_, -, rfl⟩ := except_mapError_eq_error.mp hcheck
      rfl
    · cases hpure

namespace Session

variable {H : Type} [Host H] (session : Session H) (fuel : Nat)

/-- What a run fails with is no rejection, so the two can be told apart by the result. -/
theorem interpret_not_rejected (program : Program) {cause : RunError}
    (hresult : (session.interpret fuel program).1 = .error cause) : cause.isRejection = false := by
  unfold interpret at hresult
  split at hresult
  · cases hresult
  · rename_i interruption _ _
    cases hresult
    cases interruption <;> rfl

/-- A run fails before execution exactly where the text has no admitted tree. -/
theorem run_rejected_iff {text : String} {cause : RunError} :
    ((session.run fuel text).1 = .error cause ∧ cause.isRejection = true) ↔
      Program.ofCheckedText session.context text = .error cause := by
  unfold run
  cases haccepted : Program.ofCheckedText session.context text with
  | ok program =>
    refine ⟨fun h ↦ ?_, fun h ↦ by cases h⟩
    rw [session.interpret_not_rejected fuel program h.1] at h
    cases h.2
  | error other =>
    constructor
    · rintro ⟨hresult, -⟩
      cases hresult
      rfl
    · rintro ⟨rfl⟩
      exact ⟨rfl, Program.ofCheckedText_eq_error haccepted⟩

end Session

end ScriptLang
