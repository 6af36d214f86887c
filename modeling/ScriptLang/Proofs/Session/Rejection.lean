import Mathlib
import ScriptLang.Interpreter
import ScriptLang.Proofs.Session.Acceptance
import ScriptLang.Proofs.Session.History
import ScriptLang.Proofs.Typing.InPlace

/-!
A run that is rejected leaves nothing behind. The analyzer keeps the scopes of the programs it has
gone through, but none of them is seen from the scope of the host, so an interpreter answers every
request like a session whose checks have no state at all.
-/

set_option autoImplicit false
set_option relaxedAutoImplicit false

namespace ScriptLang

/-- Between programs: nothing is around the scope of the host. -/
def Analyzer.Ready (analyzer : Analyzer) : Prop :=
  analyzer.scopes.At 0 analyzer.context.globals []

namespace Analyzer

variable {analyzer after : Analyzer}

/-- A tree of one scope has nothing around the scope of the host. -/
theorem ready_root (records : Bindings String Ty) (returns : Option Ty) :
    Ready ⟨records, .root, returns⟩ :=
  ⟨[], rfl, fun _ h ↦ (by cases h), rfl⟩

namespace Ready

/-- A change of the scope of the host is a change of what programs are told. -/
theorem context_modify (h : analyzer.Ready) (change : TypeScope → TypeScope) :
    { analyzer with scopes := analyzer.scopes.modify 0 change }.context =
      { analyzer.context with globals := change analyzer.context.globals } := by
  unfold context
  rw [(ScopeTree.At.modify h change).scope?]
  rfl

/-- After a change of the scope of the host nothing is around it either. -/
theorem modify (h : analyzer.Ready) (change : TypeScope → TypeScope) :
    Ready { analyzer with scopes := analyzer.scopes.modify 0 change } := by
  unfold Ready
  rw [h.context_modify]
  exact ScopeTree.At.modify h change

/-- An analyzer that has kept its first scope is ready as before. -/
theorem kept (h : analyzer.Ready) (hkeeps : analyzer.Keeps 1 after) : after.Ready := by
  unfold Ready
  rw [hkeeps.context]
  exact ScopeTree.At.kept h fun other hother ↦ hkeeps.nodes other (Nat.lt_succ_of_le hother)

end Ready

theorem ready_initial : initial.Ready := ((ready_root {} none).modify _).modify _

/-- A new analyzer tells programs what a new session does. -/
theorem context_initial : initial.context = .initial := by
  have hroot := ready_root {} none
  have hprint := hroot.context_modify (·.declareFunction "print" 1 ⟨"print", [Ty.any], Ty.nil⟩)
  have hrange :=
    (hroot.modify (·.declareFunction "print" 1 ⟨"print", [Ty.any], Ty.nil⟩)).context_modify
    (·.declareFunction "range" 2 ⟨"range", [.integer, .integer], .range⟩)
  rw [hprint] at hrange
  exact hrange

end Analyzer

/-- Between programs a check in place goes like a check without a state, and what the host has made
known stays. -/
theorem Program.analyze_spec (program : Program) {analyzer : Analyzer} (h : analyzer.Ready) :
    (∃ after, program.analyze analyzer = .ok () after ∧ program.check analyzer.context = .ok () ∧
        analyzer.Keeps 1 after) ∨
      ∃ cause after, program.analyze analyzer = .error cause after ∧
        program.check analyzer.context = .error cause ∧ analyzer.Keeps 1 after := by
  have hagrees := program.analyze_agrees h
  generalize program.analyze analyzer = result at hagrees ⊢
  generalize program.check analyzer.context = verdict at hagrees ⊢
  cases hagrees with
  | ok hkeeps => exact .inl ⟨_, rfl, rfl, hkeeps⟩
  | error hkeeps => exact .inr ⟨_, _, rfl, rfl, hkeeps⟩

/-- What a host can ask of a session: any act, or the value of a variable. -/
inductive Request (H : Type)
  | act (act : Act H)
  | global (name : String)

/-- What a host is told. -/
inductive Answer
  | done
  | object (ref : ObjectRef)
  | result (result : Except RunError Value)
  | value (found : Option Value)

namespace Session

variable {H : Type} [Host H]

def answer (session : Session H) : Request H → Answer
  | .act (.addObject object) => .object (session.addObject object).1
  | .act (.interpret fuel program) => .result (session.interpret fuel program).1
  | .act (.run fuel text) => .result (session.run fuel text).1
  | .act _ => .done
  | .global name => .value (session.global? name)

def attend (session : Session H) : Request H → Session H
  | .act act => session.perform act
  | .global _ => session

/-- The answers to some requests, each with the state it leaves: all output, host variables, objects
and the module of the last program. -/
def answers (session : Session H) : List (Request H) → List (Answer × State H)
  | [] => []
  | head :: tail =>
    (session.answer head, (session.attend head).state) :: (session.attend head).answers tail

end Session

namespace Interpreter

variable {H : Type} [Host H]

def perform (interpreter : Interpreter H) : Act H → Interpreter H
  | .registerType type _ => interpreter.registerType type
  | .defineVariable name type _ value => interpreter.defineVariable name type value
  | .defineFunction signature _ body => interpreter.defineFunction signature body
  | .addObject object => (interpreter.addObject object).2
  | .interpret fuel program => (interpreter.interpret fuel program).2
  | .run fuel text => (interpreter.run fuel text).2

/-- The interpreter after some acts, performed in order. -/
def after (sink : Sink) (acts : List (Act H)) : Interpreter H := acts.foldl perform (initial sink)

def answer (interpreter : Interpreter H) : Request H → Answer
  | .act (.addObject object) => .object (interpreter.addObject object).1
  | .act (.interpret fuel program) => .result (interpreter.interpret fuel program).1
  | .act (.run fuel text) => .result (interpreter.run fuel text).1
  | .act _ => .done
  | .global name => .value (interpreter.global? name)

def attend (interpreter : Interpreter H) : Request H → Interpreter H
  | .act act => interpreter.perform act
  | .global _ => interpreter

/-- The answers to some requests, each with the state it leaves. -/
def answers (interpreter : Interpreter H) : List (Request H) → List (Answer × State H)
  | [] => []
  | head :: tail =>
    (interpreter.answer head, (interpreter.attend head).state) ::
      (interpreter.attend head).answers tail

omit [Host H] in
/-- While the scope of the host is kept, the session is the same. -/
theorem session_of_keeps {interpreter : Interpreter H} {after : Analyzer}
    (hkeeps : interpreter.analyzer.Keeps 1 after) :
    session ⟨after, interpreter.state⟩ = interpreter.session := by
  unfold session
  rw [hkeeps.context]

/-- A program in an interpreter ends as in its session, and the session that is left is the same. -/
theorem session_interpret (interpreter : Interpreter H) (fuel : Nat) (program : Program) :
    (interpreter.interpret fuel program).1 = (interpreter.session.interpret fuel program).1 ∧
      (interpreter.interpret fuel program).2.session =
        (interpreter.session.interpret fuel program).2 ∧
      (interpreter.interpret fuel program).2.analyzer = interpreter.analyzer := by
  unfold interpret Session.interpret
  have hstate : interpreter.session.state = interpreter.state := rfl
  rw [hstate]
  cases program.run fuel interpreter.state <;> exact ⟨rfl, rfl, rfl⟩

section

variable {interpreter : Interpreter H} (h : interpreter.analyzer.Ready) (fuel : Nat)

include h

/-- A text is run as in a session, and its check changes nothing that a later one can see. -/
theorem session_run (text : String) :
    (interpreter.run fuel text).1 = (interpreter.session.run fuel text).1 ∧
      (interpreter.run fuel text).2.session = (interpreter.session.run fuel text).2 ∧
      interpreter.analyzer.Keeps 1 (interpreter.run fuel text).2.analyzer := by
  unfold run Session.run Program.ofCheckedText
  cases Program.ofText text with
  | error cause => exact ⟨rfl, rfl, .refl 1 _⟩
  | ok program =>
    have hcontext : interpreter.session.context = interpreter.analyzer.context := rfl
    obtain ⟨after, hanalyze, hcheck, hkeeps⟩ | ⟨cause, after, hanalyze, hcheck, hkeeps⟩ :=
      program.analyze_spec h
    · obtain ⟨hresult, hsession, hanalyzer⟩ :=
        session_interpret ⟨after, interpreter.state⟩ fuel program
      rw [session_of_keeps hkeeps] at hresult hsession
      simp only [bind, Except.bind, hcontext, hanalyze, hcheck]
      exact ⟨hresult, hsession, hanalyzer ▸ hkeeps⟩
    · simp only [bind, Except.bind, hcontext, hanalyze, hcheck]
      exact ⟨rfl, session_of_keeps hkeeps, hkeeps⟩

/-- Every act on an interpreter is the act on its session, and leaves the analyzer between
programs. -/
theorem session_perform (act : Act H) :
    (interpreter.perform act).session = interpreter.session.perform act ∧
      (interpreter.perform act).analyzer.Ready := by
  cases act with
  | registerType type hbuilt => exact ⟨rfl, h⟩
  | defineVariable name type hbuilt value =>
    have hcontext : (interpreter.analyzer.defineVariable name type).context =
        interpreter.analyzer.context.defineVariable name type := h.context_modify _
    refine ⟨?_, h.modify _⟩
    unfold session
    exact congrArg (Session.mk · _) hcontext
  | defineFunction signature hbuilt body =>
    have hcontext : (interpreter.analyzer.defineFunction signature).context =
        interpreter.analyzer.context.defineFunction signature := h.context_modify _
    refine ⟨?_, h.modify _⟩
    unfold session
    exact congrArg (Session.mk · _) hcontext
  | addObject object => exact ⟨rfl, h⟩
  | interpret fuel program =>
    obtain ⟨-, hsession, hanalyzer⟩ := interpreter.session_interpret fuel program
    exact ⟨hsession, by unfold perform; rw [hanalyzer]; exact h⟩
  | run fuel text =>
    obtain ⟨-, hsession, hkeeps⟩ := session_run h fuel text
    exact ⟨hsession, h.kept hkeeps⟩

/-- Every request leaves the session that it leaves without the analyzer in between. -/
theorem session_attend (request : Request H) :
    (interpreter.attend request).session = interpreter.session.attend request ∧
      (interpreter.attend request).analyzer.Ready := by
  cases request with
  | act act => exact session_perform h act
  | global name => exact ⟨rfl, h⟩

/-- Every request is answered as by the session. -/
theorem session_answer (request : Request H) :
    interpreter.answer request = interpreter.session.answer request := by
  cases request with
  | global name => rfl
  | act act =>
    cases act with
    | interpret fuel program =>
      exact congrArg Answer.result (interpreter.session_interpret fuel program).1
    | run fuel text => exact congrArg Answer.result (session_run h fuel text).1
    | registerType | defineVariable | defineFunction | addObject => rfl

end

/-- What a host is told does not depend on the scopes that earlier checks have left. -/
theorem session_answers {interpreter : Interpreter H} (h : interpreter.analyzer.Ready)
    (requests : List (Request H)) :
    interpreter.answers requests = interpreter.session.answers requests := by
  induction requests generalizing interpreter with
  | nil => rfl
  | cons head tail ih =>
    obtain ⟨hsession, hready⟩ := session_attend h head
    unfold answers Session.answers
    rw [session_answer h, ih hready, ← hsession]
    rfl

/-- After any acts the session of an interpreter is the session after these acts. -/
theorem after_spec (sink : Sink) (acts : List (Act H)) :
    (after sink acts).session = Session.after sink acts ∧ (after sink acts).analyzer.Ready := by
  induction acts using List.reverseRecOn with
  | nil => exact ⟨congrArg (Session.mk · _) Analyzer.context_initial, Analyzer.ready_initial⟩
  | append_singleton acts act ih =>
    obtain ⟨hsession, hready⟩ := session_perform ih.2 act
    rw [Session.after_append, ← ih.1, ← hsession]
    unfold after at hready ⊢
    rw [List.foldl_append]
    exact ⟨rfl, hready⟩

/-- A run that is rejected before execution has done nothing that can be observed, at whatever depth
the error was found: all output, host variables, objects and fields of the last program are as they
were, so are the types, the scope and the return type that programs are checked with, and whatever
is asked of the interpreter from then on is answered as if the run had never been made. -/
theorem rejected_run_noop (sink : Sink) (acts : List (Act H)) (fuel : Nat) (text : String)
    {cause : RunError} (hfailed : ((after sink acts).run fuel text).1 = .error cause)
    (hrejected : cause.isRejection = true) :
    let before := after sink acts
    let rejected := (before.run fuel text).2
    rejected.state = before.state ∧ (∀ name, rejected.global? name = before.global? name) ∧
      rejected.analyzer.context = before.analyzer.context ∧
      rejected.analyzer.returns = before.analyzer.returns ∧
      ∀ requests, rejected.answers requests = before.answers requests := by
  intro before rejected
  have hready : before.analyzer.Ready := (after_spec sink acts).2
  obtain ⟨hresult, hsession, hkeeps⟩ := session_run hready fuel text
  have hsame : rejected.session = before.session := by
    rw [hresult] at hfailed
    have htext := (before.session.run_rejected_iff fuel).mp ⟨hfailed, hrejected⟩
    rw [hsession]
    unfold Session.run
    rw [htext]
  have hstate : rejected.state = before.state := congrArg Session.state hsame
  refine ⟨hstate, fun name ↦ ?_, hkeeps.context, hkeeps.returns, fun requests ↦ ?_⟩
  · unfold global?
    rw [hstate]
  · rw [session_answers (hready.kept hkeeps), session_answers hready, hsame]

/-- A host with a variable that has run one program. -/
def limited : List (Act Empty) :=
  [.defineVariable "limit" .integer (Ty.built_of_plain fun _ h ↦ by cases h) (.integer 3),
   .run 1 "LET n = 1; DEF main(): Integer DO n = n + limit; RETURN n; END"]

/-- A text with an error in a block of its second method. -/
def overLimitText : String :=
  "DEF main(): Integer DO RETURN 0; END DEF f() DO IF limit > 2 DO WHILE limit DO END END END"

/-- The text over the limit is rejected since a condition is no Boolean. -/
theorem run_overLimit :
    ((after (.text "") limited).run 1 overLimitText).1 =
      .error (.typing (.typeMismatch "Boolean" "Integer" 70)) := by
  cbv

theorem global_limited : (after (.text "") limited).global? "n" = some (.integer 4) := by cbv

/-- A rejected text leaves the answers to what is asked after it. -/
theorem rejected_run_noop_limited :
    let before := after (.text "") limited
    let rejected := (before.run 1 overLimitText).2
    (before.run 1 overLimitText).1 = .error (.typing (.typeMismatch "Boolean" "Integer" 70)) ∧
      rejected.global? "n" = some (.integer 4) ∧
      ∀ requests, rejected.answers requests = before.answers requests := by
  intro before rejected
  obtain ⟨-, hglobal, -, -, hanswers⟩ :=
    rejected_run_noop (.text "") limited 1 overLimitText run_overLimit rfl
  exact ⟨run_overLimit, (hglobal "n").trans global_limited, hanswers⟩

end Interpreter

end ScriptLang
