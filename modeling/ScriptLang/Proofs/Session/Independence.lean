import Mathlib
import ScriptLang.Proofs.Execution.Likeness
import ScriptLang.Proofs.Session.Acceptance
import ScriptLang.Proofs.Session.History

/-!
Runs of one session do not see each other. A host without variables, whose functions answer by their
arguments alone and never give an object, leaves programs nothing in which one run could keep
something for the next: the module is opened afresh, objects never come into a program's hands, and
what is printed is never read. So a run on a session with any past goes like a run on a session with
the same definitions and no past.
-/

set_option autoImplicit false
set_option relaxedAutoImplicit false

namespace ScriptLang

/-! ### Output -/

namespace Sink

/-- The sink after more text. -/
def append (output : String) : Sink → Sink
  | text printed => text (printed ++ output)
  | broken reason => broken reason

/-- Sinks that both collect text, or both fail in the same way. -/
inductive Matches : Sink → Sink → Prop
  | text (printed other : String) : Matches (text printed) (text other)
  | broken (reason : String) : Matches (broken reason) (broken reason)

theorem matches_self (sink : Sink) : sink.Matches sink := by
  cases sink <;> constructor

theorem append_nothing (sink : Sink) : sink.append "" = sink := by
  cases sink with
  | text printed => exact congrArg text String.append_empty
  | broken reason => rfl

theorem matches_append {first second : Sink} (h : first.Matches second) (output : String) :
    (first.append output).Matches second := by
  cases h <;> constructor

/-- What is printed behind the same output again extends both sinks by the same output. -/
theorem print_append {first second : Sink} (h : first.Matches second) (output line : String) :
    ResultsAlike
      (fun after after' ↦ ∃ output, after = first.append output ∧ after' = second.append output)
      ((first.append output).print line) ((second.append output).print line) := by
  have hmore (printed : String) : printed ++ output ++ line ++ "\n" =
      printed ++ (output ++ line ++ "\n") := by
    simp only [String.append_assoc]
  cases h with
  | text printed other =>
    exact .ok ⟨output ++ line ++ "\n", congrArg text (hmore printed), congrArg text (hmore other)⟩
  | broken reason => exact .error _

/-- Two sinks that have printed the same behind what they had show the same new output. -/
theorem exists_printed {first second after after' : Sink} (h : first.Matches second)
    {output : String} (hafter : after = first.append output)
    (hafter' : after' = second.append output) :
    ∃ output, after.printed = first.printed ++ output ∧
      after'.printed = second.printed ++ output := by
  subst hafter hafter'
  cases h with
  | text printed other => exact ⟨output, rfl, rfl⟩
  | broken reason => exact ⟨"", rfl, rfl⟩

end Sink

/-! ### Hosts that give programs nothing to share -/

/-- The result depends on the arguments alone and is never an object. -/
structure Host.Plain {H : Type} [Host H] (body : H) : Prop where
  result : ∀ args first second, (Host.run body args first).1 = (Host.run body args second).1
  kind : ∀ args objects value, (Host.run body args objects).1 = .ok value → value.kind ≠ .object

section

variable {H : Type} [Host H]

/-- An act that defines no variable, and no function but a plain one. -/
def Act.Plain : Act H → Prop
  | .defineVariable .. => False
  | .defineFunction _ _ body => Host.Plain body
  | _ => True

omit [Host H] in
/-- Whether an act tells the session something of the host. -/
def Act.defines : Act H → Bool
  | .interpret .. => false
  | .run .. => false
  | _ => true

def Callable.Plain : Callable H → Prop
  | .print => True
  | .range => True
  | .host function => Host.Plain function.body
  | .procedure _ => False

/-- Two runs without objects, from sinks that match. -/
def Likeness.objectless {begun begun' : Sink} (hbegun : begun.Matches begun') : Likeness H where
  occurs value := value.kind ≠ .object
  offers function := Host.Plain function.body
  objects _ _ := True
  sinks first second :=
    ∃ output, first = begun.append output ∧ second = begun'.append output
  plain _ h := h
  print := by
    rintro line _ _ ⟨output, rfl, rfl⟩
    exact Sink.print_append hbegun output line
  field _ _ _ _ _ href := (href rfl).elim
  setField _ _ _ _ _ _ href := (href rfl).elim
  method _ _ _ _ _ _ href := (href rfl).elim
  host function args first second hplain _ _ :=
    ⟨.of_eq (hplain.result args first second) (hplain.kind args first), trivial⟩

namespace Session

/-- Sessions of one host that gives programs nothing to share: neither has a variable, and both have
the same functions. -/
structure PlainlyAlike (used fresh : Session H) : Prop where
  context : used.context = fresh.context
  globals : Scope.Follows (fun (_ _ : Value) ↦ False)
    (fun _ _ callable other ↦ callable = other ∧ callable.Plain)
    used.state.globals fresh.state.globals
  locals : used.state.locals = [] ∧ fresh.state.locals = []
  suspended : used.state.suspended = [] ∧ fresh.state.suspended = []
  sink : used.state.sink.Matches fresh.state.sink

namespace PlainlyAlike

variable {used fresh : Session H}

theorem initial (sink : Sink) : PlainlyAlike (initial sink : Session H) (Session.initial sink) :=
  ⟨rfl, (Scope.Follows.empty.declareFunction "print" 1 ⟨rfl, trivial⟩).declareFunction "range" 2
    ⟨rfl, trivial⟩, ⟨rfl, rfl⟩, ⟨rfl, rfl⟩, sink.matches_self⟩

/-- The scopes that a run begins with. -/
theorem opened (h : PlainlyAlike used fresh) :
    (Likeness.objectless h.sink).States { used.state with module := {} }
      { fresh.state with module := {} } where
  locals := by
    rw [h.locals.1, h.locals.2]
    exact .nil
  suspended := by
    rw [h.suspended.1, h.suspended.2]
    exact .nil
  module := .empty
  globals := by
    refine (h.globals.imp_vars fun _ _ _ _ hfalse ↦ hfalse.elim).mono ?_
    rintro name arity callable _ - ⟨rfl, hplain⟩
    cases callable with
    | print => exact .print
    | range => exact .range
    | host function => exact .host hplain
    | procedure definition => exact hplain.elim
  objects := trivial
  sink := ⟨"", (Sink.append_nothing _).symm, (Sink.append_nothing _).symm⟩

/-- A run on one session goes like a run on the other. -/
theorem run_alike (h : PlainlyAlike used fresh) (fuel : Nat) (program : Program) :
    (Likeness.objectless h.sink).Ends (Shared fun value ↦ value.kind ≠ .object)
      (program.run fuel used.state) (program.run fuel fresh.state) :=
  Program.run_alike fuel rfl h.opened

/-- A program changes the module, the objects and the output of a session, none of which later
programs can tell. -/
theorem interpret (h : PlainlyAlike used fresh) (fuel : Nat) (program : Program) :
    PlainlyAlike (used.interpret fuel program).2 fresh := by
  have hkeeps := program.run_keeps fuel h.locals.1
  have hends := h.run_alike fuel program
  -- However the program ends, only the module, the objects and the output have changed.
  have hafter (state : State H) (hstate : used.state.SameFrames state)
      (hsink : ∃ output, state.sink = used.state.sink.append output) :
      PlainlyAlike ⟨used.context, state⟩ fresh := by
    refine ⟨h.context, ⟨fun name ↦ ?_, fun name arity ↦ ?_⟩,
      ⟨hstate.locals.trans h.locals.1, h.locals.2⟩,
      ⟨hstate.suspended.trans h.suspended.1, h.suspended.2⟩, ?_⟩
    -- A plain session has no global variables, and a program adds none.
    · have hnames := hstate.globals.vars name
      have hglobals := h.globals.lookup? name
      cases hold : used.state.globals.lookup? name with
      | some value =>
        rw [hold] at hglobals
        obtain ⟨_, -, hfalse⟩ := option_rel_of_some hglobals
        exact hfalse.elim
      | none =>
        rw [hold, Option.isSome_none, Option.isSome_eq_false_iff,
          Option.isNone_iff_eq_none] at hnames
        rw [hold] at hglobals
        change Option.Rel _ (state.globals.lookup? name) _
        rw [hnames]
        exact hglobals
    · change Option.Rel _ (state.globals.functions.find? _) _
      rw [hstate.globals.functions]
      exact h.globals.function? name arity
    · obtain ⟨output, hsink⟩ := hsink
      change state.sink.Matches _
      rw [hsink]
      exact Sink.matches_append h.sink output
  generalize program.run fuel fresh.state = result at hends
  unfold Session.interpret
  cases hrun : program.run fuel used.state with
  | ok value state =>
    rw [hrun] at hends
    cases hends with
    | ok _ hstates =>
      obtain ⟨output, hsink, -⟩ := hstates.sink
      exact hafter state (hkeeps.ok hrun) ⟨output, hsink⟩
  | error cause state =>
    rw [hrun] at hends
    cases hends with
    | error hstates =>
      obtain ⟨output, hsink, -⟩ := hstates.sink
      exact hafter state (hkeeps.error hrun) ⟨output, hsink⟩

/-- A text changes no more than the program that it is read as. -/
theorem run (h : PlainlyAlike used fresh) (fuel : Nat) (text : String) :
    PlainlyAlike (used.run fuel text).2 fresh := by
  unfold Session.run
  cases Program.ofCheckedText used.context text with
  | ok program => exact h.interpret fuel program
  | error cause => exact h

/-- A definition is made on both sessions, a run on the first alone. -/
theorem perform (h : PlainlyAlike used fresh) (act : Act H) (hplain : act.Plain) :
    PlainlyAlike (used.perform act) (if act.defines then fresh.perform act else fresh) := by
  cases act with
  | registerType type =>
    exact { h with context := congrArg (TypeContext.register · type) h.context }
  | defineVariable => exact hplain.elim
  | defineFunction signature _ body =>
    exact { h with
      context := congrArg (TypeContext.defineFunction · signature) h.context
      globals := h.globals.declareFunction _ _ ⟨rfl, hplain⟩ }
  | addObject object => exact { h with }
  | interpret fuel program => exact h.interpret fuel program
  | run fuel text => exact h.run fuel text

end PlainlyAlike

/-- After any plain acts a session is like one that has had only the definitions among them. -/
theorem plainlyAlike_after (sink : Sink) {acts : List (Act H)} (hplain : ∀ act ∈ acts, act.Plain) :
    PlainlyAlike (after sink acts) (after sink (acts.filter Act.defines)) := by
  induction acts using List.reverseRecOn with
  | nil => exact .initial sink
  | append_singleton acts act ih =>
    rw [List.forall_mem_append, List.forall_mem_singleton] at hplain
    have hstep := (ih hplain.1).perform act hplain.2
    rw [after_append, List.filter_append]
    cases hdefines : act.defines with
    | true =>
      rw [List.filter_cons_of_pos hdefines, List.filter_nil, after_append]
      rwa [if_pos hdefines] at hstep
    | false =>
      rw [List.filter_cons_of_neg (Bool.eq_false_iff.mp hdefines), List.filter_nil, List.append_nil]
      rwa [if_neg (Bool.eq_false_iff.mp hdefines)] at hstep

/-- After any past, a run gives the value or the error, and prints the text, that it would without
the programs that were run before; once it is executed, every name stands for the same. -/
theorem runs_independent (sink : Sink) (acts : List (Act H)) (hplain : ∀ act ∈ acts, act.Plain)
    (fuel : Nat) (text : String) :
    let used := after sink acts
    let fresh := after sink (acts.filter Act.defines)
    (used.run fuel text).1 = (fresh.run fuel text).1 ∧
    (∃ output,
      (used.run fuel text).2.state.sink.printed = used.state.sink.printed ++ output ∧
      (fresh.run fuel text).2.state.sink.printed = fresh.state.sink.printed ++ output) ∧
    ((∀ cause, (used.run fuel text).1 = .error cause → cause.isRejection = false) →
      ∀ name, (used.run fuel text).2.global? name = (fresh.run fuel text).2.global? name) := by
  intro used fresh
  have hsessions : PlainlyAlike used fresh := plainlyAlike_after sink hplain
  have hnames {state state' : State H}
      (hstates : (Likeness.objectless hsessions.sink).States state state') (name : String) :
      Chain.lookup? [state.module, state.globals] name =
        Chain.lookup? [state'.module, state'.globals] name := by
    have hfound := Chain.rel_lookup? (.cons hstates.module (.cons hstates.globals .nil)) name
    generalize Chain.lookup? [state.module, state.globals] name = found at hfound ⊢
    generalize Chain.lookup? [state'.module, state'.globals] name = found' at hfound ⊢
    cases hfound with
    | some hvalue => exact congrArg some hvalue.1
    | none => rfl
  unfold Session.run
  rw [← hsessions.context]
  cases haccepted : Program.ofCheckedText used.context text with
  | error cause =>
    -- A rejected text prints nothing, and is not executed.
    refine ⟨rfl, ⟨"", String.append_empty.symm, String.append_empty.symm⟩, fun hexecuted ↦ ?_⟩
    have hrejected := Program.ofCheckedText_eq_error haccepted
    rw [hexecuted cause rfl] at hrejected
    cases hrejected
  | ok program =>
    have hends := hsessions.run_alike fuel program
    simp only [Session.interpret]
    generalize program.run fuel used.state = result at hends ⊢
    generalize program.run fuel fresh.state = result' at hends ⊢
    cases hends with
    | ok hvalues hstates =>
      obtain ⟨output, hsink, hsink'⟩ := hstates.sink
      exact ⟨congrArg Except.ok hvalues.1, Sink.exists_printed hsessions.sink hsink hsink',
        fun _ ↦ hnames hstates⟩
    | error hstates =>
      obtain ⟨output, hsink, hsink'⟩ := hstates.sink
      exact ⟨rfl, Sink.exists_printed hsessions.sink hsink hsink', fun _ ↦ hnames hstates⟩

end Session

end

/-- A host whose one function counts its arguments. -/
inductive Tally
  | count

instance : Host Tally where
  run _ args objects := (.ok (.integer args.length), objects)

/-- A session that ran a program which divided by zero after it had printed. -/
def tallied : List (Act Tally) :=
  [.defineFunction ⟨"count", [.integer], .integer⟩ (Ty.built_of_plain fun _ h ↦ by cases h) .count,
   .run 1 "LET n = 5; DEF main(): Integer DO print(n); n = n / 0; RETURN n; END"]

def tallyText : String := "LET n = count(5); DEF main(): Integer DO n = n + 1; RETURN n; END"

/-- The result of the run after the definitions alone. -/
theorem run_tally :
    ((Session.after (.text "") (tallied.filter Act.defines)).run 1 tallyText).1 =
      .ok (.integer 2) := by
  cbv

/-- A run that has printed and then divided by zero does not show in the result of the next one,
which has a field of the same name. -/
theorem Session.runs_independent_tally :
    (∀ act ∈ tallied, act.Plain) ∧
    ((after (.text "") tallied).run 1 tallyText).1 = .ok (.integer 2) := by
  have hplain : ∀ act ∈ tallied, act.Plain := by
    intro act hact
    simp only [tallied, List.mem_cons, List.not_mem_nil, or_false] at hact
    obtain rfl | rfl := hact
    · exact ⟨fun _ _ _ ↦ rfl, fun _ _ _ hresult ↦ by cases hresult; exact fun h ↦ by cases h⟩
    · trivial
  exact ⟨hplain, (runs_independent (.text "") tallied hplain 1 tallyText).1.trans run_tally⟩

end ScriptLang
