import Mathlib.Data.List.Induction
import ScriptLang.Proofs.Execution.Frames
import ScriptLang.Proofs.Correspondence
import ScriptLang.Proofs.Typing.Built
import ScriptLang.Session

/-!
What a host can do with a session, and what a session is like after any sequence of such acts. What
programs are told of the host stays in step with what the host has: the same variables, and
functions with the signatures under which they were defined last. Runs change none of this, whether
they are of accepted programs or not, and whether they end or fail.
-/

set_option autoImplicit false
set_option relaxedAutoImplicit false

namespace ScriptLang

/-- What a host can do with a session. -/
inductive Act (H : Type)
  | registerType (type : RecordType Ty) (hbuilt : type.Built)
  | defineVariable (name : String) (type : Ty) (hbuilt : type.Built) (value : Value)
  | defineFunction (signature : Signature Ty) (hbuilt : signature.returns.Built) (body : H)
  | addObject (object : Object H)
  | interpret (fuel : Nat) (program : Program)
  | run (fuel : Nat) (text : String)

/-- The functions of a host by name and count of parameters, each with its signature. -/
abbrev Ledger (H : Type) := Bindings (String × Nat) (Signature Ty × Callable H)

namespace Ledger

variable {H : Type}

def initial : Ledger H :=
  (Bindings.insert {} ("print", 1) (⟨"print", [Ty.any], Ty.nil⟩, .print)).insert ("range", 2)
    (⟨"range", [.integer, .integer], .range⟩, .range)

/-- Writes down a definition of a function, over one of the same name and count of parameters. -/
def record (ledger : Ledger H) : Act H → Ledger H
  | .defineFunction signature _ body =>
    ledger.insert (signature.name, signature.arity)
      (signature, .host ⟨signature.name, signature.arity, body⟩)
  | _ => ledger

/-- What each function was defined as last. -/
def of (acts : List (Act H)) : Ledger H := acts.foldl record initial

/-- One act more writes one definition more. -/
theorem of_append (acts : List (Act H)) (act : Act H) :
    of (acts ++ [act]) = (of acts).record act := by
  unfold of
  rw [List.foldl_append]
  rfl

/-- Every function is written down under its own count of parameters. -/
structure Keyed (ledger : Ledger H) : Prop where
  arity : ∀ name arity signature callable,
    ledger.find? (name, arity) = some (signature, callable) →
    signature.arity = arity ∧ callable.arity = arity ∧ signature.returns.Built
  callable : ∀ name arity signature callable,
    ledger.find? (name, arity) = some (signature, callable) →
    (signature, callable) = (⟨"print", [.any], .nil⟩, .print) ∨
      (signature, callable) = (⟨"range", [.integer, .integer], .range⟩, .range) ∨
      ∃ function, callable = .host function

/-- In the beginning there are `print` and `range`. -/
theorem initial_cases {name : String} {arity : Nat} {signature : Signature Ty}
    {callable : Callable H} (hfound : initial.find? (name, arity) = some (signature, callable)) :
    (name, arity, signature, callable) = ("print", 1, ⟨"print", [.any], .nil⟩, .print) ∨
      (name, arity, signature, callable) =
        ("range", 2, ⟨"range", [.integer, .integer], .range⟩, .range) := by
  unfold initial at hfound
  rw [Bindings.find?_insert, Bindings.find?_insert] at hfound
  by_cases hrange : (name, arity) = ("range", 2)
  · rw [if_pos hrange] at hfound
    cases hrange
    cases hfound
    exact .inr rfl
  · rw [if_neg hrange] at hfound
    by_cases hprint : (name, arity) = ("print", 1)
    · rw [if_pos hprint] at hfound
      cases hprint
      cases hfound
      exact .inl rfl
    · rw [if_neg hprint] at hfound
      cases hfound

/-- The built-in functions take as many arguments as they say, and none gives a record. -/
theorem initial_arity (name : String) (arity : Nat) (signature : Signature Ty)
    (callable : Callable H) (hfound : initial.find? (name, arity) = some (signature, callable)) :
    signature.arity = arity ∧ callable.arity = arity ∧
      ∀ record, signature.returns ≠ .record record := by
  obtain h | h := initial_cases hfound <;> cases h <;> exact ⟨rfl, rfl, fun _ h ↦ by cases h⟩

/-- The functions of a new session stand under their own counts. -/
theorem keyed_initial : (initial : Ledger H).Keyed := by
  constructor
  · intro name arity signature callable hfound
    obtain ⟨hsignature, hcallable, hplain⟩ := initial_arity name arity signature callable hfound
    exact ⟨hsignature, hcallable, Ty.built_of_plain hplain⟩
  · intro name arity signature callable hfound
    obtain h | h := initial_cases hfound <;> cases h
    · exact .inl rfl
    · exact .inr (.inl rfl)

/-- An act writes a function under its own count, so that all stay keyed. -/
theorem Keyed.record {ledger : Ledger H} (h : ledger.Keyed) (act : Act H) :
    (ledger.record act).Keyed := by
  cases act with
  | defineFunction signature hbuilt body =>
    constructor
    · intro name arity other callable hfound
      unfold Ledger.record at hfound
      rw [Bindings.find?_insert] at hfound
      by_cases hkey : (name, arity) = (signature.name, signature.arity)
      · rw [if_pos hkey] at hfound
        cases hfound
        obtain ⟨rfl, rfl⟩ := Prod.mk.inj hkey
        exact ⟨rfl, rfl, hbuilt⟩
      · rw [if_neg hkey] at hfound
        exact h.arity name arity other callable hfound
    · intro name arity other callable hfound
      unfold Ledger.record at hfound
      rw [Bindings.find?_insert] at hfound
      by_cases hkey : (name, arity) = (signature.name, signature.arity)
      · rw [if_pos hkey] at hfound
        cases hfound
        exact .inr (.inr ⟨_, rfl⟩)
      · rw [if_neg hkey] at hfound
        exact h.callable name arity other callable hfound
  | registerType | defineVariable | addObject | interpret | run => exact h

end Ledger

namespace Session

variable {H : Type} [Host H]

def perform (session : Session H) : Act H → Session H
  | .registerType type _ => session.registerType type
  | .defineVariable name type _ value => session.defineVariable name type value
  | .defineFunction signature _ body => session.defineFunction signature body
  | .addObject object => (session.addObject object).2
  | .interpret fuel program => (session.interpret fuel program).2
  | .run fuel text => (session.run fuel text).2

/-- The session after some acts, performed in order. -/
def after (sink : Sink) (acts : List (Act H)) : Session H := acts.foldl perform (initial sink)

/-- One act more is performed after the others. -/
theorem after_append (sink : Sink) (acts : List (Act H)) (act : Act H) :
    after sink (acts ++ [act]) = (after sink acts).perform act := by
  unfold after
  rw [List.foldl_append]
  rfl

/-- A run of a program makes nothing known to later ones. -/
theorem interpret_context (session : Session H) (fuel : Nat) (program : Program) :
    (session.interpret fuel program).2.context = session.context := by
  unfold interpret
  split <;> rfl

/-- A run of a text makes nothing known to later ones, accepted or not. -/
theorem run_context (session : Session H) (fuel : Nat) (text : String) :
    (session.run fuel text).2.context = session.context := by
  unfold run
  split
  · exact interpret_context session fuel _
  · rfl

/-- Programs are told of the host what `ledger` and its variables say, and no call is open. -/
structure Sound (session : Session H) (ledger : Ledger H) : Prop where
  records : ∀ name type, session.context.records.find? name = some type → type.Built
  globals : Scope.Follows (fun (known : Variable Ty) (_ : Value) ↦ known.type.Built)
    (fun name arity signature callable ↦
      ledger.find? (name, arity) = some (signature, callable))
    session.context.globals session.state.globals
  locals : session.state.locals = []
  suspended : session.state.suspended = []

omit [Host H] in
/-- A new session has the functions that the ledger begins with. -/
theorem sound_initial (sink : Sink) : (initial sink : Session H).Sound Ledger.initial := by
  refine ⟨fun _ _ h ↦ (by cases h), ⟨fun _ ↦ .none, fun name arity ↦ ?_⟩, rfl, rfl⟩
  unfold Ledger.initial initial TypeContext.initial State.initial
  rw [Bindings.find?_insert, Bindings.find?_insert, Scope.function?_declareFunction,
    Scope.function?_declareFunction, Scope.function?_declareFunction,
    Scope.function?_declareFunction]
  by_cases hrange : (name, arity) = ("range", 2)
  · rw [if_pos hrange, if_pos hrange, if_pos hrange]
    exact .some rfl
  · rw [if_neg hrange, if_neg hrange, if_neg hrange]
    by_cases hprint : (name, arity) = ("print", 1)
    · rw [if_pos hprint, if_pos hprint, if_pos hprint]
      exact .some rfl
    · rw [if_neg hprint, if_neg hprint, if_neg hprint]
      exact .none

omit [Host H] in
/-- A function is defined for the checker and for runs in one act, and written down. -/
theorem Sound.defineFunction {session : Session H} {ledger : Ledger H} (h : session.Sound ledger)
    (signature : Signature Ty) (hbuilt : signature.returns.Built) (body : H) :
    (session.defineFunction signature body).Sound
      (ledger.record (.defineFunction signature hbuilt body)) := by
  refine ⟨h.records, ⟨h.globals.lookup?, fun name arity ↦ ?_⟩, h.locals, h.suspended⟩
  unfold Session.defineFunction TypeContext.defineFunction Ledger.record
  rw [Scope.function?_declareFunction, Scope.function?_declareFunction, Bindings.find?_insert]
  by_cases hkey : (name, arity) = (signature.name, signature.arity)
  · rw [if_pos hkey, if_pos hkey, if_pos hkey]
    exact .some rfl
  · rw [if_neg hkey, if_neg hkey, if_neg hkey]
    exact h.globals.function? name arity

/-- A program declares into its own module, so what the host has defined stays sound. -/
theorem Sound.interpret {session : Session H} {ledger : Ledger H} (h : session.Sound ledger)
    (fuel : Nat) (program : Program) : (session.interpret fuel program).2.Sound ledger := by
  have hkeeps := program.run_keeps fuel h.locals
  have hafter (state : State H) (hstate : session.state.SameFrames state) :
      Session.Sound ⟨session.context, state⟩ ledger := by
    refine ⟨h.records, ⟨fun name ↦ ?_, fun name arity ↦ ?_⟩, hstate.locals.trans h.locals,
      hstate.suspended.trans h.suspended⟩
    · have hknown := h.globals.lookup? name
      have hbound := hstate.globals.vars name
      cases hfound : session.context.globals.lookup? name with
      | none =>
        rw [hfound] at hknown
        rw [option_rel_of_none hknown, Option.isSome_none, Option.isSome_eq_false_iff,
          Option.isNone_iff_eq_none] at hbound
        rw [hbound]
        exact .none
      | some known =>
        rw [hfound] at hknown
        obtain ⟨old, hold, hbuilt⟩ := option_rel_of_some hknown
        rw [hold, Option.isSome_some, Option.isSome_iff_exists] at hbound
        obtain ⟨value, hvalue⟩ := hbound
        rw [hvalue]
        exact .some hbuilt
    · change Option.Rel _ _ (state.globals.functions.find? _)
      rw [hstate.globals.functions]
      exact h.globals.function? name arity
  unfold Session.interpret
  cases hrun : program.run fuel session.state with
  | ok value state => exact hafter state (hkeeps.ok hrun)
  | error cause state => exact hafter state (hkeeps.error hrun)

/-- A text is rejected, or run as a program; neither touches what the host has defined. -/
theorem Sound.run {session : Session H} {ledger : Ledger H} (h : session.Sound ledger)
    (fuel : Nat) (text : String) : (session.run fuel text).2.Sound ledger := by
  unfold Session.run
  cases Program.ofCheckedText session.context text with
  | ok program => exact h.interpret fuel program
  | error cause => exact h

/-- Every act of a host keeps a session sound with what is written down of it. -/
theorem Sound.perform {session : Session H} {ledger : Ledger H} (h : session.Sound ledger)
    (act : Act H) : (session.perform act).Sound (ledger.record act) := by
  cases act with
  | registerType type hbuilt =>
    refine ⟨fun name found hfound ↦ ?_, h.globals, h.locals, h.suspended⟩
    change (session.context.records.insert type.name (.record type)).find? name = _ at hfound
    rw [Bindings.find?_insert] at hfound
    by_cases hname : name = type.name
    · rw [if_pos hname] at hfound
      cases hfound
      exact fun record hrecord ↦ by cases hrecord; exact hbuilt
    · rw [if_neg hname] at hfound
      exact h.records name found hfound
  | defineVariable name type hbuilt value =>
    exact ⟨h.records, h.globals.declare name hbuilt, h.locals, h.suspended⟩
  | defineFunction signature hbuilt body => exact h.defineFunction signature hbuilt body
  | addObject object => exact ⟨h.records, h.globals, h.locals, h.suspended⟩
  | interpret fuel program => exact h.interpret fuel program
  | run fuel text => exact h.run fuel text

/-- What programs are told of the host stays true in any history. -/
theorem sound_after (sink : Sink) (acts : List (Act H)) :
    (after sink acts).Sound (Ledger.of acts) ∧ (Ledger.of acts).Keyed := by
  induction acts using List.reverseRecOn with
  | nil => exact ⟨sound_initial sink, Ledger.keyed_initial⟩
  | append_singleton acts act ih =>
    rw [after_append, Ledger.of_append]
    exact ⟨ih.1.perform act, ih.2.record act⟩

end Session

end ScriptLang
