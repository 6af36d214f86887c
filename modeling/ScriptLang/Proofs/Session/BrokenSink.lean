import Mathlib
import ScriptLang.Proofs.Execution.Fuel
import ScriptLang.Proofs.Execution.Printing
import ScriptLang.Proofs.Session.Isolation

/-!
Sessions with a broken sink. A program that is run where no line can be printed does what it does
where lines can be printed, up to the first of them. There it fails for that cause, and all
variables, fields and objects are left as they were at that moment.
-/

set_option autoImplicit false
set_option relaxedAutoImplicit false

namespace ScriptLang

variable {H : Type}

def Session.withSink (session : Session H) (sink : Sink) : Session H :=
  { session with state := { session.state with sink } }

def CellSession.withSink (cells : CellSession H) (sink : Sink) : CellSession H :=
  { cells with
    tracked := { cells.tracked with memory := cells.tracked.memory.withSink sink } }

/-- Sessions that show each other do so with any sink that both are given. -/
theorem CellSession.Shows.withSink {cells : CellSession H} {session : Session H}
    (h : cells.Shows session) (sink : Sink) : (cells.withSink sink).Shows (session.withSink sink) :=
  ⟨h.context, h.tracked.fits.with_sink sink, h.tracked.earlier, h.tracked.visits,
    congrArg (fun state : State H ↦ { state with sink }) h.tracked.state⟩

/-- Memories that differ in the sink alone show sessions that differ in the sink alone. -/
theorem CellSession.Shows.eq_withSink {cells cells' : CellSession H} {session session' : Session H}
    {sink : Sink} (h : cells.Shows session) (h' : cells'.Shows session')
    (hcontext : session'.context = session.context)
    (hmemory : cells'.tracked.memory = cells.tracked.memory.withSink sink) :
    session' = session.withSink sink := by
  have hstate : session'.state = { session.state with sink } := by
    rw [← h'.tracked.state, ← h.tracked.state, hmemory]
    rfl
  cases session'
  exact congrArg₂ Session.mk hcontext hstate

/-- What two runs go through of which the second has a broken sink: the memories of the first in
which nothing is printed yet, and no more. The latest are first. -/
structure Tracked.StopsAtPrint (printed reason : String) (start start' working broken : Tracked H)
    (silent later : List (Memory H)) : Prop where
  working : working.memories = later ++ silent ++ start.memories
  broken : broken.memories = silent.map (Memory.withSink · (.broken reason)) ++ start'.memories
  silent : ∀ memory ∈ silent, memory.sink = .text printed
  later : ∀ memory ∈ later, memory.sink.Exceeds printed

variable [Host H]

/-- Two runs of a program from memories that differ in the sink. -/
theorem CellSession.interpret_stopsAtPrint (cells : CellSession H) (printed reason : String)
    (fuel : Nat) (program : Program) :
    let working := (cells.withSink (.text printed)).interpret fuel program
    let broken := (cells.withSink (.broken reason)).interpret fuel program
    ∃ silent later, Tracked.StopsAtPrint printed reason (cells.withSink (.text printed)).tracked
        (cells.withSink (.broken reason)).tracked working.2.tracked broken.2.tracked silent later ∧
      (later = [] → broken.1 = working.1 ∧
        broken.2.tracked.memory = working.2.tracked.memory.withSink (.broken reason)) ∧
      (later ≠ [] → broken.1 = .error (.runtime (.outputFailed reason))) := by
  have hpaired : Tracked.Paired printed reason (cells.withSink (.text printed)).tracked
      (cells.withSink (.broken reason)).tracked := ⟨rfl, rfl⟩
  have hcut := (program.runOnCells_heeds fuel).cut hpaired
  unfold interpret
  generalize program.runOnCells fuel (cells.withSink (.text printed)).tracked = one at hcut
  generalize program.runOnCells fuel (cells.withSink (.broken reason)).tracked = other at hcut
  cases hcut with
  | @ok value after after' silent h =>
    refine ⟨silent, [], ⟨h.first.1, h.second, h.first.2, List.forall_mem_nil _⟩, fun _ ↦ ⟨rfl, ?_⟩,
      fun hlater ↦ (hlater rfl).elim⟩
    exact (h.paired hpaired).memory
  | @error cause after after' silent h =>
    refine ⟨silent, [], ⟨h.first.1, h.second, h.first.2, List.forall_mem_nil _⟩, fun _ ↦ ⟨rfl, ?_⟩,
      fun hlater ↦ (hlater rfl).elim⟩
    exact (h.paired hpaired).memory
  | @printed _ middle after' silent later h hlater hprinted =>
    refine ⟨silent, later, ?_, fun hnone ↦ (hlater hnone).elim, fun _ ↦ rfl⟩
    have hmemories := hprinted.1
    rw [h.first.1, ← List.append_assoc] at hmemories
    cases one <;> exact ⟨hmemories, h.second, h.first.2, hprinted.2⟩

/-- A broken sink cuts a run at its first print. From any state that a session comes to, run a
program with a sink that works and with one that does not, on states and alike on cells. The
memories that the first run goes through are those before it prints and those after, and the second
run goes through the former. A text that is accepted is run as its program. If nothing is printed,
the answers are the same and so are the states that are left; else the second run fails for want of
a sink, and does so with any more fuel. -/
theorem Session.broken_sink_cuts (sink : Sink) (acts : List (Act H)) (printed reason : String)
    (fuel : Nat) (program : Program) :
    let session := after sink acts
    let cells := CellSession.after sink acts
    let working := (cells.withSink (.text printed)).interpret fuel program
    let broken := (cells.withSink (.broken reason)).interpret fuel program
    (working.1 = ((session.withSink (.text printed)).interpret fuel program).1 ∧
      working.2.Shows ((session.withSink (.text printed)).interpret fuel program).2) ∧
    (broken.1 = ((session.withSink (.broken reason)).interpret fuel program).1 ∧
      broken.2.Shows ((session.withSink (.broken reason)).interpret fuel program).2) ∧
    (∀ text, Program.ofCheckedText session.context text = .ok program → ∀ sink,
      (session.withSink sink).run fuel text = (session.withSink sink).interpret fuel program) ∧
    ∃ silent later, Tracked.StopsAtPrint printed reason (cells.withSink (.text printed)).tracked
        (cells.withSink (.broken reason)).tracked working.2.tracked broken.2.tracked silent later ∧
      (later = [] → (session.withSink (.broken reason)).interpret fuel program =
        (((session.withSink (.text printed)).interpret fuel program).1,
          ((session.withSink (.text printed)).interpret fuel program).2.withSink
            (.broken reason))) ∧
      (later ≠ [] → ∀ fuel', fuel ≤ fuel' →
        (session.withSink (.broken reason)).interpret fuel' program =
          (.error (.runtime (.outputFailed reason)),
            ((session.withSink (.broken reason)).interpret fuel program).2)) := by
  intro session cells working broken
  have hshows := CellSession.shows_after sink acts
  have hglobals := (offers_after sink acts).globals
  have hworking := (hshows.withSink (.text printed)).interpret hglobals fuel program
  have hbroken := (hshows.withSink (.broken reason)).interpret hglobals fuel program
  obtain ⟨silent, later, hstops, hsilent, hlater⟩ :=
    cells.interpret_stopsAtPrint printed reason fuel program
  refine ⟨hworking, hbroken, fun text htext sink ↦ ?_, silent, later, hstops, fun hnone ↦ ?_,
    fun hsome fuel' hfuel ↦ ?_⟩
  · have htext : Program.ofCheckedText (session.withSink sink).context text = .ok program := htext
    unfold run
    rw [htext]
  -- The memories agree, and each shows its own state but for the sink.
  · obtain ⟨hanswer, hleft⟩ := hsilent hnone
    refine Prod.ext (hbroken.1.symm.trans (hanswer.trans hworking.1)) ?_
    refine hworking.2.eq_withSink hbroken.2 ?_ hleft
    rw [interpret_context, interpret_context]
    rfl
  · have hfailed := hbroken.1.symm.trans (hlater hsome)
    rw [interpret_of_le hfuel (by rw [hfailed]; exact nofun)]
    exact Prod.ext hfailed rfl

/-- A program that sets a field, prints it and sets it again. -/
def Program.announcing : Program where
  fields := [⟨"total", none, some (.literal ⟨0, none⟩ (.integer 1)), 0, none⟩]
  methods := [
    { name := "main", params := [], paramTypes := [], returnType := some "Integer",
      body := [
        .assign (.access ⟨0, none⟩ "total" none) (.literal ⟨0, none⟩ (.integer 2)),
        .expr (.call ⟨0, none⟩ "print" [.access ⟨0, none⟩ "total" none] none),
        .assign (.access ⟨0, none⟩ "total" none) (.literal ⟨0, none⟩ (.integer 3)),
        .ret (.access ⟨0, none⟩ "total" none)],
      offset := 0 }]

/-- The program above ends with the value 3 where it can print, and fails with the field at 2 where
it cannot. -/
theorem Session.broken_sink_cuts_announcing :
    (((after (.text "") [] : Session Empty).withSink (.text "")).interpret 2
        Program.announcing).1 = .ok (.integer 3) ∧
      (∀ fuel, 2 ≤ fuel → (((after (.text "") [] : Session Empty).withSink
        (.broken "full")).interpret fuel Program.announcing).1 =
          .error (.runtime (.outputFailed "full"))) ∧
      (((after (.text "") [] : Session Empty).withSink (.broken "full")).interpret 2
        Program.announcing).2.global? "total" = some (.integer 2) := by
  have hworking : (((after (.text "") [] : Session Empty).withSink (.text "")).interpret 2
      Program.announcing).1 = .ok (.integer 3) := by cbv
  have hbroken : (((after (.text "") [] : Session Empty).withSink (.broken "full")).interpret 2
      Program.announcing).1 = .error (.runtime (.outputFailed "full")) := by cbv
  have htotal : (((after (.text "") [] : Session Empty).withSink (.broken "full")).interpret 2
      Program.announcing).2.global? "total" = some (.integer 2) := by cbv
  obtain ⟨-, -, -, silent, later, -, hsilent, hlater⟩ :=
    broken_sink_cuts (.text "") ([] : List (Act Empty)) "" "full" 2 Program.announcing
  have hprinted : later ≠ [] := by
    intro hnone
    have hsame := congrArg Prod.fst (hsilent hnone)
    rw [hbroken, hworking] at hsame
    cases hsame
  exact ⟨hworking, fun fuel hfuel ↦ by rw [hlater hprinted fuel hfuel], htotal⟩

end ScriptLang
