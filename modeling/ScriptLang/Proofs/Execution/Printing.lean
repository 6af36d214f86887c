import ScriptLang.Proofs.Execution.CellSteps
import ScriptLang.Proofs.Execution.Frames

/-!
Printing to a sink on which every attempt fails. A run on cells looks at its sink only to print. So
it goes through the same memories on a broken sink as on a working one as long as nothing is
printed, and the first line that it prints is where it stops: a failure to print is passed on by
every construct, and nothing is done behind it.
-/

set_option autoImplicit false
set_option relaxedAutoImplicit false

namespace ScriptLang

variable {H α β : Type}

/-! ### Sinks -/

/-- The memory with another sink. -/
def Memory.withSink (memory : Memory H) (sink : Sink) : Memory H := { memory with sink }

/-- Nothing but `printed` and what may be printed after it is in the sink. -/
def Sink.Extends (printed : String) (sink : Sink) : Prop := ∃ more, sink = .text (printed ++ more)

/-- Something is in the sink behind `printed`. -/
def Sink.Exceeds (printed : String) (sink : Sink) : Prop :=
  ∃ more, 0 < more.length ∧ sink = .text (printed ++ more)

namespace Sink

variable {printed more : String} {sink : Sink}

/-- What is printed behind more is printed behind less, and the sink exceeds it if that more is
something. -/
theorem Extends.exceeds (hmore : 0 < more.length) (h : sink.Extends (printed ++ more)) :
    sink.Exceeds printed := by
  obtain ⟨later, rfl⟩ := h
  refine ⟨more ++ later, ?_, by rw [String.append_assoc]⟩
  rw [String.length_append]
  exact Nat.lt_add_right _ hmore

theorem Exceeds.extends (h : sink.Exceeds printed) : sink.Extends printed := by
  obtain ⟨more, -, rfl⟩ := h
  exact ⟨more, rfl⟩

theorem Extends.trans (h : sink.Extends (printed ++ more)) : sink.Extends printed := by
  obtain ⟨later, rfl⟩ := h
  exact ⟨more ++ later, by rw [String.append_assoc]⟩

/-- Every line has a line break at least, so a printed one exceeds what was there. -/
theorem exceeds_of_print {line : String} (h : Sink.print line (.text printed) = .ok sink) :
    sink.Exceeds printed := by
  cases h
  refine ⟨line ++ "\n", ?_, by rw [String.append_assoc]⟩
  rw [String.length_append]
  exact Nat.lt_add_left _ (by decide)

end Sink

/-! ### Memories on the way -/

/-- The memories from `before` to `after` have sinks of one sort; the latest is first. -/
def Tracked.Adds (sort : Sink → Prop) (later : List (Memory H)) (before after : Tracked H) : Prop :=
  after.memories = later ++ before.memories ∧ ∀ memory ∈ later, sort memory.sink

namespace Tracked

variable {sort : Sink → Prop} {later more : List (Memory H)} {before middle after : Tracked H}

theorem adds_refl (sort : Sink → Prop) (tracked : Tracked H) : Adds sort [] tracked tracked :=
  ⟨rfl, List.forall_mem_nil _⟩

theorem Adds.trans (h : Adds sort later before middle) (h' : Adds sort more middle after) :
    Adds sort (more ++ later) before after := by
  refine ⟨?_, List.forall_mem_append.mpr ⟨h'.2, h.2⟩⟩
  rw [h'.1, h.1, List.append_assoc]

theorem Adds.imp {other : Sink → Prop} (h : Adds sort later before after)
    (himp : ∀ sink, sort sink → other sink) : Adds other later before after :=
  ⟨h.1, fun memory hmemory ↦ himp _ (h.2 memory hmemory)⟩

/-- The sink in the end is of the sort, if the one at the start is. -/
theorem Adds.sink (h : Adds sort later before after) (hbefore : sort before.memory.sink) :
    sort after.memory.sink := by
  obtain ⟨hmemories, hlater⟩ := h
  cases later with
  | nil => exact (List.cons_eq_cons.mp hmemories).1 ▸ hbefore
  | cons memory later =>
    exact (List.cons_eq_cons.mp hmemories).1 ▸ hlater memory List.mem_cons_self

/-- If there was any memory on the way, the last one has a sink of the sort. -/
theorem Adds.sink_of_ne_nil (h : Adds sort later before after) (hlater : later ≠ []) :
    sort after.memory.sink := by
  obtain ⟨hmemories, hsinks⟩ := h
  obtain ⟨memory, rest, rfl⟩ := List.exists_cons_of_ne_nil hlater
  exact (List.cons_eq_cons.mp hmemories).1 ▸ hsinks memory List.mem_cons_self

end Tracked

/-- Two memories that differ in the sink alone: nothing is in the first behind `printed`, and the
second is broken. -/
structure Tracked.Paired (printed reason : String) (first second : Tracked H) : Prop where
  sink : first.memory.sink = .text printed
  memory : second.memory = first.memory.withSink (.broken reason)

/-- Both have gone through the same memories but for the sinks, and nothing was printed. -/
structure Tracked.Silent (printed reason : String) (start start' now now' : Tracked H)
    (silent : List (Memory H)) : Prop where
  first : Tracked.Adds (· = .text printed) silent start now
  second : now'.memories = silent.map (Memory.withSink · (.broken reason)) ++ start'.memories

namespace Tracked

variable {printed reason : String} {start start' middle middle' now now' : Tracked H}
  {silent more : List (Memory H)}

theorem silent_refl (printed reason : String) (start start' : Tracked H) :
    Silent printed reason start start' start start' [] := ⟨adds_refl _ _, rfl⟩

theorem Silent.trans (h : Silent printed reason start start' middle middle' silent)
    (h' : Silent printed reason middle middle' now now' more) :
    Silent printed reason start start' now now' (more ++ silent) :=
  ⟨h.first.trans h'.first, by rw [h'.second, h.second, List.map_append, List.append_assoc]⟩

/-- While nothing is printed, the two memories differ in their sinks alone. -/
theorem Silent.paired (h : Silent printed reason start start' now now' silent)
    (hstart : Paired printed reason start start') : Paired printed reason now now' := by
  obtain ⟨hfirst, hsecond⟩ := h
  refine ⟨hfirst.sink hstart.sink, ?_⟩
  cases silent with
  | nil =>
    rw [(List.cons_eq_cons.mp hsecond).1, (List.cons_eq_cons.mp hfirst.1).1]
    exact hstart.memory
  | cons memory silent =>
    rw [(List.cons_eq_cons.mp hsecond).1, (List.cons_eq_cons.mp hfirst.1).1]

end Tracked

namespace CellRun

/-- What is tracked when a run ends. -/
def stop : EStateM.Result Interruption (Tracked H) α → Tracked H
  | .ok _ after | .error _ after => after

/-- How a run ends on a working sink and on a broken one: alike if nothing was printed, else the
second has failed where the first went on to print. -/
inductive Cut (printed reason : String) (start start' : Tracked H) :
    EStateM.Result Interruption (Tracked H) α → EStateM.Result Interruption (Tracked H) α → Prop
  | ok {value : α} {after after' : Tracked H} {silent : List (Memory H)}
    (h : Tracked.Silent printed reason start start' after after' silent) :
    Cut printed reason start start' (.ok value after) (.ok value after')
  | error {cause : Interruption} {after after' : Tracked H} {silent : List (Memory H)}
    (h : Tracked.Silent printed reason start start' after after' silent) :
    Cut printed reason start start' (.error cause after) (.error cause after')
  | printed {result : EStateM.Result Interruption (Tracked H) α} {middle after' : Tracked H}
    {silent later : List (Memory H)}
    (h : Tracked.Silent printed reason start start' middle after' silent) (hlater : later ≠ [])
    (hprinted : Tracked.Adds (Sink.Exceeds printed) later middle (stop result)) :
    Cut printed reason start start' result (.error (.failed (.outputFailed reason)) after')

/-- On a working sink the run prints behind what was printed; on a broken one it goes as far as its
first line. -/
structure Heeds (body : CellRun H α) : Prop where
  adds : ∀ {printed : String} {tracked : Tracked H}, tracked.memory.sink = .text printed →
    ∃ later, Tracked.Adds (Sink.Extends printed) later tracked (stop (body tracked))
  cut : ∀ {printed reason : String} {first second : Tracked H},
    Tracked.Paired printed reason first second →
      Cut printed reason first second (body first) (body second)

/-- What comes behind runs on which nothing was printed. -/
theorem Cut.after {printed reason : String} {start start' middle middle' : Tracked H}
    {result result' : EStateM.Result Interruption (Tracked H) α} {silent : List (Memory H)}
    (hcut : Cut printed reason middle middle' result result')
    (h : Tracked.Silent printed reason start start' middle middle' silent) :
    Cut printed reason start start' result result' := by
  cases hcut with
  | ok hrest => exact .ok (h.trans hrest)
  | error hrest => exact .error (h.trans hrest)
  | printed hrest hlater hprinted => exact .printed (h.trans hrest) hlater hprinted

variable {body : CellRun H α} {next : α → CellRun H β}

/-! ### Rules for each way to put runs together -/

namespace Heeds

theorem pure (value : α) : (Pure.pure value : CellRun H α).Heeds where
  adds _ := ⟨[], Tracked.adds_refl _ _⟩
  cut _ := .ok (Tracked.silent_refl _ _ _ _)

theorem throw (cause : Interruption) : (MonadExcept.throw cause : CellRun H α).Heeds where
  adds _ := ⟨[], Tracked.adds_refl _ _⟩
  cut _ := .error (Tracked.silent_refl _ _ _ _)

theorem ofExcept (result : Except RuntimeError α) :
    (CellRun.ofExcept result : CellRun H α).Heeds := by
  cases result with
  | ok value => exact .pure value
  | error cause => exact .throw _

/-- Runs may be put one after another. If the first prints, the second run on a broken sink has
ended there and what follows only adds to what was printed. -/
theorem bind (hbody : body.Heeds) (hnext : ∀ value, (next value).Heeds) :
    (body >>= next).Heeds where
  adds {printed tracked} hsink := by
    obtain ⟨later, hadds⟩ := hbody.adds hsink
    generalize hrun : body tracked = result at hadds
    cases result with
    | error cause after =>
      rw [Stateful.bind_of_error hrun]
      exact ⟨later, hadds⟩
    | ok value middle =>
      obtain ⟨more, hmore⟩ := hadds.sink ⟨"", by rw [hsink, String.append_empty]⟩
      obtain ⟨last, hlast⟩ := (hnext value).adds hmore
      rw [Stateful.bind_of_ok hrun]
      exact ⟨last ++ later, hadds.trans (hlast.imp fun _ ↦ Sink.Extends.trans)⟩
  cut {printed reason first second} hpaired := by
    have hcut := hbody.cut hpaired
    generalize hrun : body first = one at hcut
    generalize hrun' : body second = other at hcut
    cases hcut with
    | ok h =>
      rw [Stateful.bind_of_ok hrun, Stateful.bind_of_ok hrun']
      exact ((hnext _).cut (h.paired hpaired)).after h
    | error h =>
      rw [Stateful.bind_of_error hrun, Stateful.bind_of_error hrun']
      exact .error h
    | @printed _ middle _ silent later h hlater hprinted =>
      rw [Stateful.bind_of_error hrun']
      cases one with
      | error cause after =>
        rw [Stateful.bind_of_error hrun]
        exact .printed h hlater hprinted
      | ok value after =>
        obtain ⟨more, hmore, hsink⟩ := hprinted.sink_of_ne_nil hlater
        obtain ⟨last, hlast⟩ := (hnext value).adds hsink
        rw [Stateful.bind_of_ok hrun]
        exact .printed h (List.append_ne_nil_of_right_ne_nil last hlater)
          (hprinted.trans (hlast.imp fun _ ↦ Sink.Extends.exceeds hmore))

/-- To write down what an expression has done adds no line. -/
theorem visiting (expr : Expr) (scope : Nat) (hbody : body.Heeds) :
    (CellRun.visiting expr scope body).Heeds where
  adds {printed tracked} hsink := by
    obtain ⟨later, hadds⟩ := hbody.adds hsink
    refine ⟨later, ?_⟩
    unfold CellRun.visiting
    cases hrun : body tracked <;> rw [hrun] at hadds <;> exact hadds
  cut {printed reason first second} hpaired := by
    have hcut := hbody.cut hpaired
    unfold CellRun.visiting
    generalize body first = one at hcut
    generalize body second = other at hcut
    cases hcut with
    | ok h => exact .ok ⟨h.first, h.second⟩
    | error h => exact .error ⟨h.first, h.second⟩
    | printed h hlater hprinted => cases one <;> exact .printed ⟨h.first, h.second⟩ hlater hprinted

/-- What is read from the memory is not its sink. -/
theorem of_memory {next : Memory H → CellRun H α}
    (hsink : ∀ (memory : Memory H) (sink : Sink), next (memory.withSink sink) = next memory)
    (hnext : ∀ memory, (next memory).Heeds) : (memory >>= next).Heeds where
  adds {_ tracked} hstart := by
    rw [bind_memory]
    exact (hnext tracked.memory).adds hstart
  cut {_ _ first second} hpaired := by
    rw [bind_memory, bind_memory, hpaired.memory, hsink]
    exact (hnext first.memory).cut hpaired

/-- A change that has nothing to do with the sink. -/
theorem change {step : Memory H → Memory H}
    (hstep : ∀ (memory : Memory H) (sink : Sink),
      step (memory.withSink sink) = (step memory).withSink sink) : (CellRun.change step).Heeds := by
  have hadds {tracked : Tracked H} {printed : String}
      (hsink : tracked.memory.sink = .text printed) :
      Tracked.Adds (· = .text printed) [step tracked.memory] tracked (tracked.change step) := by
    have hkept := congrArg Memory.sink (hstep tracked.memory tracked.memory.sink)
    change (step tracked.memory).sink = tracked.memory.sink at hkept
    exact ⟨rfl, List.forall_mem_singleton.mpr (hkept.trans hsink)⟩
  refine ⟨fun {printed tracked} hsink ↦ ?_, fun {printed reason first second} hpaired ↦ ?_⟩
  · refine ⟨_, (hadds hsink).imp ?_⟩
    rintro _ rfl
    exact ⟨"", by rw [String.append_empty]⟩
  · refine .ok ⟨hadds hpaired.sink, ?_⟩
    change step second.memory :: second.memories = _
    rw [hpaired.memory, hstep]
    rfl

/-- A conditional loop heeds its sink if its condition and its body do. The induction is on the fuel
for its turns. -/
theorem repeatWhile {condition : CellRun H Bool} {body : CellRun H Flow}
    (hcondition : condition.Heeds) (hbody : body.Heeds) (fuel : Nat) :
    (CellRun.repeatWhile condition body fuel).Heeds := by
  induction fuel with
  | zero => exact .throw _
  | succ fuel ih =>
    refine hcondition.bind fun holds ↦ ?_
    split
    · refine hbody.bind fun flow ↦ ?_
      cases flow with
      | next => exact ih
      | returned value => exact .pure _
    · exact .pure _

/-- A loop over a range heeds its sink if its body does at each number. -/
theorem forRange {body : Int → CellRun H Flow} (hbody : ∀ item, (body item).Heeds)
    (count : Nat) (start : Int) : (CellRun.forRange body count start).Heeds := by
  induction count generalizing start with
  | zero => exact .pure _
  | succ count ih =>
    refine (hbody start).bind fun flow ↦ ?_
    cases flow with
    | next => exact ih (start + 1)
    | returned value => exact .pure _

/-- Parameters are declared without printing. -/
theorem declareAll (scope : Nat) (entries : List (String × Value)) :
    (CellRun.declareAll scope entries : CellRun H Unit).Heeds := by
  induction entries with
  | nil => exact .pure _
  | cons entry rest ih => exact (Heeds.change fun _ _ ↦ rfl).bind fun _ ↦ ih

end Heeds

/-! ### Steps -/

theorem openScope_heeds (parent : Nat) : (openScope parent : CellRun H Nat).Heeds :=
  .of_memory (fun _ _ ↦ rfl) fun _ ↦ (Heeds.change fun _ _ ↦ rfl).bind fun _ ↦ .pure _

/-- Reading a variable prints nothing. -/
theorem lookup_heeds (scope : Nat) (name : String) :
    (lookup scope name : CellRun H Value).Heeds := by
  refine .of_memory (fun _ _ ↦ rfl) fun memory ↦ ?_
  split
  · exact .pure _
  · exact .throw _

theorem function_heeds (scope : Nat) (name : String) (arity : Nat) :
    (function scope name arity : CellRun H (Closure H)).Heeds := by
  refine .of_memory (fun _ _ ↦ rfl) fun memory ↦ ?_
  split
  · exact .pure _
  · exact .throw _

/-- Assigning prints nothing. -/
theorem assign_heeds (scope : Nat) (name : String) (value : Value) :
    (assign scope name value : CellRun H Unit).Heeds := by
  refine .of_memory (fun _ _ ↦ rfl) fun memory ↦ ?_
  split
  · exact .change fun _ _ ↦ rfl
  · exact .throw _

theorem field_heeds (ref : ObjectRef) (name : String) :
    (field ref name : CellRun H Value).Heeds := by
  refine .of_memory (fun _ _ ↦ rfl) fun memory ↦ ?_
  split
  · exact .pure _
  · exact .throw _

/-- Setting a field prints nothing. -/
theorem setField_heeds (ref : ObjectRef) (name : String) (value : Value) :
    (setField ref name value : CellRun H Unit).Heeds := by
  refine .of_memory (fun _ _ ↦ rfl) fun memory ↦ ?_
  split
  · exact .change fun _ _ ↦ rfl
  · exact .throw _

theorem method_heeds (ref : ObjectRef) (name : String) (arity : Nat) :
    (method ref name arity : CellRun H (Closure H)).Heeds := by
  refine .of_memory (fun _ _ ↦ rfl) fun memory ↦ ?_
  split
  · exact .pure _
  · exact .throw _

/-- A line is printed on a working sink, and is where a run stops on a broken one. -/
theorem print_heeds (line : String) : (print line : CellRun H Unit).Heeds := by
  have hadds {tracked : Tracked H} {printed : String}
      (hsink : tracked.memory.sink = .text printed) :
      ∃ after, print line tracked = .ok () after ∧ ∃ memory,
        Tracked.Adds (Sink.Exceeds printed) [memory] tracked after := by
    have hprint := print_apply line tracked
    rw [hsink] at hprint
    refine ⟨_, hprint, _, rfl, List.forall_mem_singleton.mpr ?_⟩
    exact Sink.exceeds_of_print rfl
  refine ⟨fun {printed tracked} hsink ↦ ?_, fun {printed reason first second} hpaired ↦ ?_⟩
  · obtain ⟨after, hrun, memory, hprinted⟩ := hadds hsink
    rw [hrun]
    exact ⟨[memory], hprinted.imp fun _ ↦ Sink.Exceeds.extends⟩
  · obtain ⟨after, hrun, memory, hprinted⟩ := hadds hpaired.sink
    have hbroken : print line second = .error (.failed (.outputFailed reason)) second := by
      rw [print_apply, hpaired.memory]
      rfl
    rw [hrun, hbroken]
    exact .printed (Tracked.silent_refl _ _ _ _) (List.cons_ne_nil _ _) hprinted

/-- The functions of a host have no hand on the sink. -/
theorem host_heeds [Host H] (body : H) (args : List Value) : (host body args).Heeds :=
  .of_memory (fun _ _ ↦ rfl) fun _ ↦ (Heeds.change fun _ _ ↦ rfl).bind fun _ ↦ .ofExcept _

end CellRun

/-! ### Trees -/

section

variable [Host H] {invoke : Closure H → List Value → CellRun H Value}
  (hinvoke : ∀ closure args, (invoke closure args).Heeds)

include hinvoke

-- A mutual recursion over the tree does not name the hypothesis that it shares.
set_option linter.unusedSectionVars false

section

variable (scope : Nat)

mutual

/-- An expression heeds its sink if calls do. The recursion follows the tree. -/
theorem Expr.evalOnCells_heeds (expr : Expr) : (expr.evalOnCells invoke scope).Heeds := by
  unfold Expr.evalOnCells
  refine CellRun.Heeds.visiting expr scope ?_
  match expr with
  | .literal .. => exact .pure _
  | .group _ inner => exact inner.evalOnCells_heeds
  | .binary _ op left right =>
    refine left.evalOnCells_heeds.bind fun first ↦ ?_
    cases op.shortcut? with
    | some decisive =>
      refine (CellRun.Heeds.ofExcept _).bind fun holds ↦ ?_
      split
      · exact .pure _
      · refine right.evalOnCells_heeds.bind fun second ↦ ?_
        exact (CellRun.Heeds.ofExcept _).bind fun _ ↦ .pure _
    | none => exact right.evalOnCells_heeds.bind fun second ↦ .ofExcept _
  | .access _ name _ => exact CellRun.lookup_heeds scope name
  | .member _ receiver name _ =>
    refine receiver.evalOnCells_heeds.bind fun _ ↦ ?_
    exact (CellRun.Heeds.ofExcept _).bind fun ref ↦ CellRun.field_heeds ref name
  | .call _ name args _ =>
    refine (evalArgsOnCells_heeds args).bind fun values ↦ ?_
    exact (CellRun.function_heeds scope name values.length).bind fun closure ↦
      hinvoke closure values
  | .invoke _ receiver name args _ =>
    refine receiver.evalOnCells_heeds.bind fun object ↦ ?_
    refine (evalArgsOnCells_heeds args).bind fun values ↦ ?_
    refine (CellRun.Heeds.ofExcept _).bind fun ref ↦ ?_
    exact (CellRun.method_heeds ref name (values.length + 1)).bind fun closure ↦
      hinvoke closure (object :: values)

/-- Arguments heed their sink one after another. -/
theorem evalArgsOnCells_heeds : ∀ args : List Expr, (evalArgsOnCells invoke scope args).Heeds
  | [] => .pure _
  | head :: tail => head.evalOnCells_heeds.bind fun _ ↦
    (evalArgsOnCells_heeds tail).bind fun _ ↦ .pure _

end

theorem Binding.evalOnCells_heeds (binding : Binding) :
    (binding.evalOnCells invoke scope).Heeds := by
  unfold Binding.evalOnCells
  cases binding.value with
  | some value => exact value.evalOnCells_heeds hinvoke scope
  | none => exact .pure _

/-- An assignment heeds its sink. -/
theorem Expr.assignOnCells_heeds (target value : Expr) :
    (target.assignOnCells invoke scope value).Heeds := by
  cases target with
  | access offset name known =>
    exact (value.evalOnCells_heeds hinvoke scope).bind fun value ↦
      CellRun.assign_heeds scope name value
  | member offset receiver name known =>
    refine (value.evalOnCells_heeds hinvoke scope).bind fun value ↦ ?_
    refine (receiver.evalOnCells_heeds hinvoke scope).bind fun object ↦ ?_
    exact (CellRun.Heeds.ofExcept _).bind fun ref ↦ CellRun.setField_heeds ref name value
  | literal | group | binary | call | invoke => exact .throw _

theorem Expr.conditionOnCells_heeds (condition : Expr) :
    (condition.conditionOnCells invoke scope).Heeds :=
  (condition.evalOnCells_heeds hinvoke scope).bind fun _ ↦ .ofExcept _

end

variable (fuel : Nat)

mutual

/-- A statement heeds its sink. The recursion follows the tree. -/
theorem Stmt.execOnCells_heeds (scope : Nat) : ∀ statement : Stmt,
    (statement.execOnCells invoke fuel scope).Heeds
  | .expr value => by
    rw [Stmt.execOnCells, Stateful.discard_eq]
    exact ((value.evalOnCells_heeds hinvoke scope).bind fun _ ↦ .pure _).bind fun _ ↦ .pure _
  | .declare binding => by
    rw [Stmt.execOnCells]
    refine (binding.evalOnCells_heeds hinvoke scope).bind fun value ↦ ?_
    exact (CellRun.Heeds.change fun _ _ ↦ rfl).bind fun _ ↦ .pure _
  | .assign target value => by
    rw [Stmt.execOnCells]
    exact (target.assignOnCells_heeds hinvoke scope value).bind fun _ ↦ .pure _
  | .branch condition thenBody elseBody => by
    rw [Stmt.execOnCells]
    refine (condition.conditionOnCells_heeds hinvoke scope).bind fun holds ↦ ?_
    split
    · exact (CellRun.openScope_heeds scope).bind fun inner ↦ execAllOnCells_heeds inner thenBody
    · exact (CellRun.openScope_heeds scope).bind fun inner ↦ execAllOnCells_heeds inner elseBody
  | .forEach offset name iterable body => by
    rw [Stmt.execOnCells]
    refine (iterable.evalOnCells_heeds hinvoke scope).bind fun _ ↦ ?_
    refine (CellRun.Heeds.ofExcept _).bind fun bounds ↦ .forRange (fun item ↦ ?_) _ _
    refine (CellRun.openScope_heeds scope).bind fun inner ↦ ?_
    exact (CellRun.Heeds.change fun _ _ ↦ rfl).bind fun _ ↦ execAllOnCells_heeds inner body
  | .loop condition body => by
    rw [Stmt.execOnCells]
    refine .repeatWhile (condition.conditionOnCells_heeds hinvoke scope) ?_ fuel
    exact (CellRun.openScope_heeds scope).bind fun inner ↦ execAllOnCells_heeds inner body
  | .ret value => by
    rw [Stmt.execOnCells]
    exact (value.evalOnCells_heeds hinvoke scope).bind fun _ ↦ .pure _

/-- Statements heed their sink one after another. -/
theorem execAllOnCells_heeds (scope : Nat) : ∀ statements : List Stmt,
    (execAllOnCells invoke fuel scope statements).Heeds
  | [] => .pure _
  | head :: tail => by
    rw [execAllOnCells]
    refine (head.execOnCells_heeds scope).bind fun flow ↦ ?_
    cases flow with
    | next => exact execAllOnCells_heeds scope tail
    | returned value => exact .pure _

end

end

section

variable [Host H]

/-- A call heeds its sink if bodies do; `print` is where a line is added. -/
theorem Closure.perform_heeds {run : Nat → List Stmt → CellRun H Flow}
    (hrun : ∀ scope body, (run scope body).Heeds) (closure : Closure H) (args : List Value) :
    (closure.perform run args).Heeds := by
  obtain ⟨callable, scope⟩ := closure
  by_cases harity : args.length = callable.arity
  · refine Callable.cases_of_arity callable args harity ?_ ?_ ?_ ?_
    · exact fun value ↦ (CellRun.print_heeds value.display).bind fun _ ↦ .pure _
    · exact fun start stop ↦ (CellRun.Heeds.ofExcept start.asInteger).bind fun _ ↦
        (CellRun.Heeds.ofExcept stop.asInteger).bind fun _ ↦ .pure _
    · intro function args harity
      rw [Closure.perform_host run harity]
      exact CellRun.host_heeds function.body args
    · intro definition args harity
      rw [Closure.perform_procedure run harity]
      refine (CellRun.openScope_heeds scope).bind fun inner ↦ ?_
      refine (CellRun.Heeds.declareAll inner (definition.params.zip args)).bind fun _ ↦ ?_
      refine (hrun inner definition.body).bind fun flow ↦ ?_
      cases flow <;> exact .pure _
  · rw [Closure.perform_of_ne run harity]
    exact .throw _

/-- A call heeds its sink with any amount of fuel. The induction is on the fuel, since a body may
call again. -/
theorem Closure.invoke_heeds (fuel : Nat) (closure : Closure H) (args : List Value) :
    (closure.invoke fuel args).Heeds := by
  induction fuel generalizing closure args with
  | zero => exact closure.perform_heeds (fun _ _ ↦ .throw _) args
  | succ fuel ih => exact closure.perform_heeds (execAllOnCells_heeds ih fuel) args

/-- Fields heed their sink one after another. -/
theorem initializeFieldsOnCells_heeds (fuel module : Nat) (fields : List Binding) :
    (initializeFieldsOnCells fuel module fields : CellRun H Unit).Heeds := by
  induction fields with
  | nil => exact .pure _
  | cons head tail ih =>
    refine (head.evalOnCells_heeds (Closure.invoke_heeds fuel) module).bind fun value ↦ ?_
    exact (CellRun.Heeds.change fun _ _ ↦ rfl).bind fun _ ↦ ih

omit [Host H] in
theorem declareMethodsOnCells_heeds (module : Nat) (methods : List Method) :
    (declareMethodsOnCells module methods : CellRun H Unit).Heeds := by
  induction methods with
  | nil => exact .pure _
  | cons head tail ih => exact (CellRun.Heeds.change fun _ _ ↦ rfl).bind fun _ ↦ ih

/-- A run of a program heeds its sink from the first field to the end of `main`. -/
theorem Program.runOnCells_heeds (program : Program) (fuel : Nat) :
    (program.runOnCells fuel : CellRun H Value).Heeds := by
  refine (CellRun.Heeds.change fun _ _ ↦ rfl).bind fun _ ↦ ?_
  refine .of_memory (fun _ _ ↦ rfl) fun memory ↦ ?_
  refine (initializeFieldsOnCells_heeds fuel memory.module program.fields).bind fun _ ↦ ?_
  refine (declareMethodsOnCells_heeds memory.module program.methods).bind fun _ ↦ ?_
  exact (CellRun.function_heeds memory.module "main" 0).bind fun main ↦ main.invoke_heeds fuel []

end

end ScriptLang
