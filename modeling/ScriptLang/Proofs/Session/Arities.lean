import ScriptLang.Proofs.Execution.Arities
import ScriptLang.Proofs.Session.Isolation
import ScriptLang.Proofs.Session.Rejection

/-!
Function keys match arities in every history. A host defines functions under the counts of their
parameters, runs keep them there in every scope of the analyzer and of the memory, and so every zip
of arguments with parameters is complete, in checks and in calls.
-/

set_option autoImplicit false
set_option relaxedAutoImplicit false

namespace ScriptLang

variable {H : Type}

/-! ### Keys -/

/-- Methods stand under the count of their parameters, the first of which is the receiver. -/
structure RecordType.ByArity (type : RecordType Ty) : Prop where
  members : type.members.ByArity Signature.arity
  receiver : ∀ name count found, type.members.function? name count = some found →
    1 ≤ found.params.length

theorem RecordType.Built.byArity {type : RecordType Ty} (h : type.Built) : type.ByArity :=
  ⟨fun _ _ _ hfound ↦ (h.function? hfound).1, fun _ _ _ hfound ↦ h.params_pos hfound⟩

/-- The scopes of an analyzer, that of the host and those of all programs, and the records that
programs can name. -/
structure Analyzer.ByArity (analyzer : Analyzer) : Prop where
  scopes : analyzer.scopes.Each (Scope.ByArity Signature.arity)
  records : ∀ name type, analyzer.records.find? name = some type →
    ∃ record, type = .record record ∧ record.Built

/-- The scopes of the host and of the last module, and the objects. -/
structure State.ByArity (state : State H) : Prop where
  globals : state.globals.ByArity Callable.arity
  module : state.module.ByArity Callable.arity
  objects : ∀ ref, (state.objects.members ref).ByArity HostFunction.arity

/-- Mapping the functions of a scope keeps them under their counts if it keeps the counts. -/
theorem Scope.ByArity.map {V W F G : Type} {arity : F → Nat} {arity' : G → Nat} {scope : Scope V F}
    {functions : F → G} (h : scope.ByArity arity)
    (hfunctions : ∀ found, arity' (functions found) = arity found) (vars : V → W) :
    (scope.map vars functions).ByArity arity' := by
  intro name count found hfound
  have hmap := Bindings.find?_map functions scope.functions (name, count)
  obtain ⟨old, hold, rfl⟩ := Option.map_eq_some_iff.mp (hmap.symm.trans hfound)
  exact (hfunctions old).trans (h name count old hold)

/-- What is read off a memory is keyed like it. -/
theorem Memory.ByArity.state {memory : Memory H} (h : memory.ByArity) (frame : Frame) :
    (memory.state frame).ByArity where
  globals := (h.scopes 0).map (fun _ ↦ rfl) _
  module := (h.scopes frame.module).map (fun _ ↦ rfl) _
  objects ref := by
    intro name count function hfound
    exact h.objects ref name count function (memory.contents_function? ref name count ▸ hfound)

/-! ### Zips -/

/-- In a program, the types of parameters are zipped with all arguments at every site, and with all
names of parameters at every method. -/
structure Program.PairsAll (context : TypeContext) (program : Program) : Prop where
  sites : ∀ place site, program.site? context place = some site → site.PassesAll
  params : ∀ method ∈ program.methods, ∀ signature, method.signature context = .ok signature →
    PairsUp method.params signature.params

/-- In a program that is read every zip of types with arguments or parameters drops nothing. -/
theorem Program.pairsAll {context : TypeContext} (hcontext : context.Built) {text : String}
    {program : Program} (hprogram : Program.ofText text = .ok program) :
    program.PairsAll context := by
  obtain ⟨tokens, -, htokens⟩ := except_bind_eq_ok.mp hprogram
  have hpaired := Program.ofTokens_paired (except_mapError_eq_ok.mp htokens)
  exact ⟨fun place site hsite ↦ Site.passesAll (Program.site?_keyed hcontext hsite),
    fun method hmethod signature ↦ Method.signature_pairsUp (hpaired method hmethod)⟩

/-- A call with these arguments binds each of them to a parameter, and each parameter. -/
def Callable.Takes (callable : Callable H) (args : List Value) : Prop :=
  args.length = callable.arity ∧
    ∀ definition, callable = .procedure definition → PairsUp definition.params args

/-- Equal counts bind each argument to a parameter and each parameter to an argument. -/
theorem Callable.takes_of_arity {callable : Callable H} {args : List Value}
    (h : callable.arity = args.length) : callable.Takes args := by
  refine ⟨h.symm, ?_⟩
  rintro definition rfl
  exact pairsUp_of_length h

/-- What is looked up for some arguments takes them, be it called by its name or on an object. -/
structure Memory.BindsAll (memory : Memory H) : Prop where
  call : ∀ scope name args closure,
    memory.scopes.function? scope name args.length = some closure → closure.callable.Takes args
  invoke : ∀ ref name (object : Value) args function,
    (memory.members ref).function? name (args.length + 1) = some function →
      (Callable.host function).Takes (object :: args)

/-- In a memory with callables under their counts every call binds all arguments. -/
theorem Memory.ByArity.bindsAll {memory : Memory H} (h : memory.ByArity) : memory.BindsAll where
  call _ _ _ _ hfound := Callable.takes_of_arity (h.function? hfound)
  invoke ref name _ args function hfound :=
    Callable.takes_of_arity (h.objects ref name (args.length + 1) function hfound)

/-! ### Histories -/

variable [Host H]

/-- Whatever a host does, it builds the context. -/
theorem Session.built_after (sink : Sink) (acts : List (Act H)) :
    (after sink acts).context.Built := by
  induction acts using List.reverseRecOn with
  | nil => exact .initial
  | append_singleton acts act ih =>
    rw [after_append]
    cases act with
    | registerType type hbuilt => exact ih.register hbuilt
    | defineVariable name type hbuilt value => exact ih.defineVariable name hbuilt
    | defineFunction signature hbuilt body => exact ih.defineFunction hbuilt
    | addObject object => exact ih
    | interpret fuel program =>
      unfold perform
      rw [interpret_context]
      exact ih
    | run fuel text =>
      unfold perform
      rw [run_context]
      exact ih

namespace Interpreter

theorem after_append (sink : Sink) (acts : List (Act H)) (act : Act H) :
    after sink (acts ++ [act]) = (after sink acts).perform act := by
  unfold after
  rw [List.foldl_append]
  rfl

/-- All records that an analyzer knows after any acts of a host are built by the host. -/
theorem built_after (sink : Sink) (acts : List (Act H)) :
    (after sink acts).analyzer.context.Built := by
  have hcontext : (after sink acts).analyzer.context = (Session.after sink acts).context :=
    congrArg Session.context (after_spec sink acts).1
  exact hcontext ▸ Session.built_after sink acts

/-- A run adds keyed scopes to keyed ones, also if the text is rejected. -/
theorem run_keyed {interpreter : Interpreter H} (hbuilt : interpreter.analyzer.context.Built)
    (h : interpreter.analyzer.scopes.Each TypeScope.Keyed) (fuel : Nat) (text : String) :
    (interpreter.run fuel text).2.analyzer.scopes.Each TypeScope.Keyed := by
  unfold run
  cases Program.ofText text with
  | error cause => exact h
  | ok program =>
    have hend := program.analyze_keys hbuilt interpreter.analyzer ⟨rfl, h⟩
    dsimp only
    generalize program.analyze interpreter.analyzer = reached at hend
    cases hend with
    | ok _ hafter =>
      dsimp only
      rw [(session_interpret _ fuel program).2.2]
      exact hafter.scopes
    | error _ hafter => exact hafter.scopes

/-- Every scope that the analyzer has ever opened is keyed. -/
theorem keyed_after (sink : Sink) (acts : List (Act H)) :
    (after sink acts).analyzer.scopes.Each TypeScope.Keyed := by
  induction acts using List.reverseRecOn with
  | nil =>
    have hroot : Analyzer.KeyedIn .initial {} := ⟨rfl, .root .empty⟩
    have hprint : Analyzer.KeyedIn .initial
        (Analyzer.declareFunction {} 0 ⟨"print", [Ty.any], Ty.nil⟩) :=
      hroot.declareFunction 0 (Ty.built_of_plain fun _ h ↦ by cases h)
    have hrange : Analyzer.KeyedIn .initial .initial :=
      hprint.declareFunction 0 (Ty.built_of_plain fun _ h ↦ by cases h)
    exact hrange.scopes
  | append_singleton acts act ih =>
    have hbuilt := built_after sink acts
    rw [after_append]
    have h : (after sink acts).analyzer.KeyedIn (after sink acts).analyzer.context := ⟨rfl, ih⟩
    cases act with
    | registerType type htype => exact ih
    | defineVariable name type htype value => exact (h.declare 0 name htype).scopes
    | defineFunction signature hreturns body => exact (h.declareFunction 0 hreturns).scopes
    | addObject object => exact ih
    | interpret fuel program =>
      unfold perform
      rw [(session_interpret _ fuel program).2.2]
      exact ih
    | run fuel text => exact run_keyed hbuilt ih fuel text

end Interpreter

namespace CellSession

/-- A program leaves callables under their counts, and the host is the only one to report a wrong
count. -/
theorem interpret_byArity {session : CellSession H} (h : session.tracked.ByArity) (fuel : Nat)
    (program : Program) :
    (session.interpret fuel program).2.tracked.ByArity ∧
      ∀ cause, (session.interpret fuel program).1 = .error (.runtime cause) →
        cause.isMiscount = true → Host.Reports H cause := by
  have hend := program.runOnCells_counts fuel session.tracked h
  unfold interpret
  generalize program.runOnCells fuel session.tracked = reached at hend
  cases hend with
  | ok _ hafter => exact ⟨hafter, fun cause hcause ↦ by cases hcause⟩
  | @error interruption after hcounted hafter =>
    refine ⟨hafter, fun cause hcause ↦ ?_⟩
    cases interruption with
    | failed other =>
      cases hcause
      exact hcounted cause rfl
    | outOfFuel => cases hcause

/-- After any acts of a host all memories on the way have callables under their counts. -/
theorem byArity_after (sink : Sink) (acts : List (Act H)) :
    (after sink acts).tracked.ByArity := by
  induction acts using List.reverseRecOn with
  | nil => exact List.forall_mem_cons.mpr ⟨Memory.byArity_initial sink, List.forall_mem_nil _⟩
  | append_singleton acts act ih =>
    unfold after at ih ⊢
    rw [List.foldl_append, List.foldl_cons, List.foldl_nil]
    cases act with
    | registerType type hbuilt => exact ih
    | defineVariable name type hbuilt value => exact ih.change fun h ↦ h.declare 0 name value
    | defineFunction signature hbuilt body =>
      exact ih.change fun h ↦ h.declareFunction 0 signature.name rfl
    | addObject object => exact ih.change fun h ↦ h.store _
    | interpret fuel program => exact (interpret_byArity ih fuel program).1
    | run fuel text =>
      unfold perform run
      dsimp only
      cases Program.ofCheckedText _ text with
      | ok program => exact (interpret_byArity ih fuel program).1
      | error cause => exact ih

end CellSession

/-! ### Results -/

/-- A failure for a count of arguments is one that a function of the host has reported. -/
def Host.MiscountsAlone (H : Type) [Host H] (result : Except RunError Value) : Prop :=
  ∀ cause, result = .error (.runtime cause) → cause.isMiscount = true → Host.Reports H cause

namespace Interpreter

/-- A program that is run without a check can fail with a wrong count only out of a function of the
host. -/
theorem interpret_miscounts (sink : Sink) (acts : List (Act H)) (fuel : Nat) (program : Program) :
    Host.MiscountsAlone H ((after sink acts).interpret fuel program).1 := by
  have hcells := ((CellSession.shows_after sink acts).interpret
    (Session.offers_after sink acts).globals fuel program).1
  rw [(session_interpret _ fuel program).1, (after_spec sink acts).1, ← hcells]
  exact (CellSession.interpret_byArity (CellSession.byArity_after sink acts) fuel program).2

/-- A text that is run can fail with a wrong count only out of a function of the host. -/
theorem run_miscounts (sink : Sink) (acts : List (Act H)) (fuel : Nat) (text : String) :
    Host.MiscountsAlone H ((after sink acts).run fuel text).1 := by
  obtain ⟨hsession, hready⟩ := after_spec sink acts
  rw [(session_run hready fuel text).1]
  unfold Session.run
  cases haccepted : Program.ofCheckedText (after sink acts).session.context text with
  | ok program =>
    rw [← (session_interpret _ fuel program).1]
    exact interpret_miscounts sink acts fuel program
  | error cause =>
    intro other hother
    cases hother
    cases Program.ofCheckedText_eq_error haccepted

/-- Function keys match arities everywhere. After any history every function in a scope of the
analyzer stands under the count of its parameters, and so does every method of a record that a host
can build, where the receiver is counted; the types that programs can name are such records. Every
callable stands under the count of the arguments that it takes, in the state of the interpreter as
in all memories that its runs have gone through, in scopes and in objects.

Therefore nothing is dropped where lists are zipped: at a call in a program that was read, be it
accepted or not, the arguments and the types of the parameters behind the receiver; at a method, the
names of its parameters and their types; and in a call that is made, the names and the arguments. No
run fails for a wrong count of arguments unless a function of the host reports one. -/
theorem keys_match_arities (sink : Sink) (acts : List (Act H)) :
    let interpreter := after sink acts
    let cells := CellSession.after sink acts
    interpreter.analyzer.ByArity ∧ (∀ record : RecordType Ty, record.Built → record.ByArity) ∧
      interpreter.state.ByArity ∧ cells.state = interpreter.state ∧
      (∀ memory ∈ cells.tracked.memories, memory.ByArity ∧ memory.BindsAll) ∧
      (∀ text program, Program.ofText text = .ok program →
        program.PairsAll interpreter.analyzer.context) ∧
      (∀ fuel program, Host.MiscountsAlone H (interpreter.interpret fuel program).1) ∧
      ∀ fuel text, Host.MiscountsAlone H (interpreter.run fuel text).1 := by
  intro interpreter cells
  have hbuilt : interpreter.analyzer.context.Built := built_after sink acts
  have hcells : cells.tracked.ByArity := CellSession.byArity_after sink acts
  have hstate : cells.state = interpreter.state :=
    (CellSession.shows_after sink acts).tracked.state.trans
      (congrArg Session.state (after_spec sink acts).1).symm
  refine ⟨⟨fun number ↦ (keyed_after sink acts number).byArity, fun _ _ ↦ hbuilt.records⟩,
    fun _ hrecord ↦ hrecord.byArity, hstate ▸ hcells.memory.state _, hstate, ?_, ?_,
    interpret_miscounts sink acts, run_miscounts sink acts⟩
  · intro memory hmemory
    exact ⟨hcells memory hmemory, (hcells memory hmemory).bindsAll⟩
  · exact fun _ _ hprogram ↦ Program.pairsAll hbuilt hprogram

/-- A host with a method, and a run of a program with two functions of one name. -/
def overloading : List (Act Empty) :=
  [.registerType (RecordType.withMethod ⟨"Counter", {}⟩ "add" [.integer] .integer)
    (.withMethod (.new "Counter") fun _ h ↦ by cases h),
   .run 3 "DEF f(): Integer DO RETURN f(5); END DEF f(x: Integer): Integer DO RETURN x; END
     DEF main(): Integer DO RETURN f(); END"]

/-- Two methods of one name are known by their counts, to the checker and to the run. -/
theorem keys_match_arities_overloading :
    let interpreter := after (.text "") overloading
    let memory := (CellSession.after (.text "") overloading).tracked.memory
    (∃ found, (interpreter.analyzer.scopes.scopeAt 1).function? "f" 1 = some found ∧
        found.params.length = 1) ∧
      ∃ closure, memory.scopes.function? 2 "f" 1 = some closure ∧
        closure.callable.Takes [.integer 5] := by
  intro interpreter memory
  obtain ⟨hanalyzer, -, -, -, hmemories, -⟩ := keys_match_arities (.text "") overloading
  have hknown : ((interpreter.analyzer.scopes.scopeAt 1).function? "f" 1).isSome = true := by
    unfold interpreter
    cbv
  have hcallable : (memory.scopes.function? 2 "f" 1).isSome = true := by
    unfold memory
    cbv
  obtain ⟨found, hfound⟩ := Option.isSome_iff_exists.mp hknown
  obtain ⟨closure, hclosure⟩ := Option.isSome_iff_exists.mp hcallable
  refine ⟨⟨found, hfound, hanalyzer.scopes 1 "f" 1 found hfound⟩, closure, hclosure, ?_⟩
  exact (hmemories memory List.mem_cons_self).2.call 2 "f" [.integer 5] closure hclosure

end Interpreter

end ScriptLang
