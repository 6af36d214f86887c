import Mathlib
import ScriptLang.Proofs.Session.Acceptance
import ScriptLang.Proofs.Session.History
import ScriptLang.Proofs.Typing.Annotation
import ScriptLang.Proofs.Typing.Kinds
import ScriptLang.Proofs.Typing.Mishap

/-!
Types are kept while accepted programs run that have no host but `print` and `range`. Every variable
holds NIL or a value of its type whenever the run comes to a node, and every expression gives NIL or
a value of the type that the checker wrote at it. What can still fail is NIL where a value is
needed, a comparison of values without an order, division by zero, and output.
-/

set_option autoImplicit false
set_option relaxedAutoImplicit false

namespace ScriptLang

variable {H : Type}

/-- The discipline of kinds, where no record types are known and no functions besides the built-in
ones. -/
def Discipline.ofKinds [Host H] {context : TypeContext}
    (hrecords : ∀ name, context.records.find? name = none) : Discipline H context where
  World := Unit
  admits type := ∀ record, type ≠ .record record
  fits _ := Ty.Holds
  objects _ _ := True
  offers name arity signature callable :=
    Ledger.initial.find? (name, arity) = some (signature, callable)
  fits_later _ h := h
  admits_plain _ hplain := hplain
  admits_registered := TypeContext.plain_of_no_records hrecords
  admits_field := Ty.plain_field?
  admits_method := Ty.plain_method?
  fits_field _ hplain _ hfound := by
    obtain ⟨record, rfl, -⟩ := Ty.field?_eq_some.mp hfound
    exact (hplain record rfl).elim
  objects_setField _ _ _ _ _ _ := trivial
  keeps_method _ hplain _ hfound := by
    obtain ⟨record, rfl, -⟩ := Ty.method?_eq_some.mp hfound
    exact (hplain record rfl).elim
  blank _ := True
  fits_blank _ type _ := .nil type
  fits_literal _ _ _ _ := .literal
  fits_integer _ _ := .inr fun _ hkind ↦ Option.some_inj.mp hkind
  fits_boolean _ _ := .inr fun _ hkind ↦ Option.some_inj.mp hkind
  fits_assignable _ _ _ _ := .assignable
  fits_operator _ _ _ _ _ _ _ _ _ := BinaryOp.apply_holds
  offers_arity := Ledger.initial_arity
  offers_answers name arity signature callable hfound := by
    obtain h | h := Ledger.initial_cases hfound <;> cases h
    · exact fun _ ↦ .nil _
    · exact fun _ _ _ ↦ .inr fun _ hkind ↦ Option.some_inj.mp hkind

/-- Every variable has a value of its type. -/
def TypeScope.Holds (static : TypeScope) (dynamic : ValueScope H) : Prop :=
  ∀ name, Option.Rel (fun (known : Variable Ty) value ↦ known.type.Holds value)
    (static.lookup? name) (dynamic.lookup? name)

/-- At a moment of a run, every visible variable and every variable of the suspended calls has a
value of its type, and what the node gives is of the type that the checker wrote at it. -/
structure Moment.WellTyped [Host H] (moment : Moment H) (context : TypeContext) (program : Program)
    (site : Site) : Prop where
  found : program.site? context moment.place = some site
  node : site.node = moment.node
  annotated : moment.place.root ≠ .entry →
    (program.annotate context).node? moment.place = some (site.annotated context)
  scopes : List.Forall₂ TypeScope.Holds site.scopes moment.state.chain
  callers : List.Forall₂ (fun place locals ↦ ∃ caller, program.site? context place = some caller ∧
    List.Forall₂ TypeScope.Holds caller.scopes
      (locals ++ [moment.state.module, moment.state.globals]))
    moment.callers moment.state.suspended
  expr : ∀ expr value after, moment.node = .expr expr →
    expr.eval moment.fuel moment.state = .ok value after →
    ∃ type, (expr.annotate site.scopes).mark.type = some type ∧ type.Holds value ∧
      List.Forall₂ TypeScope.Holds site.scopes after.chain
  stmt : ∀ statement after, moment.node = .stmt statement →
    statement.exec moment.fuel moment.state = .ok .next after →
    ∃ behind,
      statement.check context site.returns site.outer site.here = .ok behind ∧
        List.Forall₂ TypeScope.Holds (behind :: site.outer) after.chain

section

variable [Host H] {context : TypeContext} {hrecords : ∀ name, context.records.find? name = none}
  {program : Program} {locals : TypeChain} {module : TypeScope}

open Discipline

/-- The scopes in sight hold values of the types that the checker has for them, one by one. -/
theorem Discipline.Follows.holds {state : State H} {methods : List Method}
    (hstate : (ofKinds hrecords).Follows methods module locals () state) :
    List.Forall₂ TypeScope.Holds (locals ++ [module, context.globals]) state.chain :=
  hstate.chain.imp fun _ _ hscope ↦ (hscope.imp_vars fun _ _ _ _ hholds ↦ hholds.2).lookup?

variable {start : State H} {fuel : Nat} {moment : Moment H}

/-- An accepted program runs to NIL or to an integer. -/
theorem Program.run_follows (fuel : Nat) (hpaired : program.Paired)
    (hcheck : program.check context = .ok ())
    (hstart : (ofKinds hrecords).Follows program.methods {} [] () (opened start)) :
    (program.run fuel).Ensures start
      (fun value after ↦ Ty.integer.Holds value ∧ ∃ module,
        program.Grows context module ∧
          (ofKinds hrecords).Follows program.methods module [] () after)
      (fun after ↦ ∃ module, program.Grows context module ∧
        (ofKinds hrecords).Follows program.methods module [] () after) :=
  Run.Ensures.mono (Program.run_settled fuel hpaired hcheck
    (fun field _ ↦ settles_of_blank (fun _ ↦ trivial) field) hstart) (fun _ _ ⟨_, _, h⟩ ↦ h)
    fun _ ⟨_, _, h⟩ ↦ h

/-- At every moment of a run of an accepted program, values are of their types. -/
theorem Program.Reaches.wellTyped (hpaired : program.Paired)
    (hcheck : program.check context = .ok ()) (hsuspended : start.suspended = [])
    (hstart : (ofKinds hrecords).Follows program.methods {} [] () (opened start))
    (hreaches : program.Reaches fuel start moment) :
    ∃ site, moment.WellTyped context program site := by
  obtain ⟨site, locals, module, world, -, hagrees⟩ := hreaches.inStep hpaired hcheck hsuspended
    (fun field _ ↦ settles_of_blank (fun _ ↦ trivial) field) hstart
  have haccepted := Program.site?_accepted hpaired hcheck hagrees.found
  have hscopes := hagrees.scopes
  have hstate := hagrees.follows
  refine ⟨site, {
    found := hagrees.found
    node := hagrees.node
    annotated := fun hroot ↦ annotate_node? hpaired hcheck hroot hagrees.found
    scopes := hscopes ▸ hstate.holds
    callers := ?_
    expr := ?_
    stmt := ?_ }⟩
  · refine hagrees.callers.imp fun place chain hcaller ↦ ?_
    obtain ⟨caller, outer, hfound, hcallerScopes, hchain⟩ := hcaller
    have hcaller : (ofKinds hrecords).Follows program.methods module outer ()
        { moment.state with locals := chain } :=
      ⟨hchain, hstate.module, hstate.globals, trivial, hstate.settled⟩
    exact ⟨caller, hfound, hcallerScopes ▸ hcaller.holds⟩
  · intro expr value after hnode heval
    obtain ⟨type, htype⟩ := (Site.accepted_expr (hagrees.node.trans hnode)).mp haccepted
    obtain ⟨later, -, hgives⟩ := Expr.eval_gives hstate (hscopes ▸ htype) heval
    exact ⟨type, Expr.annotate_type htype, hgives.1.2, hscopes ▸ hgives.2.holds⟩
  · intro statement after hnode hexec
    obtain ⟨behind, outer, -, houter, hbehind, hends⟩ := hagrees.exec_leaves haccepted hnode
    obtain ⟨later, -, hleaves⟩ := Run.Ensures.ok hends hexec
    exact ⟨behind, hbehind, houter ▸ hleaves.2.holds⟩

/-- The failures that are left to an accepted program. -/
inductive Program.Lapse (context : TypeContext) (program : Program) (fuel : Nat)
    (start : State H) : RuntimeError → Prop
  | zero : Lapse context program fuel start .divisionByZero
  | output (reason : String) : Lapse context program fuel start (.outputFailed reason)
  | noValue (expected : ValueKind) : Lapse context program fuel start (.typeMismatch expected .nil)
  | noLeft (op : BinaryOp) (right : ValueKind) :
    Lapse context program fuel start (.invalidOperands op .nil right)
  | noRight (op : BinaryOp) (left : ValueKind) :
    Lapse context program fuel start (.invalidOperands op left .nil)
  | unordered {moment mark op leftExpr rightExpr type left right} (hop : op ∈ BinaryOp.orderings)
    (hreaches : program.Reaches fuel start moment)
    (hbreaks : Breaks moment.fuel moment.node moment.state (.invalidOperands op left right))
    (hnode : (program.annotate context).node? moment.place =
      some (.expr (.binary mark op leftExpr rightExpr)))
    (htype : leftExpr.mark.type = some type) (hunordered : type.IsUnordered) :
    Lapse context program fuel start (.invalidOperands op left right)

/-- A run of an accepted program fails only in one of the listed lapses. -/
theorem Program.lapse_of_error {cause : RuntimeError} {after : State H} (hpaired : program.Paired)
    (hcheck : program.check context = .ok ()) (hsuspended : start.suspended = [])
    (hstart : (ofKinds hrecords).Follows program.methods {} [] () (opened start))
    (hrun : program.run fuel start = .error (.failed cause) after) :
    program.Lapse context fuel start cause := by
  obtain ⟨moment, hreaches, hbreaks⟩ := Program.failure_origin hrun
  obtain ⟨site, hfound, hnode, hmishap⟩ :=
    mishap_of_breaks hpaired hcheck hsuspended
      (fun field _ ↦ settles_of_blank (fun _ ↦ trivial) field) hstart hreaches hbreaks
  cases hmishap with
  | @noBoolean _ value _ hfits hvalue =>
    have hkind : value.kind ≠ .boolean := fun hkind ↦ by cases value <;> cases hkind; cases hvalue
    rw [Value.asBoolean_eq_error hvalue, hfits.kind_eq_nil rfl hkind]
    exact .noValue _
  | @noRange _ value _ hfits hvalue =>
    have hkind : value.kind ≠ .range := fun hkind ↦ by cases value <;> cases hkind; cases hvalue
    rw [Value.asRange_eq_error hvalue, hfits.kind_eq_nil rfl hkind]
    exact .noValue _
  | @operator _ mark op left right leftType _ _ _ first _ second _ _ hbinary hplain hleftType htype
      hop _ _ hfirst hsecond happly =>
    obtain rfl | ⟨rfl, hnone⟩ := BinaryOp.apply_eq_error happly
    · exact .zero
    obtain rfl | rfl | ⟨hordering, hunordered⟩ :=
      BinaryOp.result_eq_none htype hop hplain hfirst hsecond hnone
    · exact .noLeft op _
    · exact .noRight op _
    -- The call of the entry is no comparison, so the node is one of the program's own.
    · have hexpr := hnode.trans hbinary
      have hroot : moment.place.root ≠ .entry := fun hroot ↦ by
        rw [Program.site?_entry hroot hfound] at hexpr
        cases hexpr
      have hannotated := annotate_node? hpaired hcheck hroot hfound
      rw [Site.annotated_expr hexpr, Expr.annotate] at hannotated
      exact .unordered hordering hreaches hbreaks hannotated (Expr.annotate_type hleftType)
        hunordered
  | member hmember =>
    obtain ⟨record, hplain⟩ := hmember.admits_record
    exact (hplain record rfl).elim
  | callee hoffers _ hargs harity hrefuses =>
    -- Of what a session starts with, only `range` can refuse the kind of an argument.
    have hinteger {value : Value} (hfits : Ty.integer.Holds value)
        (hvalue : value.asInteger = .error cause) : program.Lapse context fuel start cause := by
      have hkind : value.kind ≠ .integer := fun hkind ↦ by cases value <;> cases hkind; cases hvalue
      rw [Value.asInteger_eq_error hvalue, hfits.kind_eq_nil rfl hkind]
      exact .noValue _
    cases hrefuses with
    | count hcount => exact (hcount harity).elim
    | print hsink =>
      obtain ⟨reason, rfl⟩ := Sink.print_eq_error hsink
      exact .output reason
    | rangeStart hstart =>
      obtain h | h := Ledger.initial_cases hoffers <;> cases h
      cases hargs with
      | cons hfirst _ => exact hinteger hfirst hstart
    | rangeStop hstop =>
      obtain h | h := Ledger.initial_cases hoffers <;> cases h
      cases hargs with
      | cons _ hrest =>
        cases hrest with
        | cons hsecond _ => exact hinteger hsecond hstop
    | host _ _ => obtain h | h := Ledger.initial_cases hoffers <;> cases h

end

/-- An act that tells programs of nothing new. -/
def Act.IsRun : Act H → Prop
  | interpret .. => True
  | run .. => True
  | _ => False

namespace Session

variable [Host H]

/-- After runs only, programs know of `print` and `range`. -/
theorem after_runs (sink : Sink) {acts : List (Act H)} (hruns : ∀ act ∈ acts, act.IsRun) :
    (after sink acts).context = .initial ∧ Ledger.of acts = .initial := by
  induction acts using List.reverseRecOn with
  | nil => exact ⟨rfl, rfl⟩
  | append_singleton acts act ih =>
    rw [List.forall_mem_append, List.forall_mem_singleton] at hruns
    obtain ⟨hcontext, hledger⟩ := ih hruns.1
    have hrun := hruns.2
    rw [after_append, Ledger.of_append, ← hcontext, ← hledger]
    cases act with
    | interpret fuel program => exact ⟨interpret_context _ fuel program, rfl⟩
    | run fuel text => exact ⟨run_context _ fuel text, rfl⟩
    | registerType | defineVariable | defineFunction | addObject => exact hrun.elim

/-- A sound session of which a host has made nothing known follows the discipline of kinds. -/
theorem Sound.follows_kinds {session : Session H} (h : session.Sound .initial)
    (hcontext : session.context = .initial)
    (hrecords : ∀ name, session.context.records.find? name = none) (methods : List Method) :
    (Discipline.ofKinds hrecords).Follows methods {} [] () (Program.opened session.state) := by
  refine ⟨?_, .empty, h.globals.imp_vars fun name first second hfound _ ↦ ?_, trivial,
    fun method _ ↦ Discipline.settlesMethod_of_blank (fun _ ↦ trivial) method⟩
  · change List.Forall₂ _ [] session.state.locals
    rw [h.locals]
    exact .nil
  · rw [hcontext] at hfound
    cases hfound

/-- A run of an accepted text keeps all types when the host adds nothing to the language, and it
ends with an integer, with NIL, or with one of the failures that are left. -/
theorem types_preserved (sink : Sink) (acts : List (Act H)) (hruns : ∀ act ∈ acts, act.IsRun)
    {text : String} {program : Program}
    (haccepted : Program.ofCheckedText (after sink acts).context text = .ok program) (fuel : Nat) :
    (∀ moment, program.Reaches fuel (after sink acts).state moment →
      ∃ site, moment.WellTyped (after sink acts).context program site) ∧
    (∃ module, program.Grows (after sink acts).context module ∧
      List.Forall₂ TypeScope.Holds [module, (after sink acts).context.globals]
        ((after sink acts).run fuel text).2.state.chain) ∧
    match ((after sink acts).run fuel text).1 with
    | .ok value => value = .nil ∨ ∃ n, value = .integer n
    | .error cause => cause = .outOfFuel ∨ ∃ failure, cause = .runtime failure ∧
        program.Lapse (after sink acts).context fuel (after sink acts).state failure := by
  obtain ⟨hsound, -⟩ := sound_after sink acts
  obtain ⟨hcontext, hledger⟩ := after_runs sink hruns
  rw [hledger] at hsound
  obtain ⟨hpaired, hcheck⟩ := Program.ofCheckedText_eq_ok haccepted
  have hrecords (name : String) : (after sink acts).context.records.find? name = none := by
    rw [hcontext]
    rfl
  have hstart := hsound.follows_kinds hcontext hrecords program.methods
  have hends := Program.run_follows fuel hpaired hcheck hstart
  refine ⟨fun moment hreaches ↦ hreaches.wellTyped hpaired hcheck hsound.suspended hstart, ?_⟩
  unfold run interpret
  simp only [haccepted]
  cases hresult : program.run fuel (after sink acts).state with
  | ok value state =>
    obtain ⟨hvalue, module, hgrows, hfollows⟩ := hends.ok hresult
    exact ⟨⟨module, hgrows, hfollows.holds⟩, hvalue.integer⟩
  | error interruption state =>
    obtain ⟨module, hgrows, hfollows⟩ := hends.error hresult
    refine ⟨⟨module, hgrows, hfollows.holds⟩, ?_⟩
    cases interruption with
    | outOfFuel => exact .inl rfl
    | failed cause =>
      exact .inr ⟨cause, rfl, Program.lapse_of_error hpaired hcheck hsound.suspended hstart hresult⟩

def unsetText : String :=
  "LET total: Integer; DEF main(): Integer DO LET n = 1; RETURN n + total; END"

/-- The tree of `unsetText`, whose field has no value. -/
def unset : Program where
  fields := [{ name := "total", typeName := some "Integer", value := none, offset := 4 }]
  methods :=
    [{ name := "main"
       params := []
       paramTypes := []
       returnType := some "Integer"
       body :=
        [.declare { name := "n", typeName := none, value := some (.literal ⟨51, none⟩ (.integer 1)),
                    offset := 47 },
         .ret (.binary ⟨63, none⟩ .add (.access ⟨61, none⟩ "n" none)
          (.access ⟨65, none⟩ "total" none))]
       offset := 24 }]

/-- What a second run of `unset` begins with. -/
def rerun : Session Empty := after (.text "") [.interpret 1 unset]

theorem ofCheckedText_unset : Program.ofCheckedText rerun.context unsetText = .ok unset := by
  cbv

/-- Adding to a variable that is not set fails, since its value is NIL. -/
theorem run_unset :
    (rerun.run 1 unsetText).1 = .error (.runtime (.invalidOperands .add .integer .nil)) := by
  cbv

/-- A program that reads a field without a value: it is NIL at the moment of reading, and the
failure is one of the lapses. -/
theorem types_preserved_unset :
    (∃ moment site, unset.Reaches 1 rerun.state moment ∧
      moment.node = .expr (.access ⟨65, none⟩ "total" none) ∧
      moment.WellTyped rerun.context unset site) ∧
    unset.Lapse rerun.context 1 rerun.state (.invalidOperands .add .integer .nil) := by
  obtain ⟨htyped, -, hends⟩ := types_preserved (.text "") [.interpret 1 unset] (by simp [Act.IsRun])
    ofCheckedText_unset 1
  constructor
  · have hentry : unset.Reaches 1 rerun.state ⟨1, ⟨.entry, []⟩, [], _, _⟩ :=
      ⟨_, .main rfl, .refl⟩
    have hreturn : unset.Reaches 1 rerun.state ⟨0, ⟨.statement _ _ 1, []⟩, _, _, _⟩ :=
      hentry.next (.enter rfl rfl rfl rfl rfl)
    have hsum := hreturn.next (.turn .returned)
    have htotal := hsum.next (.turn (.right rfl rfl))
    obtain ⟨site, hsite⟩ := htyped _ htotal
    exact ⟨_, site, htotal, rfl, hsite⟩
  · have hrun : ((after (.text "") [.interpret 1 unset]).run 1 unsetText).1 =
        .error (.runtime (.invalidOperands .add .integer .nil)) := run_unset
    rw [hrun] at hends
    obtain hfuel | ⟨failure, hfailure, hlapse⟩ := hends
    · cases hfuel
    · cases hfailure
      exact hlapse

end Session

end ScriptLang
