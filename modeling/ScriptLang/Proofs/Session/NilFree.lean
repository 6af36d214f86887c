import ScriptLang.Proofs.Session.Soundness
import ScriptLang.Proofs.Typing.Exact

/-!
Programs that never leave NIL in the place of another value. When every declaration has an initial
value and every method that gives another type than NIL may be of always returns, each expression
gives a value that is exactly of its type. What can still fail is division by zero, output, and
asking for the order of values that have none.
-/

set_option autoImplicit false
set_option relaxedAutoImplicit false

namespace ScriptLang

variable {H : Type}

/-- The discipline of exact kinds, where no record types are known and no functions besides the
built-in ones. NIL is left only where a type is that of NIL or takes every value. -/
def Discipline.ofExactKinds [Host H] {context : TypeContext}
    (hrecords : ∀ name, context.records.find? name = none) : Discipline H context where
  World := Unit
  admits type := ∀ record, type ≠ .record record
  fits _ := Ty.Exactly
  objects _ _ := True
  offers name arity signature callable :=
    Ledger.initial.find? (name, arity) = some (signature, callable)
  fits_later _ h := h
  admits_plain _ hplain := hplain
  admits_registered := TypeContext.plain_of_no_records hrecords
  admits_field := Ty.plain_field?
  admits_method := Ty.plain_method?
  fits_field _ hplain _ hfound := by
    obtain ⟨record, rfl, -⟩ := Ty.field?_eq_some.mp hfound
    exact (hplain record rfl).elim
  objects_setField _ _ _ _ _ _ := trivial
  keeps_method _ hplain _ hfound := by
    obtain ⟨record, rfl, -⟩ := Ty.method?_eq_some.mp hfound
    exact (hplain record rfl).elim
  blank type := type.takesNil = true
  fits_blank _ _ := Ty.exactly_nil_iff.mpr
  fits_literal _ _ _ _ := .literal
  fits_integer _ _ _ := Option.some_inj.mp
  fits_boolean _ _ _ := Option.some_inj.mp
  fits_assignable _ _ _ _ := .assignable
  fits_operator _ _ _ _ _ _ _ _ _ := BinaryOp.apply_exactly
  offers_arity := Ledger.initial_arity
  offers_answers name arity signature callable hfound := by
    obtain h | h := Ledger.initial_cases hfound <;> cases h
    · exact fun _ _ ↦ Option.some_inj.mp
    · exact fun _ _ _ _ ↦ Option.some_inj.mp

/-- At a moment of a run, what the node gives is exactly of the type that the checker wrote at it.
The call that starts a program is not in its tree. -/
def Moment.GivesExactly [Host H] (moment : Moment H) (context : TypeContext) (program : Program) :
    Prop :=
  moment.place.root ≠ .entry → ∀ expr value after, moment.node = .expr expr →
    expr.eval moment.fuel moment.state = .ok value after →
    ∃ annotated type, (program.annotate context).node? moment.place = some (.expr annotated) ∧
      annotated.mark.type = some type ∧ type.Exactly value

/-- The failures that are left where there is no NIL in the place of another value. -/
inductive Program.ExactLapse [Host H] (context : TypeContext) (program : Program) (fuel : Nat)
    (start : State H) : RuntimeError → Prop
  | zero : ExactLapse context program fuel start .divisionByZero
  | output (reason : String) : ExactLapse context program fuel start (.outputFailed reason)
  | unordered {moment mark op leftExpr rightExpr type left right} (hop : op ∈ BinaryOp.orderings)
    (hreaches : program.Reaches fuel start moment)
    (hbreaks : Breaks moment.fuel moment.node moment.state (.invalidOperands op left right))
    (hnode : (program.annotate context).node? moment.place =
      some (.expr (.binary mark op leftExpr rightExpr)))
    (htype : leftExpr.mark.type = some type) (hunordered : type.IsUnordered ∨ type = .nil) :
    ExactLapse context program fuel start (.invalidOperands op left right)

/-- No declaration is without a value, and the body of a method always returns unless NIL is of the
type of its result. -/
structure Program.NilFree (context : TypeContext) (program : Program) : Prop where
  values : ∀ binding ∈ program.declarations, binding.value ≠ none
  returns : ∀ method ∈ program.methods, ∀ signature, method.signature context = .ok signature →
    signature.returns.takesNil = true ∨ blockAlwaysReturns method.body = true

section

variable [Host H] {context : TypeContext} {hrecords : ∀ name, context.records.find? name = none}
  {program : Program}

open Discipline

/-- A field of such a program is settled: it gets a value of its own type. -/
theorem Program.NilFree.field (h : program.NilFree context) {field : Binding}
    (hfield : field ∈ program.fields) :
    (ofExactKinds hrecords : Discipline H context).Settles field :=
  fun hvalue ↦ (h.values field (List.mem_append_left _ hfield) hvalue).elim

/-- A method of such a program gives a value of its type and declares nothing without one. -/
theorem Program.NilFree.method (h : program.NilFree context) {method : Method}
    (hmethod : method ∈ program.methods) :
    (ofExactKinds hrecords : Discipline H context).SettlesMethod method where
  declarations binding hbinding hvalue :=
    (h.values binding (List.mem_append_right _ (List.mem_flatMap.mpr ⟨method, hmethod, hbinding⟩))
      hvalue).elim
  result := h.returns method hmethod

variable {start : State H} {fuel : Nat} {moment : Moment H}

/-- At every moment of a run of an accepted program free of NIL, an expression gives a value of just
the kind that was written at it. -/
theorem Program.Reaches.givesExactly (hpaired : program.Paired)
    (hcheck : program.check context = .ok ()) (hfree : program.NilFree context)
    (hsuspended : start.suspended = [])
    (hstart : (ofExactKinds hrecords).Follows program.methods {} [] () (opened start))
    (hreaches : program.Reaches fuel start moment) : moment.GivesExactly context program := by
  intro hroot expr value after hnode heval
  obtain ⟨site, locals, module, world, -, hagrees⟩ :=
    hreaches.inStep hpaired hcheck hsuspended (fun _ ↦ hfree.field) hstart
  have hexpr := hagrees.node.trans hnode
  have haccepted := Program.site?_accepted hpaired hcheck hagrees.found
  obtain ⟨type, htype⟩ := (Site.accepted_expr hexpr).mp haccepted
  obtain ⟨later, -, hgives⟩ := Expr.eval_gives hagrees.follows (hagrees.scopes ▸ htype) heval
  have hannotated := annotate_node? hpaired hcheck hroot hagrees.found
  rw [Site.annotated_expr hexpr] at hannotated
  exact ⟨_, type, hannotated, Expr.annotate_type htype, hgives.1.2⟩

/-- A run of an accepted program free of NIL fails in one of the three listed ways only. -/
theorem Program.exactLapse_of_error {cause : RuntimeError} {after : State H}
    (hpaired : program.Paired) (hcheck : program.check context = .ok ())
    (hfree : program.NilFree context) (hsuspended : start.suspended = [])
    (hstart : (ofExactKinds hrecords).Follows program.methods {} [] () (opened start))
    (hrun : program.run fuel start = .error (.failed cause) after) :
    program.ExactLapse context fuel start cause := by
  obtain ⟨moment, hreaches, hbreaks⟩ := Program.failure_origin hrun
  obtain ⟨site, hfound, hnode, hmishap⟩ :=
    mishap_of_breaks hpaired hcheck hsuspended (fun _ ↦ hfree.field) hstart hreaches hbreaks
  cases hmishap with
  | @noBoolean _ value _ hfits hvalue =>
    have hkind : value.kind = .boolean := hfits _ rfl
    cases value <;> cases hkind
    cases hvalue
  | @noRange _ value _ hfits hvalue =>
    have hkind : value.kind = .range := hfits _ rfl
    cases value <;> cases hkind
    cases hvalue
  | @operator _ mark op left right leftType _ _ _ first _ second _ _ hbinary hplain hleftType htype
      hop _ _ hfirst hsecond happly =>
    obtain rfl | ⟨rfl, hnone⟩ := BinaryOp.apply_eq_error happly
    · exact .zero
    obtain ⟨hordering, hunordered⟩ :=
      BinaryOp.result_eq_none_of_exactly htype hop hplain hfirst hsecond hnone
    have hexpr := hnode.trans hbinary
    have hroot : moment.place.root ≠ .entry := fun hroot ↦ by
      rw [Program.site?_entry hroot hfound] at hexpr
      cases hexpr
    have hannotated := annotate_node? hpaired hcheck hroot hfound
    rw [Site.annotated_expr hexpr, Expr.annotate] at hannotated
    exact .unordered hordering hreaches hbreaks hannotated (Expr.annotate_type hleftType) hunordered
  | member hmember =>
    obtain ⟨record, hplain⟩ := hmember.admits_record
    exact (hplain record rfl).elim
  | callee hoffers _ hargs harity hrefuses =>
    -- Without NIL the bounds of `range` are integers, so only the output is left to fail.
    have hinteger {value : Value} (hfits : Ty.integer.Exactly value) :
        value.asInteger ≠ .error cause := by
      obtain ⟨n, rfl⟩ := hfits.integer
      exact nofun
    cases hrefuses with
    | count hcount => exact (hcount harity).elim
    | print hsink =>
      obtain ⟨reason, rfl⟩ := Sink.print_eq_error hsink
      exact .output reason
    | rangeStart hstart =>
      obtain h | h := Ledger.initial_cases hoffers <;> cases h
      cases hargs with
      | cons hfirst _ => exact (hinteger hfirst hstart).elim
    | rangeStop hstop =>
      obtain h | h := Ledger.initial_cases hoffers <;> cases h
      cases hargs with
      | cons _ hrest =>
        cases hrest with
        | cons hsecond _ => exact (hinteger hsecond hstop).elim
    | host _ _ => obtain h | h := Ledger.initial_cases hoffers <;> cases h

end

namespace Session

variable [Host H]

/-- A session of which a host has made nothing known follows the discipline of exact kinds. -/
theorem Sound.follows_exactKinds {session : Session H} {program : Program}
    (h : session.Sound .initial) (hcontext : session.context = .initial)
    (hrecords : ∀ name, session.context.records.find? name = none)
    (hfree : program.NilFree session.context) :
    (Discipline.ofExactKinds hrecords).Follows program.methods {} [] ()
      (Program.opened session.state) := by
  refine ⟨?_, .empty, h.globals.imp_vars fun name first second hfound _ ↦ ?_, trivial,
    fun _ ↦ hfree.method⟩
  · change List.Forall₂ _ [] session.state.locals
    rw [h.locals]
    exact .nil
  · rw [hcontext] at hfound
    cases hfound

/-- When the host adds nothing to the language, an accepted text that is free of NIL in the place of
other values gives only values that are exactly of their types, and ends with an integer or with one
of the failures that are left. -/
theorem types_exact (sink : Sink) (acts : List (Act H)) (hruns : ∀ act ∈ acts, act.IsRun)
    {text : String} {program : Program}
    (haccepted : Program.ofCheckedText (after sink acts).context text = .ok program)
    (hfree : program.NilFree (after sink acts).context) (fuel : Nat) :
    (∀ moment, program.Reaches fuel (after sink acts).state moment →
      moment.GivesExactly (after sink acts).context program) ∧
    match ((after sink acts).run fuel text).1 with
    | .ok value => ∃ n, value = .integer n
    | .error cause => cause = .outOfFuel ∨ ∃ failure, cause = .runtime failure ∧
        program.ExactLapse (after sink acts).context fuel (after sink acts).state failure := by
  obtain ⟨hsound, -⟩ := sound_after sink acts
  obtain ⟨hcontext, hledger⟩ := after_runs sink hruns
  rw [hledger] at hsound
  obtain ⟨hpaired, hcheck⟩ := Program.ofCheckedText_eq_ok haccepted
  have hrecords (name : String) : (after sink acts).context.records.find? name = none := by
    rw [hcontext]
    rfl
  have hstart := hsound.follows_exactKinds hcontext hrecords hfree
  have hends := Program.run_settled fuel hpaired hcheck (fun _ ↦ hfree.field) hstart
  refine ⟨fun moment hreaches ↦
    hreaches.givesExactly hpaired hcheck hfree hsound.suspended hstart, ?_⟩
  unfold run interpret
  simp only [haccepted]
  cases hresult : program.run fuel (after sink acts).state with
  | ok value state =>
    obtain ⟨_, -, hvalue, -⟩ := Run.Ensures.ok hends hresult
    exact hvalue.integer
  | error interruption state =>
    cases interruption with
    | outOfFuel => exact .inl rfl
    | failed cause =>
      exact .inr ⟨cause, rfl,
        Program.exactLapse_of_error hpaired hcheck hfree hsound.suspended hstart hresult⟩

def unorderedText : String :=
  "DEF main(): Integer DO IF NIL < NIL DO RETURN 1; ELSE RETURN 2; END END"

/-- The tree of `unorderedText`, which always returns and asks for an order of NIL. -/
def unordered : Program where
  methods :=
    [{ name := "main"
       params := []
       paramTypes := []
       returnType := some "Integer"
       body :=
        [.branch (.binary ⟨30, none⟩ .less (.literal ⟨26, none⟩ .nil) (.literal ⟨32, none⟩ .nil))
          [.ret (.literal ⟨46, none⟩ (.integer 1))] [.ret (.literal ⟨61, none⟩ (.integer 2))]]
       offset := 4 }]

/-- A session in which nothing was done. -/
def fresh : Session Empty := after (.text "") []

theorem ofCheckedText_unordered :
    Program.ofCheckedText fresh.context unorderedText = .ok unordered := by
  cbv

/-- NIL has no order, and the check does not know the two sides by their values. -/
theorem run_unordered :
    (fresh.run 1 unorderedText).1 = .error (.runtime (.invalidOperands .less .nil .nil)) := by
  cbv

/-- A program that sets all of its variables and always returns, and still fails, as two literals
are compared that have no order. -/
theorem types_exact_unordered :
    unordered.NilFree fresh.context ∧
    (∃ moment, unordered.Reaches 1 fresh.state moment ∧
      moment.node = .expr (.literal ⟨32, none⟩ .nil) ∧
      moment.GivesExactly fresh.context unordered) ∧
    unordered.ExactLapse fresh.context 1 fresh.state (.invalidOperands .less .nil .nil) := by
  have hfree : unordered.NilFree fresh.context :=
    ⟨by simp [Program.declarations, unordered, blockDeclarations, Stmt.declarations],
      by simp [unordered, blockAlwaysReturns, Stmt.alwaysReturns]⟩
  obtain ⟨hexact, hends⟩ := types_exact (.text "") [] (by simp) ofCheckedText_unordered hfree 1
  refine ⟨hfree, ?_, ?_⟩
  · have hentry : unordered.Reaches 1 fresh.state ⟨1, ⟨.entry, []⟩, [], _, _⟩ :=
      ⟨_, .main rfl, .refl⟩
    have hbranch : unordered.Reaches 1 fresh.state ⟨0, ⟨.statement _ _ 0, []⟩, _, _, _⟩ :=
      hentry.next (.enter rfl rfl rfl rfl rfl)
    have hcondition := hbranch.next (.turn .branchCondition)
    have hright := hcondition.next (.turn (.right rfl rfl))
    exact ⟨_, hright, rfl, hexact _ hright⟩
  · have hrun : ((after (.text "") []).run 1 unorderedText).1 =
        .error (.runtime (.invalidOperands .less .nil .nil)) := run_unordered
    rw [hrun] at hends
    obtain hfuel | ⟨failure, hfailure, hlapse⟩ := hends
    · cases hfuel
    · cases hfailure
      exact hlapse

end Session

end ScriptLang
