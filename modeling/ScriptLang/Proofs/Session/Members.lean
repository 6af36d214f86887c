import Mathlib
import ScriptLang.Proofs.Session.Acceptance
import ScriptLang.Proofs.Session.Contract
import ScriptLang.Proofs.Typing.Annotation
import ScriptLang.Proofs.Typing.Mishap

/-!
The members of objects in accepted programs. When a host keeps to its contract, all objects conform
to their record types at every moment of a run, whoever assigns to their fields; what is read from a
member or given by a method is of the type that the checker wrote at the node; and the use of a
member fails only where NIL is in the place of an object.
-/

set_option autoImplicit false
set_option relaxedAutoImplicit false

namespace ScriptLang

variable {H : Type} [Host H]

section

variable {context : TypeContext} {ledger : Ledger H} {contract : Contract H} {start : Assignment}
  {hcovers : contract.Covers context ledger start}
  {cause : RuntimeError}

open Discipline

/-- What is left of the reasons for which the use of a member fails. -/
theorem Discipline.MemberMishap.lapse
    (h : (ofContract hcovers).MemberMishap cause) :
    cause = .typeMismatch .object .nil ∨ ¬ cause.IsMember ∧
      ∃ (body : H) (args : List Value) (objects objects' : ObjectStore H),
        Host.run body args objects = (.error cause, objects') := by
  cases h with
  | @noObject _ _ value _ _ hfits hobject =>
    have hkind : value.kind ≠ .object := fun hkind ↦ by cases value <;> cases hkind; cases hobject
    rw [Value.asObject_eq_error hobject, hfits.kind.kind_eq_nil rfl hkind]
    exact .inl rfl
  | noField hadmits hfits hfound hobjects hnone =>
    obtain ⟨value, hvalue, -⟩ :=
      hobjects.field (hadmits.2 _ rfl) (hfits.object _ _ rfl rfl) hfound
    rw [hnone] at hvalue
    cases hvalue
  | noMethod hadmits hfits hfound hobjects hnone =>
    obtain ⟨function, hfunction, -⟩ :=
      Contract.method_keeps hobjects (hadmits.2 _ rfl) (hfits.object _ _ rfl rfl) hfound
    rw [hnone] at hfunction
    cases hfunction
  | refused hadmits hfits hfound hobjects hmethod hargs hrun =>
    obtain ⟨function, hfunction, hcalls⟩ :=
      Contract.method_keeps hobjects (hadmits.2 _ rfl) (hfits.object _ _ rfl rfl) hfound
    rw [ObjectStore.method_eq_ok, hfunction] at hmethod
    cases hmethod
    obtain ⟨later, hkeeps⟩ := hcalls _ hargs
    exact .inr ⟨hkeeps.error (by rw [hrun]), _, _, _, _, hrun⟩

/-- Nodes fail as the use of a member only where NIL is in the place of an object. -/
theorem Discipline.Mishap.lapse {moment : Moment H} {site : Site}
    (h : (ofContract hcovers).Mishap moment site cause) (hcause : cause.IsMember) :
    cause = .typeMismatch .object .nil := by
  cases h with
  | noBoolean _ hvalue =>
    rw [Value.asBoolean_eq_error hvalue] at hcause
    exact hcause.elim
  | noRange _ hvalue =>
    rw [Value.asRange_eq_error hvalue] at hcause
    exact hcause.elim
  | operator _ _ _ _ _ _ _ _ _ happly =>
    obtain rfl | ⟨rfl, -⟩ := BinaryOp.apply_eq_error happly <;> exact hcause.elim
  | member hmember => exact hmember.lapse.resolve_right fun hown ↦ hown.1 hcause
  | @callee world _ _ _ _ _ _ _ hoffers hobjects hargs harity hrefuses =>
    cases hrefuses with
    | count hcount => exact (hcount harity).elim
    | print hsink =>
      obtain ⟨reason, rfl⟩ := Sink.print_eq_error hsink
      exact hcause.elim
    | rangeStart hstart =>
      rw [Value.asInteger_eq_error hstart] at hcause
      exact hcause.elim
    | rangeStop hstop =>
      rw [Value.asInteger_eq_error hstop] at hcause
      exact hcause.elim
    | host _ hrun =>
      have htrusts := contract.trusts_later world.2 (hcovers.functions _ _ _ _ hoffers).2
      obtain ⟨later, hkeeps⟩ := contract.keeps htrusts hargs hobjects
      exact (hkeeps.error (by rw [hrun]) hcause).elim

end

/-- The ways in which the use of a member may still fail: NIL is in the place of the object, or a
method of the host fails in a way of its own. -/
inductive Node.MemberLapse (H : Type) [Host H] : Node → RuntimeError → Prop
  | noObject {node} : MemberLapse H node (.typeMismatch .object .nil)
  | method {mark receiver name args resolved cause values objects objects'} {body : H}
    (hrun : Host.run body values objects = (.error cause, objects')) (hown : ¬ cause.IsMember) :
    MemberLapse H (.expr (.invoke mark receiver name args resolved)) cause

/-- The nodes that use a member of an object. -/
inductive Node.UsesMember : Node → Prop
  | read {mark receiver name resolved} : UsesMember (.expr (.member mark receiver name resolved))
  | assigned {mark receiver name resolved value} :
    UsesMember (.stmt (.assign (.member mark receiver name resolved) value))
  | called {mark receiver name args resolved} :
    UsesMember (.expr (.invoke mark receiver name args resolved))

/-- All objects conform when a run comes to a node and when it leaves the node. What an expression
gives is NIL or a value of the type that the checker wrote at it; the call that starts a program is
not in its tree. -/
structure Moment.Conforms (moment : Moment H) (context : TypeContext) (contract : Contract H)
    (program : Program) (world : Assignment) : Prop where
  objects : contract.Conforms world moment.state.objects
  expr : ∀ expr, moment.node = .expr expr →
    (expr.eval moment.fuel).EnsuresIn world moment.state
      (fun later value after ↦ contract.Conforms later after.objects ∧
        (moment.place.root ≠ .entry → ∃ annotated type,
          (program.annotate context).node? moment.place = some (.expr annotated) ∧
            annotated.mark.type = some type ∧ later.Holds type value))
      fun later after ↦ contract.Conforms later after.objects
  stmt : ∀ statement, moment.node = .stmt statement →
    (statement.exec moment.fuel).EnsuresIn world moment.state
      (fun later _ after ↦ contract.Conforms later after.objects)
      fun later after ↦ contract.Conforms later after.objects
  fails : ∀ cause, moment.Fails cause → cause.IsMember → cause = .typeMismatch .object .nil
  lapses : moment.node.UsesMember → ∀ cause,
    Breaks moment.fuel moment.node moment.state cause → moment.node.MemberLapse H cause

section

variable {context : TypeContext} {ledger : Ledger H} {contract : Contract H} {world : Assignment}
  {hcovers : contract.Covers context ledger world}
  {program : Program} {start : State H} {fuel : Nat} {moment : Moment H}

open Discipline

/-- A mishap at the use of a member is one of the lapses: a value of an object type is NIL, or the
host fails in its own way. -/
theorem Discipline.Agrees.lapses {site : Site} {locals : TypeChain} {module : TypeScope}
    {now : (ofContract hcovers).World}
    (hagrees : (ofContract hcovers).Agrees program moment site locals module now)
    (haccepted : site.Accepted context) (huses : moment.node.UsesMember) {cause : RuntimeError}
    (hbreaks : Breaks moment.fuel moment.node moment.state cause) :
    moment.node.MemberLapse H cause := by
  have hstate := hagrees.follows
  have hscopes : site.here :: site.outer = locals ++ [module, context.globals] := hagrees.scopes
  have hsite := hagrees.node
  generalize moment.node = node at huses hbreaks hsite
  cases huses with
  | read =>
    obtain ⟨type, htype⟩ := (Site.accepted_expr hsite).mp haccepted
    obtain rfl | ⟨hown, -⟩ := (hstate.mishap_member (hagrees.scopes ▸ htype) hbreaks).lapse
    · exact .noObject
    · cases hbreaks with
      | memberReceiver _ hobject =>
        rw [Value.asObject_eq_error hobject] at hown
        exact (hown trivial).elim
      | memberField _ hfield =>
        rw [(ObjectStore.field_eq_error hfield).1] at hown
        exact (hown trivial).elim
  | assigned =>
    obtain ⟨behind, hcheck⟩ := (Site.accepted_stmt hsite).mp haccepted
    obtain ⟨-, -, found, expected, hfound, hexpected, -⟩ := Stmt.check_assign.mp hcheck
    obtain rfl | ⟨hown, -⟩ :=
      (hstate.mishap_assigned (hscopes ▸ hfound) (hscopes ▸ hexpected) hbreaks).lapse
    · exact .noObject
    · cases hbreaks with
      | target htarget => cases htarget
      | assignedObject _ _ hobject =>
        rw [Value.asObject_eq_error hobject] at hown
        exact (hown trivial).elim
      | assignedField _ _ hfield =>
        rw [(ObjectStore.setField_eq_error hfield).1] at hown
        exact (hown trivial).elim
  | called =>
    obtain ⟨type, htype⟩ := (Site.accepted_expr hsite).mp haccepted
    obtain rfl | ⟨hown, body, values, objects, objects', hrun⟩ :=
      (hstate.mishap_invoke (hagrees.scopes ▸ htype) hbreaks).lapse
    · exact .noObject
    · exact .method hrun hown

/-- Whatever moment a run of an accepted program comes to, objects conform before and after, and
expressions give values of their types. -/
theorem Program.Reaches.conforms (hpaired : program.Paired)
    (hcheck : program.check context = .ok ()) (hsuspended : start.suspended = [])
    (hstart : (ofContract hcovers).Follows program.methods {} []
      ⟨world, le_refl world⟩ (opened start))
    (hreaches : program.Reaches fuel start moment) :
    ∃ later, world ≤ later ∧ moment.Conforms context contract program later := by
  have hsettled : ∀ field ∈ program.fields,
      (ofContract hcovers).Settles field :=
    fun field _ ↦ settles_of_blank (fun _ ↦ trivial) field
  obtain ⟨site, locals, module, now, -, hagrees⟩ :=
    hreaches.inStep hpaired hcheck hsuspended hsettled hstart
  have haccepted := Program.site?_accepted hpaired hcheck hagrees.found
  refine ⟨now.1, now.2, {
    objects := hagrees.follows.objects
    expr := fun expr hnode ↦ ?_
    stmt := fun statement hnode ↦ ?_
    fails := fun cause hfails hcause ↦ ?_
    lapses := fun huses cause ↦ hagrees.lapses haccepted huses }⟩
  · obtain ⟨type, htype⟩ := (Site.accepted_expr (hagrees.node.trans hnode)).mp haccepted
    refine Run.Ensures.mono (expr.evalWith_gives (Callable.invoke_serves moment.fuel)
      hagrees.follows (hagrees.scopes ▸ htype)) (fun value after hafter ↦ ?_) fun after hafter ↦ ?_
    · obtain ⟨later, hlater, hgives⟩ := hafter
      refine ⟨later.1, hlater, hgives.2.objects, fun hroot ↦ ?_⟩
      have hannotated := annotate_node? hpaired hcheck hroot hagrees.found
      rw [Site.annotated_expr (hagrees.node.trans hnode)] at hannotated
      exact ⟨_, type, hannotated, Expr.annotate_type htype, hgives.1.2⟩
    · obtain ⟨later, hlater, hfollows⟩ := hafter
      exact ⟨later.1, hlater, hfollows.objects⟩
  · obtain ⟨behind, outer, -, -, -, hends⟩ := hagrees.exec_leaves haccepted hnode
    refine Run.Ensures.mono hends (fun flow after hafter ↦ ?_) fun after hafter ↦ ?_
    · obtain ⟨later, hlater, -, hleaves⟩ := hafter
      refine ⟨later.1, hlater, ?_⟩
      cases flow with
      | next => exact hleaves.objects
      | returned value =>
        obtain ⟨inner, hfollows⟩ := hleaves
        exact hfollows.objects
    · obtain ⟨later, hlater, inner, hfollows⟩ := hafter
      exact ⟨later.1, hlater, hfollows.objects⟩
  -- A failure is traced to the node that breaks, which the same run comes to.
  · obtain ⟨origin, hsteps, hbreaks⟩ := hfails.origin
    obtain ⟨first, hbegins, hbefore⟩ := hreaches
    obtain ⟨site, -, -, hmishap⟩ := mishap_of_breaks hpaired hcheck hsuspended hsettled hstart
      ⟨first, hbegins, hbefore.trans hsteps⟩ hbreaks
    exact hmishap.lapse hcause

end

namespace Session

/-- In a run of an accepted text for a host that keeps to its contract, all objects conform at every
moment and after the run, what expressions give is of the types that the checker wrote at them, and
the use of a member fails only where NIL is in the place of an object. -/
theorem members_safe (sink : Sink) (acts : List (Act H)) (contract : Contract H)
    {world : Assignment} (hconforms : (after sink acts).Conforms (Ledger.of acts) contract world)
    {text : String} {program : Program}
    (haccepted : Program.ofCheckedText (after sink acts).context text = .ok program) (fuel : Nat) :
    (∀ moment, program.Reaches fuel (after sink acts).state moment → ∃ later, world ≤ later ∧
      moment.Conforms (after sink acts).context contract program later) ∧
    (∃ later, world ≤ later ∧
      ((after sink acts).run fuel text).2.Conforms (Ledger.of acts) contract later) ∧
    ∀ cause, ((after sink acts).run fuel text).1 = .error (.runtime cause) → cause.IsMember →
      cause = .typeMismatch .object .nil := by
  obtain ⟨hsound, hkeyed⟩ := sound_after sink acts
  obtain ⟨hpaired, hcheck⟩ := Program.ofCheckedText_eq_ok haccepted
  have hstart := hsound.follows_contract hkeyed hconforms program.methods
  have hsettled : ∀ field ∈ program.fields,
      (Discipline.ofContract (hconforms.covers hkeyed)).Settles field :=
    fun field _ ↦ Discipline.settles_of_blank (fun _ ↦ trivial) field
  have hends := Program.run_settled fuel hpaired hcheck hsettled hstart
  refine ⟨fun moment hreaches ↦ hreaches.conforms hpaired hcheck hsound.suspended hstart, ?_⟩
  unfold run interpret
  simp only [haccepted]
  cases hresult : program.run fuel (after sink acts).state with
  | ok value state =>
    obtain ⟨later, hlater, -, module, -, hfollows⟩ := Run.Ensures.ok hends hresult
    exact ⟨⟨later.1, hlater, .after_run hfollows⟩, fun _ h ↦ nomatch h⟩
  | error interruption state =>
    obtain ⟨later, hlater, module, -, hfollows⟩ := Run.Ensures.error hends hresult
    refine ⟨⟨later.1, hlater, .after_run hfollows⟩, fun cause hcause hmember ↦ ?_⟩
    cases interruption with
    | outOfFuel => cases hcause
    | failed failure =>
      cases hcause
      obtain ⟨moment, hreaches, hbreaks⟩ := Program.failure_origin hresult
      obtain ⟨site, -, -, hmishap⟩ := Discipline.mishap_of_breaks hpaired hcheck hsound.suspended
        hsettled hstart hreaches hbreaks
      exact hmishap.lapse hmember

/-- A host with boxes: a method puts a value into a box, and a function gives the first box. -/
inductive Boxing
  | put
  | find

instance : Host Boxing where
  run
    | .put, [.object ref, value], objects =>
      match objects.setField ref "content" value with
      | .ok after => (.ok value, after)
      | .error _ => (.ok .nil, objects)
    | .put, _, objects => (.ok .nil, objects)
    | .find, _, objects => (.ok (.object ⟨"Box", 0⟩), objects)

def box : RecordType Ty :=
  (RecordType.withField ⟨"Box", {}⟩ "content" .integer).withMethod "put" [.integer] .integer

def emptyBox : Object Boxing :=
  (Object.withField { typeName := "Box" } "content" .nil).withMethod "put" 1 .put

def putting : Signature Ty := ⟨"put", [.any, .integer], .integer⟩

def finding : Signature Ty := ⟨"find", [], .record box⟩

theorem box_built : box.Built :=
  .withMethod (.withField (.new "Box") fun _ h ↦ by cases h) fun _ h ↦ by cases h

/-- The only field of a box is its content. -/
theorem box_field {name : String} {field : Variable Ty}
    (hfield : box.members.lookup? name = some field) :
    name = "content" ∧ field = ⟨"content", .integer⟩ := by
  unfold box RecordType.withMethod RecordType.withField at hfield
  rw [Scope.lookup?_declareFunction, Scope.lookup?_declare] at hfield
  split at hfield
  · cases hfield
    exact ⟨‹_›, rfl⟩
  · cases hfield

/-- The only method of a box is the one that puts a value into it. -/
theorem box_method {name : String} {arity : Nat} {method : Signature Ty}
    (hmethod : box.members.function? name arity = some method) :
    (name, arity) = ("put", 2) ∧ method = putting := by
  unfold box RecordType.withMethod RecordType.withField at hmethod
  rw [Scope.function?_declareFunction, Scope.function?_declare] at hmethod
  split at hmethod
  · cases hmethod
    exact ⟨‹_›, rfl⟩
  · cases hmethod

/-- What is expected of the functions of the host with boxes; there is a first box to find. -/
inductive Boxing.Trusts : Assignment → Boxing → Role → Prop
  | put {world} : Trusts world .put (.method box putting)
  | find {world : Assignment} (hassigns : world.Assigns ⟨"Box", 0⟩ box) :
    Trusts world .find (.function finding)

def Boxing.contract : Contract Boxing where
  defines record := record = box
  defines_field hrecord hfield hinner := by
    subst hrecord
    rw [(box_field hfield).2] at hinner
    cases hinner
  defines_method hrecord hmethod hinner := by
    subst hrecord
    rw [(box_method hmethod).2] at hinner
    cases hinner
  agrees hfirst hsecond _ := by
    subst hfirst hsecond
    exact .refl box
  trusts := Trusts
  trusts_later hlater htrusts := by
    cases htrusts with
    | put => exact .put
    | find hassigns => exact .find (hassigns.later hlater)
  keeps {world body role args objects} htrusts htakes hobjects := by
    cases htrusts with
    | put =>
      obtain ⟨ref, rest, rfl, hassigns, hrest⟩ := htakes
      obtain ⟨value, hvalue, rfl⟩ : ∃ value, world.Holds .integer value ∧ rest = [value] := by
        cases hrest with
        | cons hvalue hnil =>
          cases hnil
          exact ⟨_, hvalue, rfl⟩
      refine ⟨world, le_refl world, ?_, ?_, ?_⟩ <;>
        cases hset : objects.setField ref "content" value <;> simp only [Host.run, hset]
      · exact hobjects
      · exact hobjects.setField rfl hassigns rfl hvalue hset
      · rintro _ ⟨⟩
        exact .nil .integer
      · rintro _ ⟨⟩
        exact hvalue
      · exact nofun
      · exact nofun
    | find hassigns =>
      refine ⟨world, le_refl world, hobjects, ?_, nofun⟩
      rintro _ ⟨⟩
      exact hassigns.holds

theorem Boxing.admits_box : contract.Admits (.record box) :=
  ⟨fun _ h ↦ by cases h; exact box_built, fun _ h ↦ by cases h; rfl⟩

/-- A new box conforms to its record. -/
theorem emptyBox_conforms (world : Assignment) :
    Object.Conforms Boxing.Trusts world box emptyBox where
  fields hfield := by
    obtain ⟨rfl, rfl⟩ := box_field hfield
    exact ⟨.nil, rfl, .nil .integer⟩
  methods hmethod := by
    obtain ⟨hkey, rfl⟩ := box_method hmethod
    cases hkey
    exact ⟨_, rfl, .put⟩

/-- A session with a box, which is known as a variable and through a function. -/
def boxed : List (Act Boxing) :=
  [.registerType box box_built, .addObject emptyBox,
    .defineVariable "box" (.record box) Boxing.admits_box.1 (.object ⟨"Box", 0⟩),
    .defineFunction finding Boxing.admits_box.1 .find]

/-- The session with boxes conforms to its contract. -/
theorem boxed_conforms :
    (after (.text "") boxed).Conforms (Ledger.of boxed) Boxing.contract (.assign {} box) := by
  have hbox : (Assignment.assign {} box).Assigns ⟨"Box", 0⟩ box := ⟨box, rfl, rfl⟩
  have hknown := (conforms_initial (.text "") Boxing.contract).registerType Boxing.admits_box
  have hadded := hknown.addObject rfl (emptyBox_conforms _)
  exact (hadded.defineVariable "box" Boxing.admits_box hbox.holds).defineFunction
    Boxing.admits_box (.find hbox)

def storingText : String :=
  "DEF main(): Integer DO box.content = find().put(3); RETURN box.content; END"

/-- The tree of `storingText`. -/
def storing : Program where
  methods :=
    [{ name := "main"
       params := []
       paramTypes := []
       returnType := some "Integer"
       body :=
        [.assign (.member ⟨27, none⟩ (.access ⟨23, none⟩ "box" none) "content" none)
          (.invoke ⟨44, none⟩ (.call ⟨37, none⟩ "find" [] none) "put"
            [.literal ⟨48, none⟩ (.integer 3)] none),
         .ret (.member ⟨63, none⟩ (.access ⟨59, none⟩ "box" none) "content" none)]
       offset := 4 }]

theorem ofCheckedText_storing :
    Program.ofCheckedText (after (.text "") boxed).context storingText = .ok storing := by
  cbv

/-- A program that sets the content of a box to what a method gives and reads it again: all boxes
conform on the way and after it. -/
theorem members_safe_storing :
    (∃ moment later, storing.Reaches 1 (after (.text "") boxed).state moment ∧
      moment.node = .expr (.member ⟨63, none⟩ (.access ⟨59, none⟩ "box" none) "content" none) ∧
      moment.Conforms (after (.text "") boxed).context Boxing.contract storing later) ∧
    (∃ later, ((after (.text "") boxed).run 1 storingText).2.Conforms (Ledger.of boxed)
      Boxing.contract later) ∧
    ((after (.text "") boxed).run 1 storingText).1 ≠
      .error (.runtime (.undefinedField "Box" "content")) := by
  obtain ⟨hconforms, ⟨later, -, hafter⟩, hfails⟩ :=
    members_safe (.text "") boxed Boxing.contract boxed_conforms ofCheckedText_storing 1
  refine ⟨?_, ⟨later, hafter⟩, fun hrun ↦ nomatch hfails _ hrun trivial⟩
  have hentry : storing.Reaches 1 (after (.text "") boxed).state ⟨1, ⟨.entry, []⟩, [], _, _⟩ :=
    ⟨_, .main rfl, .refl⟩
  have hreturn : storing.Reaches 1 (after (.text "") boxed).state
      ⟨0, ⟨.statement _ _ 1, []⟩, _, _, _⟩ := hentry.next (.enter rfl rfl rfl rfl rfl)
  have hread := hreturn.next (.turn .returned)
  obtain ⟨now, -, hnow⟩ := hconforms _ hread
  exact ⟨_, now, hread, rfl, hnow⟩

end Session

end ScriptLang
