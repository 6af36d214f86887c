import Mathlib
import ScriptLang.Proofs.Session.Acceptance
import ScriptLang.Proofs.Session.History
import ScriptLang.Proofs.Typing.Annotation
import ScriptLang.Proofs.Typing.Mishap

/-!
Names are resolved alike before and during a run. When a run of an accepted program comes to a node,
the visible scopes are those that the checker had there, scope by scope and name by name, whatever
was done with the session before. So no name is missing, every call has the right count of
arguments, and it calls what the checker found for it.
-/

set_option autoImplicit false
set_option relaxedAutoImplicit false

namespace ScriptLang

/-- The same variables, and the same functions by name and count of parameters. -/
structure Scope.SameKeys {V W F G : Type} (static : Scope V F) (dynamic : Scope W G) : Prop where
  vars : ∀ name, (static.lookup? name).isSome = (dynamic.lookup? name).isSome
  functions : ∀ name arity,
    (static.function? name arity).isSome = (dynamic.function? name arity).isSome

/-- Scopes that correspond bind the same names and the same functions under the same counts. -/
theorem Scope.Follows.sameKeys {V W F G : Type} {vars : V → W → Prop}
    {functions : String → Nat → F → G → Prop} {static : Scope V F} {dynamic : Scope W G}
    (h : Scope.Follows vars functions static dynamic) : static.SameKeys dynamic :=
  ⟨fun name ↦ option_rel_isSome (h.lookup? name),
    fun name arity ↦ option_rel_isSome (h.function? name arity)⟩

/-- The failures of resolving a name and of calling with a wrong count of arguments. -/
def RuntimeError.IsScoping : RuntimeError → Prop
  | undefinedVariable _ | undefinedFunction _ _ | wrongArgumentCount _ _
  | invalidAssignmentTarget => True
  | _ => False

variable {H : Type}

/-- The discipline of names alone: any value fits any type. -/
def Discipline.ofNames [Host H] {context : TypeContext} {ledger : Ledger H}
    (hrecords : ∀ name type, context.records.find? name = some type → type.Built)
    (hkeyed : ledger.Keyed) : Discipline H context where
  World := Unit
  admits := Ty.Built
  fits _ _ _ := True
  objects _ _ := True
  offers name arity signature callable := ledger.find? (name, arity) = some (signature, callable)
  fits_later _ _ := trivial
  admits_plain type hplain record hrecord := (hplain record hrecord).elim
  admits_registered := hrecords
  admits_field type name found hbuilt := hbuilt.field?
  admits_method type name arity found hbuilt := hbuilt.method?
  fits_field _ _ _ _ _ := trivial
  objects_setField _ _ _ _ _ _ := trivial
  keeps_method _ _ _ _ _ _ := ⟨(), le_refl _, trivial, fun _ _ ↦ trivial⟩
  blank _ := True
  fits_blank _ _ _ := trivial
  fits_literal _ _ _ _ _ := trivial
  fits_integer _ _ := trivial
  fits_boolean _ _ := trivial
  fits_assignable _ _ _ _ _ _ := trivial
  fits_operator _ _ _ _ _ _ _ _ _ _ _ _ _ _ := trivial
  offers_arity := hkeyed.arity
  offers_answers name arity signature callable hfound := by
    obtain h | h | ⟨function, rfl⟩ := hkeyed.callable name arity signature callable hfound
    · cases h
      exact fun _ ↦ trivial
    · cases h
      exact fun _ _ _ ↦ trivial
    · exact fun _ _ _ _ _ ↦ ⟨(), le_refl _, trivial, fun _ _ ↦ trivial⟩

/-- What a call on the way from `root` stands for, with its signature: a method of the program, or
else what the host defined last. A field is initialized before there are methods. -/
def Program.callee? (context : TypeContext) (ledger : Ledger H) (program : Program) (root : Root)
    (name : String) (arity : Nat) : Option (Signature Ty × Callable H) :=
  match root with
  | .field _ => ledger.find? (name, arity)
  | .entry | .statement .. =>
    match program.method? name arity with
    | some method =>
      (method.signature context).toOption.map fun signature ↦
        (signature, .procedure method.procedure)
    | none => ledger.find? (name, arity)

/-- A run resolves names at a moment as the checker does at `site`: the scopes have the same names,
and a call calls what it was found to stand for. -/
structure Moment.Resolves [Host H] (moment : Moment H) (context : TypeContext) (ledger : Ledger H)
    (program : Program) (site : Site) : Prop where
  found : program.site? context moment.place = some site
  node : site.node = moment.node
  keys : List.Forall₂ Scope.SameKeys site.scopes moment.state.chain
  annotated : moment.place.root ≠ .entry →
    (program.annotate context).node? moment.place = some (site.annotated context)
  callee : ∀ mark name args resolved values middle,
    moment.node = .expr (.call mark name args resolved) →
    evalArgs moment.fuel args moment.state = .ok values middle →
    ∃ signature callable mark' args',
      site.annotated context = .expr (.call mark' name args' (some signature)) ∧
        program.callee? context ledger moment.place.root name args.length =
          some (signature, callable) ∧
        (Expr.call mark name args resolved).eval moment.fuel moment.state =
          callable.invoke moment.fuel values middle

section

variable [Host H] {context : TypeContext} {ledger : Ledger H} {program : Program}
  {hrecords : ∀ name type, context.records.find? name = some type → type.Built}
  {hkeyed : ledger.Keyed} {locals : TypeChain} {module : TypeScope} {state : State H}

/-- What the checker finds for a call is a function of the module, or else of the host. -/
theorem Discipline.Follows.callee_origin {discipline : Discipline H context}
    {world : discipline.World} {methods : List Method}
    (hstate : discipline.Follows methods module locals world state) {name : String} {arity : Nat}
    {signature : Signature Ty}
    (hfound : Chain.function? (locals ++ [module, context.globals]) name arity = some signature) :
    ∃ callable, state.chain.function? name arity = some callable ∧
      (Provides context methods module name arity signature callable ∨
        module.function? name arity = none ∧
          discipline.offers name arity signature callable) := by
  -- No local scope has a function.
  have hnone : Chain.function? locals name arity = none ∧
      Chain.function? state.locals name arity = none := by
    have hlocal := Chain.rel_function? hstate.locals name arity
    cases hstatic : Chain.function? locals name arity with
    | none =>
      rw [hstatic] at hlocal
      exact ⟨rfl, option_rel_of_none hlocal⟩
    | some first =>
      rw [hstatic] at hlocal
      obtain ⟨second, -, hfalse⟩ := option_rel_of_some hlocal
      exact hfalse.elim
  rw [Chain.function?_append, hnone.1, Option.none_or, Chain.function?_cons] at hfound
  rw [State.chain, Chain.function?_append, hnone.2, Option.none_or, Chain.function?_cons]
  have hmodule := hstate.module.function? name arity
  cases hown : module.function? name arity with
  | some own =>
    rw [hown] at hfound hmodule
    cases hfound
    obtain ⟨callable, hcallable, hprovides⟩ := option_rel_of_some hmodule
    rw [hcallable]
    exact ⟨callable, rfl, .inl hprovides⟩
  | none =>
    rw [hown] at hmodule
    rw [hown, Option.none_or] at hfound
    rw [option_rel_of_none hmodule, Option.none_or]
    have hglobals : Option.Rel _ (Chain.function? [context.globals] name arity)
        (Chain.function? [state.globals] name arity) :=
      Chain.rel_function? (.cons hstate.globals .nil) name arity
    rw [hfound] at hglobals
    obtain ⟨callable, hcallable, hoffers⟩ := option_rel_of_some hglobals
    exact ⟨callable, hcallable, .inr ⟨rfl, hoffers⟩⟩

/-- Where a complete module has no function of a name and number, the program has no such method. -/
theorem Program.method?_eq_none (hpaired : program.Paired)
    (hmodule : program.module? context = some module) {name : String} {arity : Nat}
    (hnone : module.function? name arity = none) : program.method? name arity = none := by
  obtain ⟨fields, -, hdeclared⟩ := Program.module?_eq_some.mp hmodule
  unfold method?
  rw [List.find?_eq_none]
  intro method hmethod hkey
  simp only [Bool.and_eq_true, beq_iff_eq] at hkey
  obtain ⟨signature, hsignature, hfound⟩ := declareMethods_function? hdeclared hmethod
  rw [Method.signature_arity hsignature, hpaired method hmethod, hkey.1, hkey.2, hnone] at hfound
  cases hfound

open Discipline

/-- A call that the checker has found a signature for calls what has that signature. -/
theorem Discipline.Follows.callee? {root : Root} (hpaired : program.Paired)
    (hsees : root.Sees context program module)
    (hstate : (ofNames hrecords hkeyed).Follows program.methods module locals () state)
    {name : String} {arity : Nat} {signature : Signature Ty}
    (hfound : Chain.function? (locals ++ [module, context.globals]) name arity = some signature) :
    ∃ callable, state.chain.function? name arity = some callable ∧
      program.callee? context ledger root name arity = some (signature, callable) := by
  obtain ⟨callable, hcallable, horigin⟩ := hstate.callee_origin hfound
  refine ⟨callable, hcallable, ?_⟩
  cases root with
  | field index =>
    obtain hprovides | ⟨-, hoffers⟩ := horigin
    · obtain ⟨method, -, -, hown, -⟩ := hprovides.exists_method
      rw [hsees] at hown
      cases hown
    · exact hoffers
  | entry | statement =>
    unfold Program.callee?
    obtain hprovides | ⟨hnone, hoffers⟩ := horigin
    · obtain ⟨fields, -, hdeclared⟩ := Program.module?_eq_some.mp hsees
      cases hprovides with
      | intro hmethod hsignature _ _ _ =>
        simp only [Program.method?_of_mem hpaired hdeclared hmethod, hsignature]
        rfl
    · rw [Program.method?_eq_none hpaired hsees hnone]
      exact hoffers

end

section

variable [Host H] {context : TypeContext} {ledger : Ledger H} {program : Program}
  {start : State H} {fuel : Nat} {moment : Moment H}

/-- A call runs what the name and the count of arguments stand for in the scopes in sight. -/
theorem Expr.eval_call {mark : Mark} {name : String} {args : List Expr}
    {resolved : Option (Signature Ty)} {state middle : State H} {values : List Value}
    {callable : Callable H} (hargs : evalArgs fuel args state = .ok values middle)
    (hcallee : middle.chain.function? name values.length = some callable) :
    (call mark name args resolved).eval fuel state = callable.invoke fuel values middle := by
  have hfunction : Run.function name values.length middle = .ok callable middle := by
    rw [Run.function_apply, hcallee]
  unfold eval evalWith
  exact (Stateful.bind_of_ok hargs).trans (Stateful.bind_of_ok hfunction)

open Discipline

/-- At every moment of a run of an accepted program, the scopes of the checker resolve each name as
the run does. -/
theorem Program.Reaches.resolves
    {hrecords : ∀ name type, context.records.find? name = some type → type.Built}
    {hkeyed : ledger.Keyed} (hpaired : program.Paired) (hcheck : program.check context = .ok ())
    (hsuspended : start.suspended = [])
    (hstart : (ofNames hrecords hkeyed).Follows program.methods {} [] () (opened start))
    (hreaches : program.Reaches fuel start moment) :
    ∃ site, moment.Resolves context ledger program site := by
  obtain ⟨site, locals, module, world, -, hagrees⟩ := hreaches.inStep hpaired hcheck hsuspended
    (fun field _ ↦ settles_of_blank (fun _ ↦ trivial) field) hstart
  refine ⟨site, hagrees.found, hagrees.node, ?_,
    fun hroot ↦ annotate_node? hpaired hcheck hroot hagrees.found, ?_⟩
  · rw [hagrees.scopes]
    exact hagrees.follows.chain.imp fun _ _ hscope ↦ hscope.sameKeys
  · intro mark name args resolved values middle hnode hargs
    have hcall : site.node = .expr (.call mark name args resolved) := hagrees.node.trans hnode
    obtain ⟨type, htype⟩ :=
      (Site.accepted_expr hcall).mp (Program.site?_accepted hpaired hcheck hagrees.found)
    obtain ⟨found, hfound, hchecked, -⟩ := Expr.infer_call.mp htype
    obtain ⟨mark', args', hannotated⟩ := Expr.annotate_call htype hfound
    have hscopes := hagrees.scopes
    obtain ⟨hlength, later, -, -, hmiddle, -⟩ :=
      hagrees.follows.callArgs (hscopes ▸ hfound) (hscopes ▸ hchecked) hargs
    obtain ⟨callable, hcallable, hcallee⟩ :=
      hmiddle.callee? hpaired hagrees.sees (hscopes ▸ hfound)
    refine ⟨found, callable, mark', args', ?_, hcallee, ?_⟩
    · rw [Site.annotated_expr hcall, hannotated]
    · rw [← hlength] at hcallable
      exact Expr.eval_call hargs hcallable

end

namespace Session

variable [Host H] {session : Session H} {ledger : Ledger H}

/-- A sound session follows the discipline of names. -/
theorem Sound.follows (h : session.Sound ledger) (hkeyed : ledger.Keyed) (methods : List Method) :
    (Discipline.ofNames h.records hkeyed).Follows methods {} [] ()
      (Program.opened session.state) := by
  refine ⟨?_, .empty, h.globals.imp_vars fun _ _ _ _ hbuilt ↦ ⟨hbuilt, trivial⟩, trivial,
    fun method _ ↦ Discipline.settlesMethod_of_blank (fun _ ↦ trivial) method⟩
  change List.Forall₂ _ [] session.state.locals
  rw [h.locals]
  exact .nil

/-- The failures that are left to an accepted program come from values and from the host. -/
theorem Sound.not_scoping (h : session.Sound ledger) (hkeyed : ledger.Keyed)
    (hhost : ∀ (body : H) args objects cause objects',
      Host.run body args objects = (.error cause, objects') → ¬ cause.IsScoping)
    {fuel : Nat} {program : Program} {cause : RuntimeError} {after : State H}
    (hpaired : program.Paired) (hcheck : program.check session.context = .ok ())
    (hrun : program.run fuel session.state = .error (.failed cause) after) :
    ¬ cause.IsScoping := by
  obtain ⟨moment, hreaches, hbreaks⟩ := Program.failure_origin hrun
  obtain ⟨site, -, -, hmishap⟩ := Discipline.mishap_of_breaks hpaired hcheck h.suspended
    (fun field _ ↦ Discipline.settles_of_blank (fun _ ↦ trivial) field)
    (h.follows hkeyed program.methods) hreaches hbreaks
  cases hmishap with
  | noBoolean _ hvalue =>
    rw [Value.asBoolean_eq_error hvalue]
    exact id
  | noRange _ hvalue =>
    rw [Value.asRange_eq_error hvalue]
    exact id
  | operator _ _ _ _ _ _ _ _ _ happly =>
    obtain rfl | ⟨rfl, -⟩ := BinaryOp.apply_eq_error happly <;> exact id
  | member hmember =>
    cases hmember with
    | noObject _ _ hobject =>
      rw [Value.asObject_eq_error hobject]
      exact id
    | noField | noMethod => exact id
    | refused _ _ _ _ _ _ hrefused => exact hhost _ _ _ _ _ hrefused
  | callee _ _ _ harity hrefuses =>
    cases hrefuses with
    | count hcount => exact (hcount harity).elim
    | print hsink =>
      obtain ⟨reason, rfl⟩ := Sink.print_eq_error hsink
      exact id
    | rangeStart hstart =>
      rw [Value.asInteger_eq_error hstart]
      exact id
    | rangeStop hstop =>
      rw [Value.asInteger_eq_error hstop]
      exact id
    | host _ hrefused => exact hhost _ _ _ _ _ hrefused

/-- After any history, a run of an accepted text resolves every name as the checker did, and fails
with no error of scoping unless the host gives one. -/
theorem scopes_in_lockstep (sink : Sink) (acts : List (Act H)) {text : String} {program : Program}
    (haccepted : Program.ofCheckedText (after sink acts).context text = .ok program) (fuel : Nat) :
    (∀ moment, program.Reaches fuel (after sink acts).state moment →
      ∃ site, moment.Resolves (after sink acts).context (Ledger.of acts) program site) ∧
    ((∀ (body : H) args objects cause objects',
        Host.run body args objects = (.error cause, objects') → ¬ cause.IsScoping) →
      ∀ cause, ((after sink acts).run fuel text).1 = .error (.runtime cause) →
        ¬ cause.IsScoping) := by
  obtain ⟨hsound, hkeyed⟩ := sound_after sink acts
  obtain ⟨hpaired, hcheck⟩ := Program.ofCheckedText_eq_ok haccepted
  refine ⟨fun moment hreaches ↦ hreaches.resolves hpaired hcheck hsound.suspended
    (hsound.follows hkeyed program.methods), fun hhost cause hrun ↦ ?_⟩
  unfold run interpret at hrun
  simp only [haccepted] at hrun
  cases hresult : program.run fuel (after sink acts).state with
  | ok value state =>
    rw [hresult] at hrun
    cases hrun
  | error interruption state =>
    rw [hresult] at hrun
    cases interruption with
    | failed failure =>
      cases hrun
      exact hsound.not_scoping hkeyed hhost hpaired hcheck hresult
    | outOfFuel => cases hrun

/-- A host with one variable. -/
def limited : List (Act Empty) :=
  [.defineVariable "limit" .integer (fun _ h ↦ nomatch h) (.integer 3)]

def doublingText : String :=
  "DEF main(): Integer DO RETURN double(limit); END " ++
    "DEF double(n: Integer): Integer DO RETURN n + n; END"

/-- The tree of `doublingText`. -/
def doubling : Program where
  methods :=
    [{ name := "main"
       params := []
       paramTypes := []
       returnType := some "Integer"
       body := [.ret (.call ⟨30, none⟩ "double" [.access ⟨37, none⟩ "limit" none] none)]
       offset := 4 },
     { name := "double"
       params := ["n"]
       paramTypes := ["Integer"]
       returnType := some "Integer"
       body := [.ret (.binary ⟨93, none⟩ .add (.access ⟨91, none⟩ "n" none)
        (.access ⟨95, none⟩ "n" none))]
       offset := 53 }]

theorem ofCheckedText_doubling :
    Program.ofCheckedText (after (.text "") limited).context doublingText = .ok doubling := by
  cbv

/-- A moment inside of a call, where the parameter is found at the same depth by the checker and by
the run. -/
theorem scopes_in_lockstep_doubling :
    ∃ moment site, doubling.Reaches 2 (after (.text "") limited).state moment ∧
      moment.node = .expr (.access ⟨95, none⟩ "n" none) ∧
      moment.Resolves (after (.text "") limited).context (Ledger.of limited) doubling site ∧
      site.scopes.length = 3 ∧
      ((after (.text "") limited).run 2 doublingText).1 ≠
        .error (.runtime (.undefinedVariable "n")) := by
  obtain ⟨hresolves, hfails⟩ := scopes_in_lockstep (.text "") limited ofCheckedText_doubling 2
  obtain ⟨moment, hreaches, hnode, hdepth⟩ :
      ∃ moment, doubling.Reaches 2 (after (.text "") limited).state moment ∧
        moment.node = .expr (.access ⟨95, none⟩ "n" none) ∧ moment.state.chain.length = 3 := by
    have hentry : doubling.Reaches 2 (after (.text "") limited).state
        ⟨2, ⟨.entry, []⟩, [], _, _⟩ := ⟨_, .main rfl, .refl⟩
    have hmain : doubling.Reaches 2 (after (.text "") limited).state
        ⟨1, ⟨.statement _ _ 0, []⟩, _, _, _⟩ := hentry.next (.enter rfl rfl rfl rfl rfl)
    have hcall := hmain.next (.turn .returned)
    have hdouble : doubling.Reaches 2 (after (.text "") limited).state
        ⟨0, ⟨.statement _ _ 0, []⟩, _, _, _⟩ := hcall.next (.enter rfl rfl rfl rfl rfl)
    have hsum := hdouble.next (.turn .returned)
    exact ⟨_, hsum.next (.turn (.right rfl rfl)), rfl, rfl⟩
  obtain ⟨site, hsite⟩ := hresolves moment hreaches
  refine ⟨moment, site, hreaches, hnode, hsite, ?_, ?_⟩
  · rw [hsite.keys.length_eq, hdepth]
  · intro hrun
    exact hfails (fun body ↦ nomatch body) _ hrun trivial

end Session

end ScriptLang
