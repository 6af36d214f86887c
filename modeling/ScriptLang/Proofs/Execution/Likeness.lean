import ScriptLang.Execution.Program
import ScriptLang.Proofs.Correspondence
import ScriptLang.Proofs.Execution.DeadCode
import ScriptLang.Proofs.Program.Alike

/-!
Two runs side by side. A `Likeness` says how the objects and the output of two runs are related and
which values can occur in them, with the proof that every step that looks at an object or prints
keeps this. Then trees that differ in positions and annotations alone, run from states that are
alike, end in the same value or the same error and in states that are alike, however long the runs.
The bodies of the methods that are called may differ in dead code too.
-/

set_option autoImplicit false
set_option relaxedAutoImplicit false

namespace ScriptLang

/-- The same value in both runs, one of which `good` holds. -/
def Shared {α : Type} (good : α → Prop) (first second : α) : Prop := first = second ∧ good first

/-- Results that are both values, related by `values`, or both the same error. -/
inductive ResultsAlike {ε α β : Type} (values : α → β → Prop) : Except ε α → Except ε β → Prop
  | ok {value : α} {other : β} (h : values value other) :
    ResultsAlike values (.ok value) (.ok other)
  | error (cause : ε) : ResultsAlike values (.error cause) (.error cause)

/-- Two equal results are alike if the value that they may hold is good. -/
theorem ResultsAlike.of_eq {ε α : Type} {good : α → Prop} {first second : Except ε α}
    (heq : first = second) (hgood : ∀ value, first = .ok value → good value) :
    ResultsAlike (Shared good) first second := by
  subst heq
  cases first with
  | ok value => exact .ok ⟨rfl, hgood value rfl⟩
  | error cause => exact .error cause

/-- Bodies that differ in positions, in annotations and in dead code that the second has lost. -/
def BodiesAlike (first second : List Stmt) : Prop :=
  ∃ trimmed, BlockTrims first trimmed ∧ BlocksAlike trimmed second

theorem BlocksAlike.bodies {first second : List Stmt} (h : BlocksAlike first second) :
    BodiesAlike first second := ⟨first, .refl first, h⟩

theorem BlockTrims.bodies {first second : List Stmt} (h : BlockTrims first second) :
    BodiesAlike first second := ⟨second, h, rfl⟩

/-- Methods that no call tells apart. -/
structure Method.CallsAlike (first second : Method) : Prop where
  name : first.name = second.name
  params : first.params = second.params
  body : BodiesAlike first.body second.body

theorem Method.Alike.callsAlike {first second : Method} (h : first.Alike second) :
    first.CallsAlike second := ⟨h.name, h.params, h.body.bodies⟩

theorem Method.Trims.callsAlike {first second : Method} (h : first.Trims second) :
    first.CallsAlike second := ⟨h.name, h.params, h.body.bodies⟩

/-- What two runs have in common: the values that can occur in them, the functions of the host they
can call, and relations between their objects and their output that every step keeps. -/
structure Likeness (H : Type) [Host H] where
  occurs : Value → Prop
  offers : HostFunction H → Prop
  objects : ObjectStore H → ObjectStore H → Prop
  sinks : Sink → Sink → Prop
  plain : ∀ value : Value, value.kind ≠ .object → occurs value
  print : ∀ line first second, sinks first second →
    ResultsAlike sinks (first.print line) (second.print line)
  field : ∀ first second ref name, objects first second → occurs (.object ref) →
    ResultsAlike (Shared occurs) (first.field ref name) (second.field ref name)
  setField : ∀ first second ref name value, objects first second → occurs (.object ref) →
    occurs value →
    ResultsAlike objects (first.setField ref name value) (second.setField ref name value)
  method : ∀ first second ref name arity, objects first second → occurs (.object ref) →
    ResultsAlike (Shared offers) (first.method ref name arity) (second.method ref name arity)
  host : ∀ function args first second, offers function → (∀ value ∈ args, occurs value) →
    objects first second →
    ResultsAlike (Shared occurs) (Host.run function.body args first).1
      (Host.run function.body args second).1 ∧
    objects (Host.run function.body args first).2 (Host.run function.body args second).2

namespace Likeness

variable {H : Type} [Host H] (likeness : Likeness H)

/-- What a name in call position stands for in both runs. -/
inductive Callables : Callable H → Callable H → Prop
  | print : Callables .print .print
  | range : Callables .range .range
  | host {function : HostFunction H} (h : likeness.offers function) :
    Callables (.host function) (.host function)
  | procedure {definition other : Procedure} (hname : definition.name = other.name)
    (hparams : definition.params = other.params) (hbody : BodiesAlike definition.body other.body) :
    Callables (.procedure definition) (.procedure other)

/-- Scopes that bind the same names to the same values and to functions that are alike. -/
def Scopes : ValueScope H → ValueScope H → Prop :=
  Scope.Follows (Shared likeness.occurs) fun _ _ ↦ likeness.Callables

/-- States from which two runs go alike. -/
structure States (first second : State H) : Prop where
  locals : List.Forall₂ likeness.Scopes first.locals second.locals
  suspended : List.Forall₂ (List.Forall₂ likeness.Scopes) first.suspended second.suspended
  module : likeness.Scopes first.module second.module
  globals : likeness.Scopes first.globals second.globals
  objects : likeness.objects first.objects second.objects
  sink : likeness.sinks first.sink second.sink

/-- Two ends of runs: values that are related, or the same interruption, in states that are
alike. -/
inductive Ends {α β : Type} (values : α → β → Prop) :
    EStateM.Result Interruption (State H) α → EStateM.Result Interruption (State H) β → Prop
  | ok {value : α} {other : β} {state state' : State H} (h : values value other)
    (hstates : likeness.States state state') : Ends values (.ok value state) (.ok other state')
  | error {cause : Interruption} {state state' : State H}
    (hstates : likeness.States state state') :
    Ends values (.error cause state) (.error cause state')

/-- From states that are alike, both come to ends that are alike. -/
def Runs {α β : Type} (values : α → β → Prop) (first : Run H α) (second : Run H β) : Prop :=
  ∀ state state', likeness.States state state' → likeness.Ends values (first state) (second state')

variable {likeness}

/-- Callables that are alike take equally many arguments. -/
theorem Callables.arity {first second : Callable H} (h : likeness.Callables first second) :
    first.arity = second.arity := by
  cases h with
  | print | range | host => rfl
  | procedure _ hparams => exact congrArg List.length hparams

namespace States

variable {state state' : State H} (h : likeness.States state state')
include h

theorem chain : List.Forall₂ likeness.Scopes state.chain state'.chain :=
  List.rel_append h.locals (.cons h.module (.cons h.globals .nil))

/-- Declaring one value on both sides keeps states alike. -/
theorem declare (name : String) {value : Value} (hvalue : likeness.occurs value) :
    likeness.States (state.declare name value) (state'.declare name value) := by
  obtain ⟨locals, suspended, module, globals, objects, sink⟩ := state
  obtain ⟨locals', suspended', module', globals', objects', sink'⟩ := state'
  have hlocals : List.Forall₂ likeness.Scopes locals locals' := h.locals
  cases hlocals with
  | nil => exact { h with module := h.module.declare name ⟨rfl, hvalue⟩ }
  | cons hscope houter =>
    exact { h with locals := .cons (hscope.declare name ⟨rfl, hvalue⟩) houter }

/-- An assignment succeeds on both sides or on neither, since scopes that are alike bind the same
names. -/
theorem assign? (name : String) {value : Value} (hvalue : likeness.occurs value) :
    Option.Rel likeness.States (state.assign? name value) (state'.assign? name value) := by
  have hshared : Shared likeness.occurs value value := ⟨rfl, hvalue⟩
  have hlocals := Chain.rel_assign? h.locals name hshared
  have hmodule := h.module.rel_assign? name hshared
  have hglobals := h.globals.rel_assign? name hshared
  unfold State.assign?
  generalize state.locals.assign? name value = locals at hlocals ⊢
  generalize state'.locals.assign? name value = locals' at hlocals ⊢
  generalize state.module.assign? name value = module at hmodule ⊢
  generalize state'.module.assign? name value = module' at hmodule ⊢
  cases hlocals with
  | some hlocals => exact .some { h with locals := hlocals }
  | none =>
    cases hmodule with
    | some hmodule => exact .some { h with module := hmodule }
    | none => exact option_rel_map hglobals fun _ _ hglobals ↦ { h with globals := hglobals }

theorem enterBlock {scope scope' : ValueScope H} (hscope : likeness.Scopes scope scope') :
    likeness.States (state.enterBlock scope) (state'.enterBlock scope') :=
  { h with locals := .cons hscope h.locals }

theorem leaveBlock : likeness.States state.leaveBlock state'.leaveBlock :=
  { h with locals := forall₂_tail h.locals }

theorem enterCall {scope scope' : ValueScope H} (hscope : likeness.Scopes scope scope') :
    likeness.States (state.enterCall scope) (state'.enterCall scope') :=
  { h with locals := .cons hscope .nil, suspended := .cons h.locals h.suspended }

theorem leaveCall : likeness.States state.leaveCall state'.leaveCall :=
  { h with
    locals := forall₂_headD h.suspended .nil
    suspended := forall₂_tail h.suspended }

end States

/-! ### Rules for each way to put runs together -/

namespace Runs

variable {α β γ δ : Type} {values : α → β → Prop} {values' : γ → δ → Prop} {first : Run H α}
  {second : Run H β}

theorem pure {value : α} {other : β} (h : values value other) :
    likeness.Runs values (pure value) (Pure.pure other) := fun _ _ hstates ↦ .ok h hstates

theorem throw (cause : Interruption) :
    likeness.Runs values (throw cause) (MonadExcept.throw cause) := fun _ _ hstates ↦ .error hstates

/-- Results that are alike are alike as runs. -/
theorem ofExcept {result : Except RuntimeError α} {other : Except RuntimeError β}
    (h : ResultsAlike values result other) :
    likeness.Runs values (Run.ofExcept result) (Run.ofExcept other) := by
  cases h with
  | ok h => exact .pure h
  | error cause => exact .throw _

/-- Runs that go alike may be followed by runs that go alike from related values. -/
theorem bind {next : α → Run H γ} {next' : β → Run H δ} (h : likeness.Runs values first second)
    (hnext : ∀ value other, values value other → likeness.Runs values' (next value) (next' other)) :
    likeness.Runs values' (first >>= next) (second >>= next') := by
  intro state state' hstates
  have hends := h state state' hstates
  generalize hfirst : first state = result at hends
  generalize hsecond : second state' = result' at hends
  cases hends with
  | ok hvalues hstates =>
    rw [Stateful.bind_of_ok hfirst, Stateful.bind_of_ok hsecond]
    exact hnext _ _ hvalues _ _ hstates
  | error hstates =>
    rw [Stateful.bind_of_error hfirst, Stateful.bind_of_error hsecond]
    exact .error hstates

/-- Changes that keep states alike go alike. -/
theorem modify {change change' : State H → State H}
    (h : ∀ state state', likeness.States state state' →
      likeness.States (change state) (change' state')) :
    likeness.Runs Eq (modify change) (modify change') := fun _ _ hstates ↦ .ok rfl (h _ _ hstates)

/-- Runs go alike in between if entering and leaving keep states alike. -/
theorem within {enter enter' leave leave' : State H → State H}
    (henter : ∀ state state', likeness.States state state' →
      likeness.States (enter state) (enter' state'))
    (hleave : ∀ state state', likeness.States state state' →
      likeness.States (leave state) (leave' state'))
    (h : likeness.Runs values first second) :
    likeness.Runs values (Run.within enter leave first) (Run.within enter' leave' second) := by
  intro state state' hstates
  have hends := h _ _ (henter state state' hstates)
  unfold Run.within
  generalize first (enter state) = result at hends ⊢
  generalize second (enter' state') = result' at hends ⊢
  cases hends with
  | ok hvalues hstates => exact .ok hvalues (hleave _ _ hstates)
  | error hstates => exact .error (hleave _ _ hstates)

/-- Blocks go alike if their scopes and bodies do. -/
theorem block {scope scope' : ValueScope H} (hscope : likeness.Scopes scope scope')
    (h : likeness.Runs values first second) :
    likeness.Runs values (Run.block scope first) (Run.block scope' second) :=
  .within (fun _ _ hstates ↦ hstates.enterBlock hscope) (fun _ _ hstates ↦ hstates.leaveBlock) h

/-- Calls go alike if their scopes and bodies do. -/
theorem call {scope scope' : ValueScope H} (hscope : likeness.Scopes scope scope')
    (h : likeness.Runs values first second) :
    likeness.Runs values (Run.call scope first) (Run.call scope' second) :=
  .within (fun _ _ hstates ↦ hstates.enterCall hscope) (fun _ _ hstates ↦ hstates.leaveCall) h

/-- A variable has the same value on both sides, one that can occur. -/
theorem lookup (name : String) :
    likeness.Runs (Shared likeness.occurs) (Run.lookup name) (Run.lookup name) := by
  intro state state' hstates
  have hfound := Chain.rel_lookup? hstates.chain name
  rw [Run.lookup_apply, Run.lookup_apply]
  generalize state.chain.lookup? name = found at hfound ⊢
  generalize state'.chain.lookup? name = found' at hfound ⊢
  cases hfound with
  | some hvalue => exact .ok hvalue hstates
  | none => exact .error hstates

/-- A name in call position stands for callables that are alike. -/
theorem function (name : String) (arity : Nat) :
    likeness.Runs likeness.Callables (Run.function name arity) (Run.function name arity) := by
  intro state state' hstates
  have hfound := Chain.rel_function? hstates.chain name arity
  rw [Run.function_apply, Run.function_apply]
  generalize state.chain.function? name arity = found at hfound ⊢
  generalize state'.chain.function? name arity = found' at hfound ⊢
  cases hfound with
  | some hcallable => exact .ok hcallable hstates
  | none => exact .error hstates

/-- Assigning the same value goes alike. -/
theorem assign (name : String) {value : Value} (hvalue : likeness.occurs value) :
    likeness.Runs Eq (Run.assign name value) (Run.assign name value) := by
  intro state state' hstates
  have hassigned := hstates.assign? name hvalue
  rw [Run.assign_apply, Run.assign_apply]
  generalize state.assign? name value = after at hassigned ⊢
  generalize state'.assign? name value = after' at hassigned ⊢
  cases hassigned with
  | some hstates => exact .ok rfl hstates
  | none => exact .error hstates

/-- A field of an object that can occur is read alike. -/
theorem field {ref : ObjectRef} (href : likeness.occurs (.object ref)) (name : String) :
    likeness.Runs (Shared likeness.occurs) (Run.field ref name) (Run.field ref name) := by
  intro state state' hstates
  rw [Run.field_apply, Run.field_apply]
  exact Runs.ofExcept (likeness.field _ _ ref name hstates.objects href) state state' hstates

/-- A field of an object that can occur is set alike. -/
theorem setField {ref : ObjectRef} (href : likeness.occurs (.object ref)) (name : String)
    {value : Value} (hvalue : likeness.occurs value) :
    likeness.Runs Eq (Run.setField ref name value) (Run.setField ref name value) := by
  intro state state' hstates
  have hobjects := likeness.setField _ _ ref name value hstates.objects href hvalue
  rw [Run.setField_apply, Run.setField_apply]
  generalize state.objects.setField ref name value = result at hobjects ⊢
  generalize state'.objects.setField ref name value = result' at hobjects ⊢
  cases hobjects with
  | ok hobjects => exact .ok rfl { hstates with objects := hobjects }
  | error cause => exact .error hstates

/-- A method of an object that can occur is one that the host offers, on both sides. -/
theorem method {ref : ObjectRef} (href : likeness.occurs (.object ref)) (name : String)
    (arity : Nat) :
    likeness.Runs likeness.Callables (Run.method ref name arity) (Run.method ref name arity) := by
  intro state state' hstates
  have hmethod := likeness.method _ _ ref name arity hstates.objects href
  rw [Run.method_apply, Run.method_apply]
  generalize state.objects.method ref name arity = result at hmethod ⊢
  generalize state'.objects.method ref name arity = result' at hmethod ⊢
  cases hmethod with
  | ok hfunction =>
    obtain ⟨rfl, hoffered⟩ := hfunction
    exact .ok (.host hoffered) hstates
  | error cause => exact .error hstates

/-- The same line is printed alike. -/
theorem print (line : String) : likeness.Runs Eq (Run.print line) (Run.print line) := by
  intro state state' hstates
  have hsinks := likeness.print line _ _ hstates.sink
  rw [Run.print_apply, Run.print_apply]
  generalize state.sink.print line = result at hsinks ⊢
  generalize state'.sink.print line = result' at hsinks ⊢
  cases hsinks with
  | ok hsinks => exact .ok rfl { hstates with sink := hsinks }
  | error cause => exact .error hstates

/-- A function that the host offers goes alike on arguments that can occur. -/
theorem host {function : HostFunction H} (hoffered : likeness.offers function) {args : List Value}
    (hargs : ∀ value ∈ args, likeness.occurs value) :
    likeness.Runs (Shared likeness.occurs) (Run.host function.body args)
      (Run.host function.body args) := by
  intro state state' hstates
  obtain ⟨hresults, hobjects⟩ :=
    likeness.host function args _ _ hoffered hargs hstates.objects
  unfold Run.host
  generalize Host.run function.body args state.objects = result at hresults hobjects ⊢
  generalize Host.run function.body args state'.objects = result' at hresults hobjects ⊢
  obtain ⟨result, objects⟩ := result
  obtain ⟨result', objects'⟩ := result'
  cases hresults with
  | ok hvalue => exact .ok hvalue { hstates with objects := hobjects }
  | error cause => exact .error { hstates with objects := hobjects }

section

variable {good : Flow → Prop} {condition condition' : Run H Bool}

/-- Conditional loops go alike if conditions and bodies do. The induction is on the fuel for their
turns. -/
theorem repeatWhile {body body' : Run H Flow} (hcondition : likeness.Runs Eq condition condition')
    (hbody : likeness.Runs (Shared good) body body') (hnext : good .next) (fuel : Nat) :
    likeness.Runs (Shared good) (Run.repeatWhile condition body fuel)
      (Run.repeatWhile condition' body' fuel) := by
  induction fuel with
  | zero => exact .throw _
  | succ fuel ih =>
    refine hcondition.bind ?_
    rintro holds _ rfl
    cases holds with
    | false => exact .pure ⟨rfl, hnext⟩
    | true =>
      refine hbody.bind ?_
      rintro flow _ ⟨rfl, hflow⟩
      cases flow with
      | next => exact ih
      | returned value => exact .pure ⟨rfl, hflow⟩

/-- Loops over the same range go alike if bodies do at each number. -/
theorem forRange {body body' : Int → Run H Flow}
    (hbody : ∀ item, likeness.Runs (Shared good) (body item) (body' item)) (hnext : good .next)
    (count : Nat) (start : Int) :
    likeness.Runs (Shared good) (Run.forRange body count start)
      (Run.forRange body' count start) := by
  induction count generalizing start with
  | zero => exact .pure ⟨rfl, hnext⟩
  | succ count ih =>
    refine (hbody start).bind ?_
    rintro flow _ ⟨rfl, hflow⟩
    cases flow with
    | next => exact ih (start + 1)
    | returned value => exact .pure ⟨rfl, hflow⟩

end

end Runs

end Likeness

/-! ### Trees -/

/-- Arithmetic makes no reference to an object, so its results can occur anyway. -/
theorem BinaryOp.arithmetic?_kind {op : BinaryOp} {left right value : Value}
    (h : op.arithmetic? left right = some value) : value.kind ≠ .object := by
  unfold BinaryOp.arithmetic? at h
  split at h
  · split at h <;> cases h
    exact fun h ↦ by cases h
  · split at h <;> cases h
    exact fun h ↦ by cases h
  · obtain ⟨_, -, rfl⟩ := Option.map_eq_some_iff.mp h
    exact fun h ↦ by cases h
  · obtain ⟨_, -, rfl⟩ := Option.map_eq_some_iff.mp h
    exact fun h ↦ by cases h
  · cases h

/-- A comparison makes no reference to an object. -/
theorem BinaryOp.compare?_kind {op : BinaryOp} {left right value : Value}
    (h : op.compare? left right = some value) : value.kind ≠ .object := by
  unfold BinaryOp.compare? at h
  split at h
  · cases h
    exact fun h ↦ by cases h
  · cases h
    exact fun h ↦ by cases h
  all_goals
    first
    | cases h
    | obtain ⟨_, -, rfl⟩ := Option.map_eq_some_iff.mp h
      exact fun h ↦ by cases h

/-- No operator gives an object. -/
theorem BinaryOp.apply_kind {op : BinaryOp} {left right value : Value}
    (happly : op.apply left right = .ok value) : value.kind ≠ .object := by
  unfold BinaryOp.apply at happly
  split at happly
  · cases happly
  · split at happly
    · rename_i found hfound
      cases happly
      obtain harithmetic | ⟨-, hcompare⟩ := Option.or_eq_some_iff.mp hfound
      · exact BinaryOp.arithmetic?_kind harithmetic
      · exact BinaryOp.compare?_kind hcompare
    · cases happly

section

variable {H : Type} [Host H] {likeness : Likeness H}
  {invoke invoke' : Callable H → List Value → Run H Value}
  (hinvoke : ∀ callable other args, likeness.Callables callable other →
    (∀ value ∈ args, likeness.occurs value) →
    likeness.Runs (Shared likeness.occurs) (invoke callable args) (invoke' other args))

/-- A reference that is taken out of a value that can occur can occur. -/
theorem Likeness.asObject_alike {value : Value} (hvalue : likeness.occurs value) :
    ResultsAlike (Shared fun ref ↦ likeness.occurs (.object ref)) value.asObject
      value.asObject := by
  cases value with
  | object ref => exact .ok ⟨rfl, hvalue⟩
  | _ => exact .error _

/-- Every result without objects is alike to itself. -/
theorem Likeness.results_alike {α : Type} (result : Except RuntimeError α) :
    ResultsAlike Eq result result := by
  cases result with
  | ok value => exact .ok rfl
  | error cause => exact .error cause

include hinvoke

-- A mutual recursion over the tree does not name the hypothesis that it shares.
set_option linter.unusedSectionVars false

mutual

/-- Expressions that differ in positions and annotations come to the same value or failure. The
recursion is on the first of them. -/
theorem Expr.evalWith_alike : ∀ (expr : Expr) {other : Expr}, expr.Alike other →
    likeness.Runs (Shared likeness.occurs) (expr.evalWith invoke) (other.evalWith invoke')
  | .literal _ value, _, h => by
    obtain ⟨_, rfl⟩ := h.literal
    refine .pure ⟨rfl, likeness.plain _ ?_⟩
    cases value <;> exact fun h ↦ by cases h
  | .group _ inner, _, h => by
    obtain ⟨_, inner', rfl, hinner⟩ := h.group
    rw [Expr.evalWith, Expr.evalWith]
    exact inner.evalWith_alike hinner
  | .binary _ op left right, _, h => by
    obtain ⟨_, left', right', rfl, hleft, hright⟩ := h.binary
    rw [Expr.evalWith, Expr.evalWith]
    refine (left.evalWith_alike hleft).bind ?_
    rintro first _ ⟨rfl, -⟩
    cases op.shortcut? with
    | none =>
      refine (right.evalWith_alike hright).bind ?_
      rintro second _ ⟨rfl, -⟩
      exact .ofExcept (.of_eq rfl fun value happly ↦ likeness.plain _ (BinaryOp.apply_kind happly))
    | some decisive =>
      have hboolean (value : Bool) : Shared likeness.occurs (.boolean value) (.boolean value) :=
        ⟨rfl, likeness.plain _ fun h ↦ by cases h⟩
      -- Both sides have the same left value, so both evaluate the right operand or neither does.
      refine (Likeness.Runs.ofExcept (Likeness.results_alike _)).bind ?_
      rintro holds _ rfl
      by_cases hdecided : holds = decisive
      · simp only [if_pos hdecided]
        exact .pure (hboolean decisive)
      · simp only [if_neg hdecided]
        refine (right.evalWith_alike hright).bind ?_
        rintro second _ ⟨rfl, -⟩
        refine (Likeness.Runs.ofExcept (Likeness.results_alike _)).bind ?_
        rintro holds _ rfl
        exact .pure (hboolean holds)
  | .access _ name _, _, h => by
    obtain ⟨_, _, rfl⟩ := h.access
    exact .lookup name
  | .member _ receiver name _, _, h => by
    obtain ⟨_, receiver', _, rfl, hreceiver⟩ := h.member
    rw [Expr.evalWith, Expr.evalWith]
    refine (receiver.evalWith_alike hreceiver).bind ?_
    rintro object _ ⟨rfl, hobject⟩
    refine (Likeness.Runs.ofExcept (Likeness.asObject_alike hobject)).bind ?_
    rintro ref _ ⟨rfl, href⟩
    exact .field href name
  | .call _ name args _, _, h => by
    obtain ⟨_, args', _, rfl, hargs⟩ := h.call
    rw [Expr.evalWith, Expr.evalWith]
    refine (evalArgsWith_alike args hargs).bind ?_
    rintro values _ ⟨rfl, hvalues⟩
    refine (Likeness.Runs.function name values.length).bind ?_
    exact fun callable other hcallable ↦ hinvoke callable other values hcallable hvalues
  | .invoke _ receiver name args _, _, h => by
    obtain ⟨_, receiver', args', _, rfl, hreceiver, hargs⟩ := h.invoke
    rw [Expr.evalWith, Expr.evalWith]
    refine (receiver.evalWith_alike hreceiver).bind ?_
    rintro object _ ⟨rfl, hobject⟩
    refine (evalArgsWith_alike args hargs).bind ?_
    rintro values _ ⟨rfl, hvalues⟩
    refine (Likeness.Runs.ofExcept (Likeness.asObject_alike hobject)).bind ?_
    rintro ref _ ⟨rfl, href⟩
    refine (Likeness.Runs.method href name (values.length + 1)).bind ?_
    intro callable other hcallable
    exact hinvoke callable other _ hcallable (List.forall_mem_cons.mpr ⟨hobject, hvalues⟩)

/-- Arguments that are alike have the same values. -/
theorem evalArgsWith_alike : ∀ (args : List Expr) {others : List Expr}, ArgsAlike args others →
    likeness.Runs (Shared fun values ↦ ∀ value ∈ values, likeness.occurs value)
      (evalArgsWith invoke args) (evalArgsWith invoke' others)
  | [], _, h => by
    obtain rfl := h.nil
    exact .pure ⟨rfl, List.forall_mem_nil _⟩
  | head :: tail, _, h => by
    obtain ⟨head', tail', rfl, hhead, htail⟩ := h.cons
    refine (head.evalWith_alike hhead).bind ?_
    rintro value _ ⟨rfl, hvalue⟩
    refine (evalArgsWith_alike tail htail).bind ?_
    rintro values _ ⟨rfl, hvalues⟩
    exact .pure ⟨rfl, List.forall_mem_cons.mpr ⟨hvalue, hvalues⟩⟩

end

/-- Declarations that are alike declare the same value. -/
theorem Binding.evalWith_alike {binding other : Binding} (h : binding.Alike other) :
    likeness.Runs (Shared likeness.occurs) (binding.evalWith invoke) (other.evalWith invoke') := by
  have hvalue := h.value
  unfold Binding.evalWith
  generalize binding.value = value at hvalue ⊢
  generalize other.value = value' at hvalue ⊢
  cases hvalue with
  | none => exact .pure ⟨rfl, likeness.plain _ fun h ↦ by cases h⟩
  | some hvalue => exact Expr.evalWith_alike hinvoke _ hvalue

/-- Conditions that are alike decide alike. -/
theorem Expr.conditionWith_alike {condition other : Expr} (h : condition.Alike other) :
    likeness.Runs Eq (condition.conditionWith invoke) (other.conditionWith invoke') := by
  refine (condition.evalWith_alike hinvoke h).bind ?_
  rintro value _ ⟨rfl, -⟩
  exact .ofExcept (Likeness.results_alike _)

/-- Assignments that are alike change the same variable or the same field of an object. -/
theorem Expr.assignWith_alike {target other value value' : Expr} (htarget : target.Alike other)
    (hvalue : value.Alike value') :
    likeness.Runs Eq (target.assignWith invoke value) (other.assignWith invoke' value') := by
  have hassigned := value.evalWith_alike hinvoke hvalue
  cases target with
  | access _ name _ =>
    obtain ⟨_, _, rfl⟩ := htarget.access
    refine hassigned.bind ?_
    rintro value _ ⟨rfl, hvalue⟩
    exact .assign name hvalue
  | member _ receiver name _ =>
    obtain ⟨_, receiver', _, rfl, hreceiver⟩ := htarget.member
    refine hassigned.bind ?_
    rintro value _ ⟨rfl, hvalue⟩
    refine (receiver.evalWith_alike hinvoke hreceiver).bind ?_
    rintro object _ ⟨rfl, hobject⟩
    refine (Likeness.Runs.ofExcept (Likeness.asObject_alike hobject)).bind ?_
    rintro ref _ ⟨rfl, href⟩
    exact .setField href name hvalue
  | literal =>
    obtain ⟨_, rfl⟩ := htarget.literal
    exact .throw _
  | group =>
    obtain ⟨_, _, rfl, -⟩ := htarget.group
    exact .throw _
  | binary =>
    obtain ⟨_, _, _, rfl, -⟩ := htarget.binary
    exact .throw _
  | call =>
    obtain ⟨_, _, _, rfl, -⟩ := htarget.call
    exact .throw _
  | invoke =>
    obtain ⟨_, _, _, _, rfl, -⟩ := htarget.invoke
    exact .throw _

variable (fuel : Nat)

mutual

/-- Statements that are alike come to the same end. The recursion is on the first of them. -/
theorem Stmt.execWith_alike : ∀ (statement : Stmt) {other : Stmt}, statement.Alike other →
    likeness.Runs (Shared (Flow.Satisfies likeness.occurs)) (statement.execWith invoke fuel)
      (other.execWith invoke' fuel)
  | .expr value, _, h => by
    obtain ⟨value', rfl, hvalue⟩ := h.expr
    rw [Stmt.execWith, Stmt.execWith, Stateful.discard_eq, Stateful.discard_eq]
    refine ((value.evalWith_alike hinvoke hvalue).bind fun _ _ _ ↦ .pure rfl).bind ?_
    exact fun _ _ (_ : () = ()) ↦ .pure ⟨rfl, trivial⟩
  | .declare binding, _, h => by
    obtain ⟨binding', rfl, hbinding⟩ := h.declare
    rw [Stmt.execWith, Stmt.execWith, ← hbinding.name]
    refine (Binding.evalWith_alike hinvoke hbinding).bind ?_
    rintro value _ ⟨rfl, hvalue⟩
    refine (Likeness.Runs.modify fun _ _ hstates ↦ hstates.declare binding.name hvalue).bind ?_
    exact fun _ _ _ ↦ .pure ⟨rfl, trivial⟩
  | .assign target value, _, h => by
    obtain ⟨target', value', rfl, htarget, hvalue⟩ := h.assign
    rw [Stmt.execWith, Stmt.execWith]
    refine (Expr.assignWith_alike hinvoke htarget hvalue).bind ?_
    exact fun _ _ _ ↦ .pure ⟨rfl, trivial⟩
  | .branch condition thenBody elseBody, _, h => by
    obtain ⟨condition', thenBody', elseBody', rfl, hcondition, hthen, helse⟩ := h.branch
    rw [Stmt.execWith, Stmt.execWith]
    refine (Expr.conditionWith_alike hinvoke hcondition).bind ?_
    rintro holds _ rfl
    cases holds with
    | true => exact .block .empty (execAllWith_alike thenBody hthen)
    | false => exact .block .empty (execAllWith_alike elseBody helse)
  | .forEach _ name iterable body, _, h => by
    obtain ⟨_, iterable', body', rfl, hiterable, hbody⟩ := h.forEach
    rw [Stmt.execWith, Stmt.execWith]
    refine (iterable.evalWith_alike hinvoke hiterable).bind ?_
    rintro value _ ⟨rfl, -⟩
    refine (Likeness.Runs.ofExcept (Likeness.results_alike _)).bind ?_
    rintro bounds _ rfl
    refine .forRange (fun item ↦ .block (.declare .empty name ⟨rfl, ?_⟩)
      (execAllWith_alike body hbody)) trivial _ _
    exact likeness.plain _ fun h ↦ by cases h
  | .loop condition body, _, h => by
    obtain ⟨condition', body', rfl, hcondition, hbody⟩ := h.loop
    rw [Stmt.execWith, Stmt.execWith]
    exact .repeatWhile (Expr.conditionWith_alike hinvoke hcondition)
      (.block .empty (execAllWith_alike body hbody)) trivial fuel
  | .ret value, _, h => by
    obtain ⟨value', rfl, hvalue⟩ := h.ret
    rw [Stmt.execWith, Stmt.execWith]
    refine (value.evalWith_alike hinvoke hvalue).bind ?_
    rintro value _ ⟨rfl, hvalue⟩
    exact .pure ⟨rfl, hvalue⟩

/-- Blocks that are alike come to the same end. -/
theorem execAllWith_alike : ∀ (statements : List Stmt) {others : List Stmt},
    BlocksAlike statements others →
    likeness.Runs (Shared (Flow.Satisfies likeness.occurs)) (execAllWith invoke fuel statements)
      (execAllWith invoke' fuel others)
  | [], _, h => by
    obtain rfl := h.nil
    exact .pure ⟨rfl, trivial⟩
  | head :: tail, _, h => by
    obtain ⟨head', tail', rfl, hhead, htail⟩ := h.cons
    rw [execAllWith, execAllWith]
    refine (head.execWith_alike hhead).bind ?_
    rintro flow _ ⟨rfl, hflow⟩
    cases flow with
    | next => exact execAllWith_alike tail htail
    | returned value => exact .pure ⟨rfl, hflow⟩

end

end

/-! ### Calls and programs -/

section

variable {H : Type} [Host H] {likeness : Likeness H}

/-- Scopes of the same parameters and arguments are alike. -/
theorem Likeness.parameterScope_alike (params : List String) {args : List Value}
    (hargs : ∀ value ∈ args, likeness.occurs value) :
    likeness.Scopes (Callable.parameterScope params args)
      (Callable.parameterScope params args) := by
  have hbound (pair : String × Value) (hpair : pair ∈ params.zip args) :
      likeness.occurs pair.2 := hargs pair.2 (List.of_mem_zip hpair).2
  have hscope : likeness.Scopes ({} : ValueScope H) {} := .empty
  unfold Callable.parameterScope
  generalize params.zip args = bound at hbound ⊢
  generalize ({} : ValueScope H) = scope at hscope ⊢
  induction bound generalizing scope with
  | nil => exact hscope
  | cons head tail ih =>
    obtain ⟨hhead, htail⟩ := List.forall_mem_cons.mp hbound
    exact ih htail _ (hscope.declare head.1 ⟨rfl, hhead⟩)

/-- Callables that are alike go alike if bodies do, on the same arguments. -/
theorem Callable.perform_alike {run run' : List Stmt → Run H Flow}
    (hrun : ∀ body other, BodiesAlike body other →
      likeness.Runs (Shared (Flow.Satisfies likeness.occurs)) (run body) (run' other))
    {callable other : Callable H} {args : List Value}
    (hcallable : likeness.Callables callable other)
    (hargs : ∀ value ∈ args, likeness.occurs value) :
    likeness.Runs (Shared likeness.occurs) (callable.perform run args)
      (other.perform run' args) := by
  by_cases harity : args.length = callable.arity
  · have hnil : Shared likeness.occurs .nil .nil := ⟨rfl, likeness.plain _ fun h ↦ by cases h⟩
    cases hcallable with
    | print =>
      match args, harity with
      | [value], _ => exact (Likeness.Runs.print value.display).bind fun _ _ _ ↦ .pure hnil
    | range =>
      match args, harity with
      | [start, stop], _ =>
        refine (Likeness.Runs.ofExcept (Likeness.results_alike _)).bind ?_
        rintro start _ rfl
        refine (Likeness.Runs.ofExcept (Likeness.results_alike _)).bind ?_
        rintro stop _ rfl
        exact .pure ⟨rfl, likeness.plain _ fun h ↦ by cases h⟩
    | host hoffered =>
      rw [perform_host run harity, perform_host run' harity]
      exact .host hoffered hargs
    | @procedure definition definition' hname hparams hbody =>
      rw [perform_procedure run harity,
        perform_procedure run' (harity.trans (congrArg List.length hparams)), ← hparams]
      refine .call (Likeness.parameterScope_alike _ hargs) ((hrun _ _ hbody).bind ?_)
      rintro flow _ ⟨rfl, hflow⟩
      cases flow with
      | next => exact .pure hnil
      | returned value => exact .pure ⟨rfl, hflow⟩
  · rw [perform_of_ne run harity, perform_of_ne run' (hcallable.arity ▸ harity), hcallable.arity]
    exact .throw _

/-- Callables that are alike go alike with any amount of fuel. The induction is on the fuel, since a
body may call again. -/
theorem Callable.invoke_alike (fuel : Nat) (callable other : Callable H) (args : List Value)
    (hcallable : likeness.Callables callable other)
    (hargs : ∀ value ∈ args, likeness.occurs value) :
    likeness.Runs (Shared likeness.occurs) (callable.invoke fuel args)
      (other.invoke fuel args) := by
  induction fuel generalizing callable other args with
  | zero => exact perform_alike (fun _ _ _ ↦ .throw _) hcallable hargs
  | succ fuel ih =>
    refine perform_alike (fun body other hbody ↦ ?_) hcallable hargs
    obtain ⟨trimmed, htrims, halike⟩ := hbody
    rw [htrims.execAllWith_eq]
    exact execAllWith_alike ih fuel trimmed halike

/-- Fields that are alike get the same values. -/
theorem initializeFields_alike (fuel : Nat) {fields others : List Binding}
    (h : List.Forall₂ Binding.Alike fields others) :
    likeness.Runs Eq (initializeFields fuel fields) (initializeFields fuel others) := by
  induction h with
  | nil => exact .pure rfl
  | @cons head head' tail tail' hhead _ ih =>
    rw [initializeFields, initializeFields, ← hhead.name]
    refine (Binding.evalWith_alike (Callable.invoke_alike fuel) hhead).bind ?_
    rintro value _ ⟨rfl, hvalue⟩
    refine (Likeness.Runs.modify fun _ _ hstates ↦ hstates.declare head.name hvalue).bind ?_
    exact fun _ _ _ ↦ ih

/-- Methods that no call tells apart may be declared on both sides. -/
theorem Likeness.States.declareMethods {state state' : State H}
    (h : likeness.States state state') {methods others : List Method}
    (hmethods : List.Forall₂ Method.CallsAlike methods others) :
    likeness.States (state.declareMethods methods) (state'.declareMethods others) := by
  have hfold (module module' : ValueScope H) (hmodule : likeness.Scopes module module') :
      likeness.Scopes
        (methods.foldl (fun module method ↦ module.declareFunction method.name
          method.params.length (.procedure method.procedure)) module)
        (others.foldl (fun module method ↦ module.declareFunction method.name
          method.params.length (.procedure method.procedure)) module') := by
    induction hmethods generalizing module module' with
    | nil => exact hmodule
    | cons hhead _ ih =>
      refine ih _ _ ?_
      beta_reduce
      obtain ⟨hname, hparams, hbody⟩ := hhead
      rw [← hname, ← hparams]
      exact hmodule.declareFunction _ _ (.procedure hname hparams hbody)
  exact { h with module := hfold _ _ h.module }

/-- Programs come to ends that are alike if their fields are alike and their methods, once they are
declared, keep states alike. The modules of earlier programs do not matter. -/
theorem Program.run_ends (fuel : Nat) {program other : Program}
    (hfields : List.Forall₂ Binding.Alike program.fields other.fields)
    (hmethods : ∀ state state', likeness.States state state' →
      likeness.States (state.declareMethods program.methods)
        (state'.declareMethods other.methods))
    {state state' : State H}
    (hstates : likeness.States { state with module := {} } { state' with module := {} }) :
    likeness.Ends (Shared likeness.occurs) (program.run fuel state) (other.run fuel state') := by
  have hrest : likeness.Runs (Shared likeness.occurs)
      (do initializeFields fuel program.fields
          modify (·.declareMethods program.methods)
          let main ← Run.function "main" 0
          main.invoke fuel [])
      (do initializeFields fuel other.fields
          modify (·.declareMethods other.methods)
          let main ← Run.function "main" 0
          main.invoke fuel []) := by
    refine (initializeFields_alike fuel hfields).bind ?_
    rintro _ _ -
    refine (Likeness.Runs.modify hmethods).bind ?_
    rintro _ _ -
    refine (Likeness.Runs.function "main" 0).bind fun callable other hcallable ↦ ?_
    exact Callable.invoke_alike fuel callable other [] hcallable (List.forall_mem_nil _)
  exact hrest _ _ hstates

/-- Programs that differ in positions and annotations alone come to ends that are alike. -/
theorem Program.run_alike (fuel : Nat) {program other : Program} (h : program.Alike other)
    {state state' : State H}
    (hstates : likeness.States { state with module := {} } { state' with module := {} }) :
    likeness.Ends (Shared likeness.occurs) (program.run fuel state) (other.run fuel state') :=
  run_ends fuel h.fields (fun _ _ hstates ↦
    hstates.declareMethods (h.methods.imp fun _ _ ↦ Method.Alike.callsAlike)) hstates

end

end ScriptLang
