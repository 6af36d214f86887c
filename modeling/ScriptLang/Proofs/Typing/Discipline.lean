import ScriptLang.Execution.Program
import ScriptLang.Proofs.Correspondence
import ScriptLang.Proofs.Execution.Returning
import ScriptLang.Proofs.Execution.Worlds
import ScriptLang.Proofs.Typing.Inversion

/-!
States that agree with what the checker knows. A discipline says which types can occur, which values
fit a type, what the functions of the host are, and what is kept of its objects. What is known of
objects grows while programs run, so values and objects are looked at in a world, and what fits in a
world fits in all later ones. A state follows the scopes of the checker under a discipline when each
of its scopes has the same names as the checked one, with values that fit the types of their
variables and with functions that keep their signatures. A variable may be left without an initial
value, and a method without a return, where the discipline lets NIL fit the type.
-/

set_option autoImplicit false
set_option relaxedAutoImplicit false

namespace ScriptLang

section

variable {H W : Type} [Host H] [Preorder W] (fits : W → Ty → Value → Prop)
  (objects : W → ObjectStore H → Prop)

/-- A call of a function of the host, made in `world`, keeps the objects and gives a value that fits
its type, both in a world that may have grown. -/
def Host.KeepsIn (world : W) (body : H) (args : List Value) (store : ObjectStore H)
    (returns : Ty) : Prop :=
  ∃ later, world ≤ later ∧ objects later (Host.run body args store).2 ∧
    ∀ value, (Host.run body args store).1 = .ok value → fits later returns value

/-- Whether a function of the host gives what its signature promises. -/
def Callable.Answers (signature : Signature Ty) : Callable H → Prop
  | print => ∀ world, fits world signature.returns .nil
  | range => ∀ world start stop, fits world signature.returns (.range start stop)
  | host function => ∀ world store args, objects world store →
    List.Forall₂ (fits world) signature.params args →
    Host.KeepsIn fits objects world function.body args store signature.returns
  | procedure _ => False

end

/-- What is kept of types, values and objects while programs run that `context` admits. -/
structure Discipline (H : Type) [Host H] (context : TypeContext) where
  World : Type
  [order : Preorder World]
  admits : Ty → Prop
  fits : World → Ty → Value → Prop
  objects : World → ObjectStore H → Prop
  offers : String → Nat → Signature Ty → Callable H → Prop
  fits_later : ∀ {world later type value}, world ≤ later → fits world type value →
    fits later type value
  admits_plain : ∀ type : Ty, (∀ record, type ≠ .record record) → admits type
  admits_registered : ∀ name type, context.records.find? name = some type → admits type
  admits_field : ∀ (type : Ty) name found, admits type → type.field? name = some found →
    admits found.type
  admits_method : ∀ (type : Ty) name arity found, admits type →
    type.method? name arity = some found → found.arity = arity ∧ admits found.returns
  fits_field : ∀ {world store type ref name found value}, objects world store → admits type →
    fits world type (.object ref) → type.field? name = some found →
    store.field ref name = .ok value → fits world found.type value
  objects_setField : ∀ {world store store' type ref name found value}, objects world store →
    admits type → fits world type (.object ref) → type.field? name = some found →
    fits world found.type value → store.setField ref name value = .ok store' →
    objects world store'
  keeps_method : ∀ {world store type ref name arity found function args}, objects world store →
    admits type → fits world type (.object ref) → type.method? name arity = some found →
    store.method ref name arity = .ok function →
    List.Forall₂ (fits world) (found.params.drop 1) args →
    Host.KeepsIn fits objects world function.body (.object ref :: args) store found.returns
  blank : Ty → Prop
  fits_blank : ∀ world type, blank type → fits world type .nil
  fits_literal : ∀ world (literal : Literal) type offset, literal.type offset = .ok type →
    fits world type literal.value
  fits_integer : ∀ world n, fits world .integer (.integer n)
  fits_boolean : ∀ world value, fits world .boolean (.boolean value)
  fits_assignable : ∀ world (target source : Ty) value, target.assignable source = true →
    fits world source value → fits world target value
  fits_operator : ∀ world (op : BinaryOp) left right offsets type first second value,
    op.type left right offsets = .ok type → op.shortcut? = none →
    fits world left first → fits world right second → op.apply first second = .ok value →
    fits world type value
  offers_arity : ∀ name arity signature callable, offers name arity signature callable →
    signature.arity = arity ∧ callable.arity = arity ∧ admits signature.returns
  offers_answers : ∀ name arity signature callable, offers name arity signature callable →
    callable.Answers fits objects signature

attribute [instance] Discipline.order

/-- A method of a module all of whose bodies are accepted, as a name of that module stands for
it. -/
inductive Provides {H : Type} (context : TypeContext) (methods : List Method) (module : TypeScope) :
    String → Nat → Signature Ty → Callable H → Prop
  | intro {method signature} (hmethod : method ∈ methods)
    (hsignature : method.signature context = .ok signature)
    (harity : signature.arity = method.params.length)
    (hfound : module.function? method.name method.params.length = some signature)
    (hcheck : method.check context module = .ok ()) :
    Provides context methods module method.name method.params.length signature
      (.procedure method.procedure)

/-- What a name of the module stands for is one of its methods. -/
theorem Provides.exists_method {H : Type} {context : TypeContext} {methods : List Method}
    {module : TypeScope} {name : String} {arity : Nat} {signature : Signature Ty}
    {callable : Callable H} (h : Provides context methods module name arity signature callable) :
    ∃ method ∈ methods, method.signature context = .ok signature ∧
      module.function? name arity = some signature ∧ method.check context module = .ok () ∧
      callable = .procedure method.procedure := by
  cases h with
  | intro hmethod hsignature _ hfound hcheck =>
    exact ⟨_, hmethod, hsignature, hfound, hcheck, rfl⟩

namespace Discipline

variable {H : Type} [Host H] {context : TypeContext} (discipline : Discipline H context)

/-- A variable of the checker and its value in a run. -/
def Holds (world : discipline.World) (known : Variable Ty) (value : Value) : Prop :=
  discipline.admits known.type ∧ discipline.fits world known.type value

/-- A declaration has a value, or its variable may be blank. -/
def Settles (binding : Binding) : Prop :=
  binding.value = none → ∀ name type, binding.typeName = some name →
    context.type? name = some type → discipline.blank type

/-- A method always returns, or its result may be blank, and its body declares no variable that has
to have a value without one. -/
structure SettlesMethod (method : Method) : Prop where
  declarations : ∀ binding ∈ blockDeclarations method.body, discipline.Settles binding
  result : ∀ signature, method.signature context = .ok signature →
    discipline.blank signature.returns ∨ blockAlwaysReturns method.body = true

variable (methods : List Method) (module : TypeScope)

/-- What a name in call position stands for, in a run and with its checked signature. -/
def Calls (name : String) (arity : Nat) (signature : Signature Ty) (callable : Callable H) : Prop :=
  Provides context methods module name arity signature callable ∨
    discipline.offers name arity signature callable

/-- A scope of a block or call follows a checked one; such scopes have no functions. -/
abbrev FollowsLocal (world : discipline.World) : TypeScope → ValueScope H → Prop :=
  Scope.Follows (discipline.Holds world) fun _ _ _ _ ↦ False

/-- The state of a run follows the checked scopes: `locals` of the current call, and the module. -/
structure Follows (locals : TypeChain) (world : discipline.World) (state : State H) : Prop where
  locals : List.Forall₂ (discipline.FollowsLocal world) locals state.locals
  module : Scope.Follows (discipline.Holds world) (Provides context methods module) module
    state.module
  globals : Scope.Follows (discipline.Holds world) discipline.offers context.globals state.globals
  objects : discipline.objects world state.objects
  settled : ∀ method ∈ methods, discipline.SettlesMethod method

variable {discipline methods module}

/-- A value that fits a type fits it in every later world. -/
theorem Holds.later {world later : discipline.World} (hlater : world ≤ later)
    {known : Variable Ty} {value : Value} (h : discipline.Holds world known value) :
    discipline.Holds later known value :=
  ⟨h.1, discipline.fits_later hlater h.2⟩

/-- Scopes that hold their types do so in every later world. -/
theorem follows_later {world later : discipline.World} (hlater : world ≤ later)
    {functions : String → Nat → Signature Ty → Callable H → Prop} {static : TypeScope}
    {dynamic : ValueScope H}
    (h : Scope.Follows (discipline.Holds world) functions static dynamic) :
    Scope.Follows (discipline.Holds later) functions static dynamic :=
  h.imp_vars fun _ _ _ _ hholds ↦ hholds.later hlater

/-- Where every type takes NIL, nothing is asked of declarations and methods. -/
theorem settles_of_blank (hblank : ∀ type, discipline.blank type) (binding : Binding) :
    discipline.Settles binding :=
  fun _ _ type _ _ ↦ hblank type

/-- Where a declaration without a value may leave NIL behind, every method is settled. -/
theorem settlesMethod_of_blank (hblank : ∀ type, discipline.blank type) (method : Method) :
    discipline.SettlesMethod method :=
  ⟨fun binding _ ↦ settles_of_blank hblank binding,
    fun signature _ ↦ .inl (hblank signature.returns)⟩

/-- Every type that can be named is admitted. -/
theorem admits_type? {name : String} {type : Ty} (htype : context.type? name = some type) :
    discipline.admits type := by
  unfold TypeContext.type? at htype
  cases hbuiltin : Ty.builtin? name with
  | some found =>
    rw [hbuiltin] at htype
    cases htype
    refine discipline.admits_plain _ fun record hrecord ↦ ?_
    have hmem := List.mem_of_find?_eq_some hbuiltin
    rw [hrecord] at hmem
    simp [Ty.builtins] at hmem
  | none =>
    rw [hbuiltin] at htype
    exact discipline.admits_registered name type htype

theorem admits_literal {literal : Literal} {type : Ty} {offset : Nat}
    (htype : literal.type offset = .ok type) : discipline.admits type :=
  discipline.admits_plain _ (Literal.type_plain htype)

theorem admits_operator {op : BinaryOp} {left right type : Ty} {offsets : OperandOffsets}
    (htype : op.type left right offsets = .ok type) : discipline.admits type :=
  discipline.admits_plain _ (BinaryOp.type_plain htype)

/-- A callable and its signature take as many arguments as the call was looked up by. -/
theorem Calls.arity {name : String} {arity : Nat} {signature : Signature Ty} {callable : Callable H}
    (h : discipline.Calls methods module name arity signature callable) :
    signature.arity = arity ∧ callable.arity = arity := by
  cases h with
  | inl hprovides =>
    cases hprovides with
    | intro _ _ harity _ _ => exact ⟨harity, rfl⟩
  | inr hoffers =>
    obtain ⟨hsignature, hcallable, -⟩ := discipline.offers_arity _ _ _ _ hoffers
    exact ⟨hsignature, hcallable⟩

/-- The types of a signature are admitted. -/
theorem admits_signature {method : Method} {signature : Signature Ty}
    (hsignature : method.signature context = .ok signature) :
    (∀ type ∈ signature.params, discipline.admits type) ∧ discipline.admits signature.returns := by
  constructor
  · intro type htype
    obtain ⟨name, hwritten⟩ := Method.signature_param hsignature htype
    exact admits_type? hwritten
  · obtain ⟨-, -, ⟨-, hreturns⟩ | ⟨name, -, hreturns⟩⟩ := Method.signature_eq_ok.mp hsignature
    · exact discipline.admits_plain _ fun _ h ↦ by rw [hreturns] at h; cases h
    · exact admits_type? hreturns

namespace Follows

variable {world later : discipline.World} {locals : TypeChain} {here : TypeScope}
  {state after : State H}

/-- The scopes in sight hold their types one by one, down to that of the host. -/
theorem chain (h : discipline.Follows methods module locals world state) :
    List.Forall₂ (Scope.Follows (discipline.Holds world) (discipline.Calls methods module))
      (locals ++ [module, context.globals]) state.chain := by
  refine List.rel_append (h.locals.imp fun _ _ hscope ↦ ?_) (.cons ?_ (.cons ?_ .nil))
  · exact hscope.mono fun _ _ _ _ _ hfalse ↦ hfalse.elim
  · exact h.module.mono fun _ _ _ _ _ hprovides ↦ .inl hprovides
  · exact h.globals.mono fun _ _ _ _ _ hoffers ↦ .inr hoffers

/-- A variable of the checker has a value that fits its type. -/
theorem lookup (h : discipline.Follows methods module locals world state) {name : String}
    {found : Variable Ty}
    (hfound : Chain.lookup? (locals ++ [module, context.globals]) name = some found) :
    ∃ value, state.chain.lookup? name = some value ∧ discipline.Holds world found value :=
  option_rel_of_some (hfound ▸ Chain.rel_lookup? h.chain name)

/-- A function of the checker stands for a callable that keeps its signature. -/
theorem callee (h : discipline.Follows methods module locals world state) {name : String}
    {arity : Nat}
    {found : Signature Ty}
    (hfound : Chain.function? (locals ++ [module, context.globals]) name arity = some found) :
    ∃ callable, state.chain.function? name arity = some callable ∧
      discipline.Calls methods module name arity found callable :=
  option_rel_of_some (hfound ▸ Chain.rel_function? h.chain name arity)

/-- A value that fits may be assigned to a variable, and the scopes hold their types as before. -/
theorem assign (h : discipline.Follows methods module locals world state) {name : String}
    {found : Variable Ty} {value : Value}
    (hfound : Chain.lookup? (locals ++ [module, context.globals]) name = some found)
    (hfits : discipline.Holds world found value) :
    ∃ after, state.assign? name value = some after ∧
      discipline.Follows methods module locals world after := by
  rw [Chain.lookup?_append] at hfound
  unfold State.assign?
  cases hlocal : Chain.lookup? locals name with
  | some inner =>
    rw [hlocal] at hfound
    cases hfound
    obtain ⟨changed, hchanged, hfollows⟩ := Chain.assign?_of_some h.locals hlocal hfits
    rw [hchanged]
    exact ⟨_, rfl, hfollows, h.module, h.globals, h.objects, h.settled⟩
  | none =>
    rw [hlocal, Option.none_or, Chain.lookup?_cons] at hfound
    rw [Chain.assign?_of_none h.locals hlocal value]
    cases hmodule : module.lookup? name with
    | some inner =>
      rw [hmodule] at hfound
      cases hfound
      obtain ⟨changed, hchanged, hfollows⟩ := h.module.assign? hmodule hfits
      simp only [hchanged]
      exact ⟨_, rfl, h.locals, hfollows, h.globals, h.objects, h.settled⟩
    | none =>
      rw [hmodule, Option.none_or, Chain.lookup?_cons] at hfound
      have hglobal : context.globals.lookup? name = some found := by
        cases hfind : context.globals.lookup? name <;> rw [hfind] at hfound
        · cases hfound
        · exact hfound
      obtain ⟨changed, hchanged, hfollows⟩ := h.globals.assign? hglobal hfits
      simp only [h.module.assign?_eq_none hmodule, hchanged]
      exact ⟨_, rfl, h.locals, h.module, hfollows, h.objects, h.settled⟩

/-- A value that fits may be declared on both sides. -/
theorem declare (h : discipline.Follows methods module (here :: locals) world state) (name : String)
    {type : Ty} {value : Value} (hfits : discipline.Holds world ⟨name, type⟩ value) :
    discipline.Follows methods module (here.declare name ⟨name, type⟩ :: locals) world
      (state.declare name value) := by
  have hlocals := h.locals
  unfold State.declare
  cases hstate : state.locals with
  | nil =>
    rw [hstate] at hlocals
    cases hlocals
  | cons scope outer =>
    rw [hstate] at hlocals
    cases hlocals with
    | cons hscope houter =>
      exact ⟨.cons (hscope.declare name hfits) houter, h.module, h.globals, h.objects, h.settled⟩

theorem enterBlock (h : discipline.Follows methods module locals world state) {scope : ValueScope H}
    (hscope : discipline.FollowsLocal world here scope) :
    discipline.Follows methods module (here :: locals) world (state.enterBlock scope) :=
  ⟨.cons hscope h.locals, h.module, h.globals, h.objects, h.settled⟩

/-- A block is left on both sides. -/
theorem leaveBlock (h : discipline.Follows methods module (here :: locals) world state) :
    discipline.Follows methods module locals world state.leaveBlock := by
  have hlocals := h.locals
  refine ⟨?_, h.module, h.globals, h.objects, h.settled⟩
  unfold State.leaveBlock
  cases hstate : state.locals with
  | nil =>
    rw [hstate] at hlocals
    cases hlocals
  | cons scope outer =>
    rw [hstate] at hlocals
    cases hlocals with
    | cons _ houter => exact houter

theorem enterCall (h : discipline.Follows methods module locals world state) {scope : ValueScope H}
    (hscope : discipline.FollowsLocal world here scope) :
    discipline.Follows methods module [here] world (state.enterCall scope) :=
  ⟨.cons hscope .nil, h.module, h.globals, h.objects, h.settled⟩

/-- What was known of scopes is known in all later worlds. -/
theorem inLater (h : discipline.Follows methods module locals world state) (hlater : world ≤ later)
    {objects : ObjectStore H} (hobjects : discipline.objects later objects) :
    discipline.Follows methods module locals later { state with objects } where
  locals := h.locals.imp fun _ _ ↦ follows_later hlater
  module := follows_later hlater h.module
  globals := follows_later hlater h.globals
  objects := hobjects
  settled := h.settled

/-- The scopes of the caller follow again when a call is left that kept them. -/
theorem leaveCall {inner : TypeChain} (h : discipline.Follows methods module locals world state)
    (hlater : world ≤ later) (hafter : discipline.Follows methods module inner later after)
    (hsuspended : after.suspended = state.locals :: state.suspended) :
    discipline.Follows methods module locals later after.leaveCall := by
  refine ⟨?_, hafter.module, hafter.globals, hafter.objects, h.settled⟩
  unfold State.leaveCall
  rw [hsuspended]
  exact (h.inLater hlater hafter.objects).locals

theorem withSink (h : discipline.Follows methods module locals world state) (sink : Sink) :
    discipline.Follows methods module locals world { state with sink } :=
  ⟨h.locals, h.module, h.globals, h.objects, h.settled⟩

end Follows

/-! ### The scopes that loops and calls begin with -/

section

variable {world : discipline.World}

/-- Parameters and arguments that fit make a scope that holds its types. -/
theorem followsLocal_params {offset : Nat} {params : List String} {types : List Ty}
    {args : List Value} (hargs : List.Forall₂ (discipline.fits world) types args)
    (hadmits : ∀ type ∈ types, discipline.admits type) {start here : TypeScope}
    {scope : ValueScope H} (hstart : discipline.FollowsLocal world start scope)
    (hhere : declareParams offset start (params.zip types) = .ok here) :
    discipline.FollowsLocal world here
      ((params.zip args).foldl (fun scope (name, value) ↦ scope.declare name value) scope) := by
  induction hargs generalizing params start scope with
  | nil =>
    rw [List.zip_nil_right] at hhere ⊢
    cases hhere
    exact hstart
  | @cons type value types args hfits _ ih =>
    match params with
    | [] =>
      cases hhere
      exact hstart
    | name :: params =>
      obtain ⟨behind, hbehind, hrest⟩ := except_bind_eq_ok.mp hhere
      obtain ⟨-, rfl⟩ := TypeScope.add_eq_ok.mp hbehind
      rw [List.forall_mem_cons] at hadmits
      exact ih hadmits.2 (hstart.declare name ⟨hadmits.1, hfits⟩) hrest

/-- The scope of a round of a loop over a range follows the checked one. -/
theorem followsLocal_item (name : String) (item : Int) :
    discipline.FollowsLocal world (Scope.declare {} name ⟨name, .integer⟩)
      (Scope.declare {} name (.integer item)) :=
  Scope.Follows.empty.declare name
    ⟨discipline.admits_plain _ fun _ h ↦ (by cases h), discipline.fits_integer world item⟩

/-- The parameters of a call follow the scope that the checker begins the body with. -/
theorem followsLocal_parameterScope {method : Method} {signature : Signature Ty} {here : TypeScope}
    {args : List Value} (hsignature : method.signature context = .ok signature)
    (hscope : method.scope signature = .ok here)
    (hargs : List.Forall₂ (discipline.fits world) signature.params args) :
    discipline.FollowsLocal world here (Callable.parameterScope method.params args) :=
  followsLocal_params hargs (admits_signature hsignature).1 .empty hscope

end

end Discipline

end ScriptLang
