import ScriptLang.Proofs.Typing.Site

/-!
A run of an accepted program keeps in step with its check. Whenever the run comes to a node, the
node has a site, and the state follows the scopes of that site; the suspended calls follow the
sites at which they wait. The proof goes along the run, from each moment to the next one.
-/

set_option autoImplicit false
set_option relaxedAutoImplicit false

namespace ScriptLang

/-- The module as it is visible on the way from a root: the initial value of a field sees no
methods. -/
def Root.Sees (context : TypeContext) (program : Program) (module : TypeScope) : Root → Prop
  | .field _ => module.Plain
  | .entry | .statement .. => program.module? context = some module

namespace Discipline

variable {H : Type} [Host H] {context : TypeContext} (discipline : Discipline H context)
  (program : Program)

/-- The declarations inside of a node have values, or their variables may be blank. -/
def SettlesNode : Node → Prop
  | .expr _ => True
  | .stmt statement => ∀ binding ∈ statement.declarations, discipline.Settles binding

/-- The scopes of a call follow those that the checker has at `place`. -/
def FollowsAt (module : TypeScope) (world : discipline.World) (place : Place)
    (chain : ValueChain H) : Prop :=
  ∃ site locals, program.site? context place = some site ∧
    site.scopes = locals ++ [module, context.globals] ∧
    List.Forall₂ (discipline.FollowsLocal world) locals chain

/-- The state of a moment follows the scopes `locals` and `module` of the site of its node. -/
structure Agrees (moment : Moment H) (site : Site) (locals : TypeChain) (module : TypeScope)
    (world : discipline.World) : Prop where
  found : program.site? context moment.place = some site
  node : site.node = moment.node
  scopes : site.scopes = locals ++ [module, context.globals]
  sees : moment.place.root.Sees context program module
  settled : discipline.SettlesNode moment.node
  follows : discipline.Follows program.methods module locals world moment.state
  callers : List.Forall₂ (discipline.FollowsAt program module world) moment.callers
    moment.state.suspended

/-- A moment at which a run that began in `world` is in step with the check. -/
def InStep (world : discipline.World) (moment : Moment H) : Prop :=
  ∃ site locals module later, world ≤ later ∧
    discipline.Agrees program moment site locals module later

variable {discipline program}

/-- The calls that wait agree with the checker in every later world. -/
theorem callers_later {world later : discipline.World} (hlater : world ≤ later) {module : TypeScope}
    {callers : List Place} {suspended : List (ValueChain H)}
    (h : List.Forall₂ (discipline.FollowsAt program module world) callers suspended) :
    List.Forall₂ (discipline.FollowsAt program module later) callers suspended :=
  h.imp fun _ _ ⟨site, locals, hfound, hscopes, hlocals⟩ ↦
    ⟨site, locals, hfound, hscopes, hlocals.imp fun _ _ ↦ follows_later hlater⟩

end Discipline

section

variable {H : Type} [Host H] {fuel : Nat}

theorem evalArgs_moves (args : List Expr) :
    (evalArgs fuel args : Run H (List Value)).Moves State.SameFrames :=
  evalArgsWith_moves (Callable.invoke_moves fuel) args

theorem execAll_moves (statements : List Stmt) :
    (execAll fuel statements : Run H Flow).Moves State.SameCallers :=
  execAllWith_moves (Callable.invoke_moves fuel) fuel statements

theorem Expr.holds_moves (condition : Expr) :
    (condition.holds fuel : Run H Bool).Moves State.SameCallers :=
  condition.conditionWith_moves (Callable.invoke_moves fuel)

theorem roundOf_moves (name : String) (body : List Stmt) (item : Int) :
    (roundOf fuel name body item : Run H Flow).Moves State.SameCallers :=
  Run.block_moves _ (execAll_moves body)

/-- The turns of a loop change no call that waits. -/
theorem Round.suspended {condition : Expr} {body : List Stmt} {state after : State H}
    (h : Relation.ReflTransGen (Round fuel condition body) state after) :
    after.suspended = state.suspended := by
  induction h with
  | refl => rfl
  | tail _ hround ih =>
    obtain ⟨middle, hcondition, hbody⟩ := hround
    have hmiddle := ((condition.holds_moves _).ok hcondition).suspended
    have hafter := ((Run.block_moves {} (execAll_moves body) _).ok hbody).suspended
    rw [hafter, hmiddle, ih]

/-- On the way to a part of a node, no call is left or entered for good. -/
theorem Demands.suspended {node part : Node} {turn : Turn} {state after : State H}
    (h : Demands fuel node state turn part after) : after.suspended = state.suspended := by
  cases h with
  | inner | left | memberReceiver | invokeReceiver | statementValue | initialValue | assigned
  | branchCondition | iterable | returned => rfl
  | right _ hleft | undecided _ hleft _ => exact ((Expr.eval_moves _ _ _).ok hleft).suspended
  | callArg hbefore _ => exact ((evalArgs_moves _ _).ok hbefore).suspended
  | invokeArg hreceiver hbefore _ =>
    rw [((evalArgs_moves _ _).ok hbefore).suspended,
      ((Expr.eval_moves _ _ _).ok hreceiver).suspended]
  | target _ hvalue => exact ((Expr.eval_moves _ _ _).ok hvalue).suspended
  | thenBody hcondition hbefore _ | elseBody hcondition hbefore _ =>
    rw [((execAll_moves _ _).ok hbefore).suspended]
    exact ((Expr.holds_moves _ _).ok hcondition).suspended
  | rangeBody hiterable _ hrounds hbefore _ =>
    rw [((execAll_moves _ _).ok hbefore).suspended]
    have hbegin := ((Run.forRange_moves (roundOf_moves _ _) _ _ _).ok hrounds).suspended
    exact hbegin.trans ((Expr.eval_moves _ _ _).ok hiterable).suspended
  | loopCondition hrounds => exact Round.suspended hrounds
  | loopBody hrounds hcondition hbefore _ =>
    rw [((execAll_moves _ _).ok hbefore).suspended]
    exact ((Expr.holds_moves _ _).ok hcondition).suspended.trans (Round.suspended hrounds)

end

/-! ### From a node to its parts -/

section

variable {H : Type} [Host H] {context : TypeContext} {discipline : Discipline H context}
  {methods : List Method} {module : TypeScope} {fuel : Nat} {locals : TypeChain}
  {world : discipline.World} {state after : State H} {site : Site}

open Discipline

/-- An expression that has a type gives a value that fits it, and the state it leaves is followed as
before. -/
theorem Expr.eval_gives {expr : Expr} {type : Ty} {value : Value}
    (hstate : discipline.Follows methods module locals world state)
    (htype : expr.infer (locals ++ [module, context.globals]) = .ok type)
    (heval : expr.eval fuel state = .ok value after) :
    ∃ later, world ≤ later ∧ discipline.Gives methods module locals type later value after :=
  Run.Ensures.ok (expr.evalWith_gives (Callable.invoke_serves fuel) hstate htype) heval

/-- An expression that fits a target gives a value that fits it. -/
theorem Expr.eval_fits {expr : Expr} {target : Ty} {value : Value}
    (hstate : discipline.Follows methods module locals world state)
    (hcheck : expr.checkAs (locals ++ [module, context.globals]) target = .ok ())
    (heval : expr.eval fuel state = .ok value after) :
    ∃ later, world ≤ later ∧ discipline.fits later target value ∧
      discipline.Follows methods module locals later after :=
  Run.Ensures.ok (Expr.evalWith_fits (Callable.invoke_serves fuel) hstate hcheck) heval

/-- The first arguments of an accepted call give values for the first parameters. -/
theorem evalArgs_take_follows {args : List Expr} {params : List Ty} {count : Nat}
    {values : List Value} (hstate : discipline.Follows methods module locals world state)
    (hargs : checkArgs (locals ++ [module, context.globals]) args params = .ok ())
    (hcount : params.length = args.length)
    (heval : evalArgs fuel (args.take count) state = .ok values after) :
    ∃ later, world ≤ later ∧ discipline.Follows methods module locals later after := by
  have hlength : (params.take count).length = (args.take count).length := by
    rw [List.length_take, List.length_take, hcount]
  obtain ⟨later, hlater, -, hafter⟩ := Run.Ensures.ok (evalArgsWith_fits
    (Callable.invoke_serves fuel) (args.take count) hstate (checkArgs_take count hargs) hlength)
    heval
  exact ⟨later, hlater, hafter⟩

/-- Where the checker finds a function for a call, its arguments fit the parameters, and a run finds
what the function stands for. -/
theorem Discipline.Follows.callArgs {name : String} {args : List Expr} {found : Signature Ty}
    {values : List Value} (hstate : discipline.Follows methods module locals world state)
    (hfound : Chain.function? (locals ++ [module, context.globals]) name args.length = some found)
    (hargs : checkArgs (locals ++ [module, context.globals]) args found.params = .ok ())
    (heval : evalArgs fuel args state = .ok values after) :
    values.length = args.length ∧ ∃ later, world ≤ later ∧
      List.Forall₂ (discipline.fits later) found.params values ∧
      discipline.Follows methods module locals later after ∧
      ∃ callable, after.chain.function? name args.length = some callable ∧
        discipline.Calls methods module name args.length found callable := by
  have hcount : found.params.length = args.length := by
    obtain ⟨callable, -, hcalls⟩ := hstate.callee hfound
    exact hcalls.arity.1
  obtain ⟨later, hlater, hfits, hafter⟩ := Run.Ensures.ok
    (evalArgsWith_fits (Callable.invoke_serves fuel) args hstate hargs hcount) heval
  exact ⟨by rw [← hcount, hfits.length_eq], later, hlater, hfits, hafter, hafter.callee hfound⟩

/-- A condition that is accepted gives a Boolean, and the state it leaves is followed as before. -/
theorem Expr.holds_follows {condition : Expr} {holds : Bool}
    (hstate : discipline.Follows methods module locals world state)
    (hcheck : condition.checkAs (locals ++ [module, context.globals]) .boolean = .ok ())
    (hholds : condition.holds fuel state = .ok holds after) :
    ∃ later, world ≤ later ∧ discipline.Follows methods module locals later after :=
  Run.Ensures.ok (Expr.conditionWith_follows (Callable.invoke_serves fuel) hstate hcheck) hholds

/-- A block of accepted statements, run up to one of them, leaves the scope in which the checker
meets that one. -/
theorem execAll_inBlock {scopes : TypeChain} {start : TypeScope} {body : List Stmt}
    {returns : Ty} {index : Nat} {statement : Stmt}
    (hscopes : scopes = locals ++ [module, context.globals])
    (hcheck : checkBlock context returns scopes start body = .ok ())
    (hsettled : ∀ binding ∈ blockDeclarations body, discipline.Settles binding)
    (hstate : discipline.Follows methods module (start :: locals) world state)
    (hbefore : execAll fuel (body.take index) state = .ok .next after)
    (hstatement : body[index]? = some statement) :
    ∃ next inner later, world ≤ later ∧
      Site.inBlock context scopes returns start body index = some next ∧
      next.node = .stmt statement ∧ next.scopes = inner ++ [module, context.globals] ∧
      discipline.SettlesNode (.stmt statement) ∧
      discipline.Follows methods module inner later after := by
  subst hscopes
  have hpart {part : List Stmt} (hpart : part ⊆ body) :
      ∀ binding ∈ blockDeclarations part, discipline.Settles binding := by
    intro binding hbinding
    obtain ⟨other, hother, hmem⟩ := mem_blockDeclarations.mp hbinding
    exact hsettled binding (mem_blockDeclarations.mpr ⟨other, hpart hother, hmem⟩)
  obtain ⟨behind, hbehind⟩ := checkBlock_eq_ok.mp hcheck
  obtain ⟨here, -, hhere, -⟩ := scopeBehind_getElem? hbehind hstatement
  obtain ⟨later, hlater, -, hafter⟩ := Run.Ensures.ok (execAllWith_leaves
    (Callable.invoke_serves fuel) fuel (body.take index) (hpart (List.take_subset index body)) hhere
    hstate) hbefore
  exact ⟨_, here :: locals, later, hlater,
    Site.inBlock_eq_some.mpr ⟨statement, here, hstatement, hhere, rfl⟩, rfl, rfl,
    fun binding hbinding ↦ hsettled binding (mem_blockDeclarations.mpr
      ⟨statement, List.mem_of_getElem? hstatement, hbinding⟩), hafter⟩

/-- A block that is accepted keeps the scopes of its caller followed. -/
theorem block_keeps {scopes : TypeChain} {start : TypeScope} {scope : ValueScope H}
    {body : List Stmt} {returns : Ty} (hscopes : scopes = locals ++ [module, context.globals])
    (hcheck : checkBlock context returns scopes start body = .ok ())
    (hsettled : ∀ binding ∈ blockDeclarations body, discipline.Settles binding)
    (hstate : discipline.Follows methods module locals world state)
    (hscope : discipline.FollowsLocal world start scope) :
    (Run.block scope (execAll fuel body)).EnsuresIn world state
      (fun later flow after ↦ flow.Satisfies (discipline.fits later returns) ∧
        discipline.Follows methods module locals later after)
      (discipline.Follows methods module locals) := by
  subst hscopes
  exact Run.block_follows (execAllWith_leaves (Callable.invoke_serves fuel) fuel body hsettled)
    hcheck hscope hstate

/-- Every turn of a loop begins in a state that the scopes of the loop follow. -/
theorem Round.follows {scopes : TypeChain} {condition : Expr} {body : List Stmt} {returns : Ty}
    (hscopes : scopes = locals ++ [module, context.globals])
    (hcondition : condition.checkAs (locals ++ [module, context.globals]) .boolean = .ok ())
    (hbody : checkBlock context returns scopes {} body = .ok ())
    (hsettled : ∀ binding ∈ blockDeclarations body, discipline.Settles binding)
    (hstate : discipline.Follows methods module locals world state)
    (hrounds : Relation.ReflTransGen (Round fuel condition body) state after) :
    ∃ later, world ≤ later ∧ discipline.Follows methods module locals later after := by
  induction hrounds with
  | refl => exact ⟨world, le_refl world, hstate⟩
  | tail _ hround ih =>
    obtain ⟨before, hbefore, hfollows⟩ := ih
    obtain ⟨middle, hholds, hblock⟩ := hround
    obtain ⟨reached, hreached, hmiddle⟩ := Expr.holds_follows hfollows hcondition hholds
    obtain ⟨later, hlater, -, hafter⟩ :=
      Run.Ensures.ok (block_keeps hscopes hbody hsettled hmiddle .empty) hblock
    exact ⟨later, le_trans hbefore (le_trans hreached hlater), hafter⟩

/-- An argument that a run comes to has a site behind the arguments before it. -/
theorem evalArgs_inCall {params : List Ty} {args : List Expr} {index : Nat} {arg : Expr}
    {values : List Value} (site : Site)
    (hstate : discipline.Follows methods module locals world state)
    (hargs : checkArgs (locals ++ [module, context.globals]) args params = .ok ())
    (hcount : params.length = args.length) (harg : args[index]? = some arg)
    (hbefore : evalArgs fuel (args.take index) state = .ok values after) :
    site.arg? params args index = some (site.withExpr arg) ∧
      ∃ later, world ≤ later ∧ discipline.Follows methods module locals later after := by
  have hindex : index < params.length := hcount ▸ (List.getElem?_eq_some_iff.mp harg).1
  exact ⟨Site.arg?_eq_some.mpr ⟨arg, hindex, harg, rfl⟩,
    evalArgs_take_follows hstate hargs hcount hbefore⟩

/-- A block that is entered in a world that has grown is entered later than the node around it. -/
theorem execAll_inBlock_later {scopes : TypeChain} {start : TypeScope} {body : List Stmt}
    {returns : Ty} {index : Nat} {statement : Stmt} {middle : discipline.World}
    (hmiddle : world ≤ middle) (hscopes : scopes = locals ++ [module, context.globals])
    (hcheck : checkBlock context returns scopes start body = .ok ())
    (hsettled : ∀ binding ∈ blockDeclarations body, discipline.Settles binding)
    (hstate : discipline.Follows methods module (start :: locals) middle state)
    (hbefore : execAll fuel (body.take index) state = .ok .next after)
    (hstatement : body[index]? = some statement) :
    ∃ next inner later, world ≤ later ∧
      Site.inBlock context scopes returns start body index = some next ∧
      next.node = .stmt statement ∧ next.scopes = inner ++ [module, context.globals] ∧
      discipline.SettlesNode (.stmt statement) ∧
      discipline.Follows methods module inner later after := by
  obtain ⟨next, inner, later, hlater, h⟩ :=
    execAll_inBlock hscopes hcheck hsettled hstate hbefore hstatement
  exact ⟨next, inner, later, le_trans hmiddle hlater, h⟩

/-- The part of an accepted node that a run comes to has a site, whose scopes are followed. -/
theorem Demands.follows {part : Node} {turn : Turn} (haccepted : site.Accepted context)
    (hscopes : site.scopes = locals ++ [module, context.globals])
    (hsettled : discipline.SettlesNode site.node)
    (hstate : discipline.Follows methods module locals world state)
    (hdemands : Demands fuel site.node state turn part after) :
    ∃ next inner later, world ≤ later ∧ site.part? context turn = some next ∧ next.node = part ∧
      next.scopes = inner ++ [module, context.globals] ∧ discipline.SettlesNode part ∧
      discipline.Follows methods module inner later after := by
  obtain ⟨node, here, outer, returns⟩ := site
  change Demands fuel node state turn part after at hdemands
  change discipline.SettlesNode node at hsettled
  cases hdemands with
  -- The parts that come first are met in the state of the node itself.
  | inner | left | memberReceiver | invokeReceiver | statementValue | assigned | branchCondition
  | iterable | returned =>
    exact ⟨_, locals, world, le_refl world, rfl, rfl, hscopes, trivial, hstate⟩
  | @initialValue binding value _ hvalue =>
    exact ⟨⟨.expr value, here, outer, returns⟩, locals, world, le_refl world,
      Option.map_eq_some_iff.mpr ⟨value, hvalue, rfl⟩, rfl, hscopes, trivial, hstate⟩
  | right hop hleft | undecided hop hleft _ =>
    obtain ⟨type, htype⟩ := haccepted
    obtain ⟨leftType, rightType, hinfer, -, -⟩ := Expr.infer_binary.mp htype
    rw [hscopes] at hinfer
    obtain ⟨later, hlater, hgives⟩ := Expr.eval_gives hstate hinfer hleft
    exact ⟨_, locals, later, hlater, rfl, rfl, hscopes, trivial, hgives.2⟩
  | @callArg mark name args resolved _ values after index arg hbefore harg =>
    obtain ⟨type, htype⟩ := haccepted
    obtain ⟨found, hfound, hargs, -⟩ := Expr.infer_call.mp htype
    rw [hscopes] at hfound hargs
    obtain ⟨callable, -, hcalls⟩ := hstate.callee hfound
    obtain ⟨hpart, later, hlater, hafter⟩ := evalArgs_inCall
      ⟨.expr (.call mark name args resolved), here, outer, returns⟩ hstate hargs hcalls.arity.1 harg
      hbefore
    exact ⟨_, locals, later, hlater, Option.bind_eq_some_iff.mpr ⟨found, hscopes ▸ hfound, hpart⟩,
      rfl, hscopes, trivial, hafter⟩
  | @invokeArg mark receiver name args resolved _ object middle values after index arg hreceiver
      hbefore harg =>
    obtain ⟨type, htype⟩ := haccepted
    obtain ⟨receiverType, found, hinfer, hfound, hargs, -⟩ := Expr.infer_invoke.mp htype
    have hknown := hinfer
    rw [hscopes] at hinfer hargs
    obtain ⟨reached, hreached, hobject⟩ := Expr.eval_gives hstate hinfer hreceiver
    -- The first parameter of a method is the object, which is no argument.
    have harity := (discipline.admits_method _ _ _ _ hobject.1.1 hfound).1
    have hcount : (found.params.drop 1).length = args.length := by
      rw [List.length_drop, show found.params.length = args.length + 1 from harity]
      rfl
    obtain ⟨hpart, later, hlater, hafter⟩ := evalArgs_inCall
      ⟨.expr (.invoke mark receiver name args resolved), here, outer, returns⟩ hobject.2 hargs
      hcount
      harg hbefore
    refine ⟨⟨.expr arg, here, outer, returns⟩, locals, later, le_trans hreached hlater, ?_, rfl,
      hscopes, trivial, hafter⟩
    refine Option.bind_eq_some_iff.mpr ⟨receiverType, by rw [hknown]; rfl, ?_⟩
    exact Option.bind_eq_some_iff.mpr ⟨found, hfound, hpart⟩
  | target htarget hvalue =>
    obtain ⟨behind, hcheck⟩ := haccepted
    obtain ⟨-, -, found, expected, hfound, -, -⟩ := Stmt.check_assign.mp hcheck
    rw [show here :: outer = _ from hscopes] at hfound
    obtain ⟨later, hlater, hgives⟩ := Expr.eval_gives hstate hfound hvalue
    exact ⟨_, locals, later, hlater, rfl, rfl, hscopes, trivial, hgives.2⟩
  | thenBody hcondition hbefore hstatement =>
    obtain ⟨behind, hcheck⟩ := haccepted
    obtain ⟨-, hboolean, -, hthen, -⟩ := Stmt.check_branch.mp hcheck
    rw [show here :: outer = _ from hscopes] at hboolean
    obtain ⟨reached, hreached, hmiddle⟩ := Expr.holds_follows hstate hboolean hcondition
    exact execAll_inBlock_later hreached hscopes hthen (List.forall_mem_append.mp hsettled).1
      (hmiddle.enterBlock .empty) hbefore hstatement
  | elseBody hcondition hbefore hstatement =>
    obtain ⟨behind, hcheck⟩ := haccepted
    obtain ⟨-, hboolean, -, -, helse⟩ := Stmt.check_branch.mp hcheck
    rw [show here :: outer = _ from hscopes] at hboolean
    obtain ⟨reached, hreached, hmiddle⟩ := Expr.holds_follows hstate hboolean hcondition
    exact execAll_inBlock_later hreached hscopes helse (List.forall_mem_append.mp hsettled).2
      (hmiddle.enterBlock .empty) hbefore hstatement
  | @rangeBody offset name iterable body _ start stop middle count before after index statement
      hiterable hcount hrounds hbefore hstatement =>
    obtain ⟨behind, hcheck⟩ := haccepted
    obtain ⟨-, hrange, hbody⟩ := Stmt.check_forEach.mp hcheck
    rw [show here :: outer = _ from hscopes] at hrange
    obtain ⟨reached, hreached, -, hmiddle⟩ := Expr.eval_fits hstate hrange hiterable
    -- Every round leaves the scopes as it found them, so the last one begins as the first did.
    obtain ⟨rounds, hlater, -, hbegin⟩ := Run.Ensures.ok
      (Run.EnsuresIn.forRange (discipline.Follows methods module locals)
        (fun item _ _ hround ↦
          block_keeps hscopes hbody hsettled hround (followsLocal_item name item))
        count start hmiddle) hrounds
    exact execAll_inBlock_later (le_trans hreached hlater) hscopes hbody hsettled
      (hbegin.enterBlock (followsLocal_item name _)) hbefore hstatement
  | loopCondition hrounds =>
    obtain ⟨behind, hcheck⟩ := haccepted
    obtain ⟨-, hboolean, hbody⟩ := Stmt.check_loop.mp hcheck
    rw [show here :: outer = _ from hscopes] at hboolean
    obtain ⟨later, hlater, hafter⟩ :=
      Round.follows hscopes hboolean hbody hsettled hstate hrounds
    exact ⟨_, locals, later, hlater, rfl, rfl, hscopes, trivial, hafter⟩
  | loopBody hrounds hcondition hbefore hstatement =>
    obtain ⟨behind, hcheck⟩ := haccepted
    obtain ⟨-, hboolean, hbody⟩ := Stmt.check_loop.mp hcheck
    rw [show here :: outer = _ from hscopes] at hboolean
    obtain ⟨rounds, hrounds, hbegin⟩ :=
      Round.follows hscopes hboolean hbody hsettled hstate hrounds
    obtain ⟨reached, hreached, hmiddle⟩ := Expr.holds_follows hbegin hboolean hcondition
    exact execAll_inBlock_later (le_trans hrounds hreached) hscopes hbody hsettled
      (hmiddle.enterBlock .empty) hbefore hstatement

end

/-! ### Along a run -/

section

variable {context : TypeContext} {program : Program}

/-- A method that was declared is in the module under its own count. -/
theorem declareMethods_new {methods : List Method} {fields module : TypeScope}
    (hmodule : declareMethods context fields methods = .ok module) {method : Method}
    (hmethod : method ∈ methods) : ∃ signature, method.signature context = .ok signature ∧
      fields.function? method.name signature.arity = none := by
  induction methods generalizing fields with
  | nil => cases hmethod
  | cons head tail ih =>
    unfold declareMethods at hmodule
    rw [List.foldlM_cons] at hmodule
    obtain ⟨behind, hbehind, htail⟩ := except_bind_eq_ok.mp hmodule
    obtain ⟨signature, hsignature, hnew, rfl⟩ := Method.declare_eq_ok.mp hbehind
    obtain heq | hlater := List.mem_cons.mp hmethod
    · subst heq
      exact ⟨signature, hsignature, hnew⟩
    · obtain ⟨later, hsigned, hnone⟩ := ih htail hlater
      refine ⟨later, hsigned, ?_⟩
      rw [Scope.function?_declareFunction] at hnone
      split at hnone
      · cases hnone
      · exact hnone

/-- The methods of an accepted module are found by name and count of parameters. -/
theorem Program.method?_of_mem {fields module : TypeScope} (hpaired : program.Paired)
    (hmodule : declareMethods context fields program.methods = .ok module) {method : Method}
    (hmethod : method ∈ program.methods) :
    program.method? method.name method.params.length = some method := by
  obtain ⟨allFields, methods⟩ := program
  change ∀ method ∈ methods, method.Paired at hpaired
  change declareMethods context fields methods = .ok module at hmodule
  change method ∈ methods at hmethod
  change methods.find? _ = some method
  induction methods generalizing fields with
  | nil => cases hmethod
  | cons head tail ih =>
    obtain heq | hlater := List.mem_cons.mp hmethod
    · subst heq
      rw [List.find?_cons_of_pos]
      simp
    · rw [List.forall_mem_cons] at hpaired
      unfold declareMethods at hmodule
      rw [List.foldlM_cons] at hmodule
      obtain ⟨behind, hbehind, htail⟩ := except_bind_eq_ok.mp hmodule
      rw [List.find?_cons_of_neg]
      · exact ih hpaired.2 htail hlater
      · intro hkey
        obtain ⟨signature, hsignature, -, rfl⟩ := Method.declare_eq_ok.mp hbehind
        obtain ⟨later, hsigned, hnone⟩ := declareMethods_new htail hlater
        simp only [Bool.and_eq_true, beq_iff_eq] at hkey
        have harity : later.arity = signature.arity := by
          rw [Method.signature_arity hsigned, Method.signature_arity hsignature,
            hpaired.2 method hlater, hpaired.1, hkey.2]
        rw [Scope.function?_declareFunction, if_pos (by rw [harity, hkey.1])] at hnone
        cases hnone

variable {H : Type} [Host H] {discipline : Discipline H context} {world : discipline.World}
  {start : State H} {fuel : Nat}

open Discipline

/-- From a moment that is in step, a run comes only to moments that are. -/
theorem Moment.Next.inStep {moment next : Moment H} (hpaired : program.Paired)
    (hcheck : program.check context = .ok ()) (hmoment : discipline.InStep program world moment)
    (hnext : moment.Next next) : discipline.InStep program world next := by
  obtain ⟨site, locals, module, before, hbefore, hagrees⟩ := hmoment
  have haccepted := Program.site?_accepted hpaired hcheck hagrees.found
  cases hnext with
  | @turn fuel place callers node state turn part after hdemands =>
    obtain rfl : site.node = node := hagrees.node
    obtain ⟨inner, chain, later, hlater, hpart, hnode, hscopes, hsettled, hfollows⟩ :=
      Demands.follows haccepted hagrees.scopes hagrees.settled hagrees.follows hdemands
    refine ⟨inner, chain, module, later, le_trans hbefore hlater, ?_, hnode, hscopes, hagrees.sees,
      hsettled, hfollows, ?_⟩
    · rw [Program.site?_turn, hagrees.found]
      exact hpart
    · rw [hdemands.suspended]
      exact callers_later hlater hagrees.callers
  | @enter fuel place callers mark name args resolved state values middle procedure after index
      statement hargs hcallee harity hstatements hstatement =>
    obtain ⟨type, htype⟩ := (Site.accepted_expr hagrees.node).mp haccepted
    rw [hagrees.scopes] at htype
    obtain ⟨found, hfound, hchecked, -⟩ := Expr.infer_call.mp htype
    obtain ⟨hlength, reached, hreached, hfits, hmiddle, callable, hcallable, hcalls⟩ :=
      hagrees.follows.callArgs hfound hchecked hargs
    rw [hlength, hcallable] at hcallee
    cases hcallee
    obtain hprovides | hoffers := hcalls
    · obtain ⟨method, hmethod, hsignature, hmodule, hbody, heq⟩ := hprovides.exists_method
      cases heq
      -- No method is declared yet where a field is met, so the module is complete.
      have hcomplete : program.module? context = some module := by
        have hsees := hagrees.sees
        obtain ⟨root, turns⟩ := place
        cases root with
        | field index =>
          rw [show module.function? name args.length = none from hsees _ _] at hmodule
          cases hmodule
        | entry | statement => exact hsees
      obtain ⟨fields, -, hdeclared⟩ := Program.module?_eq_some.mp hcomplete
      obtain ⟨signature, scope, hsigned, hscope, hblock⟩ := Method.check_eq_ok.mp hbody
      rw [hsignature] at hsigned
      cases hsigned
      have hentered := hmiddle.enterCall (followsLocal_parameterScope hsignature hscope hfits)
      -- The body is met with no scope of the caller around it.
      have houter : [module, context.globals] = [] ++ [module, context.globals] := rfl
      obtain ⟨inner, chain, later, hlater, hpart, hnode, hscopes, hsettled, hfollows⟩ :=
        execAll_inBlock houter hblock (hmiddle.settled method hmethod).declarations hentered
          hstatements hstatement
      refine ⟨inner, chain, module, later, le_trans hbefore (le_trans hreached hlater), ?_, hnode,
        hscopes, hcomplete, hsettled, hfollows, ?_⟩
      · refine Option.bind_eq_some_iff.mpr ⟨inner, Root.site?_statement.mpr ?_, rfl⟩
        exact ⟨module, method, found, scope, hcomplete,
          Program.method?_of_mem hpaired hdeclared hmethod, hsignature, hscope, hpart⟩
      · have hcallers := ((execAll_moves _ _).ok hstatements).suspended
        have hsuspended := ((evalArgs_moves _ _).ok hargs).suspended
        change List.Forall₂ _ (place :: callers) after.suspended
        rw [hcallers]
        refine callers_later hlater
          (.cons ⟨site, locals, hagrees.found, hagrees.scopes, hmiddle.locals⟩ ?_)
        rw [hsuspended]
        exact callers_later hreached hagrees.callers
    -- What the host offers has no statements to enter.
    · exact (discipline.offers_answers _ _ _ _ hoffers).elim

/-- The moments that a run begins with agree with the checker: a field in the module so far, and the
entry. -/
theorem Program.Begins.inStep {moment : Moment H} (hpaired : program.Paired)
    (hcheck : program.check context = .ok ()) (hsuspended : start.suspended = [])
    (hsettled : ∀ field ∈ program.fields, discipline.Settles field)
    (hstart : discipline.Follows program.methods {} [] world (opened start))
    (hbegins : program.Begins fuel start moment) : discipline.InStep program world moment := by
  obtain ⟨hmain, fields, module, hfields, hmodule, hbodies⟩ := Program.check_eq_ok.mp hcheck
  have hplain : TypeScope.Plain {} := fun _ _ ↦ rfl
  have hcallers {fields : List Binding} {state : State H}
      (hrun : initializeFields fuel fields (opened start) = .ok () state) :
      state.suspended = [] := by
    have hkept := ((initializeFields_moves fuel fields _).ok hrun).suspended
    exact hkept.trans hsuspended
  cases hbegins with
  | @field index state field value hbefore hfield hvalue =>
    obtain ⟨here, behind, hhere, hbehind⟩ := checkFields_getElem? hfields hfield
    obtain ⟨later, hlater, hstate⟩ := Run.Ensures.ok (initializeFields_follows hhere hplain
      (fun field hmem ↦ hsettled field (List.mem_of_mem_take hmem)) hstart) hbefore
    refine ⟨⟨.expr value, here, [context.globals], .nil⟩, [], here, later, hlater, ?_, rfl, rfl,
      checkFields_plain hhere hplain, trivial, hstate, ?_⟩
    · refine Option.bind_eq_some_iff.mpr ⟨_, Root.site?_field.mpr ?_, rfl⟩
      exact ⟨field, value, here, hfield, hvalue, hhere, rfl⟩
    · change List.Forall₂ _ [] state.suspended
      rw [hcallers hbefore]
      exact .nil
  | @main state hbefore =>
    have hknown := Program.module?_eq_some.mpr ⟨fields, hfields, hmodule⟩
    obtain ⟨later, hlater, hstate⟩ := Run.Ensures.ok
      (initializeFields_follows hfields hplain hsettled hstart) hbefore
    refine ⟨⟨.expr entry, module, [context.globals], .nil⟩, [], module, later, hlater, ?_, rfl, rfl,
      hknown, trivial,
      hstate.declareMethods (checkFields_plain hfields hplain) hmodule hpaired hbodies, ?_⟩
    · refine Option.bind_eq_some_iff.mpr ⟨_, ?_, rfl⟩
      exact Option.bind_eq_some_iff.mpr ⟨module, hknown, rfl⟩
    · change List.Forall₂ _ [] state.suspended
      rw [hcallers hbefore]
      exact .nil

/-- Every moment of a run of an accepted program is in step with the check. -/
theorem Program.Reaches.inStep {moment : Moment H} (hpaired : program.Paired)
    (hcheck : program.check context = .ok ()) (hsuspended : start.suspended = [])
    (hsettled : ∀ field ∈ program.fields, discipline.Settles field)
    (hstart : discipline.Follows program.methods {} [] world (opened start))
    (hreaches : program.Reaches fuel start moment) : discipline.InStep program world moment := by
  obtain ⟨first, hbegins, hsteps⟩ := hreaches
  induction hsteps with
  | refl => exact hbegins.inStep hpaired hcheck hsuspended hsettled hstart
  | tail _ hnext ih => exact hnext.inStep hpaired hcheck ih

/-- What a statement does whose site is known. A statement always has a scope of its own around
it. -/
theorem Discipline.Agrees.exec_leaves {moment : Moment H} {site : Site} {locals : TypeChain}
    {module : TypeScope} {statement : Stmt}
    (hagrees : discipline.Agrees program moment site locals module world)
    (haccepted : site.Accepted context) (hnode : moment.node = .stmt statement) :
    ∃ behind outer, locals = site.here :: outer ∧
      site.outer = outer ++ [module, context.globals] ∧
      statement.check context site.returns site.outer site.here = .ok behind ∧
      (statement.exec moment.fuel).EnsuresIn world moment.state
        (discipline.Leaves program.methods module site.returns behind outer)
        (discipline.Stops program.methods module outer) := by
  have hstmt := hagrees.node.trans hnode
  obtain ⟨behind, hbehind⟩ := (Site.accepted_stmt hstmt).mp haccepted
  have hlength := (Program.site?_length hagrees.found).2 statement hstmt
  have hscopes : site.here :: site.outer = locals ++ [module, context.globals] := hagrees.scopes
  cases locals with
  | nil =>
    obtain ⟨-, houter⟩ := List.cons.inj hscopes
    rw [houter] at hlength
    exact absurd hlength (by simp)
  | cons here outer =>
    obtain ⟨rfl, houter⟩ : site.here = here ∧ site.outer = outer ++ [module, context.globals] :=
      List.cons.inj hscopes
    have hsettled : discipline.SettlesNode (.stmt statement) := hnode ▸ hagrees.settled
    exact ⟨behind, outer, rfl, houter, hbehind, Stmt.execWith_leaves
      (Callable.invoke_serves moment.fuel) moment.fuel statement hsettled (houter ▸ hbehind)
      hagrees.follows⟩

end

end ScriptLang
