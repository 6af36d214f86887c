import ScriptLang.Proofs.Execution.Frames
import ScriptLang.Proofs.Typing.Discipline

/-!
Running what the checker accepts. From a state that follows the checked scopes, an accepted
expression gives a value that fits its type, and an accepted statement leaves a state that follows
the scope behind it. A run that is interrupted leaves a state that follows the scopes around the
block it was in.
-/

set_option autoImplicit false
set_option relaxedAutoImplicit false

namespace ScriptLang

namespace Discipline

variable {H : Type} [Host H] {context : TypeContext} (discipline : Discipline H context)
  (methods : List Method) (module : TypeScope)

/-- A way to call functions that gives values of the types that signatures promise. -/
structure Serves (invoke : Callable H → List Value → Run H Value) : Prop where
  calls : ∀ {name arity signature callable args locals world state},
    discipline.Calls methods module name arity signature callable →
    List.Forall₂ (discipline.fits world) signature.params args →
    discipline.Follows methods module locals world state →
    (invoke callable args).EnsuresIn world state
      (fun later value after ↦ discipline.fits later signature.returns value ∧
        discipline.Follows methods module locals later after)
      (discipline.Follows methods module locals)
  host : ∀ {function args returns locals world state}, args.length = function.arity →
    Host.KeepsIn discipline.fits discipline.objects world function.body args state.objects
      returns →
    discipline.Follows methods module locals world state →
    (invoke (.host function) args).EnsuresIn world state
      (fun later value after ↦ discipline.fits later returns value ∧
        discipline.Follows methods module locals later after)
      (discipline.Follows methods module locals)

/-- How an accepted expression of type `type` ends. -/
def Gives (locals : TypeChain) (type : Ty) (world : discipline.World) (value : Value)
    (after : State H) : Prop :=
  discipline.Holds world ⟨"", type⟩ value ∧ discipline.Follows methods module locals world after

/-- How an accepted statement ends, where `behind` is the scope behind it. -/
def Leaves (returns : Ty) (behind : TypeScope) (locals : TypeChain) (world : discipline.World)
    (flow : Flow) (after : State H) : Prop :=
  flow.Satisfies (discipline.fits world returns) ∧
    match flow with
    | .next => discipline.Follows methods module (behind :: locals) world after
    | .returned _ => ∃ inner, discipline.Follows methods module (inner :: locals) world after

/-- How an accepted statement is interrupted. -/
def Stops (locals : TypeChain) (world : discipline.World) (after : State H) : Prop :=
  ∃ inner, discipline.Follows methods module (inner :: locals) world after

variable {discipline methods module}

/-- A statement that ends in a state that follows the scope behind it leaves it as it should. -/
theorem leaves_of_follows {returns : Ty} {behind : TypeScope} {locals : TypeChain}
    {world : discipline.World} {flow : Flow} {after : State H}
    (h : flow.Satisfies (discipline.fits world returns) ∧
      discipline.Follows methods module (behind :: locals) world after) :
    discipline.Leaves methods module returns behind locals world flow after := by
  refine ⟨h.1, ?_⟩
  cases flow with
  | next => exact h.2
  | returned value => exact ⟨behind, h.2⟩

end Discipline

section

variable {H : Type} [Host H] {context : TypeContext} {discipline : Discipline H context}
  {methods : List Method} {module : TypeScope} {invoke : Callable H → List Value → Run H Value}
  (hserves : discipline.Serves methods module invoke)

open Discipline

/-- Whatever is called by a known signature returns a type that is admitted. -/
theorem Discipline.Calls.admits {name : String} {arity : Nat} {signature : Signature Ty}
    {callable : Callable H}
    (h : discipline.Calls methods module name arity signature callable) :
    discipline.admits signature.returns := by
  cases h with
  | inl hprovides =>
    cases hprovides with
    | intro _ hsignature _ _ _ => exact (admits_signature hsignature).2
  | inr hoffers => exact (discipline.offers_arity _ _ _ _ hoffers).2.2

include hserves

-- A mutual recursion over the tree does not name the hypothesis that it shares.
set_option linter.unusedSectionVars false

mutual

/-- Preservation for expressions: in a state that follows its scopes, an expression of a known type
gives a value of it, and the state still follows them, also after a failure. Calls are as good as
`invoke` is, which `hserves` says. -/
theorem Expr.evalWith_gives : ∀ (expr : Expr) {type : Ty} {locals : TypeChain}
    {world : discipline.World} {state : State H},
    discipline.Follows methods module locals world state →
    expr.infer (locals ++ [module, context.globals]) = .ok type →
    (expr.evalWith invoke).EnsuresIn world state (discipline.Gives methods module locals type)
      (discipline.Follows methods module locals)
  | .literal _ literal, _, _, world, _, hstate, htype =>
    .pure ⟨⟨admits_literal htype, discipline.fits_literal world literal _ _ htype⟩, hstate⟩
  | .group _ inner, _, _, _, _, hstate, htype => inner.evalWith_gives hstate htype
  | .binary mark op left right, type, locals, world, state, hstate, htype => by
    obtain ⟨leftType, rightType, hleft, hright, hop⟩ := Expr.infer_binary.mp htype
    rw [Expr.evalWith]
    refine .bind ((left.evalWith_gives hstate hleft).mono (fun middle first reached _ hfirst ↦ ?_)
      fun _ _ _ h ↦ h)
    cases hshortcut : op.shortcut? with
    | some decisive =>
      obtain ⟨rfl, -, -⟩ := BinaryOp.type_of_shortcut hshortcut hop
      have hresult (value : Bool) (later : discipline.World) (after : State H)
          (hafter : discipline.Follows methods module locals later after) :
          discipline.Gives methods module locals .boolean later (.boolean value) after :=
        ⟨⟨admits_operator hop, discipline.fits_boolean later value⟩, hafter⟩
      refine .bind (.ofExcept (fun chosen _ ↦ ?_) hfirst.2)
      split
      · exact .pure (hresult decisive middle reached hfirst.2)
      · refine .bind ((right.evalWith_gives hfirst.2 hright).mono
          (fun later second after _ hsecond ↦ ?_) fun _ _ _ h ↦ h)
        exact .bind
          (.ofExcept (fun value _ ↦ .pure (hresult value later after hsecond.2)) hsecond.2)
    | none =>
      refine .bind ((right.evalWith_gives hfirst.2 hright).mono
        (fun later second after hlater hsecond ↦ ?_) fun _ _ _ h ↦ h)
      refine .ofExcept (fun value hvalue ↦ ⟨⟨admits_operator hop, ?_⟩, hsecond.2⟩) hsecond.2
      exact discipline.fits_operator later op _ _ _ type _ _ value hop hshortcut
        (discipline.fits_later hlater hfirst.1.2) hsecond.1.2 hvalue
  | .access mark name resolved, type, locals, world, state, hstate, htype => by
    obtain ⟨found, hfound, rfl⟩ := Expr.infer_access.mp htype
    obtain ⟨value, hvalue, hholds⟩ := hstate.lookup hfound
    rw [Expr.evalWith]
    exact .of_ok (by rw [Run.lookup_apply, hvalue]) ⟨hholds, hstate⟩
  | .member mark receiver name resolved, type, locals, world, state, hstate, htype => by
    obtain ⟨receiverType, found, hreceiver, hfound, rfl⟩ := Expr.infer_member.mp htype
    rw [Expr.evalWith]
    refine .bind ((receiver.evalWith_gives hstate hreceiver).mono
      (fun later object after _ hobject ↦ ?_) fun _ _ _ h ↦ h)
    have hadmits := discipline.admits_field _ _ _ hobject.1.1 hfound
    refine .bind (.ofExcept (fun ref href ↦ .field (fun value hvalue ↦ ?_) hobject.2) hobject.2)
    obtain rfl := Value.asObject_eq_ok href
    have hfits : discipline.fits later found.type value :=
      discipline.fits_field hobject.2.objects hobject.1.1 hobject.1.2 hfound hvalue
    exact ⟨⟨hadmits, hfits⟩, hobject.2⟩
  | .call mark name args resolved, type, locals, world, state, hstate, htype => by
    obtain ⟨found, hfound, hargs, rfl⟩ := Expr.infer_call.mp htype
    have hcount : found.params.length = args.length := by
      obtain ⟨callable, -, hcalls⟩ := hstate.callee hfound
      exact hcalls.arity.1
    rw [Expr.evalWith]
    refine .bind ((evalArgsWith_fits args hstate hargs hcount).mono
      (fun later values after _ hvalues ↦ ?_) fun _ _ _ h ↦ h)
    -- The callee is looked up behind the arguments, in the state that they leave.
    have hlength : values.length = args.length := by rw [← hcount, hvalues.1.length_eq]
    obtain ⟨callable, hcallable, hcalls⟩ := hvalues.2.callee hfound
    refine .bind (.of_ok (by rw [Run.function_apply, hlength, hcallable]) ?_)
    exact (hserves.calls hcalls hvalues.1 hvalues.2).mono
      (fun last value after _ hvalue ↦ ⟨⟨hcalls.admits, hvalue.1⟩, hvalue.2⟩) fun _ _ _ h ↦ h
  | .invoke mark receiver name args resolved, type, locals, world, state, hstate, htype => by
    obtain ⟨receiverType, found, hreceiver, hfound, hargs, rfl⟩ := Expr.infer_invoke.mp htype
    rw [Expr.evalWith]
    refine .bind ((receiver.evalWith_gives hstate hreceiver).mono
      (fun middle object reached _ hobject ↦ ?_) fun _ _ _ h ↦ h)
    obtain ⟨hcount, hadmits⟩ := discipline.admits_method _ _ _ _ hobject.1.1 hfound
    have hparams : (found.params.drop 1).length = args.length := by
      rw [List.length_drop, show found.params.length = args.length + 1 from hcount]
      rfl
    refine .bind ((evalArgsWith_fits args hobject.2 hargs hparams).mono
      (fun later values after hlater hvalues ↦ ?_) fun _ _ _ h ↦ h)
    refine .bind (.ofExcept (fun ref href ↦ ?_) hvalues.2)
    obtain rfl := Value.asObject_eq_ok href
    refine .bind (.method (fun function hmethod ↦ ?_) hvalues.2)
    have hlength : values.length = args.length := by rw [← hparams, hvalues.1.length_eq]
    have hkeeps := discipline.keeps_method hvalues.2.objects hobject.1.1
      (discipline.fits_later hlater hobject.1.2) hfound (hlength ▸ hmethod) hvalues.1
    have harity : (Value.object ref :: values).length = function.arity :=
      (ObjectStore.method_arity hmethod).symm
    exact (hserves.host harity hkeeps hvalues.2).mono
      (fun last value after _ hlast ↦ ⟨⟨hadmits, hlast.1⟩, hlast.2⟩) fun _ _ _ h ↦ h

/-- Arguments that have been checked give values of the types of the parameters, from left to
right. -/
theorem evalArgsWith_fits : ∀ (args : List Expr) {params : List Ty} {locals : TypeChain}
    {world : discipline.World} {state : State H},
    discipline.Follows methods module locals world state →
    checkArgs (locals ++ [module, context.globals]) args params = .ok () →
    params.length = args.length →
    (evalArgsWith invoke args).EnsuresIn world state
      (fun later values after ↦ List.Forall₂ (discipline.fits later) params values ∧
        discipline.Follows methods module locals later after)
      (discipline.Follows methods module locals)
  | [], params, _, _, _, hstate, _, hcount => by
    rw [List.eq_nil_of_length_eq_zero hcount]
    exact .pure ⟨.nil, hstate⟩
  | head :: tail, param :: params, locals, world, state, hstate, hargs, hcount => by
    obtain ⟨hhead, htail⟩ := checkArgs_cons.mp hargs
    obtain ⟨source, hsource, hassignable⟩ := Expr.checkAs_eq_ok.mp hhead
    rw [evalArgsWith]
    refine .bind ((head.evalWith_gives hstate hsource).mono (fun middle value reached _ hvalue ↦ ?_)
      fun _ _ _ h ↦ h)
    refine .bind ((evalArgsWith_fits tail hvalue.2 htail (Nat.succ.inj hcount)).mono
      (fun later values after hlater hvalues ↦ ?_) fun _ _ _ h ↦ h)
    have hfits := discipline.fits_assignable middle _ _ value hassignable hvalue.1.2
    exact .pure ⟨.cons (discipline.fits_later hlater hfits) hvalues.1, hvalues.2⟩

end

/-- An expression that has been checked against a type gives a value that fits it. -/
theorem Expr.evalWith_fits {expr : Expr} {target : Ty} {locals : TypeChain}
    {world : discipline.World} {state : State H}
    (hstate : discipline.Follows methods module locals world state)
    (hcheck : expr.checkAs (locals ++ [module, context.globals]) target = .ok ()) :
    (expr.evalWith invoke).EnsuresIn world state
      (fun later value after ↦ discipline.fits later target value ∧
        discipline.Follows methods module locals later after)
      (discipline.Follows methods module locals) := by
  obtain ⟨source, hsource, hassignable⟩ := Expr.checkAs_eq_ok.mp hcheck
  refine (expr.evalWith_gives hserves hstate hsource).mono (fun later value after _ hvalue ↦ ?_)
    fun _ _ _ h ↦ h
  exact ⟨discipline.fits_assignable later _ _ value hassignable hvalue.1.2, hvalue.2⟩

/-- A condition keeps the state in step, whatever comes of it. -/
theorem Expr.conditionWith_follows {condition : Expr} {target : Ty} {locals : TypeChain}
    {world : discipline.World} {state : State H}
    (hstate : discipline.Follows methods module locals world state)
    (hcheck : condition.checkAs (locals ++ [module, context.globals]) target = .ok ()) :
    (condition.conditionWith invoke).EnsuresIn world state
      (fun later _ ↦ discipline.Follows methods module locals later)
      (discipline.Follows methods module locals) := by
  refine .bind
    ((Expr.evalWith_fits hserves hstate hcheck).mono (fun later value after _ hvalue ↦ ?_)
    fun _ _ _ h ↦ h)
  exact .ofExcept (fun _ _ ↦ hvalue.2) hvalue.2

/-- A declaration whose value is evaluated in the scope `here` gives a value for the variable. -/
theorem Binding.evalWith_gives {binding : Binding} {type : Ty} {outer : TypeChain}
    {here : TypeScope} {locals : TypeChain} {world : discipline.World} {state : State H}
    (hstate : discipline.Follows methods module locals world state)
    (hscopes : here :: outer = locals ++ [module, context.globals])
    (hsettled : discipline.Settles binding)
    (htype : binding.infer context outer here = .ok type) :
    (binding.evalWith invoke).EnsuresIn world state
      (fun later value after ↦ discipline.Holds later ⟨binding.name, type⟩ value ∧
        discipline.Follows methods module locals later after)
      (discipline.Follows methods module locals) := by
  unfold Binding.evalWith
  obtain ⟨name, hname, hfound, hvalue⟩ | ⟨value, hname, hvalue, hinfer⟩ :=
    Binding.infer_eq_ok.mp htype
  · have hadmits : discipline.admits type := admits_type? hfound
    split
    · rename_i value hsome
      have hcheck := hvalue value hsome
      rw [hscopes] at hcheck
      exact (Expr.evalWith_fits hserves hstate hcheck).mono
        (fun _ _ _ _ h ↦ ⟨⟨hadmits, h.1⟩, h.2⟩) fun _ _ _ h ↦ h
    · rename_i hnone
      have hblank := hsettled hnone name type hname hfound
      exact .pure ⟨⟨hadmits, discipline.fits_blank world type hblank⟩, hstate⟩
  · rw [hscopes] at hinfer
    rw [hvalue]
    exact value.evalWith_gives hserves hstate hinfer

/-- An accepted assignment keeps the state in step: the variable gets a value of its own type. -/
theorem Expr.assignWith_follows {target value : Expr} {found expected : Ty} {locals : TypeChain}
    {world : discipline.World} {state : State H}
    (hstate : discipline.Follows methods module locals world state)
    (htarget : target.isTarget = true)
    (hfound : value.infer (locals ++ [module, context.globals]) = .ok found)
    (hexpected : target.infer (locals ++ [module, context.globals]) = .ok expected)
    (hassignable : expected.assignable found = true) :
    (target.assignWith invoke value).EnsuresIn world state
      (fun later _ ↦ discipline.Follows methods module locals later)
      (discipline.Follows methods module locals) := by
  unfold Expr.assignWith
  split
  · refine .bind ((value.evalWith_gives hserves hstate hfound).mono
      (fun later result middle _ hresult ↦ ?_) fun _ _ _ h ↦ h)
    obtain ⟨known, hknown, rfl⟩ := Expr.infer_access.mp hexpected
    obtain ⟨old, -, hold⟩ := hresult.2.lookup hknown
    have hfits := discipline.fits_assignable later _ _ result hassignable hresult.1.2
    obtain ⟨after, hafter, hfollows⟩ := hresult.2.assign hknown ⟨hold.1, hfits⟩
    exact .of_ok (by rw [Run.assign_apply, hafter]) hfollows
  · rename_i mark receiver name resolved
    obtain ⟨receiverType, known, hreceiver, hknown, rfl⟩ := Expr.infer_member.mp hexpected
    refine .bind ((value.evalWith_gives hserves hstate hfound).mono
      (fun middle result reached _ hresult ↦ ?_) fun _ _ _ h ↦ h)
    refine .bind ((receiver.evalWith_gives hserves hresult.2 hreceiver).mono
      (fun later object after hlater hobject ↦ ?_) fun _ _ _ h ↦ h)
    refine .bind (.ofExcept (fun ref href ↦ .setField (fun objects hobjects ↦ ?_) hobject.2)
      hobject.2)
    obtain rfl := Value.asObject_eq_ok href
    have hfits := discipline.fits_assignable later _ _ result hassignable
      (discipline.fits_later hlater hresult.1.2)
    exact hobject.2.inLater (le_refl later)
      (discipline.objects_setField hobject.2.objects hobject.1.1 hobject.1.2 hknown hfits hobjects)
  · rename_i hplain hmember
    cases target with
    | access mark name resolved => exact (hplain mark name resolved rfl).elim
    | member mark receiver name resolved => exact (hmember mark receiver name resolved rfl).elim
    | literal | group | binary | call | invoke => cases htarget

variable {returns : Ty} (fuel : Nat)

omit hserves in
/-- A block leaves the scopes around it as it found them, however it ends. -/
theorem Run.block_follows {start : TypeScope} {scope : ValueScope H} {locals : TypeChain}
    {world : discipline.World} {state : State H} {statements : List Stmt} {body : Run H Flow}
    (hbody : ∀ {behind world state},
      scopeBehind context (locals ++ [module, context.globals]) returns start statements =
        .ok behind →
      discipline.Follows methods module (start :: locals) world state →
      body.EnsuresIn world state (discipline.Leaves methods module returns behind locals)
        (discipline.Stops methods module locals))
    (hcheck : checkBlock context returns (locals ++ [module, context.globals]) start statements =
      .ok ())
    (hscope : discipline.FollowsLocal world start scope)
    (hstate : discipline.Follows methods module locals world state) :
    (Run.block scope body).EnsuresIn world state
      (fun later flow after ↦ flow.Satisfies (discipline.fits later returns) ∧
        discipline.Follows methods module locals later after)
      (discipline.Follows methods module locals) := by
  obtain ⟨behind, hbehind⟩ := checkBlock_eq_ok.mp hcheck
  refine .within ((hbody hbehind (hstate.enterBlock hscope)).mono
    (fun later flow after _ hafter ↦ ?_) fun later after _ hafter ↦ ?_)
  · refine ⟨hafter.1, ?_⟩
    cases flow with
    | next => exact Follows.leaveBlock hafter.2
    | returned value =>
      obtain ⟨inner, hinner⟩ := hafter.2
      exact hinner.leaveBlock
  · obtain ⟨inner, hinner⟩ := hafter
    exact hinner.leaveBlock

mutual

/-- Preservation for statements. A statement leaves its block in the scope behind it; where it
returns or fails, the innermost scope may be any that the block has gone through. -/
theorem Stmt.execWith_leaves : ∀ (statement : Stmt) {here behind : TypeScope} {locals : TypeChain}
    {world : discipline.World} {state : State H},
    (∀ binding ∈ statement.declarations, discipline.Settles binding) →
    statement.check context returns (locals ++ [module, context.globals]) here = .ok behind →
    discipline.Follows methods module (here :: locals) world state →
    (statement.execWith invoke fuel).EnsuresIn world state
      (discipline.Leaves methods module returns behind locals)
      (discipline.Stops methods module locals)
  | .expr value, here, behind, locals, world, state, _, hcheck, hstate => by
    obtain ⟨rfl, -, type, htype⟩ := Stmt.check_expr.mp hcheck
    rw [Stmt.execWith, Stateful.discard_eq]
    refine .bind (.bind ((value.evalWith_gives hserves hstate htype).mono
      (fun _ _ after _ hafter ↦ ?_) fun _ after _ hafter ↦ ⟨behind, hafter⟩))
    exact .pure (.pure ⟨trivial, hafter.2⟩)
  | .declare binding, here, behind, locals, world, state, hsettled, hcheck, hstate => by
    rw [Stmt.check_declare] at hcheck
    obtain ⟨type, htype, hadd⟩ := Binding.check_eq_ok.mp hcheck
    obtain ⟨-, rfl⟩ := TypeScope.add_eq_ok.mp hadd
    rw [Stmt.execWith]
    have hbinding := hsettled binding (List.mem_singleton_self binding)
    refine .bind ((Binding.evalWith_gives hserves hstate rfl hbinding htype).mono
      (fun later value after _ hvalue ↦ ?_) fun _ after _ hafter ↦ ⟨here, hafter⟩)
    exact .of_ok rfl ⟨trivial, hvalue.2.declare binding.name hvalue.1⟩
  | .assign target value, here, behind, locals, world, state, _, hcheck, hstate => by
    obtain ⟨rfl, htarget, found, expected, hfound, hexpected, hassignable⟩ :=
      Stmt.check_assign.mp hcheck
    rw [Stmt.execWith]
    refine .bind ((Expr.assignWith_follows hserves hstate htarget hfound hexpected
      hassignable).mono (fun _ _ after _ hafter ↦ ?_) fun _ after _ hafter ↦ ⟨behind, hafter⟩)
    exact .pure ⟨trivial, hafter⟩
  | .branch condition thenBody elseBody, here, behind, locals, world, state, hsettled, hcheck,
      hstate => by
    rw [Stmt.declarations, List.forall_mem_append] at hsettled
    obtain ⟨rfl, hcondition, -, hthen, helse⟩ := Stmt.check_branch.mp hcheck
    rw [Stmt.execWith]
    refine .bind ((Expr.conditionWith_follows hserves hstate hcondition).mono
      (fun _ holds middle _ hmiddle ↦ ?_) fun _ after _ hafter ↦ ⟨behind, hafter⟩)
    split
    · exact (Run.block_follows (execAllWith_leaves thenBody hsettled.1) hthen .empty hmiddle).mono
        (fun _ _ _ _ ↦ leaves_of_follows) fun _ after _ hafter ↦ ⟨behind, hafter⟩
    · exact (Run.block_follows (execAllWith_leaves elseBody hsettled.2) helse .empty hmiddle).mono
        (fun _ _ _ _ ↦ leaves_of_follows) fun _ after _ hafter ↦ ⟨behind, hafter⟩
  | .forEach offset name iterable body, here, behind, locals, world, state, hsettled, hcheck,
      hstate => by
    obtain ⟨rfl, hiterable, hbody⟩ := Stmt.check_forEach.mp hcheck
    rw [Stmt.execWith]
    refine .bind ((Expr.evalWith_fits hserves hstate hiterable).mono
      (fun _ value middle _ hmiddle ↦ ?_) fun _ after _ hafter ↦ ⟨behind, hafter⟩)
    refine .bind (.ofExcept (fun bounds _ ↦ ?_) ⟨behind, hmiddle.2⟩)
    exact (Run.EnsuresIn.forRange (discipline.Follows methods module (behind :: locals))
      (fun item _ before hbefore ↦ Run.block_follows (execAllWith_leaves body hsettled) hbody
        (followsLocal_item name item) hbefore)
      _ _ hmiddle.2).mono (fun _ _ _ _ ↦ leaves_of_follows) fun _ after _ hafter ↦ ⟨behind, hafter⟩
  | .loop condition body, here, behind, locals, world, state, hsettled, hcheck, hstate => by
    obtain ⟨rfl, hcondition, hbody⟩ := Stmt.check_loop.mp hcheck
    rw [Stmt.execWith]
    exact (Run.EnsuresIn.repeatWhile (discipline.Follows methods module (behind :: locals))
      (fun _ before hbefore ↦ Expr.conditionWith_follows hserves hbefore hcondition)
      (fun _ before hbefore ↦
        Run.block_follows (execAllWith_leaves body hsettled) hbody .empty hbefore)
      (fun _ _ h ↦ h) fuel hstate).mono
      (fun _ _ _ _ ↦ leaves_of_follows) fun _ after _ hafter ↦ ⟨behind, hafter⟩
  | .ret value, here, behind, locals, world, state, _, hcheck, hstate => by
    obtain ⟨rfl, hvalue⟩ := Stmt.check_ret.mp hcheck
    rw [Stmt.execWith]
    refine .bind ((Expr.evalWith_fits hserves hstate hvalue).mono
      (fun _ value after _ hafter ↦ ?_) fun _ after _ hafter ↦ ⟨behind, hafter⟩)
    exact .pure ⟨hafter.1, behind, hafter.2⟩

/-- Preservation for blocks: one scope is carried from statement to statement, as in the checker. -/
theorem execAllWith_leaves : ∀ (statements : List Stmt) {here behind : TypeScope}
    {locals : TypeChain} {world : discipline.World} {state : State H},
    (∀ binding ∈ blockDeclarations statements, discipline.Settles binding) →
    scopeBehind context (locals ++ [module, context.globals]) returns here statements = .ok behind →
    discipline.Follows methods module (here :: locals) world state →
    (execAllWith invoke fuel statements).EnsuresIn world state
      (discipline.Leaves methods module returns behind locals)
      (discipline.Stops methods module locals)
  | [], here, behind, locals, world, state, _, hcheck, hstate => by
    cases hcheck
    exact .pure ⟨trivial, hstate⟩
  | head :: tail, here, behind, locals, world, state, hsettled, hcheck, hstate => by
    rw [blockDeclarations, List.forall_mem_append] at hsettled
    obtain ⟨middle, hhead, htail⟩ := scopeBehind_cons.mp hcheck
    rw [execAllWith]
    refine .bind ((head.execWith_leaves hsettled.1 hhead hstate).mono
      (fun _ flow after _ hafter ↦ ?_) fun _ _ _ h ↦ h)
    cases flow with
    | next => exact execAllWith_leaves tail hsettled.2 htail hafter.2
    | returned value => exact .pure hafter

end

end

/-! ### Calls -/

section

variable {H : Type} [Host H] {context : TypeContext} {discipline : Discipline H context}
  {methods : List Method} {module : TypeScope}

open Discipline

/-- A function of the host that keeps to its promise leaves the program's own scopes as they are. -/
theorem Run.host_follows {locals : TypeChain} {world : discipline.World} {state : State H}
    {returns : Ty} {body : H} {args : List Value}
    (hkeeps : Host.KeepsIn discipline.fits discipline.objects world body args state.objects returns)
    (hstate : discipline.Follows methods module locals world state) :
    (Run.host body args).EnsuresIn world state
      (fun later value after ↦ discipline.fits later returns value ∧
        discipline.Follows methods module locals later after)
      (discipline.Follows methods module locals) := by
  obtain ⟨later, hlater, hobjects, hfits⟩ := hkeeps
  have hfollows := hstate.inLater hlater hobjects
  unfold EnsuresIn Ensures Run.host
  cases hrun : Host.run body args state.objects with
  | mk result objects =>
    rw [hrun] at hfits hfollows
    cases result with
    | ok value => exact ⟨later, hlater, hfits value rfl, hfollows⟩
    | error cause => exact ⟨later, hlater, hfollows⟩

/-- What the host offers keeps the state and gives what its signature promises. -/
theorem Callable.perform_offered {run : List Stmt → Run H Flow} {name : String} {arity : Nat}
    {signature : Signature Ty} {callable : Callable H} {args : List Value} {locals : TypeChain}
    {world : discipline.World} {state : State H}
    (hoffers : discipline.offers name arity signature callable)
    (harity : args.length = callable.arity)
    (hargs : List.Forall₂ (discipline.fits world) signature.params args)
    (hstate : discipline.Follows methods module locals world state) :
    (callable.perform run args).EnsuresIn world state
      (fun later value after ↦ discipline.fits later signature.returns value ∧
        discipline.Follows methods module locals later after)
      (discipline.Follows methods module locals) := by
  have hanswers := discipline.offers_answers _ _ _ _ hoffers
  revert hanswers hargs
  clear hoffers
  refine Callable.cases_of_arity callable args harity ?_ ?_ ?_ ?_
  · intro value _ hanswers
    rw [Callable.perform_print]
    exact .bind (.print (fun sink ↦ .pure ⟨hanswers world, hstate.withSink sink⟩) hstate)
  · intro start stop _ hanswers
    rw [Callable.perform_range]
    exact .bind (.ofExcept (fun start _ ↦ .bind (.ofExcept (fun stop _ ↦
      .pure ⟨hanswers world start stop, hstate⟩) hstate)) hstate)
  · intro function args harity hargs hanswers
    rw [Callable.perform_host run harity]
    exact Run.host_follows (hanswers world _ args hstate.objects hargs) hstate
  · exact fun _ _ _ _ hanswers ↦ hanswers.elim

/-- Calls serve when bodies of methods end as the checker says. -/
theorem Callable.perform_serves {run : List Stmt → Run H Flow}
    (hmoves : ∀ body, (run body).Moves State.SameCallers)
    (hreturns : ∀ body, blockAlwaysReturns body = true → ∀ state,
      (run body).Ensures state (fun flow _ ↦ flow ≠ .next) fun _ ↦ True)
    (hrun : ∀ {statements returns here behind} {world : discipline.World} {state : State H},
      (∀ binding ∈ blockDeclarations statements, discipline.Settles binding) →
      scopeBehind context [module, context.globals] returns here statements = .ok behind →
      discipline.Follows methods module [here] world state →
      (run statements).EnsuresIn world state (discipline.Leaves methods module returns behind [])
        (discipline.Stops methods module [])) :
    discipline.Serves methods module fun callable args ↦ callable.perform run args := by
  constructor
  · intro name arity signature callable args locals world state hcalls hargs hstate
    have harity : args.length = callable.arity := by
      rw [hcalls.arity.2, ← hcalls.arity.1, ← hargs.length_eq]
      rfl
    obtain ⟨hmethod, hsignature, hparams, hfound, hcheck⟩ | hoffers := hcalls
    · rename_i method
      obtain ⟨checked, here, hchecked, hscope, hbody⟩ := Method.check_eq_ok.mp hcheck
      rw [hsignature] at hchecked
      cases hchecked
      obtain ⟨behind, hbehind⟩ := checkBlock_eq_ok.mp hbody
      have hentered := hstate.enterCall
        (followsLocal_parameterScope hsignature hscope hargs)
      have hsettled := hstate.settled method hmethod
      have hends := (hrun hsettled.declarations hbehind hentered).and (hmoves method.body _)
      -- A body that ends without a return gives NIL: NIL is fine, or the body always returns.
      have hblank (later : discipline.World) (after : State H)
          (hnext : run method.body (state.enterCall (Callable.parameterScope method.params args)) =
            .ok .next after) : discipline.fits later signature.returns .nil := by
        obtain hblank | halways := hsettled.result _ hsignature
        · exact discipline.fits_blank later _ hblank
        · exact ((hreturns method.body halways _).ok hnext rfl).elim
      rw [Callable.perform_procedure run harity]
      refine .within (.bind (.of_run (fun flow after hflow ↦ ?_) fun cause after hcause ↦ ?_))
      · obtain ⟨⟨later, hlater, hleaves⟩, hcallers⟩ := hends.ok hflow
        refine ⟨later, hlater, ?_⟩
        cases flow with
        | next =>
          exact .pure ⟨hblank later after hflow,
            hstate.leaveCall hlater hleaves.2 hcallers.suspended⟩
        | returned value =>
          obtain ⟨inner, hinner⟩ := hleaves.2
          exact .pure ⟨hleaves.1, hstate.leaveCall hlater hinner hcallers.suspended⟩
      · obtain ⟨⟨later, hlater, inner, hinner⟩, hcallers⟩ := hends.error hcause
        exact ⟨later, hlater, hstate.leaveCall hlater hinner hcallers.suspended⟩
    · exact Callable.perform_offered hoffers harity hargs hstate
  · intro function args returns locals world state harity hkeeps hstate
    rw [Callable.perform_host run harity]
    exact Run.host_follows hkeeps hstate

/-- Calls keep a discipline, however deep they nest. -/
theorem Callable.invoke_serves (fuel : Nat) :
    discipline.Serves methods module (Callable.invoke fuel) := by
  induction fuel with
  | zero =>
    exact Callable.perform_serves (fun _ ↦ .throw _) (fun _ _ _ ↦ .throw trivial)
      fun _ _ hstate ↦ .throw ⟨_, hstate⟩
  | succ fuel ih =>
    exact Callable.perform_serves (execAllWith_moves (Callable.invoke_moves fuel) fuel)
      execAllWith_returns fun hsettled hcheck hstate ↦
        execAllWith_leaves ih fuel _ hsettled hcheck hstate

end

end ScriptLang
