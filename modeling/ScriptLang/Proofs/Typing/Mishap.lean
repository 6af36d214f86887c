import ScriptLang.Proofs.Execution.Failure
import ScriptLang.Proofs.Typing.Lockstep

/-!
What can still go wrong in an accepted program. A moment of its run that breaks does so because of
a value that fits its type and is yet not of the kind that is asked for, because of an operator on
such values, because of a host, or because of output. Names are always found, and every call has the
right count of arguments.
-/

set_option autoImplicit false
set_option relaxedAutoImplicit false

namespace ScriptLang

section

variable {value : Value} {cause : RuntimeError}

theorem Value.asBoolean_eq_error (h : value.asBoolean = .error cause) :
    cause = .typeMismatch .boolean value.kind := by
  cases value <;> cases h <;> rfl

theorem Value.asInteger_eq_error (h : value.asInteger = .error cause) :
    cause = .typeMismatch .integer value.kind := by
  cases value <;> cases h <;> rfl

theorem Value.asRange_eq_error (h : value.asRange = .error cause) :
    cause = .typeMismatch .range value.kind := by
  cases value <;> cases h <;> rfl

theorem Value.asObject_eq_error (h : value.asObject = .error cause) :
    cause = .typeMismatch .object value.kind := by
  cases value <;> cases h <;> rfl

/-- An operator fails at a division by zero, or where neither its arithmetic nor its order applies
to the operands. -/
theorem BinaryOp.apply_eq_error {op : BinaryOp} {left right : Value}
    (h : op.apply left right = .error cause) :
    cause = .divisionByZero ∨ cause = .invalidOperands op left.kind right.kind ∧
      (op.arithmetic? left right).or (op.compare? left right) = none := by
  unfold apply at h
  split at h
  · cases h
    exact .inl rfl
  · split at h
    · cases h
    · rename_i hnone
      cases h
      exact .inr ⟨rfl, hnone⟩

/-- Printing fails with an output error alone. -/
theorem Sink.print_eq_error {sink : Sink} {line : String} (h : sink.print line = .error cause) :
    ∃ reason, cause = .outputFailed reason := by
  cases sink with
  | text printed => cases h
  | broken reason =>
    cases h
    exact ⟨reason, rfl⟩

variable {H : Type} {objects : ObjectStore H} {ref : ObjectRef} {name : String}

/-- Reading a field fails only where the object has no such field. -/
theorem ObjectStore.field_eq_error (h : objects.field ref name = .error cause) :
    cause = .undefinedField ref.typeName name ∧ (objects.members ref).lookup? name = none := by
  unfold field at h
  split at h
  · cases h
  · rename_i hnone
    cases h
    exact ⟨rfl, hnone⟩

/-- Writing a field fails only where the object has no such field. -/
theorem ObjectStore.setField_eq_error (h : objects.setField ref name value = .error cause) :
    cause = .undefinedField ref.typeName name ∧ (objects.members ref).lookup? name = none := by
  unfold setField at h
  split at h
  · cases h
  · rename_i hnone
    cases h
    refine ⟨rfl, ?_⟩
    unfold members
    cases hobject : objects[ref.index]? with
    | none => rfl
    | some object =>
      rw [hobject, Option.bind_some, Object.setField?, ite_eq_right_iff] at hnone
      exact Option.not_isSome_iff_eq_none.mp fun hsome ↦ nomatch hnone hsome

/-- Finding a method fails only where the object has none of the name and count of arguments. -/
theorem ObjectStore.method_eq_error {arity : Nat}
    (h : objects.method ref name arity = .error cause) :
    cause = .undefinedMethod ref.typeName name (arity - 1) ∧
      (objects.members ref).function? name arity = none := by
  unfold method at h
  split at h
  · cases h
  · rename_i hnone
    cases h
    exact ⟨rfl, hnone⟩

end

variable {H : Type} [Host H]

namespace Discipline

variable {context : TypeContext}

/-- Why the use of a member that a record type has fails. -/
inductive MemberMishap (discipline : Discipline H context) : RuntimeError → Prop
  | noObject {world record value cause} (hadmits : discipline.admits (.record record))
    (hfits : discipline.fits world (.record record) value)
    (hobject : value.asObject = .error cause) : MemberMishap discipline cause
  | noField {world record ref name found objects} (hadmits : discipline.admits (.record record))
    (hfits : discipline.fits world (.record record) (.object ref))
    (hfound : Ty.field? (.record record) name = some found)
    (hobjects : discipline.objects world objects)
    (hnone : (objects.members ref).lookup? name = none) :
    MemberMishap discipline (.undefinedField ref.typeName name)
  | noMethod {world record ref name arity found objects}
    (hadmits : discipline.admits (.record record))
    (hfits : discipline.fits world (.record record) (.object ref))
    (hfound : Ty.method? (.record record) name arity = some found)
    (hobjects : discipline.objects world objects)
    (hnone : (objects.members ref).function? name arity = none) :
    MemberMishap discipline (.undefinedMethod ref.typeName name (arity - 1))
  | refused {world record ref name arity found objects function args cause objects'}
    (hadmits : discipline.admits (.record record))
    (hfits : discipline.fits world (.record record) (.object ref))
    (hfound : Ty.method? (.record record) name arity = some found)
    (hobjects : discipline.objects world objects)
    (hmethod : objects.method ref name arity = .ok function)
    (hargs : List.Forall₂ (discipline.fits world) (found.params.drop 1) args)
    (hrun : Host.run function.body (.object ref :: args) objects = (.error cause, objects')) :
    MemberMishap discipline cause

/-- Members go wrong only under a discipline that admits record types. -/
theorem MemberMishap.admits_record {discipline : Discipline H context} {cause : RuntimeError}
    (h : discipline.MemberMishap cause) : ∃ record, discipline.admits (.record record) := by
  cases h with
  | noObject hadmits | noField hadmits | noMethod hadmits | refused hadmits => exact ⟨_, hadmits⟩

/-- What can go wrong at a node whose site is known. -/
inductive Mishap (discipline : Discipline H context) (moment : Moment H) (site : Site) :
    RuntimeError → Prop
  | noBoolean {world value cause} (hfits : discipline.fits world .boolean value)
    (hvalue : value.asBoolean = .error cause) : Mishap discipline moment site cause
  | noRange {world value cause} (hfits : discipline.fits world .range value)
    (hvalue : value.asRange = .error cause) : Mishap discipline moment site cause
  | operator {world mark op left right leftType rightType offsets type first middle second after
      cause}
    (hnode : moment.node = .expr (.binary mark op left right))
    (hadmits : discipline.admits leftType) (hleftType : left.infer site.scopes = .ok leftType)
    (htype : op.type leftType rightType offsets = .ok type) (hop : op.shortcut? = none)
    (hleft : left.eval moment.fuel moment.state = .ok first middle)
    (hright : right.eval moment.fuel middle = .ok second after)
    (hfirst : discipline.fits world leftType first)
    (hsecond : discipline.fits world rightType second)
    (happly : op.apply first second = .error cause) : Mishap discipline moment site cause
  | callee {world name arity signature callable args state cause}
    (hoffers : discipline.offers name arity signature callable)
    (hobjects : discipline.objects world state.objects)
    (hargs : List.Forall₂ (discipline.fits world) signature.params args)
    (harity : args.length = callable.arity)
    (hrefuses : callable.Refuses args (state : State H) cause) : Mishap discipline moment site cause
  | member {cause} (hmishap : discipline.MemberMishap cause) : Mishap discipline moment site cause

variable {discipline : Discipline H context} {program : Program} {moment : Moment H} {site : Site}
  {locals : TypeChain} {module : TypeScope} {world : discipline.World} {cause : RuntimeError}

section

variable {methods : List Method} {state middle after : State H} {fuel : Nat} {mark : Mark}
  {receiver : Expr} {name : String}

/-- Where a value should have a field and is no object, the use of a member goes wrong. -/
theorem mishap_of_noObject {type : Ty} {object : Value} {found : Variable Ty}
    (hgives : discipline.Gives methods module locals type world object state)
    (hfound : type.field? name = some found) (hobject : object.asObject = .error cause) :
    discipline.MemberMishap cause := by
  obtain ⟨record, rfl, -⟩ := Ty.field?_eq_some.mp hfound
  exact .noObject hgives.1.1 hgives.1.2 hobject

/-- Where an object does not have a field that its type has, the use of a member goes wrong. -/
theorem mishap_of_noField {type : Ty} {ref : ObjectRef} {found : Variable Ty}
    (hgives : discipline.Gives methods module locals type world (.object ref) state)
    (hfound : type.field? name = some found)
    (hfield : cause = .undefinedField ref.typeName name ∧
      (state.objects.members ref).lookup? name = none) : discipline.MemberMishap cause := by
  obtain ⟨record, rfl, hfound⟩ := Ty.field?_eq_some.mp hfound
  obtain ⟨rfl, hnone⟩ := hfield
  exact .noField hgives.1.1 hgives.1.2 hfound hgives.2.objects hnone

/-- A node that reads a member breaks because of the member. -/
theorem Follows.mishap_member {resolved : Option (Variable Ty)} {type : Ty}
    (hstate : discipline.Follows methods module locals world state)
    (htype : (Expr.member mark receiver name resolved).infer
      (locals ++ [module, context.globals]) = .ok type)
    (hbreaks : Breaks fuel (.expr (.member mark receiver name resolved)) state cause) :
    discipline.MemberMishap cause := by
  obtain ⟨receiverType, found, hinfer, hfound, -⟩ := Expr.infer_member.mp htype
  cases hbreaks with
  | memberReceiver hreceiver hobject =>
    obtain ⟨later, -, hgives⟩ := Expr.eval_gives hstate hinfer hreceiver
    exact mishap_of_noObject hgives hfound hobject
  | memberField hreceiver hfield =>
    obtain ⟨later, -, hgives⟩ := Expr.eval_gives hstate hinfer hreceiver
    exact mishap_of_noField hgives hfound (ObjectStore.field_eq_error hfield)

/-- A node that assigns to a member breaks because of the member. -/
theorem Follows.mishap_assigned {resolved : Option (Variable Ty)} {value : Expr}
    {found expected : Ty} (hstate : discipline.Follows methods module locals world state)
    (hfound : value.infer (locals ++ [module, context.globals]) = .ok found)
    (hexpected : (Expr.member mark receiver name resolved).infer
      (locals ++ [module, context.globals]) = .ok expected)
    (hbreaks : Breaks fuel (.stmt (.assign (.member mark receiver name resolved) value)) state
      cause) : discipline.MemberMishap cause := by
  obtain ⟨receiverType, member, hinfer, hmember, -⟩ := Expr.infer_member.mp hexpected
  cases hbreaks with
  | target htarget => cases htarget
  | assignedObject hvalue hreceiver hobject =>
    obtain ⟨reached, -, hresult⟩ := Expr.eval_gives hstate hfound hvalue
    obtain ⟨later, -, hgives⟩ := Expr.eval_gives hresult.2 hinfer hreceiver
    exact mishap_of_noObject hgives hmember hobject
  | assignedField hvalue hreceiver hfield =>
    obtain ⟨reached, -, hresult⟩ := Expr.eval_gives hstate hfound hvalue
    obtain ⟨later, -, hgives⟩ := Expr.eval_gives hresult.2 hinfer hreceiver
    exact mishap_of_noField hgives hmember (ObjectStore.setField_eq_error hfield)

/-- The receiver of an accepted call of a method still fits when the arguments do. -/
theorem Follows.invokeArgs {args : List Expr} {receiverType : Ty} {found : Signature Ty}
    {object : Value} {values : List Value}
    (hstate : discipline.Follows methods module locals world state)
    (hinfer : receiver.infer (locals ++ [module, context.globals]) = .ok receiverType)
    (hfound : receiverType.method? name (args.length + 1) = some found)
    (hchecked : checkArgs (locals ++ [module, context.globals]) args (found.params.drop 1) = .ok ())
    (hreceiver : receiver.eval fuel state = .ok object middle)
    (hargs : evalArgs fuel args middle = .ok values after) :
    values.length = args.length ∧ ∃ later,
      discipline.Gives methods module locals receiverType later object after ∧
        List.Forall₂ (discipline.fits later) (found.params.drop 1) values := by
  obtain ⟨reached, -, hobject⟩ := Expr.eval_gives hstate hinfer hreceiver
  have harity := (discipline.admits_method _ _ _ _ hobject.1.1 hfound).1
  have hcount : (found.params.drop 1).length = args.length := by
    rw [List.length_drop, show found.params.length = args.length + 1 from harity]
    rfl
  obtain ⟨later, hlater, hfits, hafter⟩ := Run.Ensures.ok
    (evalArgsWith_fits (Callable.invoke_serves fuel) args hobject.2 hchecked hcount) hargs
  exact ⟨by rw [← hcount, hfits.length_eq], later, ⟨hobject.1.later hlater, hafter⟩, hfits⟩

/-- A node that calls a method of an object breaks because of the member. -/
theorem Follows.mishap_invoke {args : List Expr} {resolved : Option (Signature Ty)} {type : Ty}
    (hstate : discipline.Follows methods module locals world state)
    (htype : (Expr.invoke mark receiver name args resolved).infer
      (locals ++ [module, context.globals]) = .ok type)
    (hbreaks : Breaks fuel (.expr (.invoke mark receiver name args resolved)) state cause) :
    discipline.MemberMishap cause := by
  obtain ⟨receiverType, found, hinfer, hfound, hchecked, -⟩ := Expr.infer_invoke.mp htype
  obtain ⟨record, rfl, -⟩ := Ty.method?_eq_some.mp hfound
  cases hbreaks with
  | invokeReceiver hreceiver hargs hobject =>
    obtain ⟨-, later, hgives, -⟩ := hstate.invokeArgs hinfer hfound hchecked hreceiver hargs
    exact .noObject hgives.1.1 hgives.1.2 hobject
  | invokeMethod hreceiver hargs hmethod =>
    obtain ⟨hlength, later, hgives, -⟩ := hstate.invokeArgs hinfer hfound hchecked hreceiver hargs
    obtain ⟨rfl, hnone⟩ := ObjectStore.method_eq_error hmethod
    exact .noMethod hgives.1.1 hgives.1.2 (hlength ▸ hfound) hgives.2.objects hnone
  | invoked hreceiver hargs hmethod hrefuses =>
    obtain ⟨hlength, later, hgives, hfits⟩ :=
      hstate.invokeArgs hinfer hfound hchecked hreceiver hargs
    cases hrefuses with
    | count hcount => exact (hcount (ObjectStore.method_arity hmethod).symm).elim
    | host _ hrun =>
      exact .refused hgives.1.1 hgives.1.2 (hlength ▸ hfound) hgives.2.objects hmethod hfits hrun

end

/-- A node that breaks in a state that follows its site breaks for one of these reasons. -/
theorem Agrees.mishap_expr {expr : Expr}
    (hagrees : discipline.Agrees program moment site locals module world)
    (haccepted : site.Accepted context) (hnode : moment.node = .expr expr)
    (hbreaks : Breaks moment.fuel (.expr expr) moment.state cause) :
    discipline.Mishap moment site cause := by
  obtain ⟨type, htype⟩ := (Site.accepted_expr (hagrees.node.trans hnode)).mp haccepted
  have hstate := hagrees.follows
  have hscopes := hagrees.scopes
  cases hbreaks with
  | access hlookup =>
    obtain ⟨found, hfound, -⟩ := Expr.infer_access.mp htype
    obtain ⟨value, hvalue, -⟩ := hstate.lookup (hscopes ▸ hfound)
    rw [hlookup] at hvalue
    cases hvalue
  | undecidedLeft hop hleft hvalue =>
    obtain ⟨leftType, rightType, hinfer, -, hop'⟩ := Expr.infer_binary.mp htype
    obtain ⟨later, -, hgives⟩ := Expr.eval_gives hstate (hscopes ▸ hinfer) hleft
    obtain ⟨-, hboolean, -⟩ := BinaryOp.type_of_shortcut hop hop'
    exact .noBoolean (discipline.fits_assignable _ _ _ _ hboolean hgives.1.2) hvalue
  | undecidedRight hop hleft hright hvalue =>
    obtain ⟨leftType, rightType, hinfer, hinfer', hop'⟩ := Expr.infer_binary.mp htype
    obtain ⟨reached, -, hmiddle⟩ := Expr.eval_gives hstate (hscopes ▸ hinfer) hleft
    obtain ⟨later, -, hgives⟩ := Expr.eval_gives hmiddle.2 (hscopes ▸ hinfer') hright
    obtain ⟨-, -, hboolean⟩ := BinaryOp.type_of_shortcut hop hop'
    exact .noBoolean (discipline.fits_assignable _ _ _ _ hboolean hgives.1.2) hvalue
  | operator hop hleft hright happly =>
    obtain ⟨leftType, rightType, hinfer, hinfer', hop'⟩ := Expr.infer_binary.mp htype
    obtain ⟨reached, -, hfirst⟩ := Expr.eval_gives hstate (hscopes ▸ hinfer) hleft
    obtain ⟨later, hlater, hsecond⟩ := Expr.eval_gives hfirst.2 (hscopes ▸ hinfer') hright
    exact .operator hnode hfirst.1.1 hinfer hop' hop hleft hright
      (discipline.fits_later hlater hfirst.1.2) hsecond.1.2 happly
  | memberReceiver hreceiver hobject =>
    exact .member (hstate.mishap_member (hscopes ▸ htype) (.memberReceiver hreceiver hobject))
  | memberField hreceiver hfield =>
    exact .member (hstate.mishap_member (hscopes ▸ htype) (.memberField hreceiver hfield))
  | undefinedCallee hargs hcallee =>
    obtain ⟨found, hfound, hchecked, -⟩ := Expr.infer_call.mp htype
    obtain ⟨hlength, later, -, -, -, callable, hcallable, -⟩ :=
      hstate.callArgs (hscopes ▸ hfound) (hscopes ▸ hchecked) hargs
    rw [hlength, hcallable] at hcallee
    cases hcallee
  | callee hargs hcallee hrefuses =>
    obtain ⟨found, hfound, hchecked, -⟩ := Expr.infer_call.mp htype
    obtain ⟨hlength, later, -, hfits, hmiddle, callable, hcallable, hcalls⟩ :=
      hstate.callArgs (hscopes ▸ hfound) (hscopes ▸ hchecked) hargs
    rw [hlength, hcallable] at hcallee
    cases hcallee
    have harity := hlength.trans hcalls.arity.2.symm
    obtain hprovides | hoffers := hcalls
    · obtain ⟨method, -, -, -, -, rfl⟩ := hprovides.exists_method
      cases hrefuses with
      | count hcount => exact (hcount harity).elim
    · exact .callee hoffers hmiddle.objects hfits harity hrefuses
  | invokeReceiver hreceiver hargs hobject =>
    exact .member (hstate.mishap_invoke (hscopes ▸ htype) (.invokeReceiver hreceiver hargs hobject))
  | invokeMethod hreceiver hargs hmethod =>
    exact .member (hstate.mishap_invoke (hscopes ▸ htype) (.invokeMethod hreceiver hargs hmethod))
  | invoked hreceiver hargs hmethod hrefuses =>
    exact .member
      (hstate.mishap_invoke (hscopes ▸ htype) (.invoked hreceiver hargs hmethod hrefuses))

/-- What goes wrong at an accepted statement itself is that a condition or a range is of another
kind than was found, or that a field cannot be assigned to. -/
theorem Agrees.mishap_stmt {statement : Stmt}
    (hagrees : discipline.Agrees program moment site locals module world)
    (haccepted : site.Accepted context) (hnode : moment.node = .stmt statement)
    (hbreaks : Breaks moment.fuel (.stmt statement) moment.state cause) :
    discipline.Mishap moment site cause := by
  obtain ⟨behind, hcheck⟩ := (Site.accepted_stmt (hagrees.node.trans hnode)).mp haccepted
  have hstate := hagrees.follows
  have hscopes : site.here :: site.outer = locals ++ [module, context.globals] := hagrees.scopes
  cases hbreaks with
  | target htarget =>
    obtain ⟨-, hisTarget, -⟩ := Stmt.check_assign.mp hcheck
    rw [htarget] at hisTarget
    cases hisTarget
  | assigned hvalue hassign =>
    obtain ⟨-, -, found, expected, hfound, hexpected, hassignable⟩ := Stmt.check_assign.mp hcheck
    obtain ⟨known, hknown, rfl⟩ := Expr.infer_access.mp hexpected
    obtain ⟨later, -, hresult⟩ := Expr.eval_gives hstate (hscopes ▸ hfound) hvalue
    obtain ⟨old, -, hold⟩ := hstate.lookup (hscopes ▸ hknown)
    have hfits := discipline.fits_assignable _ _ _ _ hassignable hresult.1.2
    obtain ⟨after, hafter, -⟩ := hresult.2.assign (hscopes ▸ hknown) ⟨hold.1, hfits⟩
    rw [hassign] at hafter
    cases hafter
  | assignedObject hvalue hreceiver hobject =>
    obtain ⟨-, -, found, expected, hfound, hexpected, -⟩ := Stmt.check_assign.mp hcheck
    exact .member (hstate.mishap_assigned (hscopes ▸ hfound) (hscopes ▸ hexpected)
      (.assignedObject hvalue hreceiver hobject))
  | assignedField hvalue hreceiver hfield =>
    obtain ⟨-, -, found, expected, hfound, hexpected, -⟩ := Stmt.check_assign.mp hcheck
    exact .member (hstate.mishap_assigned (hscopes ▸ hfound) (hscopes ▸ hexpected)
      (.assignedField hvalue hreceiver hfield))
  | condition hcondition hvalue =>
    obtain ⟨-, hboolean, -⟩ := Stmt.check_branch.mp hcheck
    obtain ⟨later, -, hfits, -⟩ := Expr.eval_fits hstate (hscopes ▸ hboolean) hcondition
    exact .noBoolean hfits hvalue
  | iterable hiterable hvalue =>
    obtain ⟨-, hrange, -⟩ := Stmt.check_forEach.mp hcheck
    obtain ⟨later, -, hfits, -⟩ := Expr.eval_fits hstate (hscopes ▸ hrange) hiterable
    exact .noRange hfits hvalue
  | loop hrounds hcondition hvalue =>
    obtain ⟨-, hboolean, hbody⟩ := Stmt.check_loop.mp hcheck
    have hsettled : discipline.SettlesNode (.stmt _) := hnode ▸ hagrees.settled
    obtain ⟨reached, -, hbefore⟩ :=
      Round.follows hscopes (hscopes ▸ hboolean) hbody hsettled hstate hrounds
    obtain ⟨later, -, hfits, -⟩ := Expr.eval_fits hbefore (hscopes ▸ hboolean) hcondition
    exact .noBoolean hfits hvalue

/-- What goes wrong in a run of an accepted program. -/
theorem mishap_of_breaks {fuel : Nat} {start : State H} (hpaired : program.Paired)
    (hcheck : program.check context = .ok ()) (hsuspended : start.suspended = [])
    (hsettled : ∀ field ∈ program.fields, discipline.Settles field)
    (hstart : discipline.Follows program.methods {} [] world (Program.opened start))
    (hreaches : program.Reaches fuel start moment)
    (hbreaks : Breaks moment.fuel moment.node moment.state cause) :
    ∃ site, program.site? context moment.place = some site ∧ site.node = moment.node ∧
      discipline.Mishap moment site cause := by
  obtain ⟨site, locals, module, later, -, hagrees⟩ :=
    hreaches.inStep hpaired hcheck hsuspended hsettled hstart
  have haccepted := Program.site?_accepted hpaired hcheck hagrees.found
  refine ⟨site, hagrees.found, hagrees.node, ?_⟩
  cases hnode : moment.node with
  | expr expr => exact hagrees.mishap_expr haccepted hnode (hnode ▸ hbreaks)
  | stmt statement => exact hagrees.mishap_stmt haccepted hnode (hnode ▸ hbreaks)

end Discipline

end ScriptLang
