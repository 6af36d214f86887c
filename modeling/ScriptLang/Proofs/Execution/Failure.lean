import Mathlib.Data.Prod.Basic
import ScriptLang.Proofs.Execution.Frames
import ScriptLang.Proofs.Execution.Moment

/-!
Where a failing run fails. `Breaks` lists the ways a node can fail by itself, when all of its parts
that were run have ended well. A node that fails does so by itself, or one of the next moments fails
with the same cause; as moments get smaller along a run, every failure begins at a moment that
breaks.
-/

set_option autoImplicit false
set_option relaxedAutoImplicit false

namespace ScriptLang

variable {H : Type} [Host H]

/-- The ways a call can fail that do not lead into the body of a method. -/
inductive Callable.Refuses : Callable H → List Value → State H → RuntimeError → Prop
  | count {callable args state} (harity : args.length ≠ callable.arity) :
    Refuses callable args state (.wrongArgumentCount callable.arity args.length)
  | print {value state cause} (hsink : state.sink.print value.display = .error cause) :
    Refuses .print [value] state cause
  | rangeStart {start stop state cause} (hstart : start.asInteger = .error cause) :
    Refuses .range [start, stop] state cause
  | rangeStop {start stop state cause} (hstop : stop.asInteger = .error cause) :
    Refuses .range [start, stop] state cause
  | host {function args state cause objects} (harity : args.length = function.arity)
    (hrun : Host.run function.body args state.objects = (.error cause, objects)) :
    Refuses (.host function) args state cause

section

variable (fuel : Nat)

/-- The ways a node can fail by itself. -/
inductive Breaks : Node → State H → RuntimeError → Prop
  | access {mark name resolved state} (hlookup : state.chain.lookup? name = none) :
    Breaks (.expr (.access mark name resolved)) state (.undefinedVariable name)
  | undecidedLeft {mark op left right state value middle decisive cause}
    (hop : op.shortcut? = some decisive) (hleft : left.eval fuel state = .ok value middle)
    (hvalue : value.asBoolean = .error cause) :
    Breaks (.expr (.binary mark op left right)) state cause
  | undecidedRight {mark op left right state first middle second after decisive cause}
    (hop : op.shortcut? = some decisive) (hleft : left.eval fuel state = .ok first middle)
    (hright : right.eval fuel middle = .ok second after)
    (hvalue : second.asBoolean = .error cause) :
    Breaks (.expr (.binary mark op left right)) state cause
  | operator {mark op left right state first middle second after cause}
    (hop : op.shortcut? = none) (hleft : left.eval fuel state = .ok first middle)
    (hright : right.eval fuel middle = .ok second after)
    (happly : op.apply first second = .error cause) :
    Breaks (.expr (.binary mark op left right)) state cause
  | memberReceiver {mark receiver name resolved state object middle cause}
    (hreceiver : receiver.eval fuel state = .ok object middle)
    (hobject : object.asObject = .error cause) :
    Breaks (.expr (.member mark receiver name resolved)) state cause
  | memberField {mark receiver name resolved state ref middle cause}
    (hreceiver : receiver.eval fuel state = .ok (.object ref) middle)
    (hfield : middle.objects.field ref name = .error cause) :
    Breaks (.expr (.member mark receiver name resolved)) state cause
  | undefinedCallee {mark name args resolved state values middle}
    (hargs : evalArgs fuel args state = .ok values middle)
    (hcallee : middle.chain.function? name values.length = none) :
    Breaks (.expr (.call mark name args resolved)) state (.undefinedFunction name values.length)
  | callee {mark name args resolved state values middle callable cause}
    (hargs : evalArgs fuel args state = .ok values middle)
    (hcallee : middle.chain.function? name values.length = some callable)
    (hrefuses : callable.Refuses values middle cause) :
    Breaks (.expr (.call mark name args resolved)) state cause
  | invokeReceiver {mark receiver name args resolved state object middle values after cause}
    (hreceiver : receiver.eval fuel state = .ok object middle)
    (hargs : evalArgs fuel args middle = .ok values after)
    (hobject : object.asObject = .error cause) :
    Breaks (.expr (.invoke mark receiver name args resolved)) state cause
  | invokeMethod {mark receiver name args resolved state ref middle values after cause}
    (hreceiver : receiver.eval fuel state = .ok (.object ref) middle)
    (hargs : evalArgs fuel args middle = .ok values after)
    (hmethod : after.objects.method ref name (values.length + 1) = .error cause) :
    Breaks (.expr (.invoke mark receiver name args resolved)) state cause
  | invoked {mark receiver name args resolved state ref middle values after function cause}
    (hreceiver : receiver.eval fuel state = .ok (.object ref) middle)
    (hargs : evalArgs fuel args middle = .ok values after)
    (hmethod : after.objects.method ref name (values.length + 1) = .ok function)
    (hrefuses : (Callable.host function).Refuses (.object ref :: values) after cause) :
    Breaks (.expr (.invoke mark receiver name args resolved)) state cause
  | target {target value state} (htarget : target.isTarget = false) :
    Breaks (.stmt (.assign target value)) state .invalidAssignmentTarget
  | assigned {mark name resolved value state result middle}
    (hvalue : value.eval fuel state = .ok result middle)
    (hassign : middle.assign? name result = none) :
    Breaks (.stmt (.assign (.access mark name resolved) value)) state (.undefinedVariable name)
  | assignedObject {mark receiver name resolved value state result middle object after cause}
    (hvalue : value.eval fuel state = .ok result middle)
    (hreceiver : receiver.eval fuel middle = .ok object after)
    (hobject : object.asObject = .error cause) :
    Breaks (.stmt (.assign (.member mark receiver name resolved) value)) state cause
  | assignedField {mark receiver name resolved value state result middle ref after cause}
    (hvalue : value.eval fuel state = .ok result middle)
    (hreceiver : receiver.eval fuel middle = .ok (.object ref) after)
    (hfield : after.objects.setField ref name result = .error cause) :
    Breaks (.stmt (.assign (.member mark receiver name resolved) value)) state cause
  | condition {condition thenBody elseBody state value middle cause}
    (hcondition : condition.eval fuel state = .ok value middle)
    (hvalue : value.asBoolean = .error cause) :
    Breaks (.stmt (.branch condition thenBody elseBody)) state cause
  | iterable {offset name iterable body state value middle cause}
    (hiterable : iterable.eval fuel state = .ok value middle)
    (hvalue : value.asRange = .error cause) :
    Breaks (.stmt (.forEach offset name iterable body)) state cause
  | loop {condition body state before value middle cause}
    (hrounds : Relation.ReflTransGen (Round fuel condition body) state before)
    (hcondition : condition.eval fuel before = .ok value middle)
    (hvalue : value.asBoolean = .error cause) :
    Breaks (.stmt (.loop condition body)) state cause

/-- Whether running a node fails. -/
def Node.Fails (node : Node) (state : State H) (cause : RuntimeError) : Prop :=
  match node with
  | .expr tree => ∃ after, tree.eval fuel state = .error (.failed cause) after
  | .stmt tree => ∃ after, tree.exec fuel state = .error (.failed cause) after

end

/-- Whether the run fails in the node of a moment. -/
def Moment.Fails (moment : Moment H) (cause : RuntimeError) : Prop :=
  moment.node.Fails moment.fuel moment.state cause

/-- Whether the run fails in a node that it comes to from a moment. -/
def Moment.FailsLater (moment : Moment H) (cause : RuntimeError) : Prop :=
  ∃ next, Relation.TransGen Moment.Next moment next ∧ next.Fails cause

/-! ### Sequences of parts -/

section

variable {fuel : Nat} {state after : State H} {cause : Interruption}

/-- Arguments fail at one of them, after all before it have been computed. -/
theorem evalArgs_eq_error {args : List Expr}
    (hrun : evalArgs fuel args state = .error cause after) :
    ∃ index arg values middle, evalArgs fuel (args.take index) state = .ok values middle ∧
      args[index]? = some arg ∧ arg.eval fuel middle = .error cause after := by
  induction args generalizing state with
  | nil => cases hrun
  | cons head tail ih =>
    obtain hhead | ⟨value, middle, hhead, hrest⟩ := Stateful.bind_eq_error hrun
    · exact ⟨0, head, [], state, rfl, rfl, hhead⟩
    · obtain htail | ⟨values, last, htail, hpure⟩ := Stateful.bind_eq_error hrest
      · obtain ⟨index, arg, values, last, hbefore, harg, hfails⟩ := ih htail
        refine ⟨index + 1, arg, value :: values, last, ?_, harg, hfails⟩
        exact (Stateful.bind_of_ok hhead).trans (Stateful.bind_of_ok hbefore)
      · cases hpure

/-- Statements fail at one of them, after all before it have run and gone on. -/
theorem execAll_eq_error {statements : List Stmt}
    (hrun : execAll fuel statements state = .error cause after) :
    ∃ index statement middle, execAll fuel (statements.take index) state = .ok .next middle ∧
      statements[index]? = some statement ∧ statement.exec fuel middle = .error cause after := by
  induction statements generalizing state with
  | nil => cases hrun
  | cons head tail ih =>
    unfold execAll at hrun
    rw [execAllWith] at hrun
    obtain hhead | ⟨flow, middle, hhead, hrest⟩ := Stateful.bind_eq_error hrun
    · exact ⟨0, head, state, rfl, rfl, hhead⟩
    · cases flow with
      | next =>
        obtain ⟨index, statement, last, hbefore, hstatement, hfails⟩ := ih hrest
        refine ⟨index + 1, statement, last, ?_, hstatement, hfails⟩
        unfold execAll
        rw [List.take_succ_cons, execAllWith]
        exact (Stateful.bind_of_ok hhead).trans hbefore
      | returned value => cases hrest

omit [Host H] in
/-- Entering and leaving a block do not fail, so its body does. -/
theorem block_eq_error {scope : ValueScope H} {body : Run H Flow}
    (hrun : Run.block scope body state = .error cause after) :
    ∃ inner, body (state.enterBlock scope) = .error cause inner := by
  unfold Run.block Run.within at hrun
  split at hrun
  · cases hrun
  · rename_i inner hbody
    cases hrun
    exact ⟨inner, hbody⟩

omit [Host H] in
/-- A loop over a range fails in one of its turns, after all turns before it. -/
theorem forRange_eq_error {body : Int → Run H Flow} {count : Nat} {start : Int}
    (hrun : Run.forRange body count start state = .error cause after) :
    ∃ index before, index < count ∧ Run.forRange body index start state = .ok .next before ∧
      body (start + index) before = .error cause after := by
  induction count generalizing start state with
  | zero => cases hrun
  | succ count ih =>
    obtain hround | ⟨flow, middle, hround, hrest⟩ := Stateful.bind_eq_error hrun
    · refine ⟨0, state, Nat.succ_pos count, rfl, ?_⟩
      rw [show start + (0 : Nat) = start from Int.add_zero start]
      exact hround
    · cases flow with
      | next =>
        obtain ⟨index, before, hindex, hbefore, hfails⟩ := ih hrest
        refine ⟨index + 1, before, Nat.succ_lt_succ hindex, ?_, ?_⟩
        · exact (Stateful.bind_of_ok hround).trans hbefore
        · rw [show start + (index + 1 : Nat) = start + 1 + index by omega]
          exact hfails
      | returned value => cases hrest

/-- A conditional loop fails in its condition or in its body, after some full rounds. -/
theorem repeatWhile_failed {condition : Expr} {body : List Stmt} {count : Nat}
    {cause : RuntimeError}
    (hrun : Run.repeatWhile (condition.holds fuel) (Run.block {} (execAll fuel body)) count state =
      .error (.failed cause) after) :
    ∃ before, Relation.ReflTransGen (Round fuel condition body) state before ∧
      (condition.holds fuel before = .error (.failed cause) after ∨
        ∃ middle, condition.holds fuel before = .ok true middle ∧
          Run.block {} (execAll fuel body) middle = .error (.failed cause) after) := by
  induction count generalizing state with
  | zero => cases hrun
  | succ count ih =>
    obtain hcondition | ⟨holds, middle, hcondition, hrest⟩ := Stateful.bind_eq_error hrun
    · exact ⟨state, .refl, .inl hcondition⟩
    · cases holds with
      | false => cases hrest
      | true =>
        obtain hbody | ⟨flow, last, hbody, hrest⟩ := Stateful.bind_eq_error hrest
        · exact ⟨state, .refl, .inr ⟨middle, hcondition, hbody⟩⟩
        · cases flow with
          | next =>
            obtain ⟨before, hrounds, hfails⟩ := ih hrest
            exact ⟨before, .head ⟨middle, hcondition, hbody⟩ hrounds, hfails⟩
          | returned value => cases hrest

end

/-! ### Calls -/

section

variable {state after : State H} {cause : RuntimeError}

/-- A call fails by itself, or in the body of the method that it enters. -/
theorem Callable.perform_failed {run : List Stmt → Run H Flow} {callable : Callable H}
    {args : List Value} (hrun : callable.perform run args state = .error (.failed cause) after) :
    callable.Refuses args state cause ∨ ∃ procedure last, callable = .procedure procedure ∧
      args.length = procedure.params.length ∧
      run procedure.body (state.enterCall (parameterScope procedure.params args)) =
        .error (.failed cause) last := by
  by_cases harity : args.length = callable.arity
  · revert hrun
    refine Callable.cases_of_arity callable args harity ?_ ?_ ?_ ?_
    · intro value hrun
      rw [Callable.perform_print] at hrun
      obtain hprint | ⟨_, _, _, hpure⟩ := Stateful.bind_eq_error hrun
      · rw [Run.print_apply] at hprint
        cases hsink : state.sink.print value.display with
        | ok sink =>
          rw [hsink] at hprint
          cases hprint
        | error other =>
          rw [hsink] at hprint
          cases hprint
          exact .inl (.print hsink)
      · cases hpure
    · intro start stop hrun
      rw [Callable.perform_range] at hrun
      obtain hstart | ⟨_, _, _, hrest⟩ := Stateful.bind_eq_error hrun
      · exact .inl (.rangeStart (Run.ofExcept_eq_error hstart))
      · obtain hstop | ⟨_, _, _, hpure⟩ := Stateful.bind_eq_error hrest
        · exact .inl (.rangeStop (Run.ofExcept_eq_error hstop))
        · cases hpure
    · intro function args harity hrun
      rw [Callable.perform_host run harity] at hrun
      unfold Run.host at hrun
      split at hrun
      · cases hrun
      · rename_i other objects hhost
        cases hrun
        exact .inl (.host harity hhost)
    · intro procedure args harity hrun
      rw [Callable.perform_procedure run harity] at hrun
      unfold Run.call Run.within at hrun
      split at hrun
      · cases hrun
      · rename_i other inner hbody
        cases hrun
        -- Behind the body a call only looks at how it ended, which cannot fail.
        obtain hfails | ⟨flow, _, _, hrest⟩ := Stateful.bind_eq_error hbody
        · exact .inr ⟨procedure, inner, rfl, harity, hfails⟩
        · cases flow <;> cases hrest
  · rw [Callable.perform_of_ne run harity] at hrun
    cases hrun
    exact .inl (.count harity)

variable {fuel : Nat} {place : Place} {callers : List Place}

/-- If the part that a turn leads to fails, then a moment that comes later does. -/
theorem Moment.failsLater_of_turn {node part : Node} {turn : Turn}
    (hdemands : Demands fuel node state turn part after) (hfails : part.Fails fuel after cause) :
    Moment.FailsLater ⟨fuel, place, callers, node, state⟩ cause :=
  ⟨⟨fuel, place.turn turn, callers, part, after⟩, .single (.turn hdemands), hfails⟩

/-- A function of the host is asked with the right count and fails by itself, or it refuses the
count. -/
theorem Callable.invoke_host_failed {function : HostFunction H} {values : List Value}
    (hrun : (Callable.host function).invoke fuel values state = .error (.failed cause) after) :
    (Callable.host function).Refuses values state cause := by
  cases fuel <;>
  · obtain hrefuses | ⟨procedure, last, heq, -⟩ := Callable.perform_failed hrun
    · exact hrefuses
    · cases heq

/-- A call that enters a method fails in one of its statements. -/
theorem Callable.invoke_failed {mark : Mark} {name : String} {args : List Expr}
    {resolved : Option (Signature Ty)} {values : List Value} {middle : State H}
    {callable : Callable H} (hargs : evalArgs fuel args state = .ok values middle)
    (hcallee : middle.chain.function? name values.length = some callable)
    (hrun : callable.invoke fuel values middle = .error (.failed cause) after) :
    callable.Refuses values middle cause ∨
      Moment.FailsLater ⟨fuel, place, callers, .expr (.call mark name args resolved), state⟩
        cause := by
  cases fuel with
  | zero =>
    obtain hrefuses | ⟨procedure, last, -, -, hbody⟩ := Callable.perform_failed hrun
    · exact .inl hrefuses
    · cases hbody
  | succ fuel =>
    obtain hrefuses | ⟨procedure, last, rfl, harity, hbody⟩ := Callable.perform_failed hrun
    · exact .inl hrefuses
    · obtain ⟨index, statement, before, hbefore, hstatement, hfails⟩ := execAll_eq_error hbody
      refine .inr ⟨_, .single (.enter hargs hcallee harity hbefore hstatement), ?_⟩
      exact ⟨last, hfails⟩

end

/-! ### Nodes -/

section

variable {fuel : Nat} {place : Place} {callers : List Place} {state after : State H}
  {cause : RuntimeError}

/-- A binary expression fails in one of its sides, by a value that is no Boolean, or by its
operator. -/
theorem Expr.binary_failed {mark : Mark} {op : BinaryOp} {left right : Expr}
    (hrun : (Expr.binary mark op left right).eval fuel state = .error (.failed cause) after) :
    Breaks fuel (.expr (.binary mark op left right)) state cause ∨
      Moment.FailsLater ⟨fuel, place, callers, .expr (.binary mark op left right), state⟩
        cause := by
  unfold eval at hrun
  rw [evalWith] at hrun
  obtain hleft | ⟨first, middle, hleft, hrest⟩ := Stateful.bind_eq_error hrun
  · exact .inr (Moment.failsLater_of_turn .left ⟨after, hleft⟩)
  · cases hop : op.shortcut? with
    | some decisive =>
      rw [hop] at hrest
      obtain hfirst | ⟨chosen, reached, hfirst, hundecided⟩ := Stateful.bind_eq_error hrest
      · exact .inl (.undecidedLeft hop hleft (Run.ofExcept_eq_error hfirst))
      · obtain ⟨hchosen, rfl⟩ := Run.ofExcept_eq_ok hfirst
        obtain rfl := Value.asBoolean_eq_ok hchosen
        by_cases hne : chosen = decisive
        · rw [if_pos hne] at hundecided
          cases hundecided
        · rw [if_neg hne] at hundecided
          obtain hright | ⟨second, last, hright, hlast⟩ := Stateful.bind_eq_error hundecided
          · exact .inr (Moment.failsLater_of_turn (.undecided hop hleft hne) ⟨after, hright⟩)
          · obtain hsecond | ⟨_, _, _, hpure⟩ := Stateful.bind_eq_error hlast
            · exact .inl (.undecidedRight hop hleft hright (Run.ofExcept_eq_error hsecond))
            · cases hpure
    | none =>
      rw [hop] at hrest
      obtain hright | ⟨second, last, hright, hrest⟩ := Stateful.bind_eq_error hrest
      · exact .inr (Moment.failsLater_of_turn (.right hop hleft) ⟨after, hright⟩)
      · exact .inl (.operator hop hleft hright (Run.ofExcept_eq_error hrest))

/-- Reading a field fails in its receiver, by a value that is no object, or by a field that is
missing. -/
theorem Expr.member_failed {mark : Mark} {receiver : Expr} {name : String}
    {resolved : Option (Variable Ty)}
    (hrun : (Expr.member mark receiver name resolved).eval fuel state =
      .error (.failed cause) after) :
    Breaks fuel (.expr (.member mark receiver name resolved)) state cause ∨
      Moment.FailsLater ⟨fuel, place, callers, .expr (.member mark receiver name resolved), state⟩
        cause := by
  unfold eval at hrun
  rw [evalWith] at hrun
  obtain hreceiver | ⟨object, middle, hreceiver, hrest⟩ := Stateful.bind_eq_error hrun
  · exact .inr (Moment.failsLater_of_turn .memberReceiver ⟨after, hreceiver⟩)
  · obtain hobject | ⟨ref, reached, hobject, hfield⟩ := Stateful.bind_eq_error hrest
    · exact .inl (.memberReceiver hreceiver (Run.ofExcept_eq_error hobject))
    · obtain ⟨href, rfl⟩ := Run.ofExcept_eq_ok hobject
      obtain rfl := Value.asObject_eq_ok href
      rw [Run.field_apply] at hfield
      exact .inl (.memberField hreceiver (Run.ofExcept_eq_error hfield))

/-- A call fails since nothing has this name and count, in one of its arguments, or in what is
called. -/
theorem Expr.call_failed {mark : Mark} {name : String} {args : List Expr}
    {resolved : Option (Signature Ty)}
    (hrun : (Expr.call mark name args resolved).eval fuel state = .error (.failed cause) after) :
    Breaks fuel (.expr (.call mark name args resolved)) state cause ∨
      Moment.FailsLater ⟨fuel, place, callers, .expr (.call mark name args resolved), state⟩
        cause := by
  unfold eval at hrun
  rw [evalWith] at hrun
  obtain hargs | ⟨values, middle, hargs, hrest⟩ := Stateful.bind_eq_error hrun
  · obtain ⟨index, arg, values, middle, hbefore, harg, hfails⟩ := evalArgs_eq_error hargs
    exact .inr (Moment.failsLater_of_turn (.callArg hbefore harg) ⟨after, hfails⟩)
  · cases hfound : middle.chain.function? name values.length with
    | some callable =>
      have hcallee : Run.function name values.length middle = .ok callable middle := by
        rw [Run.function_apply, hfound]
      rw [Stateful.bind_of_ok hcallee] at hrest
      obtain hrefuses | hlater := Callable.invoke_failed hargs hfound hrest
      · exact .inl (.callee hargs hfound hrefuses)
      · exact .inr hlater
    | none =>
      obtain hcallee | ⟨callable, reached, hcallee, -⟩ := Stateful.bind_eq_error hrest
      · rw [Run.function_apply, hfound] at hcallee
        cases hcallee
        exact .inl (.undefinedCallee hargs hfound)
      · rw [Run.function_apply, hfound] at hcallee
        cases hcallee

/-- A call of a method fails in its receiver or its arguments, by a receiver that is no object, or
by a method that is missing or refuses. -/
theorem Expr.invoke_failed {mark : Mark} {receiver : Expr} {name : String} {args : List Expr}
    {resolved : Option (Signature Ty)}
    (hrun : (Expr.invoke mark receiver name args resolved).eval fuel state =
      .error (.failed cause) after) :
    Breaks fuel (.expr (.invoke mark receiver name args resolved)) state cause ∨
      Moment.FailsLater
        ⟨fuel, place, callers, .expr (.invoke mark receiver name args resolved), state⟩ cause := by
  unfold eval at hrun
  rw [evalWith] at hrun
  obtain hreceiver | ⟨object, middle, hreceiver, hrest⟩ := Stateful.bind_eq_error hrun
  · exact .inr (Moment.failsLater_of_turn .invokeReceiver ⟨after, hreceiver⟩)
  · obtain hargs | ⟨values, reached, hargs, hcalled⟩ := Stateful.bind_eq_error hrest
    · obtain ⟨index, arg, values, last, hbefore, harg, hfails⟩ := evalArgs_eq_error hargs
      exact .inr (Moment.failsLater_of_turn (.invokeArg hreceiver hbefore harg) ⟨after, hfails⟩)
    · obtain hobject | ⟨ref, last, hobject, hfound⟩ := Stateful.bind_eq_error hcalled
      · exact .inl (.invokeReceiver hreceiver hargs (Run.ofExcept_eq_error hobject))
      · obtain ⟨href, rfl⟩ := Run.ofExcept_eq_ok hobject
        obtain rfl := Value.asObject_eq_ok href
        cases hmethod : last.objects.method ref name (values.length + 1) with
        | error other =>
          obtain hfails | ⟨callable, final, hgiven, -⟩ := Stateful.bind_eq_error hfound
          · rw [Run.method_apply, hmethod] at hfails
            cases hfails
            exact .inl (.invokeMethod hreceiver hargs hmethod)
          · rw [Run.method_apply, hmethod] at hgiven
            cases hgiven
        | ok function =>
          obtain hfails | ⟨callable, final, hgiven, hinvoked⟩ := Stateful.bind_eq_error hfound
          · rw [Run.method_apply, hmethod] at hfails
            cases hfails
          · rw [Run.method_apply, hmethod] at hgiven
            cases hgiven
            exact .inl (.invoked hreceiver hargs hmethod (Callable.invoke_host_failed hinvoked))

/-- An expression that fails does so by itself, or one of its parts fails later. -/
theorem Expr.eval_failed {expr : Expr}
    (hrun : expr.eval fuel state = .error (.failed cause) after) :
    Breaks fuel (.expr expr) state cause ∨
      Moment.FailsLater ⟨fuel, place, callers, .expr expr, state⟩ cause := by
  cases expr with
  | literal mark value => cases hrun
  | group mark inner => exact .inr (Moment.failsLater_of_turn .inner ⟨after, hrun⟩)
  | binary mark op left right => exact Expr.binary_failed hrun
  | access mark name resolved =>
    unfold eval at hrun
    rw [evalWith, Run.lookup_apply] at hrun
    cases hlookup : state.chain.lookup? name with
    | some value =>
      rw [hlookup] at hrun
      cases hrun
    | none =>
      rw [hlookup] at hrun
      cases hrun
      exact .inl (.access hlookup)
  | member mark receiver name resolved => exact Expr.member_failed hrun
  | call mark name args resolved => exact Expr.call_failed hrun
  | invoke mark receiver name args resolved => exact Expr.invoke_failed hrun

/-- A condition fails in its expression, or by a value that is no Boolean. -/
theorem Expr.holds_failed {condition : Expr}
    (hrun : condition.holds fuel state = .error (.failed cause) after) :
    (∃ last, condition.eval fuel state = .error (.failed cause) last) ∨
      ∃ value middle, condition.eval fuel state = .ok value middle ∧
        value.asBoolean = .error cause := by
  obtain heval | ⟨value, middle, heval, hrest⟩ := Stateful.bind_eq_error hrun
  · exact .inl ⟨after, heval⟩
  · exact .inr ⟨value, middle, heval, Run.ofExcept_eq_error hrest⟩

/-- A block that fails does so in one of its statements. -/
theorem block_failed {scope : ValueScope H} {body : List Stmt}
    (hrun : Run.block scope (execAll fuel body) state = .error (.failed cause) after) :
    ∃ index statement before, execAll fuel (body.take index) (state.enterBlock scope) =
        .ok .next before ∧
      body[index]? = some statement ∧ (Node.stmt statement).Fails fuel before cause := by
  obtain ⟨inner, hbody⟩ := block_eq_error hrun
  obtain ⟨index, statement, before, hbefore, hstatement, hfails⟩ := execAll_eq_error hbody
  exact ⟨index, statement, before, hbefore, hstatement, inner, hfails⟩

/-- An assignment fails in its value, in the receiver of its target, or by a variable or a field
that is missing. -/
theorem Expr.assign_failed {target value : Expr}
    (hrun : target.assignWith (Callable.invoke fuel) value state = .error (.failed cause) after) :
    Breaks fuel (.stmt (.assign target value)) state cause ∨
      Moment.FailsLater ⟨fuel, place, callers, .stmt (.assign target value), state⟩ cause := by
  cases target with
  | access mark name resolved =>
    obtain hvalue | ⟨result, middle, hvalue, hrest⟩ := Stateful.bind_eq_error hrun
    · exact .inr (Moment.failsLater_of_turn (.assigned rfl) ⟨after, hvalue⟩)
    · rw [Run.assign_apply] at hrest
      cases hassign : middle.assign? name result with
      | some last =>
        rw [hassign] at hrest
        cases hrest
      | none =>
        rw [hassign] at hrest
        cases hrest
        exact .inl (.assigned hvalue hassign)
  | member mark receiver name resolved =>
    obtain hvalue | ⟨result, middle, hvalue, hrest⟩ := Stateful.bind_eq_error hrun
    · exact .inr (Moment.failsLater_of_turn (.assigned rfl) ⟨after, hvalue⟩)
    · obtain hreceiver | ⟨object, last, hreceiver, hrest⟩ := Stateful.bind_eq_error hrest
      · refine .inr ⟨⟨fuel, (place.turn .target).turn .receiver, callers, .expr receiver, middle⟩,
          .tail (.single (.turn (.target rfl hvalue))) (.turn .memberReceiver), ?_⟩
        exact ⟨after, hreceiver⟩
      · obtain hobject | ⟨ref, reached, hobject, hstored⟩ := Stateful.bind_eq_error hrest
        · exact .inl (.assignedObject hvalue hreceiver (Run.ofExcept_eq_error hobject))
        · obtain ⟨href, rfl⟩ := Run.ofExcept_eq_ok hobject
          obtain rfl := Value.asObject_eq_ok href
          rw [Run.setField_apply] at hstored
          cases hfield : reached.objects.setField ref name result with
          | ok objects =>
            rw [hfield] at hstored
            cases hstored
          | error other =>
            rw [hfield] at hstored
            cases hstored
            exact .inl (.assignedField hvalue hreceiver hfield)
  | literal | group | binary | call | invoke =>
    cases hrun
    exact .inl (.target rfl)

/-- A statement that fails does so by itself or in one of its parts. The cases are those of the
statement. -/
theorem Stmt.exec_failed {statement : Stmt}
    (hrun : statement.exec fuel state = .error (.failed cause) after) :
    Breaks fuel (.stmt statement) state cause ∨
      Moment.FailsLater ⟨fuel, place, callers, .stmt statement, state⟩ cause := by
  unfold exec at hrun
  cases statement with
  | expr value =>
    rw [execWith, Stateful.discard_eq] at hrun
    obtain hrun | ⟨_, _, _, hpure⟩ := Stateful.bind_eq_error hrun
    · obtain hvalue | ⟨_, _, _, hpure⟩ := Stateful.bind_eq_error hrun
      · exact .inr (Moment.failsLater_of_turn .statementValue ⟨after, hvalue⟩)
      · cases hpure
    · cases hpure
  | declare binding =>
    rw [execWith] at hrun
    obtain hvalue | ⟨_, _, _, hmodify⟩ := Stateful.bind_eq_error hrun
    · unfold Binding.evalWith at hvalue
      cases hsome : binding.value with
      | none =>
        rw [hsome] at hvalue
        cases hvalue
      | some value =>
        rw [hsome] at hvalue
        exact .inr (Moment.failsLater_of_turn (.initialValue hsome) ⟨after, hvalue⟩)
    · cases hmodify
  | assign target value =>
    rw [execWith] at hrun
    obtain hassign | ⟨_, _, _, hpure⟩ := Stateful.bind_eq_error hrun
    · exact target.assign_failed hassign
    · cases hpure
  | branch condition thenBody elseBody =>
    rw [execWith] at hrun
    obtain hcondition | ⟨holds, middle, hcondition, hrest⟩ := Stateful.bind_eq_error hrun
    · obtain ⟨last, heval⟩ | ⟨value, middle, heval, hvalue⟩ := Expr.holds_failed hcondition
      · exact .inr (Moment.failsLater_of_turn .branchCondition ⟨last, heval⟩)
      · exact .inl (.condition heval hvalue)
    · cases holds with
      | true =>
        obtain ⟨index, statement, before, hbefore, hstatement, hfails⟩ := block_failed hrest
        exact .inr (Moment.failsLater_of_turn (.thenBody hcondition hbefore hstatement) hfails)
      | false =>
        obtain ⟨index, statement, before, hbefore, hstatement, hfails⟩ := block_failed hrest
        exact .inr (Moment.failsLater_of_turn (.elseBody hcondition hbefore hstatement) hfails)
  | forEach offset name iterable body =>
    rw [execWith] at hrun
    obtain hiterable | ⟨value, middle, hiterable, hrest⟩ := Stateful.bind_eq_error hrun
    · exact .inr (Moment.failsLater_of_turn .iterable ⟨after, hiterable⟩)
    · obtain hrange | ⟨bounds, reached, hrange, hloop⟩ := Stateful.bind_eq_error hrest
      · exact .inl (.iterable hiterable (Run.ofExcept_eq_error hrange))
      · obtain ⟨hbounds, rfl⟩ := Run.ofExcept_eq_ok hrange
        obtain rfl := Value.asRange_eq_ok hbounds
        obtain ⟨count, before, hcount, hrounds, hround⟩ := forRange_eq_error hloop
        obtain ⟨index, statement, begun, hbefore, hstatement, hfails⟩ := block_failed hround
        exact .inr (Moment.failsLater_of_turn
          (.rangeBody hiterable hcount hrounds hbefore hstatement) hfails)
  | loop condition body =>
    rw [execWith] at hrun
    obtain ⟨before, hrounds, hcondition | ⟨middle, hcondition, hbody⟩⟩ := repeatWhile_failed hrun
    · obtain ⟨last, heval⟩ | ⟨value, middle, heval, hvalue⟩ := Expr.holds_failed hcondition
      · exact .inr (Moment.failsLater_of_turn (.loopCondition hrounds) ⟨last, heval⟩)
      · exact .inl (.loop hrounds heval hvalue)
    · obtain ⟨index, statement, begun, hbefore, hstatement, hfails⟩ := block_failed hbody
      exact .inr
        (Moment.failsLater_of_turn (.loopBody hrounds hcondition hbefore hstatement) hfails)
  | ret value =>
    rw [execWith] at hrun
    obtain hvalue | ⟨_, _, _, hpure⟩ := Stateful.bind_eq_error hrun
    · exact .inr (Moment.failsLater_of_turn .returned ⟨after, hvalue⟩)
    · cases hpure

/-- A node that fails breaks, or the run fails in a node that it comes to from there. -/
theorem Moment.breaks_or_failsLater {moment : Moment H} (hfails : moment.Fails cause) :
    Breaks moment.fuel moment.node moment.state cause ∨ moment.FailsLater cause := by
  obtain ⟨fuel, place, callers, node, state⟩ := moment
  cases node with
  | expr tree =>
    obtain ⟨after, hrun⟩ := hfails
    exact Expr.eval_failed hrun
  | stmt tree =>
    obtain ⟨after, hrun⟩ := hfails
    exact Stmt.exec_failed hrun

end

/-! ### The moment at which a failure begins -/

section

variable {fuel : Nat} {state after : State H} {cause : RuntimeError}

/-- A part is smaller than the node that demands it. -/
theorem Demands.smaller {node part : Node} {turn : Turn}
    (hdemands : Demands fuel node state turn part after) : sizeOf part < sizeOf node := by
  cases hdemands with
  | callArg _ harg | invokeArg _ _ harg =>
    have hsmaller := List.sizeOf_lt_of_mem (List.mem_of_getElem? harg)
    simp only [Node.expr.sizeOf_spec, Expr.call.sizeOf_spec, Expr.invoke.sizeOf_spec]
    omega
  | thenBody _ _ hstatement | elseBody _ _ hstatement | rangeBody _ _ _ _ hstatement
  | loopBody _ _ _ hstatement =>
    have hsmaller := List.sizeOf_lt_of_mem (List.mem_of_getElem? hstatement)
    simp only [Node.stmt.sizeOf_spec, Stmt.branch.sizeOf_spec, Stmt.forEach.sizeOf_spec,
      Stmt.loop.sizeOf_spec]
    omega
  | @initialValue binding value _ hvalue =>
    have hsmaller : sizeOf value < sizeOf binding := by
      obtain ⟨name, typeName, initial, offset, resolved⟩ := binding
      cases hvalue
      simp only [Binding.mk.sizeOf_spec, Option.some.sizeOf_spec]
      omega
    simp only [Node.expr.sizeOf_spec, Node.stmt.sizeOf_spec, Stmt.declare.sizeOf_spec]
    omega
  | _ =>
    simp only [Node.expr.sizeOf_spec, Node.stmt.sizeOf_spec, Expr.group.sizeOf_spec,
      Expr.binary.sizeOf_spec, Expr.member.sizeOf_spec, Expr.invoke.sizeOf_spec,
      Stmt.expr.sizeOf_spec, Stmt.assign.sizeOf_spec, Stmt.branch.sizeOf_spec,
      Stmt.forEach.sizeOf_spec, Stmt.loop.sizeOf_spec, Stmt.ret.sizeOf_spec]
    omega

/-- Moments get smaller along a run: a call takes fuel, and a part is smaller than the node. -/
theorem Moment.Next.smaller {moment next : Moment H} (hnext : moment.Next next) :
    Prod.Lex (· < ·) (· < ·) (next.fuel, sizeOf next.node) (moment.fuel, sizeOf moment.node) := by
  cases hnext with
  | turn hdemands => exact .right _ hdemands.smaller
  | enter => exact .left _ _ (Nat.lt_succ_self _)

/-- Along a run either the fuel gets less, at a call, or the node smaller, so that moments are
well-founded. -/
theorem Moment.smaller_of_transGen {moment next : Moment H}
    (hlater : Relation.TransGen Moment.Next moment next) :
    Prod.Lex (· < ·) (· < ·) (next.fuel, sizeOf next.node) (moment.fuel, sizeOf moment.node) := by
  induction hlater with
  | single hnext => exact hnext.smaller
  | tail _ hnext ih => exact Prod.Lex.trans hnext.smaller ih

/-- Every failure in a node begins at a moment that breaks. -/
theorem Moment.Fails.origin {moment : Moment H} (hfails : moment.Fails cause) :
    ∃ origin, Relation.ReflTransGen Moment.Next moment origin ∧
      Breaks origin.fuel origin.node origin.state cause := by
  obtain hbreaks | ⟨next, hlater, hnext⟩ := Moment.breaks_or_failsLater hfails
  · exact ⟨moment, .refl, hbreaks⟩
  · obtain ⟨origin, horigin, hbreaks⟩ := Moment.Fails.origin hnext
    exact ⟨origin, hlater.to_reflTransGen.trans horigin, hbreaks⟩
termination_by (moment.fuel, sizeOf moment.node)
decreasing_by exact Moment.smaller_of_transGen hlater

/-- Fields fail at one of them that has a value, after all before it have been set. -/
theorem initializeFields_eq_error {fields : List Binding} {cause : Interruption}
    (hrun : initializeFields fuel fields state = .error cause after) :
    ∃ index field value before, initializeFields fuel (fields.take index) state = .ok () before ∧
      fields[index]? = some field ∧ field.value = some value ∧
      value.eval fuel before = .error cause after := by
  induction fields generalizing state with
  | nil => cases hrun
  | cons head tail ih =>
    obtain hvalue | ⟨result, middle, hvalue, hrest⟩ := Stateful.bind_eq_error hrun
    · unfold Binding.evalWith at hvalue
      cases hsome : head.value with
      | none =>
        rw [hsome] at hvalue
        cases hvalue
      | some value =>
        rw [hsome] at hvalue
        exact ⟨0, head, value, state, rfl, rfl, hsome, hvalue⟩
    · obtain hmodify | ⟨_, declared, hmodify, htail⟩ := Stateful.bind_eq_error hrest
      · cases hmodify
      · obtain ⟨index, field, value, before, hbefore, hfield, hsome, hfails⟩ := ih htail
        refine ⟨index + 1, field, value, before, ?_, hfield, hsome, hfails⟩
        exact (Stateful.bind_of_ok hvalue).trans ((Stateful.bind_of_ok hmodify).trans hbefore)

/-- Every failure of a program begins at a moment of its run that breaks. -/
theorem Program.failure_origin {program : Program} {start : State H}
    (hrun : program.run fuel start = .error (.failed cause) after) :
    ∃ moment, program.Reaches fuel start moment ∧
      Breaks moment.fuel moment.node moment.state cause := by
  obtain ⟨first, hbegins, hfails⟩ :
      ∃ first, program.Begins fuel start first ∧ first.Fails cause := by
    obtain hopen | ⟨_, opened, hopen, hrest⟩ := Stateful.bind_eq_error hrun
    · cases hopen
    · cases hopen
      obtain hfields | ⟨_, middle, hfields, hrest⟩ := Stateful.bind_eq_error hrest
      · obtain ⟨index, field, value, before, hbefore, hfield, hsome, hvalue⟩ :=
          initializeFields_eq_error hfields
        exact ⟨_, .field hbefore hfield hsome, after, hvalue⟩
      · obtain hdeclare | ⟨_, ready, hdeclare, hmain⟩ := Stateful.bind_eq_error hrest
        · cases hdeclare
        · cases hdeclare
          refine ⟨_, .main hfields, after, ?_⟩
          exact hmain
  obtain ⟨origin, hsteps, hbreaks⟩ := hfails.origin
  exact ⟨origin, ⟨first, hbegins, hsteps⟩, hbreaks⟩

end

end ScriptLang
