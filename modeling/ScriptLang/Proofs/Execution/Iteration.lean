import ScriptLang.Proofs.Execution.Beside
import ScriptLang.Proofs.Execution.Fuel

/-!
A loop over a range is a conditional loop with a counter. The counter and the bound live in a scope
of their own that the body does not mention, so that no assignment in the body reaches them, and the
turns are those for the integers of the range in order.
-/

set_option autoImplicit false
set_option relaxedAutoImplicit false

namespace ScriptLang

/-! ### The texts that are compared -/

/-- A variable, as it is read and assigned to. -/
def Expr.variable (name : String) : Expr := .access ⟨0, none⟩ name none

def Expr.integer (value : Int) : Expr := .literal ⟨0, none⟩ (.integer value)

namespace Stmt

/-- A block by itself. -/
def nested (body : List Stmt) : Stmt := .branch (.literal ⟨0, none⟩ (.boolean true)) body []

def declared (name : String) (value : Expr) : Stmt := .declare ⟨name, none, some value, 0, none⟩

def increment (counter : String) : Stmt :=
  .assign (.variable counter) (.binary ⟨0, none⟩ .add (.variable counter) (.integer 1))

/-- A loop in which `name` is a copy of `counter`, which goes from `start` up to `stop`. -/
def counted (name counter bound : String) (start stop : Int) (body : List Stmt) : List Stmt :=
  [declared counter (.integer start), declared bound (.integer stop),
    .loop (.binary ⟨0, none⟩ .less (.variable counter) (.variable bound))
      (declared name (.variable counter) :: (body ++ [increment counter]))]

/-- The body once for each of `count` integers in order from `start`. -/
def turns (name : String) (body : List Stmt) : Nat → Int → List Stmt
  | 0, _ => []
  | count + 1, start =>
    nested (declared name (.integer start) :: body) ::
      turns name body count (start + 1)

end Stmt

section

variable {H : Type} {invoke : Callable H → List Value → Run H Value} {fuel : Nat}

/-- Statements go on after a first one that does not return. -/
theorem execAllWith_cons_of_next {head : Stmt} {state middle : State H}
    (hhead : head.execWith invoke fuel state = .ok .next middle) (tail : List Stmt) :
    execAllWith invoke fuel (head :: tail) state = execAllWith invoke fuel tail middle := by
  rw [execAllWith, Stateful.bind_of_ok hhead]

/-- A single statement is run as it is. -/
theorem execAllWith_singleton (statement : Stmt) :
    execAllWith invoke fuel [statement] = statement.execWith invoke fuel := by
  funext state
  rw [execAllWith]
  cases hrun : statement.execWith invoke fuel state with
  | ok flow after =>
    rw [Stateful.bind_of_ok hrun]
    cases flow <;> rfl
  | error cause after => rw [Stateful.bind_of_error hrun]

/-- Statements that are put together run one after another, unless the first ones return. -/
theorem execAllWith_append (first second : List Stmt) :
    execAllWith invoke fuel (first ++ second) = do
      match ← execAllWith invoke fuel first with
      | .next => execAllWith invoke fuel second
      | .returned value => return .returned value := by
  induction first with
  | nil => rfl
  | cons head tail ih =>
    rw [List.cons_append, execAllWith, execAllWith, bind_assoc]
    refine bind_congr fun flow ↦ ?_
    cases flow with
    | next => exact ih
    | returned value => rfl

/-- A block by itself is run in a scope of its own. -/
theorem Stmt.execWith_nested (body : List Stmt) (state : State H) :
    (nested body).execWith invoke fuel state =
      Run.block {} (execAllWith invoke fuel body) state := by
  unfold nested
  rw [Stmt.execWith]
  exact Stateful.bind_of_ok rfl

/-- A declaration in a block whose value leaves the state alone. -/
theorem Stmt.execWith_declared {name : String} {expr : Expr} {state : State H}
    {scope : ValueScope H} {value : Value}
    (heval : expr.evalWith invoke (state.enterBlock scope) = .ok value (state.enterBlock scope)) :
    (declared name expr).execWith invoke fuel (state.enterBlock scope) =
      .ok .next (state.enterBlock (scope.declare name value)) := by
  unfold declared
  rw [Stmt.execWith]
  exact Stateful.bind_of_ok heval

/-- A block that begins with a declaration starts out with that variable in its scope. -/
theorem block_declared {name : String} {expr : Expr} {state : State H} {scope : ValueScope H}
    {value : Value}
    (heval : expr.evalWith invoke (state.enterBlock scope) = .ok value (state.enterBlock scope))
    (body : List Stmt) :
    Run.block scope (execAllWith invoke fuel (Stmt.declared name expr :: body)) state =
      Run.block (scope.declare name value) (execAllWith invoke fuel body) state := by
  unfold Run.block Run.within
  rw [execAllWith_cons_of_next (Stmt.execWith_declared heval) body]

theorem evalWith_integer (value : Int) (state : State H) :
    (Expr.integer value).evalWith invoke state = .ok (.integer value) state := rfl

/-- The turns written out one after the other. -/
theorem execAllWith_turns (name : String) (body : List Stmt) (count : Nat) (start : Int) :
    execAllWith invoke fuel (Stmt.turns name body count start) =
      Run.forRange (fun item ↦
        Run.block (Scope.declare {} name (.integer item)) (execAllWith invoke fuel body))
        count start := by
  induction count generalizing start with
  | zero => rfl
  | succ count ih =>
    have hhead : (Stmt.nested (Stmt.declared name (.integer start) :: body)).execWith invoke fuel =
        Run.block (Scope.declare {} name (.integer start)) (execAllWith invoke fuel body) := by
      funext state
      rw [Stmt.execWith_nested]
      exact block_declared (evalWith_integer start _) body
    rw [Stmt.turns, execAllWith, hhead, ih]
    rfl

end

/-! ### The scope of the counter -/

section

variable {H : Type}

/-- The scope that holds the counter and the bound. -/
def counterScope (counter bound : String) (item stop : Int) : ValueScope H :=
  (Scope.declare {} counter (.integer item)).declare bound (.integer stop)

variable {counter bound : String} {item stop : Int}

/-- The scope of the counter hides the counter and the bound and has no function. -/
theorem hides_counterScope :
    Chain.Hides [(counterScope counter bound item stop : ValueScope H)] [counter, bound] := by
  refine ⟨fun name hname ↦ ?_, fun _ _ ↦ rfl⟩
  have hcounter : name ≠ counter := fun h ↦ hname (h ▸ List.mem_cons_self)
  have hbound : name ≠ bound := fun h ↦ hname (h ▸ List.mem_cons_of_mem _ List.mem_cons_self)
  rw [Chain.lookup?_cons]
  unfold counterScope
  rw [Scope.lookup?_declare, Scope.lookup?_declare, if_neg hbound, if_neg hcounter]
  rfl

variable (hdistinct : counter ≠ bound)
include hdistinct

/-- The counter is found in its scope. -/
theorem lookup?_counterScope :
    (counterScope counter bound item stop : ValueScope H).lookup? counter =
      some (.integer item) := by
  unfold counterScope
  rw [Scope.lookup?_declare, if_neg hdistinct, Scope.lookup?_declare, if_pos rfl]

omit hdistinct in
/-- The bound is found in its scope, under a name other than that of the counter. -/
theorem lookup?_bound_counterScope :
    (counterScope counter bound item stop : ValueScope H).lookup? bound = some (.integer stop) := by
  unfold counterScope
  rw [Scope.lookup?_declare, if_pos rfl]

/-- Assigning to the counter changes its value and keeps the bound. -/
theorem assign?_counterScope (next : Int) :
    (counterScope counter bound item stop : ValueScope H).assign? counter (.integer next) =
      some (counterScope counter bound next stop) := by
  unfold Scope.assign?
  rw [lookup?_counterScope hdistinct]
  simp [counterScope, Scope.declare, Bindings.insert, Bindings.place, hdistinct]

end

/-! ### One turn, and all of them -/

section

open Stateful (SameEnd)

variable {H : Type} {invoke : Callable H → List Value → Run H Value} {fuel : Nat}
  {name counter bound : String} {body : List Stmt} {stop : Int} {state : State H}

/-- An expression that is a variable has the value that is found. -/
theorem evalWith_variable {name : String} {value : Value}
    (hfound : state.chain.lookup? name = some value) :
    (Expr.variable name).evalWith invoke state = .ok value state := by
  unfold Expr.variable
  rw [Expr.evalWith, Run.lookup_apply, hfound]

/-- Inside the body the counter has its value, since the block around it binds neither name. -/
theorem evalWith_counter (hdistinct : counter ≠ bound) (item : Int) :
    (Expr.variable counter).evalWith invoke
        ((state.enterBlock (counterScope counter bound item stop)).enterBlock {}) =
      .ok (.integer item)
        ((state.enterBlock (counterScope counter bound item stop)).enterBlock {}) := by
  refine evalWith_variable ?_
  change Chain.lookup? (_ :: _ :: _) counter = _
  rw [Chain.lookup?_cons, Chain.lookup?_cons, lookup?_counterScope hdistinct]
  rfl

/-- The condition compares the counter with the bound. -/
theorem condition_counterScope (hdistinct : counter ≠ bound) (item : Int) :
    (Expr.binary ⟨0, none⟩ .less (.variable counter) (.variable bound)).conditionWith invoke
        (state.enterBlock (counterScope counter bound item stop)) =
      .ok (compare item stop).isLT (state.enterBlock (counterScope counter bound item stop)) := by
  have hcounter : (state.enterBlock (counterScope counter bound item stop)).chain.lookup? counter =
      some (.integer item) := by
    change Chain.lookup? (_ :: _) counter = _
    rw [Chain.lookup?_cons, lookup?_counterScope hdistinct]
    rfl
  have hbound : (state.enterBlock (counterScope counter bound item stop)).chain.lookup? bound =
      some (.integer stop) := by
    change Chain.lookup? (_ :: _) bound = _
    rw [Chain.lookup?_cons, lookup?_bound_counterScope]
    rfl
  have hvalue : (Expr.binary ⟨0, none⟩ .less (.variable counter) (.variable bound)).evalWith invoke
      (state.enterBlock (counterScope counter bound item stop)) =
      .ok (.boolean (compare item stop).isLT)
        (state.enterBlock (counterScope counter bound item stop)) := by
    rw [Expr.evalWith]
    exact (Stateful.bind_of_ok (evalWith_variable hcounter)).trans
      (Stateful.bind_of_ok (evalWith_variable hbound))
  exact Stateful.bind_of_ok hvalue

/-- The last statement of a turn moves the counter on. -/
theorem exec_increment (hdistinct : counter ≠ bound) {scope : ValueScope H} {outer : ValueChain H}
    (hscope : scope.lookup? counter = none) {item : Int}
    (hlocals : state.locals = scope :: counterScope counter bound item stop :: outer) :
    (Stmt.increment counter).execWith invoke fuel state = .ok .next
      { state with locals := scope :: counterScope counter bound (item + 1) stop :: outer } := by
  have hfound : state.chain.lookup? counter = some (.integer item) := by
    unfold State.chain
    rw [hlocals, List.cons_append, Chain.lookup?_cons, hscope, List.cons_append,
      Chain.lookup?_cons, lookup?_counterScope hdistinct]
    rfl
  have hpass : scope.assign? counter (.integer (item + 1)) = none := by
    rw [Scope.assign?, hscope]
    rfl
  have hassign : state.assign? counter (.integer (item + 1)) = some
      { state with locals := scope :: counterScope counter bound (item + 1) stop :: outer } := by
    unfold State.assign?
    rw [hlocals, Chain.assign?, hpass, Chain.assign?, assign?_counterScope hdistinct]
    rfl
  have hvalue :
      (Expr.binary ⟨0, none⟩ .add (.variable counter) (.integer 1)).evalWith invoke state =
      .ok (.integer (item + 1)) state := by
    rw [Expr.evalWith]
    exact Stateful.bind_of_ok (evalWith_variable hfound)
  have hdone : (Expr.variable counter).assignWith invoke
      (.binary ⟨0, none⟩ .add (.variable counter) (.integer 1)) state = .ok ()
      { state with locals := scope :: counterScope counter bound (item + 1) stop :: outer } := by
    refine (Stateful.bind_of_ok hvalue).trans ?_
    rw [Run.assign_apply, hassign]
  unfold Stmt.increment
  rw [Stmt.execWith]
  exact Stateful.bind_of_ok hdone

/-- The body of a turn starts from states that differ by the scope of the counter. -/
theorem beside_counterScope (hcounter : name ≠ counter) (hbound : name ≠ bound) (item stop : Int)
    (state : State H) : State.Beside [counterScope counter bound item stop] [counter, bound] 1
      (state.enterBlock (Scope.declare {} name (.integer item)))
      ((state.enterBlock (counterScope counter bound item stop)).enterBlock
        (Scope.declare {} name (.integer item))) := by
  refine ⟨⟨[_], state.locals, rfl, rfl, rfl, fun other hother ↦ ?_⟩, rfl, rfl, rfl, rfl⟩
  have hother' : other ≠ name := by
    obtain rfl | hrest := List.mem_cons.mp hother
    · exact hcounter.symm
    · rw [List.mem_singleton.mp hrest]
      exact hbound.symm
  rw [Chain.lookup?_cons, Scope.lookup?_declare, if_neg hother']
  rfl

/-- Leaving a block takes the innermost scope away. -/
theorem State.leaveBlock_of_locals {scope : ValueScope H} {outer : ValueChain H}
    (hlocals : state.locals = scope :: outer) :
    state.leaveBlock = { state with locals := outer } := by
  unfold State.leaveBlock
  rw [hlocals]
  rfl

/-- States side by side in a turn differ by the scope of the counter alone. -/
theorem State.Beside.eq_of_suspended {extra : ValueScope H} {hidden : List String}
    {first second : State H} (h : Beside [extra] hidden 1 first second)
    (hsuspended : second.suspended = first.suspended) :
    ∃ scope outer, first.locals = scope :: outer ∧
      second = { first with locals := scope :: extra :: outer } ∧
      ∀ name ∈ hidden, scope.lookup? name = none := by
  obtain ⟨⟨inner, outer, hdepth, hfirst, hsecond, hclear⟩, hmodule, hglobals, hobjects, hsink⟩ := h
  obtain ⟨scope, rfl⟩ := List.length_eq_one_iff.mp hdepth
  refine ⟨scope, outer, hfirst, ?_, fun name hname ↦ ?_⟩
  · obtain ⟨locals, suspended, module, globals, objects, sink⟩ := second
    cases hsuspended
    cases hmodule
    cases hglobals
    cases hobjects
    cases hsink
    cases hsecond
    rfl
  · have hfound := hclear name hname
    rw [Chain.lookup?_cons, Option.or_eq_none_iff] at hfound
    exact hfound.1

/-- The ends of one turn: if it came to its end, the second loop has the counter one further; else
the scope of the counter is all that the second state has besides. -/
inductive TurnEnd (counter bound : String) (next stop : Int) :
    EStateM.Result Interruption (State H) Flow → EStateM.Result Interruption (State H) Flow → Prop
  | next (state : State H) : TurnEnd counter bound next stop (.ok .next state)
      (.ok .next (state.enterBlock (counterScope counter bound next stop)))
  | returned {value : Value} {first second : State H} (h : second.leaveBlock = first) :
    TurnEnd counter bound next stop (.ok (.returned value) first) (.ok (.returned value) second)
  | error {cause : Interruption} {first second : State H} (h : second.leaveBlock = first) :
    TurnEnd counter bound next stop (.error cause first) (.error cause second)

variable (hcounter : name ≠ counter) (hbound : name ≠ bound)
  (hbody : (blockVariables body).Disjoint [counter, bound])
  (hinvoke : ∀ extra hidden depth callable args, Stateful.Simulates
    (State.Beside extra hidden depth) (invoke callable args) (invoke callable args))
  (hmoves : ∀ callable args, (invoke callable args).Moves State.SameFrames)

include hcounter hbound hbody hinvoke hmoves

/-- The body of a turn comes to one end in both loops, and leaves the scope of the counter. -/
theorem body_counted (fuel : Nat) (stop item : Int) (state : State H) :
    SameEnd (fun after after' ↦ ∃ scope outer, after.locals = scope :: outer ∧
        after' = { after with
          locals := scope :: counterScope counter bound item stop :: outer } ∧
        ∀ other ∈ [counter, bound], scope.lookup? other = none)
      (execAllWith invoke fuel body (state.enterBlock (Scope.declare {} name (.integer item))))
      (execAllWith invoke fuel body
        ((state.enterBlock (counterScope counter bound item stop)).enterBlock
          (Scope.declare {} name (.integer item)))) := by
  have hends := execAllWith_beside hides_counterScope (hinvoke _ _) fuel 0 body hbody _ _
    (beside_counterScope hcounter hbound item stop state)
  have hfirst := execAllWith_moves hmoves fuel body
    (state.enterBlock (Scope.declare {} name (.integer item)))
  have hsecond := execAllWith_moves hmoves fuel body
    ((state.enterBlock (counterScope counter bound item stop)).enterBlock
      (Scope.declare {} name (.integer item)))
  unfold Run.Ensures at hfirst hsecond
  generalize execAllWith invoke fuel body
    (state.enterBlock (Scope.declare {} name (.integer item))) = one at hends hfirst
  generalize execAllWith invoke fuel body
    ((state.enterBlock (counterScope counter bound item stop)).enterBlock
      (Scope.declare {} name (.integer item))) = other at hends hsecond
  cases hends with
  | ok hafter =>
    exact .ok (hafter.eq_of_suspended (hsecond.suspended.trans hfirst.suspended.symm))
  | error hafter =>
    exact .error (hafter.eq_of_suspended (hsecond.suspended.trans hfirst.suspended.symm))

variable (hdistinct : counter ≠ bound)
include hdistinct

/-- One turn of each loop, from states that differ by the scope of the counter. -/
theorem turn_counted (fuel : Nat) (stop item : Int) (state : State H) :
    TurnEnd counter bound (item + 1) stop
      (Run.block (Scope.declare {} name (.integer item)) (execAllWith invoke fuel body) state)
      (Run.block {} (execAllWith invoke fuel
        (Stmt.declared name (.variable counter) :: (body ++ [Stmt.increment counter])))
        (state.enterBlock (counterScope counter bound item stop))) := by
  have hends := body_counted hcounter hbound hbody hinvoke hmoves fuel stop item state
  rw [block_declared (evalWith_counter hdistinct item), execAllWith_append, execAllWith_singleton]
  unfold Run.block Run.within
  generalize execAllWith invoke fuel body
    (state.enterBlock (Scope.declare {} name (.integer item))) = one at hends
  generalize hrun : execAllWith invoke fuel body
    ((state.enterBlock (counterScope counter bound item stop)).enterBlock
      (Scope.declare {} name (.integer item))) = other at hends
  cases hends with
  | @ok flow after after' hafter =>
    obtain ⟨scope, outer, hlocals, rfl, hclear⟩ := hafter
    rw [Stateful.bind_of_ok hrun]
    simp only [State.leaveBlock_of_locals hlocals]
    cases flow with
    | next =>
      have hincrement : (Stmt.increment counter).execWith invoke fuel
          { after with locals := scope :: counterScope counter bound item stop :: outer } =
          .ok .next { after with
            locals := scope :: counterScope counter bound (item + 1) stop :: outer } :=
        exec_increment hdistinct (hclear counter List.mem_cons_self) rfl
      simp only [hincrement]
      exact .next { after with locals := outer }
    | returned value => exact .returned rfl
  | @error cause after after' hafter =>
    obtain ⟨scope, outer, hlocals, rfl, -⟩ := hafter
    rw [Stateful.bind_of_error hrun]
    simp only [State.leaveBlock_of_locals hlocals]
    exact .error rfl

/-- All turns of both loops, by induction on how many are left. -/
theorem loop_counted (fuel turns count : Nat) (start : Int) (hcount : count = (stop - start).toNat)
    (hturns : count < turns) (state : State H) :
    SameEnd (fun first second ↦ second.leaveBlock = first)
      (Run.forRange (fun item ↦
        Run.block (Scope.declare {} name (.integer item)) (execAllWith invoke fuel body))
        count start state)
      (Run.repeatWhile
        ((Expr.binary ⟨0, none⟩ .less (.variable counter) (.variable bound)).conditionWith invoke)
        (Run.block {} (execAllWith invoke fuel
          (Stmt.declared name (.variable counter) :: (body ++ [Stmt.increment counter]))))
        turns (state.enterBlock (counterScope counter bound start stop))) := by
  induction turns generalizing count start state with
  | zero => exact absurd hturns (Nat.not_lt_zero _)
  | succ turns ih =>
    rw [Run.repeatWhile, Stateful.bind_of_ok (condition_counterScope hdistinct start)]
    cases count with
    | zero =>
      have hdone : ¬ (compare start stop).isLT := by
        rw [Ordering.isLT_iff_eq_lt, Int.compare_eq_lt]
        omega
      rw [if_neg hdone]
      exact .ok rfl
    | succ count =>
      -- A turn is left for this number, so the condition holds and both loops take it.
      have hgoes : (compare start stop).isLT := by
        rw [Ordering.isLT_iff_eq_lt, Int.compare_eq_lt]
        omega
      rw [if_pos hgoes, Run.forRange]
      have hturn := turn_counted hcounter hbound hbody hinvoke hmoves hdistinct fuel stop start
        state
      generalize hrun : Run.block (Scope.declare {} name (.integer start))
        (execAllWith invoke fuel body) state = one at hturn
      generalize hrun' : Run.block {} (execAllWith invoke fuel (Stmt.declared name
        (.variable counter) :: (body ++ [Stmt.increment counter])))
        (state.enterBlock (counterScope counter bound start stop)) = other at hturn
      cases hturn with
      | next after =>
        rw [Stateful.bind_of_ok hrun, Stateful.bind_of_ok hrun']
        exact ih count (start + 1) (by omega) (Nat.lt_of_succ_lt_succ hturns) after
      | returned hleave =>
        rw [Stateful.bind_of_ok hrun, Stateful.bind_of_ok hrun']
        exact .ok hleave
      | error hleave =>
        rw [Stateful.bind_of_error hrun, Stateful.bind_of_error hrun']
        exact .error hleave

end

/-- Where leaving undoes the difference between two ends, only the end is left. -/
theorem Run.within_eq {H α : Type} {enter leave : State H → State H} {body : Run H α}
    {state : State H} {result : EStateM.Result Interruption (State H) α}
    (h : Stateful.SameEnd (fun first second ↦ leave second = first) result (body (enter state))) :
    within enter leave body state = result := by
  unfold within
  generalize body (enter state) = other at h ⊢
  cases h with
  | ok hleave => exact congrArg _ hleave
  | error hleave => exact congrArg _ hleave

/-! ### Loops over ranges -/

section

variable {H : Type} [Host H]

/-- The statement goes on for ever: it is out of fuel with however much of it. -/
def Stmt.Diverges (statement : Stmt) (state : State H) : Prop :=
  ∀ fuel, ∃ later, statement.exec fuel state = .error .outOfFuel later

/-- Two statements diverge alike if they come to the same end from some fuel on. -/
theorem Stmt.diverges_of_eq {first second : Stmt} {state middle : State H} (least : Nat)
    (heq : ∀ fuel, least ≤ fuel → first.exec fuel state = second.exec fuel middle)
    (h : first.Diverges state) : second.Diverges middle := by
  intro fuel
  obtain ⟨later, hstuck⟩ := h (max least fuel)
  rw [heq _ (Nat.le_max_left _ _)] at hstuck
  exact (second.exec_extends (Nat.le_max_right least fuel)).outOfFuel hstuck

/-- A loop over a range runs its body in a block for each number, which binds the variable of the
loop. -/
theorem Stmt.exec_forEach {fuel offset : Nat} {name : String} {iterable : Expr} {body : List Stmt}
    {state middle : State H} {start stop : Int}
    (heval : iterable.eval fuel state = .ok (.range start stop) middle) :
    (Stmt.forEach offset name iterable body).exec fuel state =
      Run.forRange (fun item ↦ Run.block (Scope.declare {} name (.integer item))
        (execAllWith (Callable.invoke fuel) fuel body)) (stop - start).toNat start middle := by
  unfold Stmt.exec
  rw [Stmt.execWith]
  exact Stateful.bind_of_ok heval

variable {name counter bound : String} {body : List Stmt}

/-- The counted loop runs the same blocks for the same numbers, given fuel for all of its turns. -/
theorem Stmt.exec_counted (hdistinct : counter ≠ bound) (hcounter : name ≠ counter)
    (hbound : name ≠ bound) (hbody : (blockVariables body).Disjoint [counter, bound])
    {fuel : Nat} {start stop : Int} (hfuel : (stop - start).toNat < fuel) (state : State H) :
    (Stmt.nested (Stmt.counted name counter bound start stop body)).exec fuel state =
      Run.forRange (fun item ↦ Run.block (Scope.declare {} name (.integer item))
        (execAllWith (Callable.invoke fuel) fuel body)) (stop - start).toNat start state := by
  have hends := loop_counted hcounter hbound hbody (Callable.invoke_beside fuel)
    (Callable.invoke_moves fuel) hdistinct fuel fuel (stop - start).toNat start rfl hfuel state
  unfold Stmt.exec
  rw [Stmt.execWith_nested]
  unfold Stmt.counted
  rw [block_declared (evalWith_integer start _), block_declared (evalWith_integer stop _),
    execAllWith_singleton, Stmt.execWith]
  exact Run.within_eq hends

/-- A loop over a range comes to the same end as the loop with a counter, in a scope of its own, and
as its turns written out in order: with the same value or error, the same state of everything that
was there before, and the same output. -/
theorem Stmt.forEach_expands {least offset : Nat} {iterable : Expr} {state middle : State H}
    {start stop : Int} (heval : iterable.eval least state = .ok (.range start stop) middle)
    (hdistinct : counter ≠ bound) (hcounter : name ≠ counter) (hbound : name ≠ bound)
    (hbody : (blockVariables body).Disjoint [counter, bound]) :
    (∀ fuel, least ≤ fuel → (stop - start).toNat < fuel →
      (Stmt.forEach offset name iterable body).exec fuel state =
        (Stmt.nested (Stmt.counted name counter bound start stop body)).exec fuel middle) ∧
    ((Stmt.forEach offset name iterable body).Diverges state ↔
      (Stmt.nested (Stmt.counted name counter bound start stop body)).Diverges middle) ∧
    ∀ fuel, least ≤ fuel → (Stmt.forEach offset name iterable body).exec fuel state =
      execAllWith (Callable.invoke fuel) fuel
        (Stmt.turns name body (stop - start).toNat start) middle := by
  have hexec (fuel : Nat) (hleast : least ≤ fuel) :
      (Stmt.forEach offset name iterable body).exec fuel state = _ :=
    Stmt.exec_forEach ((iterable.eval_extends hleast).ok heval)
  have heq (fuel : Nat) (hleast : least ≤ fuel) (hfuel : (stop - start).toNat < fuel) :
      (Stmt.forEach offset name iterable body).exec fuel state =
        (Stmt.nested (Stmt.counted name counter bound start stop body)).exec fuel middle :=
    (hexec fuel hleast).trans (Stmt.exec_counted hdistinct hcounter hbound hbody hfuel middle).symm
  have heq' (fuel : Nat) (h : max least ((stop - start).toNat + 1) ≤ fuel) :
      (Stmt.forEach offset name iterable body).exec fuel state =
        (Stmt.nested (Stmt.counted name counter bound start stop body)).exec fuel middle :=
    heq fuel (Nat.max_le.mp h).1 (Nat.max_le.mp h).2
  refine ⟨heq, ⟨diverges_of_eq _ heq', diverges_of_eq _ fun fuel h ↦ (heq' fuel h).symm⟩,
    fun fuel hleast ↦ ?_⟩
  rw [execAllWith_turns]
  exact hexec fuel hleast

end

/-- A body that assigns to the variable of its loop and to the one that bounds it. -/
def Stmt.stubborn : List Stmt :=
  [.assign (.variable "limit") (.variable "i"), .assign (.variable "i") (.integer 7)]

/-- A body that assigns to the variable of its loop and to the variable that the range was made of
has as many turns as without. -/
theorem Stmt.forEach_expands_stubborn :
    let range : Expr := .call ⟨0, none⟩ "range" [.integer 0, .variable "limit"] none
    let state : State Empty :=
      (State.initial (.text "")).enterBlock (Scope.declare {} "limit" (.integer 3))
    range.eval 0 state = .ok (.range 0 3) state ∧
      (blockVariables stubborn).Disjoint ["h", "n"] ∧
      (∀ fuel, 0 ≤ fuel → 3 < fuel → (Stmt.forEach 0 "i" range stubborn).exec fuel state =
        (Stmt.nested (Stmt.counted "i" "h" "n" 0 3 stubborn)).exec fuel state) ∧
      ((Stmt.forEach 0 "i" range stubborn).Diverges state ↔
        (Stmt.nested (Stmt.counted "i" "h" "n" 0 3 stubborn)).Diverges state) ∧
      ∀ fuel, 0 ≤ fuel → (Stmt.forEach 0 "i" range stubborn).exec fuel state =
        execAllWith (Callable.invoke fuel) fuel (Stmt.turns "i" stubborn 3 0) state := by
  intro range state
  have heval : range.eval 0 state = .ok (.range 0 3) state := by rfl
  have hbody : (blockVariables stubborn).Disjoint ["h", "n"] := by
    simp [stubborn, blockVariables, Stmt.variables, Expr.variables, Expr.variable, Expr.integer]
  exact ⟨heval, hbody, forEach_expands heval (by decide) (by decide) (by decide) hbody⟩

end ScriptLang
