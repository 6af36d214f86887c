import ScriptLang.Proofs.Execution.CellSteps
import ScriptLang.Proofs.Execution.Outcome
import ScriptLang.Proofs.Typing.Arities

/-!
Callables stand under the counts of their arguments. In no memory that a run goes through is one
found by another count, so every call that is made has the right count of arguments: a wrong one is
only ever reported by a function of the host.
-/

set_option autoImplicit false
set_option relaxedAutoImplicit false

namespace ScriptLang

open Stateful (Upholds)

variable {H α β : Type}

/-! ### Memories -/

/-- Every callable of a scope or an object is found by the count of arguments that it takes. -/
structure Memory.ByArity (memory : Memory H) : Prop where
  scopes : memory.scopes.Each (Scope.ByArity fun closure ↦ closure.callable.arity)
  objects : ∀ ref, (memory.members ref).ByArity HostFunction.arity

namespace Memory.ByArity

variable {memory : Memory H}

/-- Objects cannot be built in another way. -/
theorem of_scopes
    (hscopes : memory.scopes.Each (Scope.ByArity fun closure ↦ closure.callable.arity)) :
    memory.ByArity := by
  refine ⟨hscopes, fun ref ↦ ?_⟩
  unfold members
  cases memory.objects[ref.index]? with
  | none => exact .empty
  | some object => exact object.keyed

variable (h : memory.ByArity)
include h

theorem write (cell : Nat) (value : Value) : (memory.write cell value).ByArity :=
  of_scopes h.scopes

theorem withSink (sink : Sink) : ByArity { memory with sink } := of_scopes h.scopes

theorem store (objects : ObjectStore H) : (memory.store objects).ByArity := of_scopes h.scopes

theorem openScope (parent : Nat) : (memory.openScope parent).ByArity :=
  of_scopes (h.scopes.child parent)

theorem openModule : memory.openModule.ByArity := of_scopes (h.scopes.child 0)

theorem declare (scope : Nat) (name : String) (value : Value) :
    (memory.declare scope name value).ByArity :=
  of_scopes (h.scopes.modify scope fun _ hscope ↦ hscope.declare name _)

/-- A callable may be declared under the count of arguments that it takes. -/
theorem declareFunction (scope : Nat) (name : String) {arity : Nat} {callable : Callable H}
    (harity : callable.arity = arity) :
    (memory.declareFunction scope name arity callable).ByArity :=
  of_scopes (h.scopes.modify scope fun _ hscope ↦ hscope.declareFunction name harity)

/-- A callable that is found in a scope is asked for by the count of arguments that it takes. -/
theorem function? {scope : Nat} {name : String} {arity : Nat} {closure : Closure H}
    (hfound : memory.scopes.function? scope name arity = some closure) :
    closure.callable.arity = arity := by
  obtain ⟨found, hmem, hscope⟩ := List.exists_of_findSome?_eq_some hfound
  exact h.scopes.chain scope found hmem name arity closure hscope

end Memory.ByArity

/-- The functions that every session has stand under their counts. -/
theorem Memory.byArity_initial (sink : Sink) : (initial sink : Memory H).ByArity := by
  have hempty : ByArity ({ sink } : Memory H) := .of_scopes (.root .empty)
  have hprint : ByArity (declareFunction { sink } 0 "print" 1 .print : Memory H) :=
    hempty.declareFunction 0 "print" rfl
  have hrange : ByArity ((declareFunction { sink } 0 "print" 1 .print : Memory H).declareFunction 0
    "range" 2 .range) := hprint.declareFunction 0 "range" rfl
  exact hrange.openModule

/-- The memory and all those before it are keyed by arity. -/
def Tracked.ByArity (tracked : Tracked H) : Prop := ∀ memory ∈ tracked.memories, memory.ByArity

namespace Tracked.ByArity

variable {tracked : Tracked H} (h : tracked.ByArity)
include h

theorem memory : tracked.memory.ByArity := h tracked.memory List.mem_cons_self

/-- A change that keeps callables under their counts keeps every memory on the way so, the new one
included. -/
theorem change {step : Memory H → Memory H}
    (hstep : tracked.memory.ByArity → (step tracked.memory).ByArity) :
    (tracked.change step).ByArity :=
  List.forall_mem_cons.mpr ⟨hstep h.memory, h⟩

end Tracked.ByArity

/-! ### Failures -/

def RuntimeError.isMiscount : RuntimeError → Bool
  | wrongArgumentCount _ _ => true
  | _ => false

/-- A function of the host fails for this reason, with some arguments and objects. -/
def Host.Reports (H : Type) [Host H] (cause : RuntimeError) : Prop :=
  ∃ (body : H) (args : List Value) (objects : ObjectStore H),
    (Host.run body args objects).1 = .error cause

/-- A wrong count of arguments is reported by the host itself. -/
def Interruption.Counted (H : Type) [Host H] (interruption : Interruption) : Prop :=
  ∀ cause, interruption = .failed cause → cause.isMiscount = true → Host.Reports H cause

/-- No failure here is about a count of arguments. -/
def Except.CountFree (result : Except RuntimeError α) : Prop :=
  ∀ cause, result = .error cause → cause.isMiscount = false

namespace Except.CountFree

/-- Reading a value as a Boolean fails by its kind only. -/
theorem asBoolean (value : Value) : CountFree value.asBoolean := by
  intro cause h
  cases value <;> cases h
  all_goals rfl

theorem asInteger (value : Value) : CountFree value.asInteger := by
  intro cause h
  cases value <;> cases h
  all_goals rfl

theorem asRange (value : Value) : CountFree value.asRange := by
  intro cause h
  cases value <;> cases h
  all_goals rfl

theorem asObject (value : Value) : CountFree value.asObject := by
  intro cause h
  cases value <;> cases h
  all_goals rfl

/-- An operator may fail by the kinds of its operands or by a division by zero, never by a count. -/
theorem apply (op : BinaryOp) (left right : Value) : CountFree (op.apply left right) := by
  intro cause h
  unfold BinaryOp.apply at h
  split at h
  · cases h
    rfl
  · split at h <;> cases h
    rfl

/-- A broken sink does not complain about a count. -/
theorem print (sink : Sink) (line : String) : CountFree (sink.print line) := by
  intro cause h
  cases sink <;> cases h
  rfl

end Except.CountFree

namespace CellRun

variable [Host H]

/-- However the run ends, all memories are keyed by arity again, what it gives is as expected, and a
wrong count of arguments is reported by the host itself. -/
abbrev Counts (gives : α → Prop) (body : CellRun H α) : Prop :=
  Upholds Tracked.ByArity gives (Interruption.Counted H) body

variable {body : CellRun H α} {gives : α → Prop}

/-! ### Steps -/

theorem outOfFuel_counts : (MonadExcept.throw .outOfFuel : CellRun H α).Counts gives :=
  .throw fun _ h ↦ by cases h

/-- A failure that is not about a count is harmless. -/
theorem fail_counts {cause : RuntimeError} (hcause : cause.isMiscount = false) :
    (fail cause : CellRun H α).Counts gives := by
  refine .throw fun other hother hmiscount ↦ ?_
  cases hother
  rw [hcause] at hmiscount
  cases hmiscount

/-- A result that is there already is harmless if its failure is. -/
theorem ofExcept_counts {result : Except RuntimeError α} (hresult : Except.CountFree result) :
    (ofExcept result : CellRun H α).Counts fun _ ↦ True := by
  cases result with
  | ok value => exact .pure trivial
  | error cause => exact fail_counts (hresult cause rfl)

/-- The memory that is asked for has its callables under their counts, as every one on the way. -/
theorem memory_counts : (memory : CellRun H (Memory H)).Counts Memory.ByArity :=
  Upholds.get.bind fun _ h ↦ .pure h.memory

/-- A change of the memory that keeps callables under their counts keeps a run harmless. -/
theorem change_counts {step : Memory H → Memory H}
    (hstep : ∀ memory : Memory H, memory.ByArity → (step memory).ByArity) :
    (change step).Counts fun _ ↦ True :=
  .modify fun _ h ↦ h.change (hstep _)

theorem openScope_counts (parent : Nat) : (openScope parent : CellRun H Nat).Counts fun _ ↦ True :=
  memory_counts.bind fun _ _ ↦
    (change_counts fun _ h ↦ h.openScope parent).bind fun _ _ ↦ .pure trivial

theorem declare_counts (scope : Nat) (name : String) (value : Value) :
    (change (·.declare scope name value) : CellRun H Unit).Counts fun _ ↦ True :=
  change_counts fun _ h ↦ h.declare scope name value

theorem lookup_counts (scope : Nat) (name : String) :
    (lookup scope name : CellRun H Value).Counts fun _ ↦ True := by
  refine memory_counts.bind fun memory _ ↦ ?_
  cases memory.scopes.lookup? scope name with
  | some cell => exact .pure trivial
  | none => exact fail_counts rfl

/-- What is found takes as many arguments as it was looked up for. -/
theorem function_counts (scope : Nat) (name : String) (arity : Nat) :
    (function scope name arity : CellRun H (Closure H)).Counts
      fun closure ↦ closure.callable.arity = arity := by
  refine memory_counts.bind fun memory h ↦ ?_
  cases hfound : memory.scopes.function? scope name arity with
  | some closure => exact .pure (h.function? hfound)
  | none => exact fail_counts rfl

/-- A method of an object that is found takes as many arguments as it was looked up by. -/
theorem method_counts (ref : ObjectRef) (name : String) (arity : Nat) :
    (method ref name arity : CellRun H (Closure H)).Counts
      fun closure ↦ closure.callable.arity = arity := by
  refine memory_counts.bind fun memory h ↦ ?_
  cases hfound : (memory.members ref).function? name arity with
  | some function => exact .pure (h.objects ref name arity function hfound)
  | none => exact fail_counts rfl

theorem assign_counts (scope : Nat) (name : String) (value : Value) :
    (assign scope name value : CellRun H Unit).Counts fun _ ↦ True := by
  refine memory_counts.bind fun memory _ ↦ ?_
  cases memory.scopes.lookup? scope name with
  | some cell => exact change_counts fun _ h ↦ h.write cell value
  | none => exact fail_counts rfl

theorem field_counts (ref : ObjectRef) (name : String) :
    (field ref name : CellRun H Value).Counts fun _ ↦ True := by
  refine memory_counts.bind fun memory _ ↦ ?_
  cases (memory.members ref).lookup? name with
  | some cell => exact .pure trivial
  | none => exact fail_counts rfl

theorem setField_counts (ref : ObjectRef) (name : String) (value : Value) :
    (setField ref name value : CellRun H Unit).Counts fun _ ↦ True := by
  refine memory_counts.bind fun memory _ ↦ ?_
  cases (memory.members ref).lookup? name with
  | some cell => exact change_counts fun _ h ↦ h.write cell value
  | none => exact fail_counts rfl

theorem print_counts (line : String) : (print line : CellRun H Unit).Counts fun _ ↦ True :=
  memory_counts.bind fun _ _ ↦ (ofExcept_counts (.print _ line)).bind fun sink _ ↦
    change_counts fun _ h ↦ h.withSink sink

/-- A function of the host may fail as it likes; only objects and what is known of them change. -/
theorem host_counts (body : H) (args : List Value) : (host body args).Counts fun _ ↦ True := by
  refine memory_counts.bind fun memory _ ↦ ?_
  cases hrun : Host.run body args memory.contents with
  | mk result objects =>
    refine (change_counts fun _ h ↦ h.store objects).bind fun _ _ ↦ ?_
    cases result with
    | ok value => exact .pure trivial
    | error cause =>
      refine .throw fun other hother _ ↦ ?_
      cases hother
      exact ⟨body, args, memory.contents, congrArg Prod.fst hrun⟩

/-- To write down what an expression has done changes no memory. -/
theorem visiting_counts (expr : Expr) (scope : Nat) (hbody : body.Counts gives) :
    (visiting expr scope body).Counts gives := by
  intro tracked h
  have hend := hbody tracked h
  unfold visiting
  generalize body tracked = reached at hend
  cases hend with
  | ok hvalue hafter => exact .ok hvalue hafter
  | error hcause hafter => exact .error hcause hafter

/-- A conditional loop is harmless if its condition and its body are. The induction is on the fuel
for its turns. -/
theorem repeatWhile_counts {condition : CellRun H Bool} {body : CellRun H Flow}
    (hcondition : condition.Counts fun _ ↦ True) (hbody : body.Counts fun _ ↦ True) (fuel : Nat) :
    (repeatWhile condition body fuel).Counts fun _ ↦ True := by
  induction fuel with
  | zero => exact outOfFuel_counts
  | succ fuel ih =>
    refine hcondition.bind fun holds _ ↦ .ite (fun _ ↦ ?_) fun _ ↦ .pure trivial
    refine hbody.bind fun flow _ ↦ ?_
    cases flow with
    | next => exact ih
    | returned value => exact .pure trivial

/-- A loop over a range is harmless if its body is at each number. -/
theorem forRange_counts {body : Int → CellRun H Flow}
    (hbody : ∀ item, (body item).Counts fun _ ↦ True) (count : Nat) (start : Int) :
    (forRange body count start).Counts fun _ ↦ True := by
  induction count generalizing start with
  | zero => exact .pure trivial
  | succ count ih =>
    refine (hbody start).bind fun flow _ ↦ ?_
    cases flow with
    | next => exact ih (start + 1)
    | returned value => exact .pure trivial

/-- Declaring parameters one after another changes values only. -/
theorem declareAll_counts (scope : Nat) (entries : List (String × Value)) :
    (declareAll scope entries : CellRun H Unit).Counts fun _ ↦ True := by
  induction entries with
  | nil => exact .pure trivial
  | cons entry rest ih => exact (declare_counts scope entry.1 entry.2).bind fun _ _ ↦ ih

end CellRun

/-! ### Trees -/

section

variable [Host H] {invoke : Closure H → List Value → CellRun H Value}
  (hinvoke : ∀ closure args, closure.callable.arity = args.length →
    (invoke closure args).Counts fun _ ↦ True)

include hinvoke

-- A mutual recursion over the tree does not name the hypothesis that it shares.
set_option linter.unusedSectionVars false

section

variable (scope : Nat)

mutual

/-- The calls in an expression are of callables that take as many arguments as there are. -/
theorem Expr.evalOnCells_counts (expr : Expr) :
    (expr.evalOnCells invoke scope).Counts fun _ ↦ True := by
  unfold Expr.evalOnCells
  refine CellRun.visiting_counts expr scope ?_
  match expr with
  | .literal .. => exact .pure trivial
  | .group _ inner => exact inner.evalOnCells_counts
  | .binary _ op left right =>
    refine left.evalOnCells_counts.bind fun first _ ↦ ?_
    cases op.shortcut? with
    | some decisive =>
      refine (CellRun.ofExcept_counts (.asBoolean first)).bind fun holds _ ↦ ?_
      refine .ite (fun _ ↦ .pure trivial) fun _ ↦ ?_
      refine right.evalOnCells_counts.bind fun second _ ↦ ?_
      exact (CellRun.ofExcept_counts (.asBoolean second)).bind fun _ _ ↦ .pure trivial
    | none =>
      exact right.evalOnCells_counts.bind fun second _ ↦
        CellRun.ofExcept_counts (.apply op first second)
  | .access _ name _ => exact CellRun.lookup_counts scope name
  | .member _ receiver name _ =>
    refine receiver.evalOnCells_counts.bind fun object _ ↦ ?_
    exact (CellRun.ofExcept_counts (.asObject object)).bind fun ref _ ↦
      CellRun.field_counts ref name
  | .call _ name args _ =>
    refine (evalArgsOnCells_counts args).bind fun values _ ↦ ?_
    exact (CellRun.function_counts scope name values.length).bind fun closure ↦
      hinvoke closure values
  | .invoke _ receiver name args _ =>
    refine receiver.evalOnCells_counts.bind fun object _ ↦ ?_
    refine (evalArgsOnCells_counts args).bind fun values _ ↦ ?_
    refine (CellRun.ofExcept_counts (.asObject object)).bind fun ref _ ↦ ?_
    exact (CellRun.method_counts ref name (values.length + 1)).bind fun closure ↦
      hinvoke closure (object :: values)

/-- Arguments are harmless one after another. -/
theorem evalArgsOnCells_counts : ∀ args : List Expr,
    (evalArgsOnCells invoke scope args).Counts fun _ ↦ True
  | [] => .pure trivial
  | head :: tail => head.evalOnCells_counts.bind fun _ _ ↦
    (evalArgsOnCells_counts tail).bind fun _ _ ↦ .pure trivial

end

/-- A declaration computes its value and fails as this does. -/
theorem Binding.evalOnCells_counts (binding : Binding) :
    (binding.evalOnCells invoke scope).Counts fun _ ↦ True := by
  unfold Binding.evalOnCells
  cases binding.value with
  | some value => exact value.evalOnCells_counts hinvoke scope
  | none => exact .pure trivial

/-- An assignment is harmless: it fails if a variable or a field is missing, and no count is
involved. -/
theorem Expr.assignOnCells_counts (target value : Expr) :
    (target.assignOnCells invoke scope value).Counts fun _ ↦ True := by
  cases target with
  | access offset name known =>
    exact (value.evalOnCells_counts hinvoke scope).bind fun value _ ↦
      CellRun.assign_counts scope name value
  | member offset receiver name known =>
    refine (value.evalOnCells_counts hinvoke scope).bind fun value _ ↦ ?_
    refine (receiver.evalOnCells_counts hinvoke scope).bind fun object _ ↦ ?_
    exact (CellRun.ofExcept_counts (.asObject object)).bind fun ref _ ↦
      CellRun.setField_counts ref name value
  | literal | group | binary | call | invoke => exact CellRun.fail_counts rfl

theorem Expr.conditionOnCells_counts (condition : Expr) :
    (condition.conditionOnCells invoke scope).Counts fun _ ↦ True :=
  (condition.evalOnCells_counts hinvoke scope).bind fun value _ ↦
    CellRun.ofExcept_counts (.asBoolean value)

end

variable (fuel : Nat)

mutual

/-- Every statement is harmless, whatever scope it runs in. The recursion follows the tree. -/
theorem Stmt.execOnCells_counts (scope : Nat) : ∀ statement : Stmt,
    (statement.execOnCells invoke fuel scope).Counts fun _ ↦ True
  | .expr value => by
    rw [Stmt.execOnCells]
    exact (value.evalOnCells_counts hinvoke scope).discard.bind fun _ _ ↦ .pure trivial
  | .declare binding => by
    rw [Stmt.execOnCells]
    refine (binding.evalOnCells_counts hinvoke scope).bind fun value _ ↦ ?_
    exact (CellRun.declare_counts scope binding.name value).bind fun _ _ ↦ .pure trivial
  | .assign target value => by
    rw [Stmt.execOnCells]
    exact (target.assignOnCells_counts hinvoke scope value).bind fun _ _ ↦ .pure trivial
  | .branch condition thenBody elseBody => by
    rw [Stmt.execOnCells]
    refine (condition.conditionOnCells_counts hinvoke scope).bind fun holds _ ↦ ?_
    refine .ite (fun _ ↦ ?_) fun _ ↦ ?_
    · exact (CellRun.openScope_counts scope).bind fun inner _ ↦
        execAllOnCells_counts inner thenBody
    · exact (CellRun.openScope_counts scope).bind fun inner _ ↦
        execAllOnCells_counts inner elseBody
  | .forEach _ name iterable body => by
    rw [Stmt.execOnCells]
    refine (iterable.evalOnCells_counts hinvoke scope).bind fun value _ ↦ ?_
    refine (CellRun.ofExcept_counts (.asRange value)).bind fun bounds _ ↦ ?_
    refine CellRun.forRange_counts (fun item ↦ ?_) _ _
    refine (CellRun.openScope_counts scope).bind fun inner _ ↦ ?_
    exact (CellRun.declare_counts inner name (.integer item)).bind fun _ _ ↦
      execAllOnCells_counts inner body
  | .loop condition body => by
    rw [Stmt.execOnCells]
    refine CellRun.repeatWhile_counts (condition.conditionOnCells_counts hinvoke scope) ?_ fuel
    exact (CellRun.openScope_counts scope).bind fun inner _ ↦ execAllOnCells_counts inner body
  | .ret value => by
    rw [Stmt.execOnCells]
    exact (value.evalOnCells_counts hinvoke scope).bind fun _ _ ↦ .pure trivial

/-- Statements are harmless one after another. -/
theorem execAllOnCells_counts (scope : Nat) : ∀ statements : List Stmt,
    (execAllOnCells invoke fuel scope statements).Counts fun _ ↦ True
  | [] => .pure trivial
  | head :: tail => by
    rw [execAllOnCells]
    refine (head.execOnCells_counts scope).bind fun flow _ ↦ ?_
    cases flow with
    | next => exact execAllOnCells_counts scope tail
    | returned value => exact .pure trivial

end

end

/-! ### Programs -/

section

variable [Host H]

/-- A call with the right count of arguments is harmless if bodies are. -/
theorem Closure.perform_counts {run : Nat → List Stmt → CellRun H Flow}
    (hrun : ∀ scope body, (run scope body).Counts fun _ ↦ True) (closure : Closure H)
    (args : List Value) (harity : closure.callable.arity = args.length) :
    (closure.perform run args).Counts fun _ ↦ True := by
  obtain ⟨callable, scope⟩ := closure
  refine Callable.cases_of_arity callable args harity.symm ?_ ?_ ?_ ?_
  · exact fun value ↦ (CellRun.print_counts value.display).bind fun _ _ ↦ .pure trivial
  · exact fun start stop ↦ (CellRun.ofExcept_counts (.asInteger start)).bind fun _ _ ↦
      (CellRun.ofExcept_counts (.asInteger stop)).bind fun _ _ ↦ .pure trivial
  · intro function args harity
    rw [Closure.perform_host run harity]
    exact CellRun.host_counts function.body args
  · intro definition args harity
    rw [Closure.perform_procedure run harity]
    refine (CellRun.openScope_counts scope).bind fun number _ ↦ ?_
    refine (CellRun.declareAll_counts number (definition.params.zip args)).bind fun _ _ ↦ ?_
    refine (hrun number definition.body).bind fun flow _ ↦ ?_
    cases flow <;> exact .pure trivial

/-- A call with the right count of arguments is harmless with any amount of fuel. The induction is
on the fuel, since a body may call again. -/
theorem Closure.invoke_counts (fuel : Nat) (closure : Closure H) (args : List Value)
    (harity : closure.callable.arity = args.length) :
    (closure.invoke fuel args).Counts fun _ ↦ True := by
  induction fuel generalizing closure args with
  | zero => exact closure.perform_counts (fun _ _ ↦ CellRun.outOfFuel_counts) args harity
  | succ fuel ih => exact closure.perform_counts (execAllOnCells_counts ih fuel) args harity

/-- Fields get their values one after another, as declarations of the module. -/
theorem initializeFieldsOnCells_counts (fuel module : Nat) (fields : List Binding) :
    (initializeFieldsOnCells fuel module fields : CellRun H Unit).Counts fun _ ↦ True := by
  induction fields with
  | nil => exact .pure trivial
  | cons head tail ih =>
    refine (head.evalOnCells_counts (Closure.invoke_counts fuel) module).bind fun value _ ↦ ?_
    exact (CellRun.declare_counts module head.name value).bind fun _ _ ↦ ih

/-- Methods stand under the count of their names of parameters. -/
theorem declareMethodsOnCells_counts (module : Nat) (methods : List Method) :
    (declareMethodsOnCells module methods : CellRun H Unit).Counts fun _ ↦ True := by
  induction methods with
  | nil => exact .pure trivial
  | cons head tail ih =>
    have hdeclare (memory : Memory H) (h : memory.ByArity) : (memory.declareFunction module
        head.name head.params.length (.procedure head.procedure)).ByArity :=
      h.declareFunction module head.name rfl
    exact (CellRun.change_counts hdeclare).bind fun _ _ ↦ ih

/-- A run of a program reports no wrong count by itself: methods are declared under their counts of
parameters and `main` is called by the count it is found by. -/
theorem Program.runOnCells_counts (fuel : Nat) (program : Program) :
    (program.runOnCells fuel : CellRun H Value).Counts fun _ ↦ True := by
  refine (CellRun.change_counts fun _ h ↦ h.openModule).bind fun _ _ ↦ ?_
  refine CellRun.memory_counts.bind fun memory _ ↦ ?_
  refine (initializeFieldsOnCells_counts fuel memory.module program.fields).bind fun _ _ ↦ ?_
  refine (declareMethodsOnCells_counts memory.module program.methods).bind fun _ _ ↦ ?_
  exact (CellRun.function_counts memory.module "main" 0).bind fun main ↦
    main.invoke_counts fuel []

end

end ScriptLang
