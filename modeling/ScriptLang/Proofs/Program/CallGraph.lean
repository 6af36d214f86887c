import Mathlib.Data.Set.Card
import Mathlib.Logic.Relation
import ScriptLang.Program

/-!
The call graph of a program, read off its text. A method calls every method whose name and count of
parameters are those of a call without a receiver in its body. If no method calls itself through
others, the methods that one leads to are fewer after each call, and never as many as the program
has.
-/

set_option autoImplicit false
set_option relaxedAutoImplicit false

namespace ScriptLang

mutual

/-- The functions that an expression calls without a receiver, by name and count of arguments. -/
def Expr.callees : Expr → List (String × Nat)
  | .literal .. | .access .. => []
  | .group _ inner => inner.callees
  | .binary _ _ left right => left.callees ++ right.callees
  | .member _ receiver _ _ => receiver.callees
  | .call _ name args _ => (name, args.length) :: argCallees args
  | .invoke _ receiver _ args _ => receiver.callees ++ argCallees args

def argCallees : List Expr → List (String × Nat)
  | [] => []
  | head :: tail => head.callees ++ argCallees tail

end

def Binding.callees (binding : Binding) : List (String × Nat) :=
  match binding.value with
  | some value => value.callees
  | none => []

mutual

def Stmt.callees : Stmt → List (String × Nat)
  | .expr value | .ret value => value.callees
  | .declare binding => binding.callees
  | .assign target value => value.callees ++ target.callees
  | .branch condition thenBody elseBody =>
    condition.callees ++ (blockCallees thenBody ++ blockCallees elseBody)
  | .forEach _ _ iterable body => iterable.callees ++ blockCallees body
  | .loop condition body => condition.callees ++ blockCallees body

def blockCallees : List Stmt → List (String × Nat)
  | [] => []
  | head :: tail => head.callees ++ blockCallees tail

end

mutual

/-- Whether a statement has no conditional loop in it. -/
def Stmt.loopFree : Stmt → Bool
  | .expr _ | .declare _ | .assign .. | .ret _ => true
  | .branch _ thenBody elseBody => blockLoopFree thenBody && blockLoopFree elseBody
  | .forEach _ _ _ body => blockLoopFree body
  | .loop .. => false

def blockLoopFree : List Stmt → Bool
  | [] => true
  | head :: tail => head.loopFree && blockLoopFree tail

end

namespace Program

/-- Whether no method has a conditional loop; fields have none. -/
def loopFree (program : Program) : Bool :=
  program.methods.all fun method ↦ blockLoopFree method.body

/-- An edge of the call graph. -/
structure Calls (program : Program) (caller callee : Method) : Prop where
  caller_mem : caller ∈ program.methods
  callee_mem : callee ∈ program.methods
  called : (callee.name, callee.params.length) ∈ blockCallees caller.body

/-- No method leads back to itself. -/
def Acyclic (program : Program) : Prop :=
  ∀ method, ¬ Relation.TransGen program.Calls method method

/-- The methods that calls lead to from `method`. -/
def reached (program : Program) (method : Method) : Set Method :=
  {callee | Relation.TransGen program.Calls method callee}

/-- How many methods calls lead to from `method`. -/
noncomputable def rank (program : Program) (method : Method) : Nat :=
  (program.reached method).ncard

variable {program : Program}

/-- What a method leads to is a method of the program. -/
theorem mem_methods_of_reached {method callee : Method} (h : callee ∈ program.reached method) :
    callee ∈ program.methods := by
  cases h with
  | single hcalls => exact hcalls.callee_mem
  | tail _ hcalls => exact hcalls.callee_mem

theorem finite_reached (method : Method) : (program.reached method).Finite :=
  program.methods.finite_toSet.subset fun _ ↦ mem_methods_of_reached

/-- A call leads to fewer methods than its caller does. -/
theorem rank_lt (hacyclic : program.Acyclic) {caller callee : Method}
    (hcalls : program.Calls caller callee) : program.rank callee < program.rank caller := by
  refine Set.ncard_lt_ncard ⟨fun method hreached ↦ ?_, fun hsubset ↦ ?_⟩ (finite_reached caller)
  · exact Relation.TransGen.head hcalls hreached
  · exact hacyclic callee (hsubset (Relation.TransGen.single hcalls))

/-- Without recursion a method leads to fewer methods than there are, since it does not lead to
itself. -/
theorem rank_lt_length (hacyclic : program.Acyclic) {method : Method}
    (hmethod : method ∈ program.methods) : program.rank method < program.methods.length := by
  classical
  have hproper : program.reached method ⊂ {other | other ∈ program.methods} :=
    ⟨fun _ ↦ mem_methods_of_reached, fun hsubset ↦ hacyclic method (hsubset hmethod)⟩
  have hall : {other | other ∈ program.methods} = ↑program.methods.toFinset := by
    ext other
    simp
  calc program.rank method
    _ < {other | other ∈ program.methods}.ncard :=
      Set.ncard_lt_ncard hproper program.methods.finite_toSet
    _ = program.methods.toFinset.card := by rw [hall, Set.ncard_coe_finset]
    _ ≤ program.methods.length := program.methods.toFinset_card_le

/-- A program is without recursion if its methods can be put in an order against which they call. -/
theorem acyclic_of_order (order : Method → Nat)
    (horder : ∀ caller ∈ program.methods, ∀ callee ∈ program.methods,
      (callee.name, callee.params.length) ∈ blockCallees caller.body →
        order callee < order caller) : program.Acyclic := by
  have hstep (caller callee : Method) (hcalls : program.Calls caller callee) :
      order callee < order caller :=
    horder caller hcalls.caller_mem callee hcalls.callee_mem hcalls.called
  have hpath (caller callee : Method) (hpath : Relation.TransGen program.Calls caller callee) :
      order callee < order caller := by
    induction hpath with
    | single hcalls => exact hstep _ _ hcalls
    | tail _ hcalls ih => exact (hstep _ _ hcalls).trans ih
  exact fun method hcycle ↦ Nat.lt_irrefl _ (hpath method method hcycle)

end Program

end ScriptLang
