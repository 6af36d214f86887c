import ScriptLang.Proofs.Execution.Outcome

/-!
Blocks that always return, and the declarations of a block. A block with a return statement, or with
a conditional both of whose branches always return, is never left at its end.
-/

set_option autoImplicit false
set_option relaxedAutoImplicit false

namespace ScriptLang

mutual

/-- Whether the call ends wherever the statement does. -/
def Stmt.alwaysReturns : Stmt → Bool
  | .branch _ thenBody elseBody => blockAlwaysReturns thenBody && blockAlwaysReturns elseBody
  | .ret _ => true
  | .expr _ | .declare _ | .assign .. | .forEach .. | .loop .. => false

def blockAlwaysReturns : List Stmt → Bool
  | [] => false
  | head :: tail => head.alwaysReturns || blockAlwaysReturns tail

end

mutual

/-- The declarations in a statement, those of inner blocks among them. -/
def Stmt.declarations : Stmt → List Binding
  | .declare binding => [binding]
  | .branch _ thenBody elseBody => blockDeclarations thenBody ++ blockDeclarations elseBody
  | .forEach _ _ _ body | .loop _ body => blockDeclarations body
  | .expr _ | .assign .. | .ret _ => []

def blockDeclarations : List Stmt → List Binding
  | [] => []
  | head :: tail => head.declarations ++ blockDeclarations tail

end

/-- All declarations of a program: its fields, and those in the bodies of its methods. -/
def Program.declarations (program : Program) : List Binding :=
  program.fields ++ program.methods.flatMap fun method ↦ blockDeclarations method.body

/-- A block declares what its statements declare. -/
theorem mem_blockDeclarations {binding : Binding} {body : List Stmt} :
    binding ∈ blockDeclarations body ↔ ∃ statement ∈ body, binding ∈ statement.declarations := by
  induction body with
  | nil => simp [blockDeclarations]
  | cons head tail ih => simp [blockDeclarations, ih]

section

variable {H : Type} {invoke : Callable H → List Value → Run H Value} {fuel : Nat}

mutual

/-- A statement that returns on every way does not go on, if it ends at all. The recursion follows
the test on the tree. -/
theorem Stmt.execWith_returns : ∀ statement : Stmt, statement.alwaysReturns = true →
    ∀ state, (statement.execWith invoke fuel).Ensures state (fun flow _ ↦ flow ≠ .next)
      fun _ ↦ True
  | .branch condition thenBody elseBody, h, state => by
    rw [Stmt.alwaysReturns, Bool.and_eq_true] at h
    rw [Stmt.execWith]
    refine .bind (.of_run (fun holds middle _ ↦ ?_) fun _ _ _ ↦ trivial)
    split
    · exact .within (execAllWith_returns thenBody h.1 _)
    · exact .within (execAllWith_returns elseBody h.2 _)
  | .ret value, _, state => by
    rw [Stmt.execWith]
    exact .bind (.of_run (fun _ _ _ ↦ .pure nofun) fun _ _ _ ↦ trivial)

/-- A block that always returns is not left at its end. -/
theorem execAllWith_returns : ∀ statements : List Stmt, blockAlwaysReturns statements = true →
    ∀ state, (execAllWith invoke fuel statements).Ensures state (fun flow _ ↦ flow ≠ .next)
      fun _ ↦ True
  | head :: tail, h, state => by
    rw [blockAlwaysReturns, Bool.or_eq_true] at h
    rw [execAllWith]
    obtain hhead | htail := h
    · refine .bind ((head.execWith_returns hhead state).mono (fun flow after hflow ↦ ?_)
        fun _ h ↦ h)
      cases flow with
      | next => exact (hflow rfl).elim
      | returned value => exact .pure nofun
    · refine .bind (.of_run (fun flow after _ ↦ ?_) fun _ _ _ ↦ trivial)
      cases flow with
      | next => exact execAllWith_returns tail htail after
      | returned value => exact .pure nofun

end

end

end ScriptLang
