import ScriptLang.Scope

/-!
A growing tree of scopes. Scopes are numbered in the order they are made, the root is number zero,
and each node lists the numbers of the scopes around it, nearest first. Declarations may go to any
scope at any time, also to one that already has children; a look-up sees the tree as it is then.
-/

set_option autoImplicit false
set_option relaxedAutoImplicit false

namespace ScriptLang

/-- A scope of a tree and the numbers of the scopes around it, nearest first. -/
structure ScopeNode (V F : Type) where
  scope : Scope V F := {}
  enclosing : List Nat := []

structure ScopeTree (V F : Type) where
  nodes : List (ScopeNode V F)

namespace ScopeTree

variable {V F : Type}

/-- The tree of a root alone. -/
def root : ScopeTree V F := ⟨[{}]⟩

/-- The numbers of a scope and of the scopes around it; a number that is not in the tree has
none. -/
def path (tree : ScopeTree V F) (number : Nat) : List Nat :=
  match tree.nodes[number]? with
  | some node => number :: node.enclosing
  | none => []

/-- The tree with a new child of `parent`, whose number is the size of the old tree. -/
def child (tree : ScopeTree V F) (parent : Nat) : ScopeTree V F :=
  ⟨tree.nodes ++ [{ enclosing := tree.path parent }]⟩

def modify (tree : ScopeTree V F) (number : Nat) (change : Scope V F → Scope V F) :
    ScopeTree V F :=
  ⟨tree.nodes.modify number fun node ↦ { node with scope := change node.scope }⟩

def declare (tree : ScopeTree V F) (number : Nat) (name : String) (value : V) : ScopeTree V F :=
  tree.modify number (·.declare name value)

def declareFunction (tree : ScopeTree V F) (number : Nat) (name : String) (arity : Nat)
    (value : F) : ScopeTree V F :=
  tree.modify number (·.declareFunction name arity value)

def scope? (tree : ScopeTree V F) (number : Nat) : Option (Scope V F) :=
  tree.nodes[number]?.map ScopeNode.scope

/-- The scopes that are visible from a scope, innermost first. -/
def chain (tree : ScopeTree V F) (number : Nat) : Chain V F :=
  (tree.path number).filterMap tree.scope?

def lookup? (tree : ScopeTree V F) (number : Nat) (name : String) : Option V :=
  (tree.chain number).lookup? name

def function? (tree : ScopeTree V F) (number : Nat) (name : String) (arity : Nat) : Option F :=
  (tree.chain number).function? name arity

/-- The variable of the scope itself, without those around it. -/
def localLookup? (tree : ScopeTree V F) (number : Nat) (name : String) : Option V :=
  (tree.scope? number).bind (·.lookup? name)

def hasLocalFunction (tree : ScopeTree V F) (number : Nat) (name : String) (arity : Nat) : Bool :=
  ((tree.scope? number).bind (·.function? name arity)).isSome

end ScopeTree

end ScriptLang
