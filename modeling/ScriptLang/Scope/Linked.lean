import ScriptLang.Scope

/-!
Scopes that know the one scope they were opened in. A look-up goes outward, scope by scope, until
one has an answer or there is none around. It is given a number of rounds, and a look-up that is not
over by then is told apart from one that has found nothing.
-/

set_option autoImplicit false
set_option relaxedAutoImplicit false

namespace ScriptLang

/-- A scope and the number of the scope that it was opened in; a root has none. -/
structure LinkedScope (V F : Type) where
  scope : Scope V F := {}
  parent : Option Nat := none

structure LinkedScopes (V F : Type) where
  nodes : List (LinkedScope V F)

namespace LinkedScopes

variable {V F : Type}

/-- A root alone. -/
def root : LinkedScopes V F := ⟨[{}]⟩

/-- Opens a scope in the scope `parent`; its number is the count of the scopes before it. -/
def child (links : LinkedScopes V F) (parent : Nat) : LinkedScopes V F :=
  ⟨links.nodes ++ [{ parent := some parent }]⟩

def modify (links : LinkedScopes V F) (number : Nat) (change : Scope V F → Scope V F) :
    LinkedScopes V F :=
  ⟨links.nodes.modify number fun node ↦ { node with scope := change node.scope }⟩

def declare (links : LinkedScopes V F) (number : Nat) (name : String) (value : V) :
    LinkedScopes V F :=
  links.modify number (·.declare name value)

def declareFunction (links : LinkedScopes V F) (number : Nat) (name : String) (arity : Nat)
    (value : F) : LinkedScopes V F :=
  links.modify number (·.declareFunction name arity value)

/-- What `read` finds in the first scope outward from `cursor` that has it, or `none` if the walk
there is not over after `rounds` scopes. -/
def search {α : Type} (links : LinkedScopes V F) (read : Scope V F → Option α) :
    Nat → Option Nat → Option (Option α)
  | _, none => some none
  | 0, some _ => none
  | rounds + 1, some number =>
    match links.nodes[number]? with
    | none => some none
    | some node =>
      match read node.scope with
      | some found => some (some found)
      | none => links.search read rounds node.parent

def lookup? (links : LinkedScopes V F) (rounds number : Nat) (name : String) :
    Option (Option V) :=
  links.search (·.lookup? name) rounds (some number)

def function? (links : LinkedScopes V F) (rounds number : Nat) (name : String) (arity : Nat) :
    Option (Option F) :=
  links.search (·.function? name arity) rounds (some number)

end LinkedScopes

end ScriptLang
