/-!
Lexical scopes. A scope holds the variables and functions of one level; functions are found by name
and count of parameters, so that functions of one name and different counts stand side by side.
Declaring a name again replaces what it stood for. A chain lists nested scopes, innermost first, and
looks a name up in the nearest scope that has it.
-/

set_option autoImplicit false
set_option relaxedAutoImplicit false

namespace ScriptLang

/-- A finite map in order of first insertion. -/
structure Bindings (κ α : Type) where
  entries : List (κ × α) := []
  deriving DecidableEq

namespace Bindings

variable {κ α : Type} [DecidableEq κ]

instance : Inhabited (Bindings κ α) := ⟨{}⟩

def find? (bindings : Bindings κ α) (key : κ) : Option α := bindings.entries.lookup key

/-- Puts `value` in the place of the entry for `key`, or at the end if there is none. -/
def place (key : κ) (value : α) : List (κ × α) → List (κ × α)
  | [] => [(key, value)]
  | head :: tail => if head.1 = key then (key, value) :: tail else head :: place key value tail

def insert (bindings : Bindings κ α) (key : κ) (value : α) : Bindings κ α :=
  ⟨place key value bindings.entries⟩

def contains (bindings : Bindings κ α) (key : κ) : Bool := (bindings.find? key).isSome

@[simp]
theorem find?_empty (key : κ) : ({} : Bindings κ α).find? key = none := rfl

/-- What was bound last under a key is found, and other keys keep what they have. -/
theorem find?_insert (bindings : Bindings κ α) (key other : κ) (value : α) :
    (bindings.insert key value).find? other =
      if other = key then some value else bindings.find? other := by
  obtain ⟨entries⟩ := bindings
  simp only [insert, find?]
  induction entries with
  | nil => grind [place]
  | cons head tail ih => grind [place]

end Bindings

/-- The variables and functions declared at one level. -/
structure Scope (V F : Type) where
  vars : Bindings String V := {}
  functions : Bindings (String × Nat) F := {}
  deriving DecidableEq

namespace Scope

variable {V F : Type}

instance : Inhabited (Scope V F) := ⟨{}⟩

def lookup? (scope : Scope V F) (name : String) : Option V := scope.vars.find? name

def function? (scope : Scope V F) (name : String) (arity : Nat) : Option F :=
  scope.functions.find? (name, arity)

def declare (scope : Scope V F) (name : String) (value : V) : Scope V F :=
  { scope with vars := scope.vars.insert name value }

def declareFunction (scope : Scope V F) (name : String) (arity : Nat) (value : F) : Scope V F :=
  { scope with functions := scope.functions.insert (name, arity) value }

/-- Gives the variable `name` a new value if the scope has it. -/
def assign? (scope : Scope V F) (name : String) (value : V) : Option (Scope V F) :=
  if (scope.lookup? name).isSome then some (scope.declare name value) else none

/-- A declaration hides the earlier value of its name and no other. -/
@[simp]
theorem lookup?_declare (scope : Scope V F) (name other : String) (value : V) :
    (scope.declare name value).lookup? other =
      if other = name then some value else scope.lookup? other :=
  Bindings.find?_insert _ _ _ _

@[simp]
theorem function?_declare (scope : Scope V F) (name other : String) (arity : Nat) (value : V) :
    (scope.declare name value).function? other arity = scope.function? other arity := rfl

@[simp]
theorem lookup?_declareFunction (scope : Scope V F) (name other : String) (arity : Nat)
    (value : F) : (scope.declareFunction name arity value).lookup? other =
      scope.lookup? other := rfl

/-- A declaration hides the earlier function of its name and count and no other. -/
@[simp]
theorem function?_declareFunction (scope : Scope V F) (name other : String) (arity count : Nat)
    (value : F) : (scope.declareFunction name arity value).function? other count =
      if (other, count) = (name, arity) then some value else scope.function? other count :=
  Bindings.find?_insert _ _ _ _

end Scope

/-- Nested scopes, innermost first. -/
abbrev Chain (V F : Type) := List (Scope V F)

namespace Chain

variable {V F : Type}

/-- The variable `name` of the nearest scope that has it. -/
def lookup? (chain : Chain V F) (name : String) : Option V :=
  chain.findSome? fun scope ↦ scope.lookup? name

/-- The function `name` with `arity` parameters of the nearest scope that has it. -/
def function? (chain : Chain V F) (name : String) (arity : Nat) : Option F :=
  chain.findSome? fun scope ↦ scope.function? name arity

/-- Gives the variable `name` a new value in the nearest scope that has it. -/
def assign? (name : String) (value : V) : Chain V F → Option (Chain V F)
  | [] => none
  | scope :: outer =>
    match scope.assign? name value with
    | some changed => some (changed :: outer)
    | none => (assign? name value outer).map (scope :: ·)

end Chain

end ScriptLang
