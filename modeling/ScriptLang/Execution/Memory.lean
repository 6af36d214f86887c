import ScriptLang.Execution.State
import ScriptLang.Scope.Tree

/-!
The memory of a run. Scopes and objects bind names to cells by number, and cells hold the values. A
scope that is opened stays, whether anything still refers to it or not, and so do cells: nothing is
ever given a number that was in use before.
-/

set_option autoImplicit false
set_option relaxedAutoImplicit false

namespace ScriptLang

def Bindings.map {κ α β : Type} (change : α → β) (bindings : Bindings κ α) : Bindings κ β :=
  ⟨bindings.entries.map fun entry ↦ (entry.1, change entry.2)⟩

def Bindings.values {κ α : Type} (bindings : Bindings κ α) : List α :=
  bindings.entries.map Prod.snd

def Scope.map {V W F G : Type} (vars : V → W) (functions : F → G) (scope : Scope V F) :
    Scope W G :=
  ⟨scope.vars.map vars, scope.functions.map functions⟩

/-- A function, and the number of the scope that it was declared in. -/
structure Closure (H : Type) where
  callable : Callable H
  scope : Nat

/-- An object of the host with cells for its fields. -/
structure CellObject (H : Type) where
  typeName : String
  members : Scope Nat (HostFunction H)
  keyed : ∀ name arity function, members.function? name arity = some function →
      function.arity = arity

/-- The object that the host sees. -/
def CellObject.contents {H : Type} (read : Nat → Value) (object : CellObject H) : Object H where
  typeName := object.typeName
  members := { object.members with vars := object.members.vars.map read }
  keyed := object.keyed

/-- Cells by number, scopes by number, the number of the module in use, the objects of the host, and
what was printed. The scope of the host is number zero. -/
structure Memory (H : Type) where
  cells : List Value := []
  scopes : ScopeTree Nat (Closure H) := .root
  module : Nat := 0
  objects : List (CellObject H) := []
  sink : Sink := .text ""

namespace Memory

variable {H : Type}

def read (memory : Memory H) (cell : Nat) : Value := memory.cells.getD cell .nil

def write (memory : Memory H) (cell : Nat) (value : Value) : Memory H :=
  { memory with cells := memory.cells.set cell value }

/-- Binds a name in a scope to a new cell. -/
def declare (memory : Memory H) (scope : Nat) (name : String) (value : Value) : Memory H :=
  { memory with
    cells := memory.cells ++ [value]
    scopes := memory.scopes.declare scope name memory.cells.length }

def declareFunction (memory : Memory H) (scope : Nat) (name : String) (arity : Nat)
    (callable : Callable H) : Memory H :=
  { memory with scopes := memory.scopes.declareFunction scope name arity ⟨callable, scope⟩ }

/-- Opens a scope inside the scope `parent`. -/
def openScope (memory : Memory H) (parent : Nat) : Memory H :=
  { memory with scopes := memory.scopes.child parent }

/-- Opens a module inside the scope of the host. -/
def openModule (memory : Memory H) : Memory H :=
  { memory.openScope 0 with module := memory.scopes.nodes.length }

/-- The fields and methods of the object that `ref` refers to; a reference to nothing has none. -/
def members (memory : Memory H) (ref : ObjectRef) : Scope Nat (HostFunction H) :=
  (memory.objects[ref.index]?.map CellObject.members).getD {}

/-- The objects that the host sees. -/
def contents (memory : Memory H) : ObjectStore H :=
  memory.objects.map (CellObject.contents memory.read)

/-- Fields with values, and the cells afterwards: a field that was there keeps its cell. -/
def placeFields (cells : List Value) (old : List (String × Nat)) :
    List (String × Value) → List (String × Nat) × List Value
  | [] => ([], cells)
  | (name, value) :: rest =>
    match old.lookup name with
    | some cell =>
      let placed := placeFields (cells.set cell value) (old.filter fun entry ↦ entry.1 ≠ name) rest
      ((name, cell) :: placed.1, placed.2)
    | none =>
      let placed := placeFields (cells ++ [value]) old rest
      ((name, cells.length) :: placed.1, placed.2)

/-- An object in cells, and the cells afterwards; `old` is the object that was there. -/
def placeObject (cells : List Value) (old : Option (CellObject H)) (object : Object H) :
    CellObject H × List Value :=
  let fields := (old.map fun found ↦ found.members.vars.entries).getD []
  let placed := placeFields cells fields object.members.vars.entries
  (⟨object.typeName, { object.members with vars := ⟨placed.1⟩ }, object.keyed⟩, placed.2)

/-- Objects in cells, and the cells afterwards; `old` are the objects that were there. -/
def placeObjects (cells : List Value) (old : List (CellObject H)) :
    ObjectStore H → List (CellObject H) × List Value
  | [] => ([], cells)
  | object :: rest =>
    let first := placeObject cells old.head? object
    let placed := placeObjects first.2 old.tail rest
    (first.1 :: placed.1, placed.2)

/-- Takes over the objects that the host has left. -/
def store (memory : Memory H) (objects : ObjectStore H) : Memory H :=
  let placed := placeObjects memory.cells memory.objects objects
  { memory with objects := placed.1, cells := placed.2 }

/-- The memory before any run of a host that adds nothing. -/
def initial (sink : Sink) : Memory H :=
  (({ sink : Memory H }.declareFunction 0 "print" 1 .print).declareFunction 0 "range" 2
    .range).openModule

end Memory

end ScriptLang
