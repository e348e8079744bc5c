import ProcedureBridge.Lua.Table

/-! # The machine

Everything that a Lua program can change: tables, functions and variables, each at a place of its
own. -/

namespace ProcedureBridge.Lua

/-- Where the variables that are in scope are kept, the innermost first. -/
abbrev Env := List (String × Nat)

/-- A function with the variables around it. -/
structure Closure where
  params : List String
  isVararg : Bool
  body : List Stat
  env : Env
  /-- The name of the chunk, as messages show it. -/
  chunk : List Char

structure Machine where
  tables : Array Table := #[]
  closures : Array Closure := #[]
  cells : Array Value := #[]
  /-- How many values with an identity of their own were made. -/
  identities : Nat := 0
  /-- The metatable of strings. -/
  stringMeta : Nat := 0
  /-- The metatable that marks tables as arrays. -/
  arrayMeta : Nat := 0
  /-- What every new namespace starts with. -/
  builtins : Nat := 0

namespace Machine

def table (m : Machine) (place : Nat) : Table := m.tables[place]?.getD {}

def newTable (m : Machine) (t : Table) : Nat × Machine :=
  (m.tables.size, { m with tables := m.tables.push t })

def modifyTable (m : Machine) (place : Nat) (f : Table → Table) : Machine :=
  { m with tables := m.tables.modify place f }

def setField (m : Machine) (place : Nat) (key : String) (value : Value) : Machine :=
  m.modifyTable place fun t => t.set (.ofString key) value

def newClosure (m : Machine) (c : Closure) : Nat × Machine :=
  (m.closures.size, { m with closures := m.closures.push c })

def newCell (m : Machine) (v : Value) : Nat × Machine :=
  (m.cells.size, { m with cells := m.cells.push v })

def cell (m : Machine) (place : Nat) : Value := m.cells[place]?.getD .nil

def setCell (m : Machine) (place : Nat) (v : Value) : Machine :=
  { m with cells := m.cells.setIfInBounds place v }

def newIdentity (m : Machine) : Nat × Machine :=
  (m.identities, { m with identities := m.identities + 1 })

/-- The metatable of a value. Those of exceptions, errors and handles are not tables. -/
def metatable? (m : Machine) (v : Value) : Option Nat :=
  match v with
  | .table place => (m.table place).metatable
  | .str _ => some m.stringMeta
  | _ => none

/-- What the metatable of a value has for an event. -/
def metamethod (m : Machine) (v : Value) (event : String) : Value :=
  match m.metatable? v with
  | some place => (m.table place).get (.ofString event)
  | none => .nil

/-- A table with the marks of an array. -/
def isArray (m : Machine) (t : Table) : Bool := t.metatable == some m.arrayMeta

end Machine

end ProcedureBridge.Lua
