import Std.Data.HashMap
import ProcedureBridge.Bridge.Script
import ProcedureBridge.Lua.Parser

/-! # Values of Lua

Tables and functions have an identity: a value names the place in the machine where they are.
Exceptions and errors of the bridge do not change, so their values carry them, together with a
number that tells them apart. -/

namespace ProcedureBridge.Lua

/-- Functions of a transaction handle. -/
inductive HandleMethod
  | enter
  | commit
  | abort
  | status
deriving DecidableEq, Hashable

inductive MathFunction
  | abs
  | ceil
  | floor
  | fmod
  | max
  | min
  | sqrt
  | tointeger
  | type
  | ult
deriving DecidableEq, Hashable

inductive StringFunction
  | byte
  | char
  | len
  | lower
  | rep
  | reverse
  | sub
  | upper
deriving DecidableEq, Hashable

inductive TableFunction
  | concat
  | insert
  | pack
  | remove
  | unpack
deriving DecidableEq, Hashable

/-- Functions that are not written in Lua. -/
inductive Native
  | assert
  | error
  | getmetatable
  | ipairs
  | ipairsStep
  | next
  | pairs
  | pcall
  /-- Prints, to the host if it is redirected there. -/
  | print (redirected : Bool)
  | rawequal
  | rawget
  | rawlen
  | rawset
  | select
  | setmetatable
  | tonumber
  | tostring
  | type
  | xpcall
  | math (f : MathFunction)
  | string (f : StringFunction)
  | table (f : TableFunction)
  | report (severity : Severity)
  | xact
  | transaction
  | guarded
  | errcode
  | raise
  | stopEvent
  | preload
  | clearCache
  | handle (f : HandleMethod)
deriving DecidableEq, Hashable

inductive Value
  | nil
  | bool (b : Bool)
  | num (n : Num)
  | str (s : ByteArray)
  | table (place : Nat)
  | closure (place : Nat)
  | native (f : Native)
  | transaction (handle : HandleId)
  | exception (identity : Nat) (e : Exception)
  | failure (identity : Nat) (e : ScriptError)

instance : Inhabited Value := ⟨.nil⟩

namespace Value

/-- Equality that asks no metatable. -/
def beq : Value → Value → Bool
  | nil, nil => true
  | bool a, bool b => a == b
  | num a, num b => a == b
  | str a, str b => a == b
  | table a, table b => a == b
  | closure a, closure b => a == b
  | native a, native b => a == b
  | transaction a, transaction b => a == b
  | exception a _, exception b _ => a == b
  | failure a _, failure b _ => a == b
  | _, _ => false

instance : BEq Value := ⟨beq⟩

def hash : Value → UInt64
  | nil => 1
  | bool b => mixHash 2 (Hashable.hash b)
  | num (.int n) => mixHash 3 n.toUInt64
  | num (.float x) => mixHash 4 x.toBits
  | str s => mixHash 5 (Hashable.hash s)
  | table a => mixHash 6 (Hashable.hash a)
  | closure a => mixHash 7 (Hashable.hash a)
  | native f => mixHash 8 (Hashable.hash f)
  | transaction a => mixHash 9 (Hashable.hash a.number)
  | exception a _ => mixHash 10 (Hashable.hash a)
  | failure a _ => mixHash 11 (Hashable.hash a)

instance : Hashable Value := ⟨hash⟩

def int (n : Int64) : Value := .num (.int n)

def float (x : Float) : Value := .num (.float x)

def ofNat (n : Nat) : Value := .int (.ofNat n)

def ofString (s : String) : Value := .str s.toUTF8

/-- Everything counts as true but `nil` and `false`. -/
def isTrue : Value → Bool
  | nil => false
  | bool false => false
  | _ => true

def isNil : Value → Bool
  | nil => true
  | _ => false

def isFunction : Value → Bool
  | closure _ => true
  | native _ => true
  | _ => false

/-- The name of a value's type. -/
def typeName : Value → String
  | nil => "nil"
  | bool _ => "boolean"
  | num _ => "number"
  | str _ => "string"
  | table _ => "table"
  | closure _ => "function"
  | native _ => "function"
  | transaction _ => "userdata"
  | exception _ _ => "userdata"
  | failure _ _ => "userdata"

/-- The name of a value's kind, as the bridge tells kinds apart. -/
def kindName : Value → String
  | num (.int _) => "integer"
  | failure _ _ => "error"
  | v => v.typeName

/-- A key as tables keep it: a float that is an integer is that integer. -/
def asKey : Value → Value
  | num (.float x) =>
    match Num.integerOfFloat? x with
    | some n => int n
    | none => float x
  | v => v

/-- The number that a value is or, if it is a string, spells. -/
def toNum? : Value → Option Num
  | num n => some n
  | str s => Num.ofText? (s.toList.map fun b => Char.ofNat b.toNat)
  | _ => none

/-- The bytes that a string has or a number is written with. -/
def toBytes? : Value → Option ByteArray
  | str s => some s
  | num n => some (String.ofList n.text).toUTF8
  | _ => none

end Value

/-- The first of some values; absent ones are nil. -/
def first (vs : List Value) : Value := vs.headD .nil

/-- The value at a position, counted from 0; absent ones are nil. -/
def arg (vs : List Value) (i : Nat) : Value := vs[i]?.getD .nil

end ProcedureBridge.Lua
