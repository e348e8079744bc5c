import ProcedureBridge.Lua.Exec

/-! # Arguments of library functions

Reading arguments, and the messages for those that are missing or of the wrong kind. -/

namespace ProcedureBridge.Lua

namespace Library

/-- How messages name the type of an argument, which may be missing. -/
def argType (args : List Value) (i : Nat) : String :=
  match args[i]? with
  | some v => v.typeName
  | none => "no value"

def expected {α : Type} (s : Site) (args : List Value) (i : Nat) (f type : String) : Eval α :=
  s.badArgument (i + 1) f (type ++ " expected, got " ++ argType args i)

def present (s : Site) (args : List Value) (i : Nat) (f : String) : Eval PUnit :=
  if i < args.length then pure ⟨⟩ else s.badArgument (i + 1) f "value expected"

def tableArg (s : Site) (args : List Value) (i : Nat) (f : String) : Eval Nat :=
  match arg args i with
  | .table place => pure place
  | _ => expected s args i f "table"

def bytesArg (s : Site) (args : List Value) (i : Nat) (f : String) : Eval ByteArray :=
  match (arg args i).toBytes? with
  | some bytes => pure bytes
  | none => expected s args i f "string"

def numArg (s : Site) (args : List Value) (i : Nat) (f : String) : Eval Num :=
  match (arg args i).toNum? with
  | some n => pure n
  | none => expected s args i f "number"

def intArg (s : Site) (args : List Value) (i : Nat) (f : String) : Eval Int := do
  let n ← numArg s args i f
  match n.toInteger? with
  | some n => pure n.toInt
  | none => s.badArgument (i + 1) f "number has no integer representation"

def intArgOr (s : Site) (args : List Value) (i : Nat) (f : String) (absent : Int) : Eval Int :=
  if (arg args i).isNil then pure absent else intArg s args i f

def one (v : Value) : Eval (List Value) := pure [v]

end Library

end ProcedureBridge.Lua
