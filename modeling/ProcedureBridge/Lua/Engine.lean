import ProcedureBridge.Lua.Interpreter
import ProcedureBridge.Lua.Setup

/-! # Lua as a language for procedures -/

namespace ProcedureBridge.Lua

namespace Engine

/-- Why a text is no program, with the place of the fault. -/
def faultText (name : String) (fault : Fault) : String :=
  let chunk := chunkName (byteChars name)
  Text.decodeLossy (Lexer.bytesOf (positionText chunk fault.line ++ fault.message.toList))

/-- Reads a program. A name with a NUL in it is refused, and so is a text that announces compiled
code. -/
def parse (name text : String) : Except ScriptError Program :=
  match name.toUTF8.toList.findIdx? (· = 0) with
  | some i =>
    .error (.runtime
      ("invalid name: nul byte found in provided data at position: " ++ toString i))
  | none =>
    if text.toUTF8.toList.head? = some 0x1b then
      .error (.malformed
        (String.ofList (chunkName name.toList) ++ ": bad binary format (truncated chunk)"))
    else
      match Program.parse name text with
      | .ok program => .ok program
      | .error (.fault fault) => .error (.malformed (faultText name fault))
      | .error .tooDeep => .error (.runtime "C stack overflow")

/-- A namespace starts with references to the built-ins. The chunk finds it as its environment. -/
def instantiate (program : Program) (m : Machine) : Code × Machine :=
  let (space, m) := m.newTable {}
  let m := (m.table m.builtins).entries.foldl
    (fun m (key, value) => m.modifyTable space fun t => t.set key value) m
  let (cell, m) := m.newCell (.table space)
  let (function, m) := m.newClosure
    { params := []
      isVararg := true
      body := program.body
      env := [("_ENV", cell)]
      chunk := program.name }
  (⟨function, space⟩, m)

def topLevel (code : Code) : Machine → Tree :=
  Interpreter.script (Interpreter.call (.closure code.function) [])

/-- Reads a name in a namespace, by its metatable if it has one. -/
def member (code : Code) (name : String) : Machine → Tree :=
  Interpreter.script do
    let v ← Operation.index (Interpreter.runner Interpreter.supply) {} (.table code.space)
      (.ofString name)
    pure [v]

def invoke (f : List Value) (args : List Datum) : Machine → Tree :=
  Interpreter.script do
    let args ← Eval.update (Convert.ofData args)
    Interpreter.call (first f) args

/-- Makes a namespace `pl.init`. -/
def publish (code : Code) : Machine → Tree :=
  Interpreter.script do
    let pl ← Eval.gets fun m => (m.table m.builtins).get (.ofString "pl")
    Operation.setIndex (Interpreter.runner Interpreter.supply) {} pl (.ofString "init")
      (.table code.space)
    pure []

end Engine

/-- Procedures written in Lua. What a call returns is its first value. -/
def engine : ProcedureBridge.Engine where
  State := Machine
  Value := List Value
  Chunk := Program
  Code := Code
  parse := Engine.parse
  instantiate := Engine.instantiate
  topLevel := Engine.topLevel
  member := Engine.member
  isFunction := fun vs => (first vs).isFunction
  invoke := Engine.invoke
  isNil := fun vs => (first vs).isNil
  toDatum := fun vs m => Convert.toDatum (first vs) m
  publish := Engine.publish

end ProcedureBridge.Lua
