import ProcedureBridge.Diagnostic.Failure
import ProcedureBridge.Host.Basic
import ProcedureBridge.Text.Checksum
import ProcedureBridge.Text.Quoted

/-! # Execution units

A compiled text with its private namespace. Its top-level code runs when the unit is first loaded.
A load that starts while the top-level code runs finds the namespace as it is then; after a failed
run the unit is as new, save for what the code has left in the namespace. -/

namespace ProcedureBridge

/-- What a unit was compiled from. -/
inductive UnitId
  | procedure (id : ProcedureId)
  /-- An anonymous block. The blocks of a session are numbered. -/
  | inline (n : Nat)
  | init
deriving DecidableEq

namespace UnitId

def display : UnitId → String
  | procedure id => "procedure " ++ toString id.number
  | inline n => "inline block " ++ toString n
  | init => "initialization unit"

/-- The id as a term, for developers. -/
def inspect : UnitId → String
  | procedure id => "Procedure(ProcedureId(" ++ toString id.number ++ "))"
  | inline n => "Inline(" ++ toString n ++ ")"
  | init => "Init"

end UnitId

inductive LoadState
  | fresh
  | loading
  | loaded
deriving DecidableEq

/-- A unit whose code and namespace the script engine keeps under `code`. -/
structure ExecutionUnit (κ : Type) where
  id : UnitId
  name : String
  /-- The checksum of the text that the unit was compiled from. -/
  checksum : UInt32
  code : κ
  state : LoadState := .fresh

namespace ExecutionUnit

variable {κ : Type}

def isLoaded (u : ExecutionUnit κ) : Bool := decide (u.state = .loaded)

/-- The text has the checksum of the one that the unit was compiled from. -/
def isCurrent (u : ExecutionUnit κ) (text : String) : Bool :=
  decide (Text.checksum text = u.checksum)

/-- The unit as a term, for developers. -/
def inspect (u : ExecutionUnit κ) : String :=
  "ExecutionUnit \x7b id: " ++ u.id.inspect ++ ", name: " ++ Text.quoted u.name ++ ", checksum: " ++
    toString u.checksum.toNat ++ ", loaded: " ++ (if u.isLoaded then "true" else "false") ++ " \x7d"

end ExecutionUnit

/-- The failure to compile a text. Only a text that is no program is reported as one. -/
def compileFailure (id : UnitId) : ScriptError → Failure
  | .malformed message =>
    let e : Exception := .plain .error .malformedSource ("could not compile " ++ id.display)
    .exception (e.withDetail message)
  | e => .script e

/-- The failure to find the function `name` in a loaded unit. -/
def missingEntryPoint {κ : Type} (u : ExecutionUnit κ) (name : String) : Failure :=
  .exception ((Exception.plain .error .invalidFunctionDefinition
      (u.name ++ " does not define a \"" ++ name ++ "\" function")).withDetail
    (u.id.display ++ " must define a global function named \"" ++ name ++ "\"."))

end ProcedureBridge
