import ProcedureBridge.Diagnostic.Failure

/-! # Catch patterns

Which errors a handler takes: those of one code, those of one class, or any that is no
cancellation. Nothing takes what is fatal. -/

namespace ProcedureBridge

inductive CatchPattern
  | any
  | ofClass (name : String)
  | ofCode (code : ErrorCode)
deriving DecidableEq

namespace CatchPattern

def isAlphanumeric (c : Char) : Bool := c.isDigit || c.isUpper || c.isLower

/-- Lengths are counted in bytes. -/
def parse (pattern : String) : Except Failure CatchPattern :=
  if pattern = "*" then .ok .any
  else if pattern.utf8ByteSize = 2 && pattern.toList.all isAlphanumeric then
    .ok (.ofClass pattern.toUpper)
  else if pattern.utf8ByteSize = 5 then
    (ErrorCode.parse pattern).map .ofCode
  else
    .error (.invalidArgument
      ("catch pattern must be \"*\", a class or a code, got \"" ++ pattern ++ "\""))

def intercepts (p : CatchPattern) (e : Exception) : Bool :=
  if e.isFatal then false
  else
    match p with
    | any => !e.isCancellation
    | ofClass name => e.code.category == name
    | ofCode code => decide (e.code = code)

/-- The exception that a handler under this pattern gets for an error. A suppress signal has
none. -/
def caught? (p : CatchPattern) (e : ScriptError) : Option Exception :=
  if e.isSuppress then none
  else
    let exc := e.toException
    if p.intercepts exc then some exc else none

end CatchPattern

end ProcedureBridge
