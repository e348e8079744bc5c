import ProcedureBridge.Diagnostic.Severity

/-! # Error codes

A code is five characters, each an ASCII digit or upper-case letter: two name its class, three the
condition. Class 57 is kept for cancellation and termination. -/

namespace ProcedureBridge

/-- The characters codes are made of. -/
def isCodeChar (c : Char) : Bool := c.isDigit || c.isUpper

structure ErrorCode where
  chars : List Char
  length_eq : chars.length = 5
  valid : chars.all isCodeChar = true
deriving DecidableEq

namespace ErrorCode

/-- Reads a code; lower-case ASCII letters count as upper-case ones. -/
def ofString? (text : String) : Option ErrorCode :=
  let chars := text.toList.map Char.toUpper
  if h : chars.length = 5 ∧ chars.all isCodeChar = true then some ⟨chars, h.1, h.2⟩ else none

def toString (code : ErrorCode) : String := String.ofList code.chars

/-- The two characters that name the class. -/
def category (code : ErrorCode) : String := String.ofList (code.chars.take 2)

/-- Class 57: the operator intervened. -/
def isCancellation (code : ErrorCode) : Bool := code.category == "57"

def successfulCompletion : ErrorCode := ⟨['0', '0', '0', '0', '0'], rfl, by decide⟩
def warning : ErrorCode := ⟨['0', '1', '0', '0', '0'], rfl, by decide⟩

/-- Work was attempted after an error, without rolling back first. -/
def inFailedTransaction : ErrorCode := ⟨['2', '5', 'P', '0', '2'], rfl, by decide⟩

/-- A subtransaction was misused. -/
def savepointException : ErrorCode := ⟨['3', 'B', '0', '0', '0'], rfl, by decide⟩
def malformedSource : ErrorCode := ⟨['4', '2', '6', '0', '1'], rfl, by decide⟩

/-- A procedure lacks its entry point. -/
def invalidFunctionDefinition : ErrorCode := ⟨['4', '2', 'P', '1', '3'], rfl, by decide⟩
def queryCanceled : ErrorCode := ⟨['5', '7', '0', '1', '4'], rfl, by decide⟩
def adminShutdown : ErrorCode := ⟨['5', '7', 'P', '0', '1'], rfl, by decide⟩
def internalError : ErrorCode := ⟨['X', 'X', '0', '0', '0'], rfl, by decide⟩

/-- A failure inside the bridge itself. -/
def bridgeError : ErrorCode := ⟨['P', 'L', '0', '0', '0'], rfl, by decide⟩

/-- A script raised an ordinary error. -/
def scriptException : ErrorCode := ⟨['P', 'L', '0', '0', '1'], rfl, by decide⟩

/-- A script broke the calling convention. -/
def protocolViolation : ErrorCode := ⟨['P', 'L', '0', '0', '2'], rfl, by decide⟩

end ErrorCode

/-- The code of a report whose reporter did not choose one. -/
def Severity.defaultCode (s : Severity) : ErrorCode :=
  if s = .warning then .warning
  else if s.isError then .internalError
  else .successfulCompletion

end ProcedureBridge
