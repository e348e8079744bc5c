import ProcedureBridge.Diagnostic.ScriptError

/-! # Failures

Every way in which an operation of the bridge can fail, and the one classification of all of them:
`toException` gives the exception, and `code`, `severity` and `disposition` agree with it. -/

namespace ProcedureBridge

inductive Failure
  /-- An error that came out of script code. -/
  | script (e : ScriptError)
  | exception (e : Exception)
  | scopeLimit (limit : Nat)
  /-- A scope was resolved while it was not the innermost one. -/
  | scopeOrder (handle : Nat) (detail : String)
  /-- The final report, as handed to the host at the call boundary. -/
  | reported (report : Report)
  | terminated
  | io (message : String)
  | config (message : String)
  | invalidArgument (message : String)
deriving DecidableEq

/-- What the host is to do with an error that left script code. -/
inductive Disposition
  | report (report : Report)
  | suppress (reason : Option String)
deriving DecidableEq

namespace Failure

def protocolViolation (message : String) : Failure :=
  .exception (.plain .error .protocolViolation message)

def display : Failure → String
  | script e => "Lua error: " ++ e.display
  | exception e => e.summary
  | scopeLimit limit =>
    "too many subtransactions: nesting limit of " ++ toString limit ++ " exceeded"
  | scopeOrder handle detail =>
    "out-of-order resolution of subtransaction " ++ toString handle ++ ": " ++ detail
  | reported report => report.summary
  | terminated => "session terminated"
  | io message => "IO error: " ++ message
  | config message => "Configuration error: " ++ message
  | invalidArgument message => "Invalid argument: " ++ message

def toException : Failure → Exception
  | script e => e.toException
  | exception e => e
  | reported report => .ofReport report
  | scopeLimit limit =>
    (Exception.plain .error .savepointException "too many subtransactions").withDetail
      ("The nesting limit is " ++ toString limit ++ ".")
  | scopeOrder handle detail =>
    .plain .error .savepointException (scopeOrder handle detail).display
  | terminated => .plain .fatal .adminShutdown "session terminated"
  | io message => .plain .error .bridgeError (io message).display
  | config message => .plain .error .bridgeError (config message).display
  | invalidArgument message => .plain .error .bridgeError (invalidArgument message).display

def code : Failure → ErrorCode
  | exception e => e.code
  | reported report => report.code
  | f => f.toException.code

def severity : Failure → Severity
  | exception e => e.severity
  | reported report => report.severity
  | f => f.toException.severity

def isCancellation (f : Failure) : Bool := f.code.isCancellation

def disposition : Failure → Disposition
  | script e =>
    match e.carried with
    | some (.suppress reason) => .suppress reason
    | _ => .report e.toException.toReport
  | reported report => .report report
  | f => .report f.toException.toReport

/-- The error raised in script code for a failure. What came out of a script goes back as it is. -/
def toScriptError : Failure → ScriptError
  | script e => e
  | f => .exception f.toException

end Failure

/-- Reads a code, or says why it is none. -/
def ErrorCode.parse (text : String) : Except Failure ErrorCode :=
  match ErrorCode.ofString? text with
  | some code => .ok code
  | none => .error (.invalidArgument ("invalid error code '" ++ text ++ "'"))

end ProcedureBridge
