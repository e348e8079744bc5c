import ProcedureBridge.Diagnostic.Report

/-! # Exceptions

What a host report becomes inside a script: a diagnostic and the diagnostics that led to it,
outermost first. `ofReport` and `toReport` lose nothing, and an exception raised while another is
being handled keeps the handled one at the end of its chain. -/

namespace ProcedureBridge

structure Exception where
  head : Diagnostic
  causes : List Diagnostic := []
deriving DecidableEq

namespace Exception

/-- An exception with neither optional fields nor causes. -/
def plain (severity : Severity) (code : ErrorCode) (message : String) : Exception :=
  ⟨⟨severity, code, message, none, none, none, none⟩, []⟩

def withDetail (e : Exception) (detail : String) : Exception :=
  { e with head := { e.head with detail := some detail } }

def severity (e : Exception) : Severity := e.head.severity

def code (e : Exception) : ErrorCode := e.head.code

def summary (e : Exception) : String := e.head.summary

def isCancellation (e : Exception) : Bool := e.code.isCancellation

/-- Nothing recovers from such an exception: it ends the session. -/
def isFatal (e : Exception) : Bool := e.severity.isFatal

/-- The exception and its causes, outermost first. -/
def chain (e : Exception) : List Diagnostic := e.head :: e.causes

def cause? (e : Exception) : Option Exception :=
  match e.causes with
  | [] => none
  | d :: rest => some ⟨d, rest⟩

/-- Puts `cause` under the innermost cause. -/
def appendCause (e cause : Exception) : Exception :=
  { e with causes := e.causes ++ cause.chain }

def ofReport : Report → Exception
  | .plain d => ⟨d, []⟩
  | .causedBy d cause => ⟨d, (ofReport cause).chain⟩

/-- The exception raised for a report while `handled` is being handled. -/
def raised (report : Report) (handled : Option Exception) : Exception :=
  match handled with
  | none => ofReport report
  | some prior => (ofReport report).appendCause prior

def toReport (e : Exception) : Report := Report.ofChain e.head e.causes

/-- Fills in where the exception came from, unless it says so itself. -/
def withContext (e : Exception) (context : Option String) : Exception :=
  if e.head.context.isNone then { e with head := { e.head with context := context } } else e

theorem chain_ofReport (r : Report) : (ofReport r).chain = r.chain := by
  induction r with
  | plain d => rfl
  | causedBy d cause ih => simp only [ofReport, chain, Report.chain] at ih ⊢; rw [ih]

theorem chain_toReport (e : Exception) : e.toReport.chain = e.chain :=
  Report.chain_ofChain e.head e.causes

end Exception

/-- The exception for work attempted in a scope that has failed. -/
def Exception.inFailedTransaction : Exception :=
  .plain .error .inFailedTransaction
    "current transaction is aborted, commands ignored until end of transaction block"

end ProcedureBridge
