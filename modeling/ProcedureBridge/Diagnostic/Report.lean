import ProcedureBridge.Diagnostic.ErrorCode

/-! # Reports

The host speaks in reports. A report is a diagnostic, and under it, when there is one, the report
that was being handled when this one was made. -/

namespace ProcedureBridge

/-- One message, without what led to it. -/
structure Diagnostic where
  severity : Severity
  code : ErrorCode
  message : String
  detail : Option String := none
  hint : Option String := none
  context : Option String := none
  position : Option UInt32 := none
deriving DecidableEq

/-- One line for people: severity, message and code. -/
def Diagnostic.summary (d : Diagnostic) : String :=
  d.severity.name ++ ": " ++ d.message ++ " (" ++ d.code.toString ++ ")"

inductive Report
  | plain (diagnostic : Diagnostic)
  | causedBy (diagnostic : Diagnostic) (cause : Report)
deriving DecidableEq

namespace Report

def head : Report → Diagnostic
  | plain d => d
  | causedBy d _ => d

def cause? : Report → Option Report
  | plain _ => none
  | causedBy _ cause => some cause

/-- The report's diagnostics, outermost first. -/
def chain : Report → List Diagnostic
  | plain d => [d]
  | causedBy d cause => d :: cause.chain

/-- The report with the given diagnostics, outermost first. -/
def ofChain (d : Diagnostic) : List Diagnostic → Report
  | [] => plain d
  | next :: rest => causedBy d (ofChain next rest)

def chainLength (r : Report) : Nat := r.chain.length

def severity (r : Report) : Severity := r.head.severity

def code (r : Report) : ErrorCode := r.head.code

def message (r : Report) : String := r.head.message

def summary (r : Report) : String := r.head.summary

theorem chain_ofChain (d : Diagnostic) (rest : List Diagnostic) :
    (ofChain d rest).chain = d :: rest := by
  induction rest generalizing d with
  | nil => rfl
  | cons next rest ih => rw [ofChain, chain, ih]

end Report

end ProcedureBridge
