/-! # Severities

How serious a report is. The order of the levels decides two things: from `error` on, reporting
raises, and from `fatal` on, the session cannot go on. -/

namespace ProcedureBridge

inductive Severity
  | debug
  | log
  | info
  | notice
  | warning
  | error
  | fatal
  | panic
deriving DecidableEq, Hashable

namespace Severity

def all : List Severity :=
  [debug, log, info, notice, warning, error, fatal, panic]

/-- Position in ascending order of seriousness. -/
def rank : Severity → Nat
  | debug => 0
  | log => 1
  | info => 2
  | notice => 3
  | warning => 4
  | error => 5
  | fatal => 6
  | panic => 7

instance : LE Severity := ⟨fun a b => a.rank ≤ b.rank⟩
instance : LT Severity := ⟨fun a b => a.rank < b.rank⟩

theorem le_def {a b : Severity} : a ≤ b ↔ a.rank ≤ b.rank := Iff.rfl

theorem lt_def {a b : Severity} : a < b ↔ a.rank < b.rank := Iff.rfl

instance (a b : Severity) : Decidable (a ≤ b) := decidable_of_iff _ le_def.symm
instance (a b : Severity) : Decidable (a < b) := decidable_of_iff _ lt_def.symm

/-- The upper-case name, under which scripts also find the reporting function. -/
def name : Severity → String
  | debug => "DEBUG"
  | log => "LOG"
  | info => "INFO"
  | notice => "NOTICE"
  | warning => "WARNING"
  | error => "ERROR"
  | fatal => "FATAL"
  | panic => "PANIC"

/-- Reads an exact upper-case name, as reports are written. -/
def ofExactName? (text : String) : Option Severity :=
  all.find? fun s => s.name == text

/-- Reads a name, ignoring the case of ASCII letters. -/
def ofName? (text : String) : Option Severity :=
  ofExactName? text.toUpper

def isError (s : Severity) : Bool := decide (error ≤ s)

def isFatal (s : Severity) : Bool := decide (fatal ≤ s)

theorem isError_of_isFatal {s : Severity} (h : s.isFatal) : s.isError := by
  cases s <;> simp_all [isFatal, isError, le_def, rank]

theorem ofExactName?_name (s : Severity) : ofExactName? s.name = some s := by
  cases s <;> decide

end Severity

end ProcedureBridge
