import ProcedureBridge.Diagnostic.Failure

/-! # Options

What a session can be told when it is opened. -/

namespace ProcedureBridge

/-- A span of time, exact to the nanosecond. -/
structure Duration where
  seconds : UInt64
  nanoseconds : UInt32
  nanoseconds_lt : nanoseconds < 1000000000
deriving DecidableEq

namespace Duration

def zero : Duration := ⟨0, 0, by decide⟩

theorem nanoseconds_ofNat_lt (ms : Nat) :
    UInt32.ofNat (ms % 1000 * 1000000) < 1000000000 := by
  have h : ms % 1000 < 1000 := Nat.mod_lt _ (by omega)
  rw [UInt32.lt_iff_toNat_lt, UInt32.toNat_ofNat_of_lt' (by rw [UInt32.size]; omega)]
  have : (1000000000 : UInt32).toNat = 1000000000 := rfl
  omega

def ofMilliseconds (ms : UInt64) : Duration :=
  ⟨.ofNat (ms.toNat / 1000), .ofNat (ms.toNat % 1000 * 1000000), nanoseconds_ofNat_lt ms.toNat⟩

/-- Whole milliseconds; what is left over is dropped. -/
def milliseconds (d : Duration) : Nat :=
  d.seconds.toNat * 1000 + d.nanoseconds.toNat / 1000000

/-- Whole microseconds; what is left over is dropped. -/
def microseconds (d : Duration) : Nat :=
  d.seconds.toNat * 1000000 + d.nanoseconds.toNat / 1000

end Duration

structure Options where
  /-- How many transaction scopes may be nested. -/
  maxScopeDepth : UInt64 := 1024
  /-- Instructions of the interpreter from one safepoint to the next. -/
  safepointInterval : UInt32 := 1000
  /-- How many compiled procedures are kept; 0 sets no limit. -/
  cacheCapacity : UInt64 := 1024
  /-- The function that an invocation of a procedure calls. -/
  entryPoint : String := "main"
  /-- The file of the initialization unit. It is passed over if there is no such file. -/
  initPath : Option String := none
  /-- The text of the initialization unit, if no file gives it. -/
  initSource : Option String := none
  /-- A top-level call that runs longer is canceled. -/
  statementTimeout : Option Duration := none
  /-- What a script prints goes to the host, as a notice. -/
  redirectPrint : Bool := true
deriving DecidableEq

namespace Options

/-- The reason for which a session cannot be opened with these options. -/
def fault? (o : Options) : Option String :=
  if o.maxScopeDepth = 0 then some "max_scope_depth must be > 0"
  else if o.safepointInterval = 0 then some "safepoint_interval must be > 0"
  else if o.entryPoint.isEmpty then some "entry_point must not be empty"
  else if o.statementTimeout = some .zero then some "statement_timeout must be > 0"
  else none

def validate (o : Options) : Except Failure Unit :=
  match o.fault? with
  | some reason => .error (.config reason)
  | none => .ok ()

end Options

end ProcedureBridge
