import ProcedureBridge.Diagnostic.Exception

/-! # The interruption monitor

Interruptions arrive at any time, also from other threads, and are observed only at safepoints. All
that is kept of them is one status byte, so that each operation below is a single atomic step.

A request is signaled, then consumed by a safepoint, and stays raised until it is acknowledged. A
termination, signaled or consumed, absorbs every later request. -/

namespace ProcedureBridge

inductive Interrupt
  /-- Stop the running statement. -/
  | cancel
  /-- End the session. -/
  | terminate
deriving DecidableEq

namespace Interrupt

def bits : Interrupt → UInt8
  | cancel => 1
  | terminate => 2

/-- The exception raised where the interruption is observed. -/
def toException : Interrupt → Exception
  | cancel => .plain .error .queryCanceled "canceling statement due to user request"
  | terminate =>
    .plain .fatal .adminShutdown "terminating connection due to administrator command"

end Interrupt

inductive MonitorState
  | idle
  /-- Requested, and not yet observed by the script. -/
  | signaled (kind : Interrupt)
  /-- Observed at a safepoint, and not yet acknowledged. -/
  | consumed (kind : Interrupt)
deriving DecidableEq

/-- The status byte. The low four bits hold the kind of request, `consumedBit` that a safepoint has
seen it. -/
structure Monitor where
  status : UInt8 := 0
deriving DecidableEq

namespace Monitor

def kindMask : UInt8 := 0x0f

def consumedBit : UInt8 := 0x10

def idle : Monitor := ⟨0⟩

/-- The kind of request that is held, observed or not. -/
def held (m : Monitor) : Option Interrupt :=
  if m.status &&& kindMask = Interrupt.cancel.bits then some .cancel
  else if m.status &&& kindMask = Interrupt.terminate.bits then some .terminate
  else none

def isConsumed (m : Monitor) : Bool := m.status &&& consumedBit != 0

def state (m : Monitor) : MonitorState :=
  match m.held with
  | none => .idle
  | some kind => if m.isConsumed then .consumed kind else .signaled kind

/-- A request that no safepoint has observed. -/
def isPending (m : Monitor) : Bool :=
  match m.state with
  | .signaled _ => true
  | _ => false

/-- Requests an interruption. A termination is never taken back, and an observed cancellation is
replaced by a fresh request. -/
def signal (m : Monitor) (kind : Interrupt) : Monitor :=
  let heldBits := m.status &&& kindMask
  if heldBits = Interrupt.terminate.bits || (!m.isConsumed && decide (kind.bits ≤ heldBits)) then m
  else ⟨kind.bits⟩

/-- What a safepoint does: consumes the request and tells what is to be raised. -/
def check (m : Monitor) : Option Interrupt × Monitor :=
  match m.held with
  | none => (none, m)
  | some kind => (some kind, if m.isConsumed then m else ⟨consumedBit ||| m.status⟩)

/-- Takes back a request of the given kind that has not been observed. -/
def withdraw (m : Monitor) (kind : Interrupt) : Bool × Monitor :=
  if m.status = kind.bits then (true, idle) else (false, m)

/-- Clears a consumed request; one that arrived after it was consumed stays. -/
def acknowledge (m : Monitor) : Monitor := if m.isConsumed then idle else m

end Monitor

end ProcedureBridge
