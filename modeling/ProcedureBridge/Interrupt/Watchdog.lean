import ProcedureBridge.Interrupt.Monitor

/-! # Watchdogs

A watchdog asks for a cancellation when its time has come. Time is the running time of the script,
in microseconds. -/

namespace ProcedureBridge

structure Watchdog where
  /-- The instant at which it expires. -/
  deadline : Nat
  fired : Bool := false
deriving DecidableEq

namespace Watchdog

def expired (w : Watchdog) (now : Nat) : Bool := !w.fired && decide (w.deadline ≤ now)

/-- Lets a watchdog whose time has come fire, once. -/
def advance (w : Watchdog) (now : Nat) (m : Monitor) : Watchdog × Monitor :=
  if w.expired now then ({ w with fired := true }, m.signal .cancel) else (w, m)

/-- Disarms the watchdog of a call that is over. It may have expired after the call's last
safepoint: its request is then taken back. -/
def settle (w : Watchdog) (m : Monitor) : Monitor :=
  if w.fired && decide (m.state = .signaled .cancel) then (m.withdraw .cancel).2 else m

end Watchdog

end ProcedureBridge
