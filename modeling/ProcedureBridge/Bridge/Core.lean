import ProcedureBridge.Bridge.Script
import ProcedureBridge.Cache.Lru
import ProcedureBridge.Interrupt.Watchdog
import ProcedureBridge.Options.Basic
import ProcedureBridge.Unit.Basic

/-! # The state of the bridge

All that a session knows, apart from the script engine's own state: the host, the cache, the scope
stack, the interruption monitor, and what of the running call must not be forgotten. The operations
here are those that a script can reach. -/

namespace ProcedureBridge

/-- Where a unit stands among the units of the session. -/
structure UnitRef where
  index : Nat
deriving DecidableEq

inductive HandleState
  | fresh
  | entered (scope : ScopeHandle)
  | committed
  | aborted
deriving DecidableEq

def HandleState.status : HandleState → HandleStatus
  | fresh => .fresh
  | entered _ => .open
  | committed => .committed
  | aborted => .aborted

structure Core (σ U : Type) where
  host : σ
  options : Options
  units : Array (ExecutionUnit U) := #[]
  cache : CodeCache UnitRef
  scopes : ScopeStack
  monitor : Monitor := .idle
  /-- Exceptions whose handlers are running, innermost first. -/
  handling : List Exception := []
  /-- The first fatal condition of the running call. Nothing recovers from it. -/
  fatal : Option Exception := none
  terminated : Bool := false
  inlineBlocks : Nat := 0
  handles : Array HandleState := #[]
  /-- Running time, in microseconds: one instruction takes one. -/
  now : Nat := 0
  /-- Instructions since the last safepoint that they led to. -/
  sinceSafepoint : Nat := 0
  /-- The watchdog of the running call. -/
  callWatchdog : Option Watchdog := none
  /-- A watchdog set from outside. -/
  standingWatchdog : Option Watchdog := none

namespace Core

variable {σ U : Type}

def new (host : σ) (options : Options) : Core σ U where
  host := host
  options := options
  cache := { capacity := options.cacheCapacity.toNat }
  scopes := { maxDepth := options.maxScopeDepth.toNat }

def markFailed (c : Core σ U) : Core σ U := { c with scopes := c.scopes.markFailed }

def signal (c : Core σ U) (kind : Interrupt) : Core σ U :=
  { c with monitor := c.monitor.signal kind }

/-- Keeps the first fatal condition of a call. -/
def recordFatal (c : Core σ U) (e : Exception) : Core σ U :=
  if c.fatal.isNone then { c with fatal := some e } else c

/-- Takes the fatal condition of the call that is over. A termination that was observed counts even
if its exception was not recorded. -/
def takeFatal (c : Core σ U) : Option Exception × Core σ U :=
  let observed :=
    match c.monitor.state with
    | .consumed .terminate => some Interrupt.terminate.toException
    | _ => none
  (c.fatal.or observed, { c with fatal := none })

/-- Raises an error that came as a report. -/
def raise (c : Core σ U) (report : Report) : Failure × Core σ U :=
  let e := Exception.raised report c.handling.head?
  let c := if e.isFatal then c.recordFatal e else c
  (.exception e, c.markFailed)

variable [Host σ]

/-- Takes an interruption that comes from the host itself. -/
def poll (c : Core σ U) : Core σ U :=
  let (asked, host) := Host.takeInterrupt c.host
  let c := { c with host }
  if asked then c.signal .cancel else c

/-- Raises what is pending or unacknowledged. A fatal condition is raised at every safepoint. -/
def safepoint (c : Core σ U) : Except Failure Unit × Core σ U :=
  match c.fatal with
  | some e => (.error (.exception e), c.markFailed)
  | none =>
    let c := c.poll
    let (found, monitor) := c.monitor.check
    let c := { c with monitor }
    match found with
    | none => (.ok (), c)
    | some kind =>
      let e := kind.toException
      let c := if kind = .terminate then c.recordFatal e else c
      (.error (.exception e), c.markFailed)

/-- Hands a message to the host, and takes the interruptions requested meanwhile. -/
def deliver (c : Core σ U) (report : Report) : Core σ U :=
  let (signals, host) := Host.deliver report c.host
  signals.foldl signal { c with host }

/-- Delivers a message, or raises it if it is an error. -/
def report (c : Core σ U) (report : Report) : Except Failure Unit × Core σ U :=
  match c.safepoint with
  | (.error f, c) => (.error f, c)
  | (.ok _, c) =>
    if report.severity.isError then
      let (f, c) := c.raise report
      (.error f, c)
    else (.ok (), c.deliver report)

/-- The report that a script makes. A code that is none is the script's mistake, and no error of
the host. -/
def scriptReport (severity : Severity) (message : String) (options : ReportOptions) :
    Except Failure Report := do
  let code ←
    match options.code with
    | none => pure severity.defaultCode
    | some text => ErrorCode.parse text
  pure (.plain
    { severity, code, message
      detail := options.detail
      hint := options.hint
      context := options.context
      position := options.position })

def reportFromScript (c : Core σ U) (severity : Severity) (message : String)
    (options : ReportOptions) : Except Failure Unit × Core σ U :=
  match scriptReport severity message options with
  | .error f => (.error f, c)
  | .ok r => c.report r

def enterScope (c : Core σ U) : Except Failure ScopeHandle × Core σ U :=
  match c.safepoint with
  | (.error f, c) => (.error f, c)
  | (.ok _, c) =>
    let (r, scopes, host) := c.scopes.enter c.host
    (r, { c with scopes, host })

def resolveScope (c : Core σ U) (handle : ScopeHandle) (resolution : Resolution) :
    Except Failure ScopeStatus × Core σ U :=
  let (r, scopes, host) := c.scopes.resolve handle resolution c.host
  (r, { c with scopes, host })

def abortThrough (c : Core σ U) (handle : ScopeHandle) : Core σ U :=
  let (_, scopes, host) := c.scopes.abortThrough handle c.host
  { c with scopes, host }

def unwindTo (c : Core σ U) (depth : Nat) : Nat × Core σ U :=
  let (count, scopes, host) := c.scopes.unwindTo depth c.host
  (count, { c with scopes, host })

def handleState (c : Core σ U) (handle : HandleId) : HandleState :=
  c.handles[handle.number]?.getD .fresh

def setHandle (c : Core σ U) (handle : HandleId) (state : HandleState) : Core σ U :=
  { c with handles := c.handles.setIfInBounds handle.number state }

def newHandle (c : Core σ U) : HandleId × Core σ U :=
  (⟨c.handles.size⟩, { c with handles := c.handles.push .fresh })

def misuse (message : String) : Failure := .exception (.plain .error .savepointException message)

def enterHandle (c : Core σ U) (handle : HandleId) : Except Failure Unit × Core σ U :=
  match c.handleState handle with
  | .fresh =>
    match c.enterScope with
    | (.error f, c) => (.error f, c)
    | (.ok scope, c) => (.ok (), c.setHandle handle (.entered scope))
  | _ => (.error (misuse "this transaction has already been entered"), c)

/-- Resolves the scope of a handle. Only a refusal for want of order leaves the handle open. -/
def resolveHandle (c : Core σ U) (handle : HandleId) (resolution : Resolution) :
    Except Failure Unit × Core σ U :=
  match c.handleState handle with
  | .entered scope =>
    match c.resolveScope scope resolution with
    | (.error (.scopeOrder id detail), c) => (.error (.scopeOrder id detail), c)
    | (.ok .committed, c) => (.ok (), c.setHandle handle .committed)
    | (.ok .aborted, c) => (.ok (), c.setHandle handle .aborted)
    | (.error f, c) => (.error f, c.setHandle handle .aborted)
  | .fresh => (.error (misuse "this transaction has not been entered"), c)
  | _ => (.error (misuse "this transaction has already been resolved"), c)

/-- Registers an exception as being handled. -/
def beginHandling (c : Core σ U) (e : Exception) : Core σ U :=
  let c := if e.isCancellation then { c with monitor := c.monitor.acknowledge } else c
  { c with handling := e :: c.handling }

def endHandling (c : Core σ U) : Core σ U := { c with handling := c.handling.tail }

/-- Lets time pass, in which watchdogs may fire. -/
def elapse (c : Core σ U) (time : Nat) : Core σ U :=
  let now := c.now + time
  let watch (w : Option Watchdog) (m : Monitor) : Option Watchdog × Monitor :=
    match w with
    | none => (none, m)
    | some w => let (w, m) := w.advance now m; (some w, m)
  let (callWatchdog, monitor) := watch c.callWatchdog c.monitor
  let (standingWatchdog, monitor) := watch c.standingWatchdog monitor
  { c with now, callWatchdog, standingWatchdog, monitor }

/-- Accounts for executed instructions. Once there are enough of them there is a safepoint. -/
def tick (c : Core σ U) (instructions : Nat) : Except Failure Unit × Core σ U :=
  let c := c.elapse instructions
  let total := c.sinceSafepoint + instructions
  if c.options.safepointInterval.toNat ≤ total then { c with sinceSafepoint := 0 }.safepoint
  else (.ok (), { c with sinceSafepoint := total })

def clearCache (c : Core σ U) : Nat × Core σ U :=
  let (count, cache) := c.cache.invalidateAll
  (count, { c with cache })

def invalidate (c : Core σ U) (id : ProcedureId) : Bool × Core σ U :=
  let (dropped, cache) := c.cache.invalidate id
  (dropped, { c with cache })

def unit? (c : Core σ U) (ref : UnitRef) : Option (ExecutionUnit U) := c.units[ref.index]?

/-- The unit that the cache holds for a procedure. -/
def cachedUnit? (c : Core σ U) (id : ProcedureId) : Option (ExecutionUnit U) :=
  (c.cache.peek id).bind c.unit?

def addUnit (c : Core σ U) (unit : ExecutionUnit U) : UnitRef × Core σ U :=
  (⟨c.units.size⟩, { c with units := c.units.push unit })

def setLoadState (c : Core σ U) (ref : UnitRef) (state : LoadState) : Core σ U :=
  { c with units := c.units.modify ref.index fun u => { u with state } }

/-- Tells which top-level code a load has to run. There is none if the code has run or is
running. -/
def beginLoad (c : Core σ U) (ref : UnitRef) : Option U × Core σ U :=
  match c.unit? ref with
  | none => (none, c)
  | some unit =>
    match unit.state with
    | .fresh => (some unit.code, c.setLoadState ref .loading)
    | _ => (none, c)

/-- The top-level code of a unit has run, to its end or not. -/
def endLoad (c : Core σ U) (ref : UnitRef) (completed : Bool) : Core σ U :=
  c.setLoadState ref (if completed then .loaded else .fresh)

/-- The number of a new anonymous block. -/
def countInline (c : Core σ U) : Nat × Core σ U :=
  let n := c.inlineBlocks + 1
  (n, { c with inlineBlocks := n })

/-- Asks the host for the procedures of a schema. A refusal is raised in the script. -/
def listProcedures (c : Core σ U) (schema : String) :
    Except Failure (List ProcedureId) × Core σ U :=
  match Host.procedures schema c.host with
  | (.ok ids, host) => (.ok ids, { c with host })
  | (.error report, host) =>
    let (f, c) := { c with host }.raise report
    (.error f, c)

variable {S : Type}

/-- Asks the host for the text of a procedure and makes a unit of it. A refusal is raised in the
script. `compile` also gives the engine's state after it. -/
def fetch (c : Core σ U) (id : ProcedureId)
    (compile : ProcedureSource → Except Failure (ExecutionUnit U × S)) :
    Except Failure (UnitRef × S) × Core σ U :=
  match Host.lookup id c.host with
  | (.error report, host) =>
    let (f, c) := { c with host }.raise report
    (.error f, c)
  | (.ok source, host) =>
    let c := { c with host }
    match compile source with
    | .error f => (.error f, c)
    | .ok (unit, state) => let (ref, c) := c.addUnit unit; (.ok (ref, state), c)

/-- The unit of a procedure, from the cache or made now; there is a new state of the engine only
if it was made now. -/
def obtain (c : Core σ U) (id : ProcedureId)
    (compile : ProcedureSource → Except Failure (ExecutionUnit U × S)) :
    Except Failure (UnitRef × Option S) × Core σ U :=
  match c.safepoint with
  | (.error f, c) => (.error f, c)
  | (.ok _, c) =>
    let make : StateM (Option S × Core σ U) (Except Failure UnitRef) := fun (_, c) =>
      match c.fetch id compile with
      | (.ok (ref, state), c) => (.ok ref, some state, c)
      | (.error f, c) => (.error f, none, c)
    let ((found, cache), state, c) := c.cache.getOrCompile id make (none, c)
    (found.map fun ref => (ref, state), { c with cache })

end Core

end ProcedureBridge
