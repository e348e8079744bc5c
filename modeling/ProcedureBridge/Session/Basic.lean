import ProcedureBridge.Session.Operation

/-! # Sessions

One engine bound to one host. Every operation that runs scripts passes the call boundary, which
rolls back what the call left open, settles its watchdog and its interruptions, and turns whatever
escaped into one report. -/

namespace ProcedureBridge

structure Session (e : Engine) (σ : Type) where
  core : Core σ e.Code
  state : e.State

/-- What is found where the file of an initialization unit should be. -/
inductive FileContent
  | missing
  | text (content : String)
  | unreadable (message : String)

namespace Session

variable {e : Engine} {σ : Type}

def host (s : Session e σ) : σ := s.core.host

def isTerminated (s : Session e σ) : Bool := s.core.terminated

def options (s : Session e σ) : Options := s.core.options

/-- How many transaction scopes are open. -/
def scopeDepth (s : Session e σ) : Nat := s.core.scopes.depth

def cacheStats (s : Session e σ) : CacheStats := s.core.cache.stats

def cachedUnit? (s : Session e σ) (id : ProcedureId) : Option (ExecutionUnit e.Code) :=
  s.core.cachedUnit? id

/-- Asks for an interruption. It is observed at the next safepoint. -/
def interrupt (s : Session e σ) (kind : Interrupt) : Session e σ :=
  { s with core := s.core.signal kind }

/-- An interruption was asked for and has not been observed. -/
def isPending (s : Session e σ) : Bool := s.core.monitor.isPending

/-- Sets a watchdog that cancels whatever runs after the given time, in microseconds. -/
def watch (s : Session e σ) (time : Nat) : Session e σ :=
  { s with core := { s.core with standingWatchdog := some { deadline := s.core.now + time } } }

/-- Takes the watchdog away, and tells if it has fired. -/
def disarm (s : Session e σ) : Option Bool × Session e σ :=
  (s.core.standingWatchdog.map Watchdog.fired,
    { s with core := { s.core with standingWatchdog := none } })

/-- Arms the watchdog of a call that begins. -/
def armCall (c : Core σ e.Code) : Core σ e.Code :=
  { c with callWatchdog := c.options.statementTimeout.map fun timeout =>
      { deadline := c.now + timeout.microseconds } }

/-- Disarms the watchdog of a call that is over. -/
def settleCall (c : Core σ e.Code) : Core σ e.Code :=
  match c.callWatchdog with
  | none => c
  | some w => { c with monitor := w.settle c.monitor, callWatchdog := none }

variable [Host σ]

/-- Ends the session. -/
def terminate (c : Core σ e.Code) : Core σ e.Code :=
  let (_, c) := c.unwindTo 0
  let (_, c) := c.clearCache
  { c with terminated := true }

/-- The one form in which failures leave the boundary. What is fatal ends the session. -/
def reportFailure (c : Core σ e.Code) (f : Failure) : Failure × Core σ e.Code :=
  match f with
  | .terminated => (.terminated, c)
  | f =>
    let report :=
      match f.disposition with
      | .report report => report
      | .suppress _ =>
        (Failure.protocolViolation
          "pl.stop_event() may only be called from a BEFORE trigger").toException.toReport
    (.reported report, if report.severity.isFatal then terminate c else c)

def unresolved (count : Nat) : Failure :=
  .exception
    ((Exception.plain .error .savepointException
      "procedure exited with unresolved subtransactions").withDetail
        (toString count ++ " subtransaction(s) were aborted."))

/-- What a call that is over comes to. A fatal condition decides it whatever the script did
afterwards; a script that returned has still failed if it left scopes open or had an error outside
of every scope. -/
def verdict {α : Type} (fatal : Option Exception) (leftOpen : Nat) (rootFailed : Bool)
    (result : Except Failure α) : Except Failure α :=
  match fatal, result with
  | some exc, _ => .error (.exception exc)
  | none, .ok a =>
    if 0 < leftOpen then .error (unresolved leftOpen)
    else if rootFailed then .error (.exception .inFailedTransaction)
    else .ok a
  | none, .error f => .error f

/-- Cleans up after a call. -/
def finish {α : Type} (base : Nat) (result : Except Failure α) (c : Core σ e.Code) :
    Except Failure α × Core σ e.Code :=
  let (leftOpen, c) := c.unwindTo base
  let (rootFailed, scopes) := c.scopes.takeRootFailed
  let (fatal, c) := { c with scopes }.takeFatal
  let c := { c with monitor := c.monitor.acknowledge, handling := [] }
  match verdict fatal leftOpen rootFailed result with
  | .ok a => (.ok a, c)
  | .error f => let (f, c) := reportFailure c f; (.error f, c)

/-- Runs `body` as one top-level call. -/
def boundary {α : Type} (s : Session e σ) (body : Bridge e.State σ e.Code α) :
    Except Failure α × Session e σ :=
  if s.isTerminated then (.error .terminated, s)
  else
    let base := s.scopeDepth
    let (result, w) := body ⟨s.state, armCall s.core⟩
    let (result, core) := finish base result (settleCall w.core)
    (result, { core, state := w.state })

/-- Runs an operation that may run scripts. -/
def operate (s : Session e σ) (o : Operation) : Except Failure o.Answer × Session e σ :=
  s.boundary (.ofRoutine (o.routine e s.options.entryPoint))

/-- Every action of an operation until its body is over, with the core that it found. -/
def trace (s : Session e σ) (o : Operation) : List (Moment σ e.State e.Code) :=
  if s.isTerminated then []
  else Task.trace (o.routine e s.options.entryPoint s.state) (armCall s.core)

/-- Where the initialization unit comes from, and its text. -/
def initSource (options : Options) (files : String → FileContent) :
    Except Failure (Option (String × String)) :=
  let given := options.initSource.map fun text => ("init", text)
  match options.initPath with
  | none => .ok given
  | some path =>
    match files path with
    | .text content => .ok (some (path, content))
    | .missing => .ok given
    | .unreadable message => .error (.io message)

/-- Runs the initialization unit, if there is one, and tells the host about it. -/
def runInit (files : String → FileContent) : Bridge e.State σ e.Code PUnit := do
  let w ← get
  match ← Bridge.ofExcept (initSource w.core.options files) with
  | none => pure ⟨⟩
  | some (origin, text) =>
    let ref ← e.compile .init origin text
    e.load ref
    let w ← get
    match w.core.unit? ref with
    | none => pure ⟨⟩
    | some unit =>
      let _ ← e.run (e.publish unit.code)
      Bridge.modifyCore fun c => c.deliver <| .plain
        { severity := .log
          code := .successfulCompletion
          message := "loaded initialization unit (" ++ origin ++ ")" }

/-- Opens a session. If that fails the host is given back as it is then. -/
def start (e : Engine) (initial : e.State) (files : String → FileContent) (host : σ)
    (options : Options) : Except (Failure × σ) (Session e σ) :=
  match options.validate with
  | .error f => .error (f, host)
  | .ok _ =>
    let s : Session e σ := ⟨.new host options, initial⟩
    match s.boundary (runInit files) with
    | (.ok _, s) => .ok s
    | (.error f, s) => .error (f, s.host)

/-- Calls the entry point of a procedure. -/
def call (s : Session e σ) (id : ProcedureId) (args : List Datum) :
    Except Failure Datum × Session e σ :=
  s.operate (.call id args)

/-- Calls a trigger procedure for one row. -/
def fireTrigger (s : Session e σ) (id : ProcedureId) (event : TriggerEvent) :
    Except Failure TriggerOutcome × Session e σ :=
  s.operate (.fireTrigger id event)

/-- Runs an anonymous block once. -/
def executeInline (s : Session e σ) (text : String) : Except Failure PUnit × Session e σ :=
  s.operate (.executeInline text)

/-- Loads every procedure of some schemas, and counts them. -/
def preload (s : Session e σ) (schemas : List String) : Except Failure Nat × Session e σ :=
  s.operate (.preload schemas)

/-- Compiles a procedure and forgets it. -/
def validate (s : Session e σ) (id : ProcedureId) : Except Failure PUnit × Session e σ :=
  s.boundary do
    let source ← Bridge.onCore fun c =>
      match Host.lookup id c.host with
      | (.ok source, host) => (.ok source, { c with host })
      | (.error report, host) => (.error (.exception (.ofReport report)), { c with host })
    let _ ← e.compile (.procedure id) source.qualifiedName source.text

/-- Drops the cached unit of a procedure. -/
def invalidate (s : Session e σ) (id : ProcedureId) : Bool × Session e σ :=
  let (dropped, core) := s.core.invalidate id
  (dropped, { s with core })

/-- Drops every cached unit, and counts them. -/
def clearCache (s : Session e σ) : Nat × Session e σ :=
  let (count, core) := s.core.clearCache
  (count, { s with core })

/-- Drops the cached unit of a procedure whose text has another checksum, and tells if it did. -/
def refresh (s : Session e σ) (id : ProcedureId) : Except Failure Bool × Session e σ :=
  if s.isTerminated then (.error .terminated, s)
  else
    match s.cachedUnit? id with
    | none => (.ok false, s)
    | some unit =>
      let (answer, host) := Host.lookup id s.host
      let s := { s with core := { s.core with host } }
      match answer with
      | .error report => (.error (.exception (.ofReport report)), s)
      | .ok source =>
        if unit.isCurrent source.text then (.ok false, s)
        else let (dropped, s) := s.invalidate id; (.ok dropped, s)

/-- Closes the session. -/
def shutdown (s : Session e σ) : Session e σ :=
  let (_, core) := s.core.unwindTo 0
  (clearCache { s with core }).2

end Session

end ProcedureBridge
