import ProcedureBridge.Host.Basic

/-! # A host in memory

Keeps its catalog in a list, records every call, and lets subtransactions be resolved only in
strict nesting. Calls can be attached to messages: they are made when the message is delivered. -/

namespace ProcedureBridge

inductive HostEvent
  | began (id : SubxactId)
  | released (id : SubxactId)
  | rolledBack (id : SubxactId)
  | reported (report : Report)
  | lookedUp (id : ProcedureId)
deriving DecidableEq

/-- A call on the host in memory, as data. -/
inductive HostCall
  | beginSubxact
  | releaseSubxact (id : SubxactId)
  | rollbackSubxact (id : SubxactId)
  | refuseNextBegin (report : Report)
  | define (schema name text : String)
  | replace (id : ProcedureId) (text : String)
  | drop (id : ProcedureId)
  | lookup (id : ProcedureId)
  | procedures (schema : String)
  | setInterrupted (value : Bool)
  | takeInterrupt
  | deliver (report : Report)
  | reports
  | counts
  | lookups (id : ProcedureId)
  | openSubxacts
  | clearEvents
  /-- Interrupts the session that the host belongs to. -/
  | interrupt (kind : Interrupt)

/-- What is to be done whenever a message is delivered. -/
structure MessageHook where
  message : String
  calls : List HostCall

structure MemoryHost where
  /-- In ascending order of ids. -/
  catalog : List ProcedureSource := []
  nextProcedure : Nat := 16384
  nextSubxact : Nat := 1
  /-- Innermost first. -/
  openStack : List SubxactId := []
  /-- Oldest first. -/
  events : Array HostEvent := #[]
  interrupted : Bool := false
  /-- The answer to the next attempt to begin a subtransaction. -/
  refusal : Option Report := none
  hooks : List MessageHook := []

namespace MemoryHost

def record (h : MemoryHost) (event : HostEvent) : MemoryHost :=
  { h with events := h.events.push event }

/-- Subtransactions that are open, outermost first. -/
def openSubxacts (h : MemoryHost) : List SubxactId := h.openStack.reverse

def define (h : MemoryHost) (schema name text : String) : ProcedureId × MemoryHost :=
  let id := ⟨h.nextProcedure⟩
  (id, { h with
    catalog := h.catalog ++ [⟨id, schema, name, text⟩], nextProcedure := h.nextProcedure + 1 })

def find? (h : MemoryHost) (id : ProcedureId) : Option ProcedureSource :=
  h.catalog.find? fun p => p.id = id

/-- Gives a procedure a new text, if there is the procedure. -/
def replace (h : MemoryHost) (id : ProcedureId) (text : String) : Bool × MemoryHost :=
  ((h.find? id).isSome,
    { h with catalog := h.catalog.map fun p => if p.id = id then { p with text } else p })

def drop (h : MemoryHost) (id : ProcedureId) : Bool × MemoryHost :=
  ((h.find? id).isSome, { h with catalog := h.catalog.filter fun p => p.id ≠ id })

def reports (h : MemoryHost) : List Report :=
  h.events.toList.filterMap fun
    | .reported r => some r
    | _ => none

def begins (h : MemoryHost) : Nat :=
  h.events.toList.countP fun
    | .began _ => true
    | _ => false

def releases (h : MemoryHost) : Nat :=
  h.events.toList.countP fun
    | .released _ => true
    | _ => false

def rollbacks (h : MemoryHost) : Nat :=
  h.events.toList.countP fun
    | .rolledBack _ => true
    | _ => false

def lookups (h : MemoryHost) (id : ProcedureId) : Nat :=
  h.events.toList.countP fun e => decide (e = .lookedUp id)

def beginSubxact (h : MemoryHost) : Except Report SubxactId × MemoryHost :=
  match h.refusal with
  | some report => (.error report, { h with refusal := none })
  | none =>
    let id := ⟨h.nextSubxact⟩
    (.ok id,
      { h with nextSubxact := h.nextSubxact + 1, openStack := id :: h.openStack }.record (.began id))

def notInnermost (action : String) (id : SubxactId) : Report :=
  .plain
    { severity := .error
      code := .savepointException
      message := "cannot " ++ action ++ " subtransaction " ++ toString id.number ++
        ": it is not the innermost one" }

/-- Ends the innermost subtransaction, if it is `id`. -/
def endInnermost (h : MemoryHost) (action : String) (id : SubxactId) (event : HostEvent) :
    Except Report Unit × MemoryHost :=
  match h.openStack with
  | top :: outer =>
    if top = id then (.ok (), { h with openStack := outer }.record event)
    else (.error (notInnermost action id), h)
  | [] => (.error (notInnermost action id), h)

def releaseSubxact (h : MemoryHost) (id : SubxactId) : Except Report Unit × MemoryHost :=
  h.endInnermost "release" id (.released id)

def rollbackSubxact (h : MemoryHost) (id : SubxactId) : Except Report Unit × MemoryHost :=
  h.endInnermost "roll back" id (.rolledBack id)

def takeInterrupt (h : MemoryHost) : Bool × MemoryHost :=
  (h.interrupted, { h with interrupted := false })

def lookup (h : MemoryHost) (id : ProcedureId) : Except Report ProcedureSource × MemoryHost :=
  let answer :=
    match h.find? id with
    | some source => .ok source
    | none => .error (.plain
        { severity := .error
          code := .internalError
          message := "cache lookup failed for procedure " ++ toString id.number })
  (answer, h.record (.lookedUp id))

def procedures (h : MemoryHost) (schema : String) : List ProcedureId :=
  (h.catalog.filter fun p => p.schema = schema).map ProcedureSource.id

/-- What a call answers. -/
inductive Answer
  | nothing
  | flag (b : Bool)
  | procedure (id : ProcedureId)
  | beganSubxact (answer : Except Report SubxactId)
  | ended (answer : Except Report Unit)
  | source (answer : Except Report ProcedureSource)
  | procedures (ids : List ProcedureId)
  | reports (reports : List Report)
  | counts (begins releases rollbacks : Nat)
  | count (n : Nat)
  | subxacts (ids : List SubxactId)

/-- Performs a call. Messages may have hooks that deliver further messages; `fuel` bounds how many
are delivered inside each other. The list holds the interruptions requested, in order. -/
def perform : Nat → HostCall → MemoryHost → Answer × List Interrupt × MemoryHost
  | fuel, call, h =>
    match call with
    | .beginSubxact => let (r, h) := h.beginSubxact; (.beganSubxact r, [], h)
    | .releaseSubxact id => let (r, h) := h.releaseSubxact id; (.ended r, [], h)
    | .rollbackSubxact id => let (r, h) := h.rollbackSubxact id; (.ended r, [], h)
    | .refuseNextBegin report => (.nothing, [], { h with refusal := some report })
    | .define schema name text => let (id, h) := h.define schema name text; (.procedure id, [], h)
    | .replace id text => let (b, h) := h.replace id text; (.flag b, [], h)
    | .drop id => let (b, h) := h.drop id; (.flag b, [], h)
    | .lookup id => let (r, h) := h.lookup id; (.source r, [], h)
    | .procedures schema => (.procedures (h.procedures schema), [], h)
    | .setInterrupted value => (.nothing, [], { h with interrupted := value })
    | .takeInterrupt => let (b, h) := h.takeInterrupt; (.flag b, [], h)
    | .reports => (.reports h.reports, [], h)
    | .counts => (.counts h.begins h.releases h.rollbacks, [], h)
    | .lookups id => (.count (h.lookups id), [], h)
    | .openSubxacts => (.subxacts h.openSubxacts, [], h)
    | .clearEvents => (.nothing, [], { h with events := #[] })
    | .interrupt kind => (.nothing, [kind], h)
    | .deliver report =>
      let h := h.record (.reported report)
      match fuel with
      | 0 => (.nothing, [], h)
      | fuel + 1 =>
        let calls := (h.hooks.filter fun hook => hook.message = report.message).flatMap (·.calls)
        let (signals, h) := calls.foldl
          (fun (signals, h) call =>
            let (_, more, h) := perform fuel call h
            (signals ++ more, h))
          ([], h)
        (.nothing, signals, h)

/-- How many messages may be delivered inside each other. -/
def deliveryDepth : Nat := 64

def deliver (h : MemoryHost) (report : Report) : List Interrupt × MemoryHost :=
  (perform deliveryDepth (.deliver report) h).2

end MemoryHost

instance : Host MemoryHost where
  beginSubxact := MemoryHost.beginSubxact
  releaseSubxact id h := h.releaseSubxact id
  rollbackSubxact id h := h.rollbackSubxact id
  deliver report h := h.deliver report
  takeInterrupt := MemoryHost.takeInterrupt
  lookup id h := h.lookup id
  procedures schema h := (.ok (h.procedures schema), h)

end ProcedureBridge
