import ProcedureBridge.Diagnostic.Failure
import ProcedureBridge.Host.Basic

/-! # The stack of transaction scopes

Each scope stands for one subtransaction of the host. Only the innermost scope can be resolved. A
scope in which a host call failed is marked failed: it can no longer be committed. With no scope
open, the mark goes to the root, that is, to the whole call. -/

namespace ProcedureBridge

structure ScopeHandle where
  id : Nat
  /-- How many scopes were open once this one was, itself included. -/
  depth : Nat
deriving DecidableEq

structure Scope where
  handle : ScopeHandle
  subxact : SubxactId
  failed : Bool := false
deriving DecidableEq

inductive Resolution
  | commit
  | abort
deriving DecidableEq

inductive ScopeStatus
  | committed
  | aborted
deriving DecidableEq

structure ScopeStack where
  /-- Innermost first. -/
  scopes : List Scope := []
  maxDepth : Nat
  /-- How many handles were ever given out. -/
  issued : Nat := 0
  rootFailed : Bool := false
deriving DecidableEq

namespace ScopeStack

variable {σ : Type}

def depth (s : ScopeStack) : Nat := s.scopes.length

def current? (s : ScopeStack) : Option ScopeHandle := s.scopes.head?.map Scope.handle

def isFailed (s : ScopeStack) : Bool :=
  match s.scopes with
  | top :: _ => top.failed
  | [] => s.rootFailed

/-- Marks the innermost scope, or the root if no scope is open. -/
def markFailed (s : ScopeStack) : ScopeStack :=
  match s.scopes with
  | top :: outer => { s with scopes := { top with failed := true } :: outer }
  | [] => { s with rootFailed := true }

def takeRootFailed (s : ScopeStack) : Bool × ScopeStack :=
  (s.rootFailed, { s with rootFailed := false })

def orderFailure (s : ScopeStack) (handle : ScopeHandle) : Failure :=
  .scopeOrder handle.id <|
    match s.scopes with
    | top :: _ => "scope " ++ toString top.handle.id ++ " must be resolved first"
    | [] => "no scope is open"

def push (s : ScopeStack) (subxact : SubxactId) : ScopeHandle × ScopeStack :=
  let handle := ⟨s.issued + 1, s.depth + 1⟩
  (handle, { s with scopes := ⟨handle, subxact, false⟩ :: s.scopes, issued := s.issued + 1 })

variable [Host σ]

/-- Opens a scope inside the current one. -/
def enter (s : ScopeStack) (host : σ) : Except Failure ScopeHandle × ScopeStack × σ :=
  if s.maxDepth ≤ s.depth then (.error (.scopeLimit s.maxDepth), s, host)
  else
    match Host.beginSubxact host with
    | (.error report, host) => (.error (.exception (.ofReport report)), s.markFailed, host)
    | (.ok subxact, host) => let (handle, s) := s.push subxact; (.ok handle, s, host)

/-- Rolls back the subtransaction of a scope that has just left the stack. -/
def rollback (s : ScopeStack) (scope : Scope) (host : σ) : Except Failure Unit × ScopeStack × σ :=
  match Host.rollbackSubxact scope.subxact host with
  | (.error report, host) => (.error (.exception (.ofReport report)), s.markFailed, host)
  | (.ok _, host) => (.ok (), s, host)

def release (s : ScopeStack) (scope : Scope) (host : σ) : Except Failure Unit × ScopeStack × σ :=
  match Host.releaseSubxact scope.subxact host with
  | (.error report, host) => (.error (.exception (.ofReport report)), s.markFailed, host)
  | (.ok _, host) => (.ok (), s, host)

/-- Resolves the innermost scope, which has to be that of `handle`. A failed scope is rolled back
when it should be committed, and that is a failure. -/
def resolve (s : ScopeStack) (handle : ScopeHandle) (resolution : Resolution) (host : σ) :
    Except Failure ScopeStatus × ScopeStack × σ :=
  match s.scopes with
  | [] => (.error (s.orderFailure handle), s, host)
  | top :: outer =>
    if top.handle ≠ handle then (.error (s.orderFailure handle), s, host)
    else
      let popped := { s with scopes := outer }
      match resolution with
      | .commit =>
        if top.failed then
          let (r, s, host) := popped.rollback top host
          (r.bind fun _ => .error (.exception .inFailedTransaction), s, host)
        else
          let (r, s, host) := popped.release top host
          (r.map fun _ => .committed, s, host)
      | .abort =>
        let (r, s, host) := popped.rollback top host
        (r.map fun _ => .aborted, s, host)

/-- Rolls back the scopes from the innermost one on, `count` of them, whatever the host says. -/
def unwindBy (s : ScopeStack) (host : σ) : Nat → ScopeStack × σ
  | 0 => (s, host)
  | count + 1 =>
    match s.scopes with
    | [] => (s, host)
    | top :: outer =>
      let (_, s, host) := { s with scopes := outer }.rollback top host
      s.unwindBy host count

/-- Rolls back scopes until only `depth` are left, and tells how many there were. -/
def unwindTo (s : ScopeStack) (depth : Nat) (host : σ) : Nat × ScopeStack × σ :=
  let count := s.depth - depth
  (count, s.unwindBy host count)

def holds (s : ScopeStack) (handle : ScopeHandle) : Bool :=
  s.scopes.any fun scope => decide (scope.handle = handle)

/-- Aborts the scope of `handle`, and before it every scope that is still open inside. -/
def abortThrough (s : ScopeStack) (handle : ScopeHandle) (host : σ) :
    Except Failure ScopeStatus × ScopeStack × σ :=
  if s.holds handle then
    let (_, s, host) := s.unwindTo handle.depth host
    s.resolve handle .abort host
  else (.error (s.orderFailure handle), s, host)

end ScopeStack

end ProcedureBridge
