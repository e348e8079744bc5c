import ProcedureBridge.Bridge.Core

/-! # Tasks

Whatever an operation does while scripts may run, it does by actions: each is one step of the
bridge that cannot be divided by a script. A task is a tree of actions: after every answer it goes
on with another task. Its run changes the core, and its trace tells every action of the run together
with the core that the action found. -/

namespace ProcedureBridge

/-- `S` is the state of the script engine, and `U` its compiled units. -/
inductive Action (S U : Type)
  | tick (instructions : Nat)
  | interrupt (kind : Interrupt)
  | safepoint
  | report (severity : Severity) (message : String) (options : ReportOptions)
  | enterScope
  | resolveScope (handle : ScopeHandle) (resolution : Resolution)
  | abortThrough (handle : ScopeHandle)
  | beginHandling (e : Exception)
  | endHandling
  | newHandle
  | enterHandle (handle : HandleId)
  | resolveHandle (handle : HandleId) (resolution : Resolution)
  | handleStatus (handle : HandleId)
  | listProcedures (schema : String)
  | obtain (id : ProcedureId) (compile : ProcedureSource → Except Failure (ExecutionUnit U × S))
  | addUnit (unit : ExecutionUnit U)
  | beginLoad (ref : UnitRef)
  | endLoad (ref : UnitRef) (completed : Bool)
  | unit (ref : UnitRef)
  | invalidate (id : ProcedureId)
  | clearCache
  | countInline

namespace Action

variable {S U : Type}

/-- What an action answers. -/
def Answer : Action S U → Type
  | tick _ | safepoint | report .. | enterHandle _ | resolveHandle .. => Except Failure Unit
  | enterScope => Except Failure ScopeHandle
  | resolveScope .. => Except Failure ScopeStatus
  | interrupt _ | abortThrough _ | beginHandling _ | endHandling | endLoad .. | invalidate _ => Unit
  | newHandle => HandleId
  | handleStatus _ => HandleStatus
  | listProcedures _ => Except Failure (List ProcedureId)
  | obtain .. => Except Failure (UnitRef × Option S)
  | addUnit _ => UnitRef
  | beginLoad _ => Option U
  | unit _ => Option (ExecutionUnit U)
  | clearCache | countInline => Nat

end Action

/-- Performs an action. Whatever the host can notice passes a safepoint first, except for what ends
scopes. -/
def Core.perform {σ S U : Type} [Host σ] (c : Core σ U) : (a : Action S U) → a.Answer × Core σ U
  | .tick n => c.tick n
  | .interrupt kind => ((), c.signal kind)
  | .safepoint => c.safepoint
  | .report severity message options => c.reportFromScript severity message options
  | .enterScope => c.enterScope
  | .resolveScope handle resolution => c.resolveScope handle resolution
  | .abortThrough handle => ((), c.abortThrough handle)
  | .beginHandling e => ((), c.beginHandling e)
  | .endHandling => ((), c.endHandling)
  | .newHandle => c.newHandle
  | .enterHandle handle => c.enterHandle handle
  | .resolveHandle handle resolution => c.resolveHandle handle resolution
  | .handleStatus handle => ((c.handleState handle).status, c)
  | .listProcedures schema => c.listProcedures schema
  | .obtain id compile => c.obtain id compile
  | .addUnit unit => c.addUnit unit
  | .beginLoad ref => c.beginLoad ref
  | .endLoad ref completed => ((), c.endLoad ref completed)
  | .unit ref => (c.unit? ref, c)
  | .invalidate id => ((), (c.invalidate id).2)
  | .clearCache => c.clearCache
  | .countInline => c.countInline

inductive Task (S U α : Type) : Type
  | pure (a : α)
  | act (action : Action S U) (next : action.Answer → Task S U α)

/-- An action of a run, and the core that it found. -/
structure Moment (σ S U : Type) where
  core : Core σ U
  action : Action S U

/-- The core that the action left. -/
def Moment.after {σ S U : Type} [Host σ] (m : Moment σ S U) : Core σ U := (m.core.perform m.action).2

namespace Task

variable {S U α β σ : Type}

def bind : Task S U α → (α → Task S U β) → Task S U β
  | .pure a, f => f a
  | .act action next, f => .act action fun r => (next r).bind f

instance : Monad (Task S U) where
  pure := .pure
  bind := bind

/-- The task of a single action. -/
def perform (action : Action S U) : Task S U action.Answer := .act action .pure

variable [Host σ]

def run : Task S U α → Core σ U → α × Core σ U
  | .pure a, c => (a, c)
  | .act action next, c =>
    let (r, c) := c.perform action
    (next r).run c

def trace : Task S U α → Core σ U → List (Moment σ S U)
  | .pure _, _ => []
  | .act action next, c =>
    let (r, c') := c.perform action
    ⟨c, action⟩ :: (next r).trace c'

end Task

end ProcedureBridge
