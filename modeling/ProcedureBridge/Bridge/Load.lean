import ProcedureBridge.Bridge.Task

/-! # Loading units

Compiling texts into units and running their top-level code. How texts are compiled and how
top-level code runs are parameters: the one is the engine's business, and top-level code may load
other units itself. -/

namespace ProcedureBridge

/-- Tasks that read and change the engine's state and may fail. What they changed before they
failed stays changed. -/
abbrev Routine (S U : Type) := ExceptT Failure (StateT S (Task S U))

/-- Makes a unit of a text whose code has not run, and tells the engine's state after that. -/
abbrev Compiler (S U : Type) := UnitId → (name text : String) → S → Except Failure (ExecutionUnit U × S)

namespace Routine

variable {S U V : Type}

def perform (action : Action S U) : Routine S U action.Answer :=
  ExceptT.mk fun state => do
    let answer ← Task.perform action
    return (.ok answer, state)

def ofExcept {α : Type} (r : Except Failure α) : Routine S U α := ExceptT.mk (pure r)

/-- Makes a failure an answer. -/
def attempt {α : Type} (x : Routine S U α) : Routine S U (Except Failure α) :=
  ExceptT.mk do
    let r ← x.run
    return .ok r

def safepoint : Routine S U Unit := do
  ofExcept (← perform .safepoint)

def compile (compiler : Compiler S U) (id : UnitId) (name text : String) : Routine S U UnitRef := do
  let (unit, state) ← ofExcept (compiler id name text (← get))
  set state
  perform (.addUnit unit)

/-- Runs the top-level code of a unit, unless it has run or is running. -/
def load (runTop : U → Routine S U V) (ref : UnitRef) : Routine S U PUnit := do
  match ← perform (.beginLoad ref) with
  | none => pure ⟨⟩
  | some code =>
    try
      let _ ← runTop code
      perform (.endLoad ref true)
    catch f =>
      perform (.endLoad ref false)
      throw f

/-- The unit of a procedure, compiled on first use. -/
def obtain (compiler : Compiler S U) (id : ProcedureId) : Routine S U UnitRef := do
  let state ← get
  let compile (source : ProcedureSource) :=
    compiler (.procedure id) source.qualifiedName source.text state
  let (ref, state?) ← ofExcept (← perform (.obtain id compile))
  match state? with
  | none => pure ref
  | some state =>
    set state
    pure ref

/-- The unit of a procedure, compiled on first use and loaded. A unit that fails to load is dropped
from the cache. -/
def loadProcedure (compiler : Compiler S U) (runTop : U → Routine S U V) (id : ProcedureId) :
    Routine S U UnitRef := do
  let ref ← obtain compiler id
  try
    load runTop ref
  catch f =>
    perform (.invalidate id)
    throw f
  pure ref

/-- Loads every procedure of the given schemas, and counts them. -/
def preload (compiler : Compiler S U) (runTop : U → Routine S U V) (schemas : List String) :
    Routine S U Nat :=
  schemas.foldlM (fun count schema => do
    let ids ← ofExcept (← perform (.listProcedures schema))
    ids.foldlM (fun count id => do
      let _ ← loadProcedure compiler runTop id
      pure (count + 1)) count) 0

end Routine

/-- The engine's state and the bridge's. -/
structure World (S σ U : Type) where
  state : S
  core : Core σ U

/-- A step that may fail. What it changed before it failed stays changed. -/
abbrev Bridge (S σ U : Type) := ExceptT Failure (StateM (World S σ U))

/-- Runs a routine as a step of the bridge. -/
def Bridge.ofRoutine {S σ U α : Type} [Host σ] (x : Routine S U α) : Bridge S σ U α :=
  ExceptT.mk fun w =>
    let ((r, state), core) := Task.run (x w.state) w.core
    (r, { state, core })

namespace Bridge

variable {S σ U : Type}

/-- A step on the bridge's state alone. -/
def onCore {α : Type} (f : Core σ U → Except Failure α × Core σ U) : Bridge S σ U α :=
  ExceptT.mk fun w => let (r, core) := f w.core; (r, { w with core })

def modifyCore (f : Core σ U → Core σ U) : Bridge S σ U PUnit :=
  modify fun w => { w with core := f w.core }

def ofExcept {α : Type} (r : Except Failure α) : Bridge S σ U α := ExceptT.mk (pure r)

end Bridge

end ProcedureBridge
