import ProcedureBridge.Bridge.CatchPattern
import ProcedureBridge.Bridge.Load

/-! # Running scripts

A script's requests, as the actions that answer them. -/

namespace ProcedureBridge

/-- Ends the scope of a body that has run: commits it if the body returned, and otherwise aborts it
with whatever the body left open inside. A body that returned but left scopes open fails. -/
def Task.leaveScope {S U V : Type} (handle : ScopeHandle) :
    Except ScriptError V → Task S U (Except ScriptError V)
  | .error e => do
    perform (.abortThrough handle)
    return .error e
  | .ok v => do
    match ← perform (.resolveScope handle .commit) with
    | .ok _ => return .ok v
    | .error (.scopeOrder id detail) =>
      perform (.abortThrough handle)
      return .error (Failure.scopeOrder id detail).toScriptError
    | .error f => return .error f.toScriptError

namespace Script

variable {S V U : Type}

/-- The actions of a script. -/
def task (compiler : Compiler S U) : Script S V U → Task S U (Outcome S V)
  | .done outcome => .pure outcome
  | .tick n next => .act (.tick n) fun r => (next (r.mapError Failure.toScriptError)).task compiler
  | .interrupted kind next => .act (.interrupt kind) fun _ => next.task compiler
  | .report severity message options next =>
    .act (.report severity message options) fun r =>
      (next (r.mapError Failure.toScriptError)).task compiler
  | .scope state body next =>
    .act .enterScope fun
      | .error f => (next ⟨.error f.toScriptError, state⟩).task compiler
      | .ok handle => do
        let o ← (body state).task compiler
        let result ← Task.leaveScope handle o.result
        (next ⟨result, o.state⟩).task compiler
  | .guarded pattern state body handler next =>
    match CatchPattern.parse pattern with
    | .error f => (next ⟨.error f.toScriptError, state⟩).task compiler
    | .ok p => do
      let o ← (body state).task compiler
      match o.result with
      | .ok v => (next ⟨.ok v, o.state⟩).task compiler
      | .error e =>
        match p.caught? e with
        | none => (next ⟨.error e, o.state⟩).task compiler
        | some exc =>
          Task.perform (.beginHandling exc)
          let o ← (handler exc o.state).task compiler
          Task.perform .endHandling
          (next o).task compiler
  | .newHandle next => .act .newHandle fun handle => (next handle).task compiler
  | .enter handle next =>
    .act (.enterHandle handle) fun r => (next (r.mapError Failure.toScriptError)).task compiler
  | .resolve handle resolution next =>
    .act (.resolveHandle handle resolution) fun r =>
      (next (r.mapError Failure.toScriptError)).task compiler
  | .status handle next => .act (.handleStatus handle) fun status => (next status).task compiler
  | .preload schemas state topLevel next => do
    let runTop (code : U) : Routine S U V := ExceptT.mk fun state => do
      let o ← (topLevel code state).task compiler
      return (o.result.mapError Failure.script, o.state)
    let (r, state) ← Routine.preload compiler runTop schemas state
    (next ⟨r.mapError Failure.toScriptError, state⟩).task compiler
  | .clearCache next => .act .clearCache fun count => (next count).task compiler

end Script

namespace Engine

variable (e : Engine)

/-- Reads a text and gives it a namespace. -/
def compiler : Compiler e.State e.Code := fun id name text state => do
  let chunk ← (e.parse ("[" ++ name ++ "]") text).mapError (compileFailure id)
  let (code, state) := e.instantiate chunk state
  return ({ id, name, checksum := Text.checksum text, code }, state)

/-- Runs a script of the engine. An error of the script is a failure. -/
def runScript (script : e.State → Script e.State e.Value e.Code) :
    Routine e.State e.Code e.Value :=
  ExceptT.mk fun state => do
    let o ← (script state).task e.compiler
    return (o.result.mapError Failure.script, o.state)

def loadUnit (ref : UnitRef) : Routine e.State e.Code PUnit :=
  Routine.load (fun code => e.runScript (e.topLevel code)) ref

def loadProcedure (id : ProcedureId) : Routine e.State e.Code UnitRef :=
  Routine.loadProcedure e.compiler (fun code => e.runScript (e.topLevel code)) id

def preload (schemas : List String) : Routine e.State e.Code Nat :=
  Routine.preload e.compiler (fun code => e.runScript (e.topLevel code)) schemas

/-- The function that a loaded unit defines under `name`. -/
def function (ref : UnitRef) (name : String) : Routine e.State e.Code e.Value := do
  e.loadUnit ref
  match ← Routine.perform (.unit ref) with
  | none => throw (.invalidArgument "no such unit")
  | some unit =>
    let value ← e.runScript (e.member unit.code name)
    if e.isFunction value then pure value else throw (missingEntryPoint unit name)

/-- The datum that a value stands for. -/
def datum (value : e.Value) : Routine e.State e.Code Datum := do
  Routine.ofExcept ((e.toDatum value (← get)).mapError Failure.script)

/-! ## Outside of operations -/

variable {σ : Type} [Host σ]

def compile (id : UnitId) (name text : String) : Bridge e.State σ e.Code UnitRef :=
  .ofRoutine (Routine.compile e.compiler id name text)

def load (ref : UnitRef) : Bridge e.State σ e.Code PUnit := .ofRoutine (e.loadUnit ref)

def run (script : e.State → Script e.State e.Value e.Code) : Bridge e.State σ e.Code e.Value :=
  .ofRoutine (e.runScript script)

def entryPoint (ref : UnitRef) (name : String) : Bridge e.State σ e.Code e.Value :=
  .ofRoutine (e.function ref name)

end Engine

end ProcedureBridge
