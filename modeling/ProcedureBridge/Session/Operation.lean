import ProcedureBridge.Session.Trigger

/-! # Operations

What a session can be asked for that runs scripts, and what is done to answer it. -/

namespace ProcedureBridge

inductive Operation
  | call (id : ProcedureId) (args : List Datum)
  | fireTrigger (id : ProcedureId) (event : TriggerEvent)
  | executeInline (text : String)
  | preload (schemas : List String)

namespace Operation

def Answer : Operation → Type
  | call .. => Datum
  | fireTrigger .. => TriggerOutcome
  | executeInline _ => PUnit
  | preload _ => Nat

variable (e : Engine)

/-- Loads a procedure and finds its entry point. -/
def main (entryPoint : String) (id : ProcedureId) : Routine e.State e.Code e.Value := do
  let ref ← e.loadProcedure id
  e.function ref entryPoint

def calling (entryPoint : String) (id : ProcedureId) (args : List Datum) :
    Routine e.State e.Code Datum := do
  let main ← main e entryPoint id
  let value ← e.runScript (e.invoke main args)
  e.datum value

def firing (entryPoint : String) (id : ProcedureId) (event : TriggerEvent) :
    Routine e.State e.Code TriggerOutcome := do
  let main ← main e entryPoint id
  match ← Routine.attempt (e.runScript (e.invoke main event.arguments)) with
  | .error (.script err) => Routine.ofExcept (event.outcomeOfError err)
  | .error f => throw f
  | .ok value =>
    let state ← get
    Routine.ofExcept (event.outcomeOfValue e.isNil
      (fun v => (e.toDatum v state).mapError Failure.script) value)

def executing (text : String) : Routine e.State e.Code PUnit := do
  Routine.safepoint
  let n : Nat ← Routine.perform .countInline
  let ref ← Routine.compile e.compiler (.inline n) ("inline " ++ toString n) text
  e.loadUnit ref

/-- What an operation does inside the call boundary. -/
def routine (entryPoint : String) : (o : Operation) → Routine e.State e.Code o.Answer
  | call id args => calling e entryPoint id args
  | fireTrigger id event => firing e entryPoint id event
  | executeInline text => executing e text
  | preload schemas => e.preload schemas

end Operation

end ProcedureBridge
