import ProcedureBridge.Bridge.Run

/-! # Triggers

A trigger procedure is called once for a row: with a table about the event, then with the rows that
the operation has. What it returns decides what becomes of the row. -/

namespace ProcedureBridge

inductive TriggerTiming
  | before
  | after
deriving DecidableEq

inductive TriggerOperation
  | insert
  | update
  | delete
deriving DecidableEq

def TriggerTiming.name : TriggerTiming → String
  | before => "before"
  | after => "after"

def TriggerOperation.name : TriggerOperation → String
  | insert => "insert"
  | update => "update"
  | delete => "delete"

structure TriggerEvent where
  name : String
  table : String
  timing : TriggerTiming
  operation : TriggerOperation
  /-- The row before the operation, for updates and deletions. -/
  old : Option Datum := none
  /-- The row after the operation, for insertions and updates. -/
  new : Option Datum := none

/-- What becomes of the row. -/
inductive TriggerOutcome
  | proceed
  | replace (row : Datum)
  /-- The operation is skipped for this row. -/
  | suppress

namespace TriggerEvent

/-- What the trigger procedure learns about the event. -/
def data (t : TriggerEvent) : Datum :=
  .object [("name", .string t.name), ("table", .string t.table),
    ("timing", .string t.timing.name), ("operation", .string t.operation.name)]

/-- A row that is missing is null. -/
def arguments (t : TriggerEvent) : List Datum :=
  t.data ::
    match t.operation with
    | .insert => [t.new.getD .null]
    | .update => [t.old.getD .null, t.new.getD .null]
    | .delete => [t.old.getD .null]

/-- Judges an error that left the trigger procedure. -/
def outcomeOfError (t : TriggerEvent) (e : ScriptError) : Except Failure TriggerOutcome :=
  if e.isSuppress then
    match t.timing with
    | .before => .ok .suppress
    | .after =>
      .error (.protocolViolation
        ("AFTER trigger " ++ t.name ++ " cannot suppress the triggering event"))
  else .error (.script e)

/-- Judges what the trigger procedure returned. -/
def outcomeOfValue {V : Type} (t : TriggerEvent) (isNil : V → Bool)
    (datum : V → Except Failure Datum) (value : V) : Except Failure TriggerOutcome :=
  if isNil value then .ok .proceed
  else
    match t.timing, t.operation with
    | .after, _ =>
      .error (.protocolViolation
        ("AFTER trigger " ++ t.name ++ " returned a value; it must return nil"))
    | .before, .delete =>
      .error (.protocolViolation
        ("BEFORE DELETE trigger " ++ t.name ++ " cannot return a replacement row"))
    | .before, _ => (datum value).map .replace

end TriggerEvent

end ProcedureBridge
