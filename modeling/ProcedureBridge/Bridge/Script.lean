import ProcedureBridge.Scope.Stack
import ProcedureBridge.Datum

/-! # Scripts

To the bridge a running script is a tree of requests: each node asks for one thing, and for every
answer there is a subtree that goes on with it. Every behaviour of a script is some tree, whatever
language the script is written in: a body that is run inside a request is a tree of its own, and
the script may do with its outcome what it likes.

`S` is the state of the script engine, `V` what calls return, `U` the engine's compiled units. -/

namespace ProcedureBridge

/-- How a run ended, and the engine's state after it. -/
structure Outcome (S V : Type) where
  result : Except ScriptError V
  state : S

/-- What a script may say about a report. -/
structure ReportOptions where
  code : Option String := none
  detail : Option String := none
  hint : Option String := none
  context : Option String := none
  position : Option UInt32 := none

/-- A transaction handle of the script. -/
structure HandleId where
  number : Nat
deriving DecidableEq

inductive HandleStatus
  | fresh
  | open
  | committed
  | aborted
deriving DecidableEq

inductive Script (S V U : Type) : Type
  | done (outcome : Outcome S V)
  /-- Some instructions have been executed. -/
  | tick (instructions : Nat) (next : Except ScriptError Unit → Script S V U)
  /-- Someone interrupts the script at this point, from outside. -/
  | interrupted (kind : Interrupt) (next : Script S V U)
  | report (severity : Severity) (message : String) (options : ReportOptions)
      (next : Except ScriptError Unit → Script S V U)
  /-- Runs `body` in a scope of its own. -/
  | scope (state : S) (body : S → Script S V U) (next : Outcome S V → Script S V U)
  /-- Runs `body`, and `handler` on an error that the pattern names. -/
  | guarded (pattern : String) (state : S) (body : S → Script S V U)
      (handler : Exception → S → Script S V U) (next : Outcome S V → Script S V U)
  | newHandle (next : HandleId → Script S V U)
  | enter (handle : HandleId) (next : Except ScriptError Unit → Script S V U)
  | resolve (handle : HandleId) (resolution : Resolution)
      (next : Except ScriptError Unit → Script S V U)
  | status (handle : HandleId) (next : HandleStatus → Script S V U)
  /-- Loads the procedures of some schemas; `topLevel` is the top-level code of a unit. -/
  | preload (schemas : List String) (state : S) (topLevel : U → S → Script S V U)
      (next : Outcome S Nat → Script S V U)
  | clearCache (next : Nat → Script S V U)

/-- A language in which procedures are written. -/
structure Engine where
  State : Type
  /-- What a call returns. -/
  Value : Type
  Chunk : Type
  /-- A chunk with a namespace. -/
  Code : Type
  parse : (name text : String) → Except ScriptError Chunk
  /-- Gives a chunk a new namespace, in which the shared built-ins are. -/
  instantiate : Chunk → State → Code × State
  topLevel : Code → State → Script State Value Code
  /-- Reads a name in the namespace of a unit. -/
  member : Code → String → State → Script State Value Code
  isFunction : Value → Bool
  invoke : Value → List Datum → State → Script State Value Code
  isNil : Value → Bool
  toDatum : Value → State → Except ScriptError Datum
  /-- Makes the namespace of the initialization unit visible to every script. -/
  publish : Code → State → Script State Value Code

end ProcedureBridge
