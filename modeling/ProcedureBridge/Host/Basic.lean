import ProcedureBridge.Interrupt.Monitor

/-! # Hosts

What the bridge asks of the transactional system that it runs in: nested subtransactions, delivery
of messages, interruptions, and the source texts of stored procedures. A refusal is a report. -/

namespace ProcedureBridge

structure ProcedureId where
  number : Nat
deriving DecidableEq, Hashable

structure SubxactId where
  number : Nat
deriving DecidableEq

/-- A stored procedure as the host's catalog holds it. -/
structure ProcedureSource where
  id : ProcedureId
  schema : String
  name : String
  text : String
deriving DecidableEq

def ProcedureSource.qualifiedName (p : ProcedureSource) : String := p.schema ++ "." ++ p.name

/-- A host with state of type `σ`. -/
class Host (σ : Type) where
  /-- Opens a subtransaction inside the current one. -/
  beginSubxact : σ → Except Report SubxactId × σ
  /-- Commits the innermost subtransaction into its parent. -/
  releaseSubxact : SubxactId → σ → Except Report Unit × σ
  /-- Rolls the innermost subtransaction back. -/
  rollbackSubxact : SubxactId → σ → Except Report Unit × σ
  /-- Delivers a message below `error`. The answer is what interruptions were requested of the
  session meanwhile, in order. -/
  deliver : Report → σ → List Interrupt × σ
  /-- Tells once of each interruption on the host's side. -/
  takeInterrupt : σ → Bool × σ
  lookup : ProcedureId → σ → Except Report ProcedureSource × σ
  /-- The procedures of a schema, in the order of their ids. -/
  procedures : String → σ → Except Report (List ProcedureId) × σ

end ProcedureBridge
