import Std.Data.HashMap
import ProcedureBridge.Host.Basic

/-! # The code cache

Compiled procedures by id, bounded in number: the one that was used longest ago goes first. The
cache counts what happens to it. -/

namespace ProcedureBridge

structure CacheStats where
  lookups : Nat := 0
  hits : Nat := 0
  misses : Nat := 0
  insertions : Nat := 0
  evictions : Nat := 0
  invalidations : Nat := 0
  /-- Compilations that failed and stored nothing. -/
  compileFailures : Nat := 0
deriving DecidableEq

/-- Hits per lookup, and zero before the first lookup. -/
def CacheStats.hitRate (s : CacheStats) : Float :=
  if s.lookups = 0 then 0.0 else s.hits.toFloat / s.lookups.toFloat

/-- A cache of values of type `υ`. -/
structure CodeCache (υ : Type) where
  /-- How many values are kept; 0 sets no limit. -/
  capacity : Nat
  units : Std.HashMap ProcedureId υ := {}
  /-- The cached ids, the one used longest ago first. -/
  recency : List ProcedureId := []
  stats : CacheStats := {}

namespace CodeCache

variable {υ : Type}

def size (c : CodeCache υ) : Nat := c.units.size

def isEmpty (c : CodeCache υ) : Bool := c.size = 0

def ids (c : CodeCache υ) : List ProcedureId := c.recency

/-- Looks a value up and leaves no trace. -/
def peek (c : CodeCache υ) (id : ProcedureId) : Option υ := c.units[id]?

/-- Tells if a value is cached and passes a test, and leaves no trace. -/
def isCurrent (c : CodeCache υ) (id : ProcedureId) (current : υ → Bool) : Bool :=
  (c.peek id).any current

/-- Makes an id the one used last. -/
def touch (c : CodeCache υ) (id : ProcedureId) : CodeCache υ :=
  { c with recency := c.recency.erase id ++ [id] }

/-- Looks a value up, and counts that as a use. -/
def get (c : CodeCache υ) (id : ProcedureId) : Option υ × CodeCache υ :=
  match c.peek id with
  | some unit =>
    (some unit, { c with stats := { c.stats with
      lookups := c.stats.lookups + 1, hits := c.stats.hits + 1 } }.touch id)
  | none =>
    (none, { c with stats := { c.stats with
      lookups := c.stats.lookups + 1, misses := c.stats.misses + 1 } })

/-- Drops the value used longest ago. -/
def evictOne (c : CodeCache υ) : CodeCache υ :=
  match c.recency with
  | [] => c
  | id :: rest =>
    let evicted := if c.units.contains id then 1 else 0
    { c with
      units := c.units.erase id
      recency := rest
      stats := { c.stats with evictions := c.stats.evictions + evicted } }

/-- Drops values until the capacity is kept, at most `fuel` of them. -/
def evictExcess (c : CodeCache υ) : Nat → CodeCache υ
  | 0 => c
  | fuel + 1 =>
    if c.capacity < c.size && !c.recency.isEmpty then c.evictOne.evictExcess fuel else c

/-- Stores a value. If the id has one already, that one stays. -/
def insert (c : CodeCache υ) (id : ProcedureId) (unit : υ) : υ × CodeCache υ :=
  match c.peek id with
  | some present => (present, c)
  | none =>
    let c := { c with
      units := c.units.insert id unit
      recency := c.recency ++ [id]
      stats := { c.stats with insertions := c.stats.insertions + 1 } }
    (unit, if c.capacity = 0 then c else c.evictExcess c.recency.length)

/-- The cached value, or the one that `compile` makes. On a hit `compile` does not run, and when it
fails nothing is stored. -/
def getOrCompile {m : Type → Type} [Monad m] {ε : Type} (c : CodeCache υ) (id : ProcedureId)
    (compile : m (Except ε υ)) : m (Except ε υ × CodeCache υ) :=
  match c.get id with
  | (some unit, c) => pure (.ok unit, c)
  | (none, c) => do
    match ← compile with
    | .ok unit => let (unit, c) := c.insert id unit; pure (.ok unit, c)
    | .error e =>
      pure (.error e,
        { c with stats := { c.stats with compileFailures := c.stats.compileFailures + 1 } })

/-- Drops a value, and tells if there was one. -/
def invalidate (c : CodeCache υ) (id : ProcedureId) : Bool × CodeCache υ :=
  if c.units.contains id then
    (true, { c with
      units := c.units.erase id
      recency := c.recency.filter (· ≠ id)
      stats := { c.stats with invalidations := c.stats.invalidations + 1 } })
  else (false, c)

/-- Drops every value, and tells how many there were. -/
def invalidateAll (c : CodeCache υ) : Nat × CodeCache υ :=
  (c.size, { c with
    units := {}
    recency := []
    stats := { c.stats with invalidations := c.stats.invalidations + c.size } })

def resetStats (c : CodeCache υ) : CodeCache υ := { c with stats := {} }

end CodeCache

end ProcedureBridge
