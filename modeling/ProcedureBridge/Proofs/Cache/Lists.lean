import ProcedureBridge.Proofs.Cache.Recency

/-! # What the operations of the code cache do

A cache keeps its units and the order of their ids in two structures. Each operation changes both,
one after the other, and at its end they are one list of pairs again. -/

namespace ProcedureBridge

variable {υ ε : Type}

namespace CacheStats

def hit (s : CacheStats) : CacheStats := { s with lookups := s.lookups + 1, hits := s.hits + 1 }

def miss (s : CacheStats) : CacheStats := { s with lookups := s.lookups + 1, misses := s.misses + 1 }

def insertion (evicted : Nat) (s : CacheStats) : CacheStats :=
  { s with insertions := s.insertions + 1, evictions := s.evictions + evicted }

def failure (s : CacheStats) : CacheStats := { s with compileFailures := s.compileFailures + 1 }

def invalidation (count : Nat) (s : CacheStats) : CacheStats :=
  { s with invalidations := s.invalidations + count }

end CacheStats

namespace CodeCache

variable {c : CodeCache υ} {id : ProcedureId} {unit : υ}

theorem get_of_hit (h : c.peek id = some unit) :
    c.get id = (some unit, { c with stats := c.stats.hit }.touch id) := by
  simp only [get, h]
  rfl

theorem get_of_miss (h : c.peek id = none) :
    c.get id = (none, { c with stats := c.stats.miss }) := by
  simp only [get, h]
  rfl

/-- What is done with the unit that was missing. -/
def settle (c : CodeCache υ) (id : ProcedureId) : Except ε υ → CodeCache υ
  | .ok unit => (c.insert id unit).2
  | .error _ => { c with stats := c.stats.failure }

section Monadic

variable {m : Type → Type} [Monad m]

theorem getOrCompile_of_hit (h : c.peek id = some unit) (compile : m (Except ε υ)) :
    c.getOrCompile id compile = pure (.ok unit, (c.get id).2) := by
  simp only [getOrCompile, get_of_hit h]

theorem getOrCompile_of_miss (h : c.peek id = none) (compile : m (Except ε υ)) :
    c.getOrCompile id compile =
      compile >>= fun made => pure (made, (c.get id).2.settle id made) := by
  simp only [getOrCompile, get_of_miss h]
  congr 1
  funext made
  cases made with
  | ok unit =>
    have hmiss : ({ c with stats := c.stats.miss } : CodeCache υ).peek id = none := h
    simp only [settle, insert, hmiss]
  | error e => rfl

end Monadic

/-- The cache with one unit more, be it one too many. -/
def append (c : CodeCache υ) (id : ProcedureId) (unit : υ) : CodeCache υ :=
  { c with
    units := c.units.insert id unit
    recency := c.recency ++ [id]
    stats := c.stats.insertion 0 }

theorem peek_append (c : CodeCache υ) (id x : ProcedureId) (unit : υ) :
    (c.append id unit).peek x = if id = x then some unit else c.peek x := by
  simp [peek, append, Std.HashMap.getElem?_insert]

theorem size_append (miss : c.peek id = none) (unit : υ) :
    (c.append id unit).size = c.size + 1 := by
  have hnot : ¬ id ∈ c.units := by
    rw [Std.HashMap.mem_iff_isSome_getElem?, show c.units[id]? = none from miss]
    simp
  change (c.units.insert id unit).size = c.units.size + 1
  rw [Std.HashMap.size_insert, if_neg hnot]

theorem insert_of_miss (miss : c.peek id = none) (unit : υ) :
    c.insert id unit = (unit,
      if c.capacity = 0 then c.append id unit
      else (c.append id unit).evictExcess (c.append id unit).recency.length) := by
  simp only [insert, miss]
  rfl

theorem evictOne_of_cons {first : ProcedureId} {rest : List ProcedureId}
    (hr : c.recency = first :: rest) (hm : (c.peek first).isSome) :
    c.evictOne = { c with
      units := c.units.erase first
      recency := rest
      stats := { c.stats with evictions := c.stats.evictions + 1 } } := by
  have hc : c.units.contains first = true := by
    rw [Std.HashMap.contains_eq_isSome_getElem?]
    exact hm
  simp only [evictOne, hr, hc, if_true]

theorem size_evictOne {first : ProcedureId} {rest : List ProcedureId}
    (hr : c.recency = first :: rest) (hm : (c.peek first).isSome) :
    c.evictOne.size = c.size - 1 := by
  have hmem : first ∈ c.units := Std.HashMap.mem_iff_isSome_getElem?.mpr hm
  rw [evictOne_of_cons hr hm]
  change (c.units.erase first).size = c.units.size - 1
  rw [Std.HashMap.size_erase, if_pos hmem]

theorem evictExcess_of_le (h : c.size ≤ c.capacity) (fuel : Nat) : c.evictExcess fuel = c := by
  cases fuel with
  | zero => rfl
  | succ fuel =>
    have hnot : ¬ c.capacity < c.size := by omega
    simp [evictExcess, hnot]

/-- One unit too many is one eviction. -/
theorem evictExcess_of_one_over {first : ProcedureId} {rest : List ProcedureId}
    (hr : c.recency = first :: rest) (hm : (c.peek first).isSome) (hs : c.size = c.capacity + 1) :
    c.evictExcess c.recency.length = c.evictOne := by
  have hover : c.capacity < c.size := by omega
  have hle : c.evictOne.size ≤ c.evictOne.capacity := by
    have hcap : c.evictOne.capacity = c.capacity := by rw [evictOne_of_cons hr hm]
    rw [size_evictOne hr hm, hcap]
    omega
  rw [hr, List.length_cons, evictExcess, if_pos (by simp [hover, hr]), evictExcess_of_le hle]

/-- The two structures of the cache are one list of pairs. -/
structure Lists (c : CodeCache υ) (entries : List (ProcedureId × υ)) : Prop where
  ids : c.ids = entries.map Prod.fst
  units : ∀ id unit, c.peek id = some unit ↔ (id, unit) ∈ entries
  size : c.size = entries.length

namespace Lists

variable {entries rest : List (ProcedureId × υ)} {e : ProcedureId × υ}

theorem isSome_peek (h : c.Lists entries) (id : ProcedureId) :
    (c.peek id).isSome ↔ id ∈ entries.map Prod.fst := by
  simp [Option.isSome_iff_exists, h.units]

theorem append (h : c.Lists entries) (miss : c.peek id = none) (unit : υ) :
    (c.append id unit).Lists (entries ++ [(id, unit)]) where
  ids := by
    have hids : c.recency = entries.map Prod.fst := h.ids
    simp [CodeCache.ids, CodeCache.append, hids]
  units x u := by
    rw [peek_append, List.mem_append, ← h.units, List.mem_singleton]
    by_cases hx : x = id
    · simp [hx, miss, eq_comm]
    · simp [hx, Ne.symm hx]
  size := by rw [size_append miss, h.size, List.length_append, List.length_singleton]

theorem evictOne (h : c.Lists (e :: rest)) (hd : ((e :: rest).map Prod.fst).Nodup) :
    c.evictOne.Lists rest := by
  have hr : c.recency = e.1 :: rest.map Prod.fst := h.ids
  have hm : (c.peek e.1).isSome := (h.isSome_peek e.1).mpr (by simp)
  rw [List.map_cons, List.nodup_cons] at hd
  refine ⟨?_, ?_, ?_⟩
  · rw [evictOne_of_cons hr hm]
    rfl
  · intro x u
    have hpeek : c.evictOne.peek x = if e.1 = x then none else c.peek x := by
      rw [evictOne_of_cons hr hm]
      simp [peek, Std.HashMap.getElem?_erase]
    rw [hpeek]
    by_cases hx : e.1 = x
    · have hnot : (x, u) ∉ rest := fun hu => hd.1 (hx ▸ List.mem_map_of_mem hu)
      simp [hx, hnot]
    · have hne : (x, u) ≠ e := fun he => hx (congrArg Prod.fst he).symm
      simp [hx, hne, h.units]
  · rw [size_evictOne hr hm, h.size]
    rfl

end Lists

end CodeCache

end ProcedureBridge
