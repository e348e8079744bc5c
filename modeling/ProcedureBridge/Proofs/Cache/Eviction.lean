import ProcedureBridge.Proofs.Cache.Contents
import ProcedureBridge.Proofs.Cache.Refinement

/-! # What the cache gives up

A cache that is a bounded map stays one. A unit that is stored is cached then, and of the others at
most the one used longest ago goes, if the cache is full. -/

namespace ProcedureBridge.CodeCache

variable {υ : Type} {c : CodeCache υ} {capacity : Nat} {id x : ProcedureId} {unit u : υ}

/-- The cache is a bounded map of the capacity, in the order of its uses. -/
def IsLru (c : CodeCache υ) (capacity : Nat) : Prop :=
  ∃ r : LruMap υ, c.Represents r ∧ r.capacity = capacity

namespace IsLru

theorem empty (capacity : Nat) : ({ capacity } : CodeCache υ).IsLru capacity :=
  ⟨_, .empty capacity, rfl⟩

theorem capacity_eq (h : c.IsLru capacity) : c.capacity = capacity := by
  obtain ⟨r, hr, hcapacity⟩ := h
  exact hr.capacity.trans hcapacity

theorem count (h : c.IsLru capacity) (f : CacheStats → CacheStats) :
    ({ c with stats := f c.stats } : CodeCache υ).IsLru capacity := by
  obtain ⟨r, hr, hcapacity⟩ := h
  exact ⟨_, hr.count f, hcapacity⟩

theorem respond {τ ε : Type} (h : c.IsLru capacity) (request : CacheRequest τ υ ε) :
    (c.respond request).2.IsLru capacity := by
  obtain ⟨r, hr, hcapacity⟩ := h
  exact ⟨_, (hr.respond request).2, (r.respond_capacity request).trans hcapacity⟩

theorem get (h : c.IsLru capacity) (id : ProcedureId) : (c.get id).2.IsLru capacity :=
  h.respond (τ := Unit) (ε := Unit) (.get id)

theorem invalidate (h : c.IsLru capacity) (id : ProcedureId) :
    (c.invalidate id).2.IsLru capacity := h.respond (τ := Unit) (ε := Unit) (.invalidate id)

theorem invalidateAll (h : c.IsLru capacity) : c.invalidateAll.2.IsLru capacity :=
  h.respond (τ := Unit) (ε := Unit) .invalidateAll

theorem insert (h : c.IsLru capacity) (miss : c.peek id = none) (unit : υ) :
    (c.insert id unit).2.IsLru capacity := by
  obtain ⟨r, hr, hcapacity⟩ := h
  exact ⟨_, hr.insert miss unit, hcapacity⟩

/-- What is stored is cached then, be the cache full or not. -/
theorem peek_stored (h : c.IsLru capacity) (miss : c.peek id = none) (unit : υ) :
    (c.insert id unit).2.peek id = some unit := by
  obtain ⟨r, hr, -⟩ := h
  refine ((hr.insert miss unit).lists.units id unit).mpr ?_
  exact List.mem_append_right _ (List.mem_singleton_self _)

/-- What was cached stays, unless the cache is full and it is the one used longest ago. -/
theorem kept_or_evicted (h : c.IsLru capacity) (miss : c.peek id = none) (hx : c.peek x = some u)
    (unit : υ) : (c.insert id unit).2.peek x = some u ∨ (c.insert id unit).2.peek x = none ∧
      id ≠ x ∧ capacity ≠ 0 ∧ c.size = capacity ∧ c.ids.head? = some x := by
  have hne : id ≠ x := by
    rintro rfl
    exact nomatch miss.symm.trans hx
  obtain ⟨r, hr, rfl⟩ := h
  have hinsert := (hr.insert miss unit).lists
  have hold : (x, u) ∈ r.entries := (hr.lists.units x u).mp hx
  by_cases hroom : (x, u) ∈ r.room id
  · exact .inl ((hinsert.units x u).mpr (List.mem_append_left _ hroom))
  · right
    refine ⟨?_, hne, ?_⟩
    · cases hkept : (c.insert id unit).2.peek x with
      | none => rfl
      | some v =>
        obtain ⟨hid, -⟩ | hpeek := peek_insert miss hkept
        · exact absurd hid.symm hne
        · obtain rfl : u = v := Option.some.inj (hx.symm.trans hpeek)
          have hmem := (hinsert.units x u).mp hkept
          simp [LruMap.put, LruMap.count, hroom, hne.symm] at hmem
    · rw [r.room_of_notMem (hr.notMem_ids.mpr miss)] at hroom
      split at hroom
      · rename_i hfull
        refine ⟨hfull.1, hr.lists.size.trans hfull.2, ?_⟩
        rw [hr.lists.ids]
        cases hentries : r.entries with
        | nil => simp [hentries] at hold
        | cons first rest =>
          rw [hentries] at hold hroom
          obtain rfl := (List.mem_cons.mp hold).resolve_right hroom
          rfl
      · exact absurd hold hroom

end IsLru

end ProcedureBridge.CodeCache
