import ProcedureBridge.Proofs.Bridge.Loading
import ProcedureBridge.Proofs.Cache.Eviction

/-! # What actions do to units and to the cache

Units are made, and begin and end to load; the cache is used, and what it holds is dropped, one by
one or all of it. An action does one of these things at most. -/

namespace ProcedureBridge

variable {σ S U : Type}

def Core.unitId? (c : Core σ U) (ref : UnitRef) : Option UnitId :=
  (c.unit? ref).map ExecutionUnit.id

/-- The action drops the unit of the procedure from the cache. -/
def Action.drops (id : ProcedureId) : Action S U → Bool
  | .invalidate x => decide (x = id)
  | _ => false

namespace Moment

/-- The procedure is the one used longest ago in a full cache, and another one is obtained. -/
def Evicts (id : ProcedureId) (m : Moment σ S U) : Prop :=
  ∃ other compile, m.action = .obtain other compile ∧ other ≠ id ∧ m.core.cache.capacity ≠ 0 ∧
    m.core.cache.size = m.core.cache.capacity ∧ m.core.cache.ids.head? = some id

variable [Host σ]

/-! ## Units -/

/-- What an action can do to the units that there are. -/
inductive Stores (m : Moment σ S U) : Prop
  | same : m.after.units = m.core.units → Stores m
  | added (unit : ExecutionUnit U) : m.after.units = m.core.units.push unit → Stores m
  | begun (ref : UnitRef) : m.action = .beginLoad ref → m.core.stage? ref = some .fresh →
      m.after = m.core.setLoadState ref .loading → Stores m
  | ended (ref : UnitRef) (completed : Bool) : m.action = .endLoad ref completed →
      m.after = m.core.endLoad ref completed → Stores m

theorem after_beginLoad {m : Moment σ S U} {ref : UnitRef} (haction : m.action = .beginLoad ref)
    (hfresh : m.core.stage? ref = some .fresh) : m.after = m.core.setLoadState ref .loading := by
  obtain ⟨c, action⟩ := m
  cases haction
  obtain ⟨code, hbegin⟩ := Core.beginLoad_of_fresh hfresh
  exact congrArg Prod.snd hbegin

theorem stores (m : Moment σ S U) : m.Stores := by
  cases hm : m.action.handlesUnits with
  | false => exact .same (Core.stock_eq.mp (after_stock hm)).1
  | true =>
    obtain ⟨c, action⟩ := m
    cases action with
    | obtain id compile =>
      have hobtained := c.obtain_obtained id compile
      generalize hr : c.obtain id compile = r at hobtained
      have hafter : (⟨c, .obtain id compile⟩ : Moment σ S U).after = r.2 := congrArg Prod.snd hr
      cases hobtained with
      | failed hunits | found _ hunits => exact .same ((congrArg Core.units hafter).trans hunits)
      | made _ hunits => exact .added _ ((congrArg Core.units hafter).trans hunits)
    | addUnit unit => exact .added unit rfl
    | beginLoad ref =>
      by_cases hfresh : c.stage? ref = some .fresh
      · exact .begun ref rfl hfresh (after_beginLoad rfl hfresh)
      · have hbegin := Core.beginLoad_of_not_fresh hfresh
        exact .same (congrArg (fun r => r.2.units) hbegin)
    | endLoad ref completed => exact .ended ref completed rfl rfl
    | invalidate | clearCache => exact .same rfl
    | _ => cases hm

variable {m : Moment σ S U} {id : ProcedureId} {ref : UnitRef} {capacity : Nat}

/-- A unit stays what it was, but for how far its load has come. -/
theorem unit?_after {unit : ExecutionUnit U} (h : m.core.unit? ref = some unit) :
    ∃ state, m.after.unit? ref = some { unit with state } := by
  have hlt : ref.index < m.core.units.size := (Array.getElem?_eq_some_iff.mp h).1
  have hset : ∀ x state, ∃ state',
      (m.core.setLoadState x state).unit? ref = some { unit with state := state' } := by
    intro x state
    rw [Core.unit?] at h
    rw [Core.unit?, Core.setLoadState, Array.getElem?_modify]
    split
    · exact ⟨state, by rw [h, Option.map_some]⟩
    · exact ⟨unit.state, h⟩
  cases m.stores with
  | same hunits => exact ⟨unit.state, by rwa [Core.unit?, hunits]⟩
  | added new hunits =>
    refine ⟨unit.state, ?_⟩
    rwa [Core.unit?, hunits, Array.getElem?_push_lt hlt, ← Array.getElem?_eq_getElem hlt]
  | begun x _ _ hafter => exact hafter ▸ hset x .loading
  | ended x completed _ hafter => exact hafter ▸ hset x _

theorem unitId?_after {uid : UnitId} (h : m.core.unitId? ref = some uid) :
    m.after.unitId? ref = some uid := by
  obtain ⟨unit, hunit, hid⟩ := Option.map_eq_some_iff.mp h
  obtain ⟨state, hafter⟩ := unit?_after hunit
  rw [Core.unitId?, hafter, Option.map_some, hid]

/-- A load lasts until it is ended. -/
theorem loading_after (h : m.core.stage? ref = some .loading)
    (hend : ∀ completed, m.action ≠ .endLoad ref completed) :
    m.after.stage? ref = some .loading := by
  cases m.stores with
  | same hunits => rwa [Core.stage?_of_units hunits]
  | added unit hunits =>
    rwa [Core.stage?_of_push hunits, if_neg (Nat.ne_of_lt (Core.lt_of_stage? h))]
  | begun x _ hfresh hafter =>
    rw [hafter]
    exact (Core.loading_begin hfresh ref).mpr (.inr h)
  | ended x completed haction hafter =>
    have hne : ref ≠ x := fun heq => hend completed (heq ▸ haction)
    rw [hafter, Core.endLoad, Core.stage?_setLoadState, if_neg hne]
    exact h

/-! ## The cache -/

/-- What an action can do to the cache. -/
inductive Recaches (m : Moment σ S U) : Prop
  | same : m.after.cache = m.core.cache → Recaches m
  | counted (f : CacheStats → CacheStats) :
      m.after.cache = { m.core.cache with stats := f m.core.cache.stats } → Recaches m
  | used (id : ProcedureId) : m.after.cache = (m.core.cache.get id).2 → Recaches m
  | stored (id : ProcedureId) (compile : ProcedureSource → Except Failure (ExecutionUnit U × S))
      (ref : UnitRef) : m.action = .obtain id compile → m.core.cache.peek id = none →
      m.after.cache =
        ({ m.core.cache with stats := m.core.cache.stats.miss }.insert id ref).2 → Recaches m
  | dropped (id : ProcedureId) : m.action = .invalidate id →
      m.after.cache = (m.core.cache.invalidate id).2 → Recaches m
  | cleared : m.action = .clearCache → m.after.cache = m.core.cache.invalidateAll.2 → Recaches m

theorem recaches (m : Moment σ S U) : m.Recaches := by
  cases hm : m.action.handlesUnits with
  | false => exact .same (Core.stock_eq.mp (after_stock hm)).2
  | true =>
    obtain ⟨c, action⟩ := m
    cases action with
    | obtain id compile =>
      have hsame : ∀ {r c'}, c.safepoint = (r, c') → c'.cache = c.cache := fun hs =>
        (Core.stock_eq.mp (Core.stock_of_safepoint hs)).2
      have hcases := c.obtain_cases id compile
      generalize hr : c.obtain id compile = r at hcases
      have hafter : (⟨c, .obtain id compile⟩ : Moment σ S U).after = r.2 := congrArg Prod.snd hr
      cases hcases with
      | stopped hs => exact .same (hafter ▸ hsame hs)
      | hit hs => exact .used id (by rw [hafter, hsame hs])
      | failed hs => exact .counted (fun s => s.miss.failure) (by rw [hafter, hsame hs])
      | @made ref state c' c'' hs hmiss =>
        exact .stored id compile ref rfl (hsame hs ▸ hmiss) (by rw [hafter, hsame hs])
    | beginLoad ref =>
      refine .same ?_
      change (c.beginLoad ref).2.cache = c.cache
      simp only [Core.beginLoad]
      split
      · rfl
      · split <;> rfl
    | addUnit | endLoad => exact .same rfl
    | invalidate id => exact .dropped id rfl rfl
    | clearCache => exact .cleared rfl rfl
    | _ => cases hm

theorem isLru_after (h : m.core.cache.IsLru capacity) : m.after.cache.IsLru capacity := by
  cases m.recaches with
  | same hcache => exact hcache ▸ h
  | counted f hcache => exact hcache ▸ h.count f
  | used id hcache => exact hcache ▸ h.get id
  | stored id compile ref _ hmiss hcache => exact hcache ▸ (h.count .miss).insert hmiss ref
  | dropped id _ hcache => exact hcache ▸ h.invalidate id
  | cleared _ hcache => exact hcache ▸ h.invalidateAll

/-- What is cached stays cached, unless it is dropped, the cache is cleared, or there is no room. -/
theorem kept_or_gone (h : m.core.cache.IsLru capacity) (hid : m.core.cache.peek id = some ref) :
    m.after.cache.peek id = some ref ∨ m.after.cache.peek id = none ∧
      (m.action.drops id = true ∨ m.action = .clearCache ∨ m.Evicts id) := by
  cases m.recaches with
  | same hcache => exact .inl (hcache ▸ hid)
  | counted f hcache => exact .inl (hcache ▸ hid)
  | used x hcache => exact .inl (hcache ▸ (CodeCache.peek_get _ x id).trans hid)
  | stored other compile fresh haction hmiss hcache =>
    rw [hcache]
    refine ((h.count .miss).kept_or_evicted hmiss hid fresh).imp_right ?_
    rintro ⟨hgone, hne, hcapacity, hfull, hfirst⟩
    rw [← h.capacity_eq] at hcapacity hfull
    exact ⟨hgone, .inr (.inr ⟨other, compile, haction, hne, hcapacity, hfull, hfirst⟩)⟩
  | dropped x haction hcache =>
    rw [hcache, CodeCache.peek_invalidate]
    split
    · rename_i hx
      exact .inr ⟨rfl, .inl (haction ▸ decide_eq_true hx)⟩
    · exact .inl hid
  | cleared haction hcache =>
    exact .inr ⟨hcache ▸ CodeCache.peek_invalidateAll _ id, .inr (.inl haction)⟩

end Moment

/-- A unit that is made for a procedure was missing, and is cached. -/
theorem Core.obtain_stored [Host σ] {c c' : Core σ U} {id : ProcedureId} {ref : UnitRef}
    {state : S} {capacity : Nat}
    {compile : ProcedureSource → Except Failure (ExecutionUnit U × S)}
    (h : c.cache.IsLru capacity) (hobtain : c.obtain id compile = (.ok (ref, some state), c')) :
    c.cache.peek id = none ∧ c'.cache.peek id = some ref := by
  have hcases := c.obtain_cases id compile
  rw [hobtain] at hcases
  cases hcases with
  | made hs hmiss =>
    rw [(stock_eq.mp (stock_of_safepoint hs)).2] at hmiss ⊢
    exact ⟨hmiss, (h.count .miss).peek_stored hmiss ref⟩

end ProcedureBridge
