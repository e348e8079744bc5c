import ProcedureBridge.Proofs.Bridge.Composition
import ProcedureBridge.Proofs.Cache.Contents

/-! # Units and the cache

Units are never forgotten, but the cache may drop them, and a unit that it has dropped does not come
back: only a unit that was just made is put into the cache. -/

namespace ProcedureBridge

variable {σ U S : Type}

/-- All that was compiled, and what of it is cached. -/
def Core.stock (c : Core σ U) : Array (ExecutionUnit U) × CodeCache UnitRef := (c.units, c.cache)

namespace Core

variable {c c' c'' : Core σ U}

theorem stock_eq : c'.stock = c.stock ↔ c'.units = c.units ∧ c'.cache = c.cache := by
  rw [stock, stock, Prod.mk.injEq]

/-- No unit is forgotten, and of those that were there only what was cached is cached. -/
structure Extends (c c' : Core σ U) : Prop where
  size : c.units.size ≤ c'.units.size
  cached : ∀ {id ref}, c'.cache.peek id = some ref → ref.index < c.units.size →
    c.cache.peek id = some ref

namespace Extends

theorem of_within (hu : c'.units.size = c.units.size) (hc : c'.cache.Within c.cache) :
    c.Extends c' := ⟨Nat.le_of_eq hu.symm, fun h _ => hc _ _ h⟩

theorem of_stock (h : c'.stock = c.stock) : c.Extends c' := by
  obtain ⟨hu, hc⟩ := stock_eq.mp h
  exact of_within (congrArg Array.size hu) (hc ▸ .refl _)

theorem refl (c : Core σ U) : c.Extends c := of_stock rfl

theorem trans (h : c.Extends c') (h' : c'.Extends c'') : c.Extends c'' where
  size := Nat.le_trans h.size h'.size
  cached hx hlt := h.cached (h'.cached hx (Nat.lt_of_lt_of_le hlt h.size)) hlt

theorem addUnit (c : Core σ U) (unit : ExecutionUnit U) : c.Extends (c.addUnit unit).2 where
  size := by simp [Core.addUnit]
  cached h _ := h

theorem setLoadState (c : Core σ U) (ref : UnitRef) (state : LoadState) :
    c.Extends (c.setLoadState ref state) := of_within (by simp [Core.setLoadState]) (.refl _)

end Extends

/-- The unit is there, and not in the cache. -/
def Dropped (c : Core σ U) (ref : UnitRef) : Prop :=
  ref.index < c.units.size ∧ ∀ id, c.cache.peek id ≠ some ref

theorem Dropped.later {ref : UnitRef} (h : c.Dropped ref) (hc : c.Extends c') : c'.Dropped ref :=
  ⟨Nat.lt_of_lt_of_le h.1 hc.size, fun id hid => h.2 id (hc.cached hid h.1)⟩

/-- A unit that is in the cache for one procedure only is dropped with it. -/
theorem dropped_invalidate {ref : UnitRef} {id : ProcedureId} (hlt : ref.index < c.units.size)
    (hid : ∀ x, c.cache.peek x = some ref → x = id) : (c.invalidate id).2.Dropped ref := by
  refine ⟨hlt, fun x hx => ?_⟩
  change (c.cache.invalidate id).2.peek x = some ref at hx
  rw [CodeCache.peek_invalidate] at hx
  split at hx
  · cases hx
  · exact absurd (hid x hx).symm ‹_›

/-! ## What leaves units alone -/

theorem stock_steady : Steady (stock (σ := σ) (U := U)) :=
  ⟨fun _ => rfl, fun _ _ _ _ _ _ _ _ => rfl⟩

theorem stock_of_safepoint [Host σ] {r : Except Failure Unit} (h : c.safepoint = (r, c')) :
    c'.stock = c.stock := stock_steady.of_safepoint h

end Core

variable [Host σ]

theorem Moment.after_stock {m : Moment σ S U} (hm : m.action.handlesUnits = false) :
    m.after.stock = m.core.stock := by
  obtain ⟨c, action⟩ := m
  cases action with
  | enterScope | resolveScope | abortThrough =>
    exact after_of_scoping Core.stock_steady (fun _ _ => rfl) rfl
  | enterHandle handle =>
    exact Core.stock_steady.enterHandle (fun _ _ => rfl) (fun _ _ => rfl) c handle
  | resolveHandle handle resolution =>
    exact Core.stock_steady.resolveHandle (fun _ _ => rfl) (fun _ _ => rfl) c handle resolution
  | beginHandling e =>
    change (c.beginHandling e).stock = c.stock
    unfold Core.beginHandling
    dsimp only
    split <;> rfl
  | endHandling | newHandle | countInline => rfl
  | obtain | addUnit | beginLoad | endLoad | invalidate | clearCache => cases hm
  | _ => exact after_of_passing Core.stock_steady rfl

/-! ## Obtaining a unit -/

namespace Core

variable {c c' c'' : Core σ U} {id : ProcedureId}
  {compile : ProcedureSource → Except Failure (ExecutionUnit U × S)}

theorem fetch_of_ok {ref : UnitRef} {state : S} (h : c.fetch id compile = (.ok (ref, state), c')) :
    ∃ source unit, compile source = .ok (unit, state) ∧ ref = ⟨c.units.size⟩ ∧
      c'.units = c.units.push unit := by
  simp only [fetch] at h
  split at h
  · cases h
  · rename_i source _ _
    split at h
    · cases h
    · rename_i unit state hcompile
      cases h
      exact ⟨source, unit, hcompile, rfl, rfl⟩

theorem fetch_of_error {f : Failure} (h : c.fetch id compile = (.error f, c')) :
    c'.stock = c.stock := by
  simp only [fetch] at h
  split at h
  · cases h
    exact stock_steady.raise _ _
  · split at h <;> cases h
    rfl

/-- What may come of obtaining the unit of a procedure, for the units and the cache. -/
inductive Obtained (c : Core σ U) (id : ProcedureId)
    (compile : ProcedureSource → Except Failure (ExecutionUnit U × S)) :
    Except Failure (UnitRef × Option S) × Core σ U → Prop
  | failed {f : Failure} {c' : Core σ U} : c'.units = c.units →
      (∀ x, c'.cache.peek x = c.cache.peek x) → Obtained c id compile (.error f, c')
  | found {ref : UnitRef} {c' : Core σ U} : c.cache.peek id = some ref → c'.units = c.units →
      (∀ x, c'.cache.peek x = c.cache.peek x) → Obtained c id compile (.ok (ref, none), c')
  | made {source : ProcedureSource} {unit : ExecutionUnit U} {state : S} {c' : Core σ U} :
      compile source = .ok (unit, state) → c'.units = c.units.push unit →
      (∀ x ref, c'.cache.peek x = some ref →
        (x = id ∧ ref = ⟨c.units.size⟩) ∨ c.cache.peek x = some ref) →
      Obtained c id compile (.ok (⟨c.units.size⟩, some state), c')

theorem obtain_obtained (c : Core σ U) (id : ProcedureId)
    (compile : ProcedureSource → Except Failure (ExecutionUnit U × S)) :
    c.Obtained id compile (c.obtain id compile) := by
  have hcases := c.obtain_cases id compile
  generalize c.obtain id compile = r at hcases ⊢
  cases hcases with
  | stopped hs =>
    obtain ⟨hunits, hcache⟩ := stock_eq.mp (stock_of_safepoint hs)
    exact .failed hunits fun x => by rw [hcache]
  | hit hs hit =>
    obtain ⟨hunits, hcache⟩ := stock_eq.mp (stock_of_safepoint hs)
    refine .found (hcache ▸ hit) hunits fun x => ?_
    rw [← hcache]
    exact CodeCache.peek_get _ _ x
  | failed hs hm hfetch =>
    obtain ⟨hunits, hcache⟩ := stock_eq.mp (stock_of_safepoint hs)
    obtain ⟨hunits', -⟩ := stock_eq.mp (fetch_of_error hfetch)
    exact .failed (hunits'.trans hunits) fun x => by rw [← hcache]; rfl
  | @made ref _ c' _ hs hm hfetch =>
    obtain ⟨hunits, hcache⟩ := stock_eq.mp (stock_of_safepoint hs)
    obtain ⟨source, unit, hcompile, rfl, hunits'⟩ := fetch_of_ok hfetch
    rw [hunits] at hunits' ⊢
    refine .made hcompile hunits' fun x ref hx => ?_
    have hmiss : ({ c'.cache with stats := c'.cache.stats.miss } : CodeCache UnitRef).peek id =
      none := hm
    refine (CodeCache.peek_insert hmiss hx).imp_right fun hold => ?_
    rw [← hcache]
    exact hold

/-- If the text is refused or is no program, nothing is cached for the procedure. -/
theorem peek_obtain_of_error (hs : c.safepoint = (.ok (), c')) {f : Failure}
    (herr : (c.obtain id compile).1 = .error f) : (c.obtain id compile).2.cache.peek id = none := by
  have hcases := c.obtain_cases id compile
  generalize c.obtain id compile = r at hcases herr ⊢
  cases hcases with
  | stopped hstop => cases hs.symm.trans hstop
  | hit | made => cases herr
  | failed _ hm => exact hm

omit [Host σ] in
theorem Obtained.extends {r : Except Failure (UnitRef × Option S) × Core σ U}
    (h : c.Obtained id compile r) : c.Extends r.2 := by
  cases h with
  | failed hunits hpeek | found _ hunits hpeek =>
    exact .of_within (congrArg Array.size hunits) (CodeCache.within_of_peek hpeek)
  | made _ hunits hpeek =>
    refine ⟨by simp [hunits], fun {x ref} hx hlt => ?_⟩
    obtain ⟨-, rfl⟩ | hold := hpeek x ref hx
    · exact absurd hlt (Nat.lt_irrefl _)
    · exact hold

end Core

/-- The step lemma: whatever the action. -/
theorem Moment.extends (m : Moment σ S U) : m.core.Extends m.after := by
  cases hm : m.action.handlesUnits with
  | false => exact .of_stock (after_stock hm)
  | true =>
    obtain ⟨c, action⟩ := m
    cases action with
    | obtain id compile => exact (c.obtain_obtained id compile).extends
    | addUnit unit => exact .addUnit c unit
    | beginLoad ref =>
      change c.Extends (c.beginLoad ref).2
      simp only [Core.beginLoad]
      split
      · exact .refl c
      · split
        · exact .setLoadState c ref .loading
        · exact .refl c
    | endLoad ref completed => exact .setLoadState c ref _
    | invalidate id => exact .of_within rfl (c.cache.invalidate_within id)
    | clearCache => exact .of_within rfl c.cache.invalidateAll_within
    | _ => cases hm

theorem Task.run_extends {α : Type} (t : Task S U α) (c : Core σ U) : c.Extends (t.run c).2 :=
  t.run_keeps (P := fun c' => c.Extends c') (fun m h => h.trans m.extends) (.refl c)

theorem Task.extends_of_moment {α : Type} {t : Task S U α} {c : Core σ U} {m : Moment σ S U}
    (hm : m ∈ t.trace c) : m.after.Extends (t.run c).2 :=
  t.run_of_moment (P := fun c' => m.after.Extends c') (fun m' h => h.trans m'.extends) hm (.refl _)

end ProcedureBridge
