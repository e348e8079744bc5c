import ProcedureBridge.Host.Memory
import ProcedureBridge.Proofs.Bridge.Loading
import ProcedureBridge.Proofs.Session.Resting

/-! # The cached units of a session

Between requests every unit in the cache is loaded: a session asks for loads only inside of
operations, where loads are nested, and drops units at most after that. -/

namespace ProcedureBridge

namespace Core

variable {σ U S : Type} {c c' : Core σ U}

/-- Every cached unit is loaded. -/
def CacheLoaded (c : Core σ U) : Prop :=
  ∀ id ref, c.cache.peek id = some ref → c.stage? ref = some .loaded

namespace CacheLoaded

theorem sound (h : c.CacheLoaded) : c.Sound none := fun id ref hid => .inr (.inr (h id ref hid))

theorem drop (h : c.CacheLoaded) (hunits : c'.units = c.units) (hcache : c'.cache.Within c.cache) :
    c'.CacheLoaded := by
  intro id ref hid
  rw [stage?_of_units hunits]
  exact h id ref (hcache id ref hid)

theorem addUnit (h : c.CacheLoaded) (unit : ExecutionUnit U) : (c.addUnit unit).2.CacheLoaded := by
  intro id ref hid
  have hstage := h id ref hid
  rw [stage?_of_push (c := c) rfl, if_neg (Nat.ne_of_lt (lt_of_stage? hstage)), hstage]

/-- A cached unit that is being loaded in the end was being loaded, and cached, in the beginning. -/
theorem orderly (h : c.CacheLoaded) {trace : List (Moment σ S U)} (ho : Orderly none c trace c') :
    c'.CacheLoaded := by
  intro id ref hid
  obtain hloading | hloaded := ho.sound.begun hid
  · have hbefore := (ho.loading ref).mp hloading
    have hcached := h id ref (ho.grows.cached hid (lt_of_stage? hbefore))
    rw [hbefore] at hcached
    cases hcached
  · exact hloaded

/-- A procedure that has no cached unit is not in the cache. -/
theorem peek_eq_none (h : c.CacheLoaded) {id : ProcedureId} (hunit : c.cachedUnit? id = none) :
    c.cache.peek id = none := by
  cases hpeek : c.cache.peek id with
  | none => rfl
  | some ref =>
    obtain ⟨unit, hfound, -⟩ := Option.map_eq_some_iff.mp (h id ref hpeek)
    rw [cachedUnit?, hpeek, Option.bind_some, hfound] at hunit
    cases hunit

end CacheLoaded

end Core

namespace Session

variable {e : Engine} {σ α : Type} [Host σ]

/-- The property is kept by all that a session does with its units. -/
structure Stocked (Q : Core σ e.Code → Prop) : Prop where
  drop : ∀ {c c'}, Q c → c'.units = c.units → c'.cache.Within c.cache → Q c'
  addUnit : ∀ {c}, Q c → ∀ unit, Q (c.addUnit unit).2
  nested : ∀ {α : Type} {x : Routine e.State e.Code α}, Routine.All (fun _ t => t.Nested σ) x →
    Bridge.Preserves Q (.ofRoutine x)

theorem cacheLoaded_stocked : Stocked (Core.CacheLoaded (σ := σ) (U := e.Code)) where
  drop := Core.CacheLoaded.drop
  addUnit := Core.CacheLoaded.addUnit
  nested hx w hw := hw.orderly (hx w.state w.core hw.sound)

theorem extends_stocked (c₀ : Core σ e.Code) : Stocked fun c => c₀.Extends c where
  drop h hunits hcache := h.trans (.of_within (congrArg Array.size hunits) hcache)
  addUnit h unit := h.trans (.addUnit _ unit)
  nested _ w hw := hw.trans (Task.run_extends _ w.core)

namespace Stocked

variable {Q : Core σ e.Code → Prop} {s : Session e σ}

theorem same (hQ : Stocked Q) {c c' : Core σ e.Code} (hc : Q c) (h : c'.stock = c.stock) :
    Q c' := by
  obtain ⟨hunits, hcache⟩ := Core.stock_eq.mp h
  exact hQ.drop hc hunits (hcache ▸ .refl _)

theorem resting (hQ : Stocked Q) : Resting Q where
  forget hc _ _ _ _ _ _ _ _ := hQ.same hc rfl
  unwind hc _ := hQ.same hc rfl
  invalidate {c} hc id := hQ.drop hc rfl (c.cache.invalidate_within id)
  clearCache {c} hc := hQ.drop hc rfl c.cache.invalidateAll_within
  addUnit hc unit := hQ.addUnit hc unit

theorem later (hQ : Stocked Q) {others : σ → σ → Prop} {t : Session e σ} (hl : s.Later others t)
    (hc : Q s.core) : Q t.core :=
  hQ.resting.later (e.carries_nested (σ := σ)) hQ.nested hl hc

end Stocked

variable {s : Session e σ}

omit [Host σ] in
theorem new_cacheLoaded (host : σ) (options : Options) :
    (Core.new host options : Core σ e.Code).CacheLoaded := by
  intro id ref hid
  simp [Core.new, CodeCache.peek] at hid

theorem Reachable.cacheLoaded {kind : σ → Prop} {others : σ → σ → Prop}
    (hs : s.Reachable kind others) : s.core.CacheLoaded :=
  cacheLoaded_stocked.resting.reachable (e.carries_nested (σ := σ)) cacheLoaded_stocked.nested
    new_cacheLoaded hs

/-- What an operation leaves, a later session has got from it. -/
theorem extends_of_later {others : σ → σ → Prop} {o : Operation} {t : Session e σ}
    (ht : s.isTerminated = false) (hl : (s.operate o).2.Later others t) :
    (Task.run (o.routine e s.options.entryPoint s.state) (armCall s.core)).2.Extends t.core := by
  refine (extends_stocked _).later hl ?_
  rw [operate, boundary, ht]
  have hresting := (extends_stocked (Task.run (o.routine e s.options.entryPoint s.state)
    (armCall s.core)).2).resting
  exact hresting.finish (hresting.settle (.refl _))

/-- In a session that is reached somehow, every cached unit is loaded. When an operation is over, a
procedure whose text was refused or is no program is not in the cache unless it was compiled again,
and a unit whose top-level code has failed is not in the cache, and never comes back. -/
theorem cached_units_loaded (hs : s.Reachable (fun _ => True) fun _ _ => True) :
    (∀ id ref, s.core.cache.peek id = some ref →
      ∃ unit, s.core.unit? ref = some unit ∧ unit.isLoaded = true) ∧
    ∀ (o : Operation) (t : Session e σ), (s.operate o).2.Later (fun _ _ => True) t →
      ∀ m ∈ s.trace o,
        (∀ id compile c f, m.action = .obtain id compile → m.core.safepoint = (.ok (), c) →
          (m.core.obtain id compile).1 = .error f → m.after.cache.peek id = none ∧
            ∀ ref, t.core.cache.peek id = some ref → m.after.units.size ≤ ref.index) ∧
        ∀ ref, m.action = .endLoad ref false → ∀ id, t.core.cache.peek id ≠ some ref := by
  have hloaded := hs.cacheLoaded
  refine ⟨fun id ref hid => ?_, fun o t hl m hm => ?_⟩
  · obtain ⟨unit, hunit, hstate⟩ := Option.map_eq_some_iff.mp (hloaded id ref hid)
    exact ⟨unit, hunit, decide_eq_true hstate⟩
  · have ht := open_of_mem_trace hm
    have hend := extends_of_later ht hl
    rw [trace_of_open ht] at hm
    constructor
    · intro id compile c f haction hsafe herr
      have hafter := (Task.extends_of_moment hm).trans hend
      obtain ⟨core, action⟩ := m
      cases haction
      have hnone := Core.peek_obtain_of_error hsafe herr
      refine ⟨hnone, fun ref hid => Nat.le_of_not_lt fun hlt => ?_⟩
      have hcached := hafter.cached hid hlt
      exact absurd (hnone.symm.trans hcached) nofun
    · intro ref haction
      have hnested := (e.carries_nested (σ := σ)).routine
        s.options.entryPoint o s.state (armCall s.core) (cacheLoaded_stocked.same hloaded rfl).sound
      exact (((hnested.failed m hm ref haction).resolve_left nofun).later hend).2

/-- A session on whose host is one procedure, with top-level code that fails. -/
def fragile : Session (Engine.scripted (.done ⟨.error (.runtime "boom"), ()⟩)) MemoryHost :=
  fresh _ () { catalog := [⟨⟨16384⟩, "public", "fragile", ""⟩] }

/-- The unit is in the cache while its code runs, and is not in it when the call has returned. -/
theorem cached_units_loaded_fragile :
    ∃ m ∈ fragile.trace (.call ⟨16384⟩ []), m.core.cache.peek ⟨16384⟩ = some ⟨0⟩ ∧
      m.action = .endLoad ⟨0⟩ false ∧
      ∀ id, (fragile.operate (.call ⟨16384⟩ [])).2.core.cache.peek id ≠ some ⟨0⟩ := by
  have hs : fragile.Reachable (fun _ => True) fun _ _ => True := fresh_reachable _ _ _ trivial
  have hobtain : (armCall fragile.core).obtain ⟨16384⟩ (Routine.compiling
      (Engine.scripted (.done ⟨.error (.runtime "boom"), ()⟩)).compiler ⟨16384⟩ ()) =
        (.ok (⟨0⟩, some ()), _) :=
    Core.obtain_of_made (Core.safepoint_of_clear rfl rfl) (CodeCache.peek_empty _ _) rfl
  obtain ⟨m, hm, hcached, hend⟩ : ∃ m ∈ fragile.trace (.call ⟨16384⟩ []),
      m.core.cache.peek ⟨16384⟩ = some ⟨0⟩ ∧ m.action = .endLoad ⟨0⟩ false := by
    rw [trace_of_open rfl]
    refine ⟨_, Routine.mem_trace_bind (Routine.mem_trace_bind
      (Routine.failed_mem_loadProcedure hobtain rfl rfl) _) _, ?_, rfl⟩
    refine CodeCache.peek_insert_self ?_ ?_ (⟨0⟩ : UnitRef)
    · exact CodeCache.peek_empty 1024 _
    · decide
  exact ⟨m, hm, hcached, hend, ((cached_units_loaded hs).2 _ _ .refl m hm).2 _ hend⟩

end Session

end ProcedureBridge
