import ProcedureBridge.Proofs.Bridge.Restarts
import ProcedureBridge.Proofs.Session.CachedUnits

/-! # Top-level code that starts again

While the top-level code of a procedure runs, it does not start again, unless the cache has lost the
procedure in the meantime: because it was full, or because a script has cleared it. -/

namespace ProcedureBridge

namespace Session

variable {e : Engine} {σ : Type} [Host σ] {s : Session e σ}

/-- The cache of a session is a bounded map at all times. -/
theorem isLru_resting : Resting (e := e) (σ := σ) fun c => ∃ capacity, c.cache.IsLru capacity where
  forget hc _ _ _ _ _ _ _ _ := hc
  unwind hc _ := hc
  invalidate hc id := hc.imp fun _ h => h.invalidate id
  clearCache hc := hc.imp fun _ h => h.invalidateAll
  addUnit hc _ := hc

theorem Reachable.isLru {kind : σ → Prop} {others : σ → σ → Prop} (hs : s.Reachable kind others) :
    s.core.cache.IsLru s.core.cache.capacity := by
  obtain ⟨capacity, h⟩ := isLru_resting.reachable (e.carries_nested (σ := σ))
    (fun {_ x} _ => Bridge.preserves_ofRoutine
      (fun m hm => hm.imp fun _ h => Moment.isLru_after h) x)
    (fun _ _ => ⟨_, .empty _⟩) hs
  rwa [h.capacity_eq]

/-- While top-level code of a procedure runs, it does not start again unless the procedure was lost
in the meantime. In an operation it starts at most once for each time that it has failed and for
each time that the procedure was lost, and once more, or not if the procedure was cached before. A
procedure is lost when a script clears the cache, or when another one is obtained while the cache is
full and no procedure was used longer ago. -/
theorem restarts_follow_losses (hs : s.Reachable (fun _ => True) fun _ _ => True) (o : Operation)
    (id : ProcedureId) :
    (∀ before first between again after ref,
      s.trace o = before ++ first :: between ++ again :: after →
      first.action = .beginLoad ref → first.starts id = true → again.starts id = true →
      (∀ m ∈ between, ∀ completed, m.action ≠ .endLoad ref completed) →
      ∃ m ∈ between, m.loses id = true) ∧
    (s.trace o).countP (·.starts id) + (s.core.caches id).toNat ≤
      1 + (s.trace o).countP (·.fails id) + (s.trace o).countP (·.loses id) ∧
    ∀ m ∈ s.trace o, m.core.cache.capacity = s.core.cache.capacity ∧
      (m.loses id = true → m.action = .clearCache ∨ m.Evicts id) := by
  cases ht : s.isTerminated with
  | true =>
    have hnothing : s.trace o = [] := by rw [trace, if_pos ht]
    rw [hnothing]
    refine ⟨fun before _ _ _ _ _ htrace => ?_, ?_, fun m hm => ?_⟩
    · cases before <;> cases htrace
    · simpa using Bool.toNat_le (s.core.caches id)
    · cases hm
  | false =>
    have hlru : (armCall s.core).cache.IsLru s.core.cache.capacity := hs.isLru
    have hsound : (armCall s.core).Sound none := (cacheLoaded_stocked.same hs.cacheLoaded rfl).sound
    have hpaced := (Operation.routine_paces e s.options.entryPoint o s.state).2 _ _ hsound hlru
    rw [trace_of_open ht]
    refine ⟨fun before first between again after ref htrace hfirst hstarts hagain hruns => ?_,
      ?_, fun m hm => ?_⟩
    · exact Task.lost_between hlru hpaced.guarded htrace hfirst hstarts hruns hagain
    · have hmakes := Task.countP_makes_le (o.routine e s.options.entryPoint s.state)
        (armCall s.core) id
      have hlast := Bool.toNat_le
        ((Task.run (o.routine e s.options.entryPoint s.state) (armCall s.core)).2.caches id)
      have hmade := hpaced.made id
      have hfailed := hpaced.failed id
      change _ + ((armCall s.core).caches id).toNat ≤ _
      omega
    · have hlru' := Task.trace_keeps (P := fun c => c.cache.IsLru s.core.cache.capacity)
        (fun _ => Moment.isLru_after) _ hlru m hm
      exact ⟨hlru'.capacity_eq, Moment.cleared_or_evicts hlru'⟩

end Session

/-! ## A cache with room for one procedure -/

/-- A language in which the code that runs first loads a schema, and all other code does nothing. -/
def Engine.preloading : Engine where
  State := Bool
  Value := Unit
  Chunk := Unit
  Code := Unit
  parse _ _ := .ok ()
  instantiate _ started := ((), started)
  topLevel _ started :=
    if started then .done ⟨.ok (), true⟩
    else .preload ["app"] true (fun _ started => .done ⟨.ok (), started⟩)
      fun o => .done ⟨.ok (), o.state⟩
  member _ _ started := .done ⟨.ok (), started⟩
  isFunction _ := true
  invoke _ _ started := .done ⟨.ok (), started⟩
  isNil _ := true
  toDatum _ _ := .ok .null
  publish _ started := .done ⟨.ok (), started⟩

namespace Session.Crowded

def helper : ProcedureSource := ⟨⟨16384⟩, "app", "helper", ""⟩

def loader : ProcedureSource := ⟨⟨16385⟩, "app", "loader", ""⟩

/-- A session that keeps one procedure, on a host with two of them in a schema. -/
def session : Session Engine.preloading MemoryHost :=
  ⟨.new { catalog := [helper, loader] } { cacheCapacity := 1 }, false⟩

theorem session_reachable : session.Reachable (fun _ => True) fun _ _ => True :=
  ⟨session, new_opened _ _ trivial rfl rfl rfl, .refl⟩

def unit (p : ProcedureSource × LoadState) : ExecutionUnit Engine.preloading.Code where
  id := .procedure p.1.id
  name := p.1.qualifiedName
  checksum := Text.checksum p.1.text
  code := ()
  state := p.2

/-- The cache after units were made for some procedures, the last one first. -/
def cacheAfter : List ProcedureSource → CodeCache UnitRef
  | [] => { capacity := 1 }
  | p :: earlier =>
    let c := cacheAfter earlier
    ({ c with stats := c.stats.miss }.insert p.id ⟨earlier.length⟩).2

/-- The core in the middle of the call, after some units were made. -/
def core (units : List (ProcedureSource × LoadState)) :
    Core MemoryHost Engine.preloading.Code :=
  { armCall session.core with
    host := { session.core.host with events := (units.map fun p => .lookedUp p.1.id).toArray }
    units := (units.map unit).toArray
    cache := cacheAfter (units.map Prod.fst).reverse }

abbrev compile (p : ProcedureSource) (started : Bool) :
    ProcedureSource → Except Failure (ExecutionUnit Engine.preloading.Code × Bool) :=
  Routine.compiling Engine.preloading.compiler p.id started

theorem cacheAfter_represents {earlier : List ProcedureSource} {r : LruMap UnitRef}
    {p : ProcedureSource} (h : (cacheAfter earlier).Represents r)
    (hmiss : (cacheAfter earlier).peek p.id = none) :
    (cacheAfter (p :: earlier)).Represents (((r.count .miss).put p.id ⟨earlier.length⟩).count
      (.insertion ((r.count .miss).entries.length - ((r.count .miss).room p.id).length))) :=
  (h.count .miss).insert hmiss _

theorem loader_only : (cacheAfter [loader]).peek helper.id = none :=
  ((cacheAfter_represents (.empty 1) (CodeCache.peek_empty 1 _)).peek_eq _).trans rfl

theorem helper_only : (cacheAfter [helper, loader]).peek loader.id = none :=
  ((cacheAfter_represents (cacheAfter_represents (.empty 1) (CodeCache.peek_empty 1 _))
    loader_only).peek_eq _).trans rfl

theorem safepoint_core (units : List (ProcedureSource × LoadState)) :
    (core units).safepoint = (.ok (), core units) := by
  have hheld : (core units).poll.monitor.held = none :=
    (congrArg Monitor.held rfl).trans (show Monitor.idle.held = none from rfl)
  exact Core.safepoint_of_clear rfl hheld

/-- A unit that is not cached is made. -/
theorem obtain_core {p : ProcedureSource} (units : List (ProcedureSource × LoadState))
    (hfind : session.host.find? p.id = some p)
    (hmiss : (cacheAfter (units.map Prod.fst).reverse).peek p.id = none) (started : Bool) :
    (core units).obtain p.id (compile p started) =
      (.ok (⟨units.length⟩, some started), core (units ++ [(p, .fresh)])) := by
  have hlookup : Host.lookup p.id (core units).host =
      (.ok p, (core units).host.record (.lookedUp p.id)) := by
    have hfind' : (core units).host.find? p.id = some p := hfind
    change MemoryHost.lookup _ p.id = _
    rw [MemoryHost.lookup, hfind']
  have hfetch : (core units).fetch p.id (compile p started) =
      (.ok (⟨units.length⟩, started), { core (units ++ [(p, .fresh)]) with
        cache := (core units).cache }) := by
    have hmade : compile p started p = .ok (unit (p, .fresh), started) := rfl
    rw [Core.fetch, hlookup]
    dsimp only
    rw [hmade]
    simp [core, Core.addUnit, MemoryHost.record]
  rw [Core.obtain_of_made (safepoint_core units) hmiss hfetch]
  simp [core, cacheAfter]

theorem setLoadState_core (units : List (ProcedureSource × LoadState)) (p : ProcedureSource)
    (state state' : LoadState) :
    (core (units ++ [(p, state)])).setLoadState ⟨units.length⟩ state' =
      core (units ++ [(p, state')]) := by
  simp [core, Core.setLoadState, unit, List.modify_eq_take_cons_drop]

theorem beginLoad_core (units : List (ProcedureSource × LoadState)) (p : ProcedureSource) :
    (core (units ++ [(p, .fresh)])).beginLoad ⟨units.length⟩ =
      (some (), core (units ++ [(p, .loading)])) := by
  have hunit : (core (units ++ [(p, .fresh)])).unit? ⟨units.length⟩ = some (unit (p, .fresh)) := by
    simp [core, Core.unit?]
  simp only [Core.beginLoad, hunit, unit, setLoadState_core]
  rfl

abbrev topLevel : Engine.preloading.Code → Routine Engine.preloading.State Engine.preloading.Code
    Engine.preloading.Value :=
  fun code => Engine.preloading.runScript (Engine.preloading.topLevel code)

/-- What the code does that starts while the schema is loaded. -/
abbrev nested : Engine.preloading.Code → Routine Engine.preloading.State Engine.preloading.Code
    Engine.preloading.Value :=
  fun _ => Engine.preloading.runScript fun started => .done ⟨.ok (), started⟩

/-- A unit that is not cached is made and loaded. -/
theorem loadProcedure_core (p : ProcedureSource) (units : List (ProcedureSource × LoadState))
    (hfind : session.host.find? p.id = some p)
    (hmiss : (cacheAfter (units.map Prod.fst).reverse).peek p.id = none) :
    Task.run (Routine.loadProcedure Engine.preloading.compiler nested p.id true) (core units) =
        ((.ok ⟨units.length⟩, true), core (units ++ [(p, .loaded)])) ∧
      Task.trace (Routine.loadProcedure Engine.preloading.compiler nested p.id true) (core units) =
        [⟨core units, .obtain p.id (compile p true)⟩,
          ⟨core (units ++ [(p, .fresh)]), .beginLoad ⟨units.length⟩⟩,
          ⟨core (units ++ [(p, .loading)]), .endLoad ⟨units.length⟩ true⟩] := by
  have hobtain := obtain_core units hfind hmiss true
  have hbegin := beginLoad_core units p
  refine ⟨(Routine.run_loadProcedure_of_made hobtain hbegin rfl).trans ?_,
    Routine.trace_loadProcedure_of_made hobtain hbegin rfl⟩
  rw [Core.endLoad, if_pos rfl, setLoadState_core]

theorem listProcedures_core (units : List (ProcedureSource × LoadState)) :
    (core units).listProcedures "app" = (.ok [helper.id, loader.id], core units) := rfl

/-- The code of the loader starts. -/
def first : Moment MemoryHost Engine.preloading.State Engine.preloading.Code :=
  ⟨core [(loader, .fresh)], .beginLoad ⟨0⟩⟩

/-- What happens while the code of the loader runs. The helper takes the place of the loader in the
cache, so that another unit is made for the loader, and its code starts. -/
def between : List (Moment MemoryHost Engine.preloading.State Engine.preloading.Code) :=
  [⟨core [(loader, .loading)], .listProcedures "app"⟩,
    ⟨core [(loader, .loading)], .obtain helper.id (compile helper true)⟩,
    ⟨core [(loader, .loading), (helper, .fresh)], .beginLoad ⟨1⟩⟩,
    ⟨core [(loader, .loading), (helper, .loading)], .endLoad ⟨1⟩ true⟩,
    ⟨core [(loader, .loading), (helper, .loaded)], .obtain loader.id (compile loader true)⟩]

/-- The code of the loader starts again. -/
def again : Moment MemoryHost Engine.preloading.State Engine.preloading.Code :=
  ⟨core [(loader, .loading), (helper, .loaded), (loader, .fresh)], .beginLoad ⟨2⟩⟩

theorem preload_core :
    Task.run (Routine.preload Engine.preloading.compiler nested ["app"] true)
        (core [(loader, .loading)]) =
      ((.ok 2, true), core [(loader, .loading), (helper, .loaded), (loader, .loaded)]) ∧
    Task.trace (Routine.preload Engine.preloading.compiler nested ["app"] true)
        (core [(loader, .loading)]) =
      between ++ again ::
        [⟨core [(loader, .loading), (helper, .loaded), (loader, .loading)], .endLoad ⟨2⟩ true⟩] := by
  obtain ⟨hhelper, hhelper'⟩ := loadProcedure_core helper [(loader, .loading)] rfl loader_only
  obtain ⟨hloader, hloader'⟩ :=
    loadProcedure_core loader ([(loader, LoadState.loading)] ++ [(helper, LoadState.loaded)]) rfl
      helper_only
  obtain ⟨hrun, htrace⟩ := Routine.run_preload_single (listProcedures_core [(loader, .loading)])
  obtain ⟨hrun', htrace'⟩ := Routine.run_loadAll_cons hhelper [loader.id] 0
  obtain ⟨hrun'', htrace''⟩ := Routine.run_loadAll_cons hloader [] (0 + 1)
  refine ⟨hrun.trans (hrun'.trans hrun''), ?_⟩
  rw [htrace, htrace', htrace'', hhelper', hloader']
  rfl

theorem topLevel_core :
    Task.run (topLevel () false) (core [(loader, .loading)]) =
      ((.ok (), true), core [(loader, .loading), (helper, .loaded), (loader, .loaded)]) ∧
    Task.trace (topLevel () false) (core [(loader, .loading)]) =
      Task.trace (Routine.preload Engine.preloading.compiler nested ["app"] true)
        (core [(loader, .loading)]) := by
  have hscript : Engine.preloading.topLevel () false = .preload ["app"] true
      (fun _ started => .done ⟨.ok (), started⟩) fun o => .done ⟨.ok (), o.state⟩ := rfl
  exact Engine.run_runScript_preload hscript preload_core.1 rfl

theorem session_trace :
    session.trace (.call loader.id []) =
      [⟨core [], .obtain loader.id (compile loader false)⟩] ++
        first :: between ++ again ::
          [⟨core [(loader, .loading), (helper, .loaded), (loader, .loading)], .endLoad ⟨2⟩ true⟩,
            ⟨core [(loader, .loading), (helper, .loaded), (loader, .loaded)], .endLoad ⟨0⟩ true⟩,
            ⟨core [(loader, .loaded), (helper, .loaded), (loader, .loaded)], .beginLoad ⟨0⟩⟩,
            ⟨core [(loader, .loaded), (helper, .loaded), (loader, .loaded)], .unit ⟨0⟩⟩] := by
  obtain ⟨hrun, htrace⟩ := topLevel_core
  have hobtain := obtain_core [] rfl (CodeCache.peek_empty 1 loader.id) false
  have hbegin := beginLoad_core [] loader
  have hload : Task.run (Engine.preloading.loadProcedure loader.id false) (core []) =
      ((.ok ⟨0⟩, true), core [(loader, .loaded), (helper, .loaded), (loader, .loaded)]) :=
    Routine.run_loadProcedure_of_made hobtain hbegin hrun
  have hload' : Task.trace (Engine.preloading.loadProcedure loader.id false) (core []) =
      ⟨core [], .obtain loader.id (compile loader false)⟩ :: first ::
        (Task.trace (topLevel () false) (core [(loader, .loading)]) ++
          [⟨core [(loader, .loading), (helper, .loaded), (loader, .loaded)], .endLoad ⟨0⟩ true⟩]) :=
    Routine.trace_loadProcedure_of_made hobtain hbegin hrun
  have hcall : session.trace (.call loader.id []) =
      Task.trace (Operation.calling Engine.preloading "main" loader.id [] false) (core []) :=
    trace_of_open rfl _
  rw [hcall, Operation.trace_calling hload, hload', htrace, preload_core.2]
  rfl

/-- Top-level code may start again while it runs, although no script clears the cache. -/
theorem full_cache_restarts :
    session.Reachable (fun _ => True) (fun _ _ => True) ∧
      (∀ m ∈ session.trace (.call loader.id []), m.action ≠ .clearCache) ∧
      ∃ before first between again after,
        session.trace (.call loader.id []) = before ++ first :: between ++ again :: after ∧
          first.action = .beginLoad ⟨0⟩ ∧ first.starts loader.id = true ∧
          again.starts loader.id = true ∧
          ∀ m ∈ between, ∀ completed, m.action ≠ .endLoad ⟨0⟩ completed := by
  refine ⟨session_reachable, ?_, _, _, _, _, _, session_trace, rfl, rfl, rfl, ?_⟩
  · rw [session_trace]
    simp [between, first, again]
  · simp [between]

/-- The loader was lost before its code started again. -/
theorem restarts_follow_losses_crowded :
    session.Reachable (fun _ => True) (fun _ _ => True) ∧
      first.starts loader.id = true ∧ again.starts loader.id = true ∧
      (∀ m ∈ between, ∀ completed, m.action ≠ .endLoad ⟨0⟩ completed) ∧
      ∃ m ∈ between, m.loses loader.id = true := by
  have hruns : ∀ m ∈ between, ∀ completed, m.action ≠ .endLoad ⟨0⟩ completed := by
    simp [between]
  obtain ⟨hrestarts, -⟩ :=
    restarts_follow_losses session_reachable (.call loader.id []) loader.id
  exact ⟨session_reachable, rfl, rfl, hruns,
    hrestarts _ _ _ _ _ _ session_trace rfl rfl rfl hruns⟩

end Session.Crowded

end ProcedureBridge
