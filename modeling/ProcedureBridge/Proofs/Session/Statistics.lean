import ProcedureBridge.Proofs.Cache.Statistics
import ProcedureBridge.Proofs.Session.Restarts

/-! # Statistics of a session's cache

Scripts preload, clear and fail to load, also while they are being loaded themselves. For the cache
this is one request after the other, so its counts add up as those of any cache. -/

namespace ProcedureBridge

variable {σ S U : Type}

namespace Moment

variable [Host σ] {m : Moment σ S U} {capacity : Nat}

/-- An action asks the cache for one thing at most. -/
theorem served_after (h : m.core.cache.Served capacity) : m.after.cache.Served capacity := by
  cases hm : m.action.handlesUnits with
  | false => exact (Core.stock_eq.mp (after_stock hm)).2 ▸ h
  | true =>
    obtain ⟨c, action⟩ := m
    cases action with
    | obtain id compile =>
      have hsame {r : Except Failure Unit} {c' : Core σ U} (hs : c.safepoint = (r, c')) :
          c'.cache = c.cache := (Core.stock_eq.mp (Core.stock_of_safepoint hs)).2
      have hcases := c.obtain_cases id compile
      generalize hr : c.obtain id compile = r at hcases
      have hafter : (⟨c, .obtain id compile⟩ : Moment σ S U).after = r.2 := congrArg Prod.snd hr
      rw [hafter]
      cases hcases with
      | stopped hs => exact hsame hs ▸ h
      | hit hs hit => exact (hsame hs ▸ h).hit hit
      | failed hs hmiss => exact (hsame hs ▸ h).settle hmiss (.error ())
      | @made ref _ _ _ hs hmiss => exact (hsame hs ▸ h).settle hmiss (.ok ref)
    | beginLoad ref =>
      change (c.beginLoad ref).2.cache.Served capacity
      simp only [Core.beginLoad]
      split
      · exact h
      · split <;> exact h
    | addUnit | endLoad => exact h
    | invalidate id => exact h.invalidate id
    | clearCache => exact h.invalidateAll
    | _ => cases hm

end Moment

namespace Session

variable {e : Engine} [Host σ] {s : Session e σ}

theorem served_resting :
    Resting (e := e) (σ := σ) fun c => ∃ capacity, c.cache.Served capacity where
  forget hc _ _ _ _ _ _ _ _ := hc
  unwind hc _ := hc
  invalidate hc id := hc.imp fun _ h => h.invalidate id
  clearCache hc := hc.imp fun _ h => h.invalidateAll
  addUnit hc _ := hc

/-- The cache of a session is what it has become by what the session has asked it for. -/
theorem Reachable.served {kind : σ → Prop} {others : σ → σ → Prop} (hs : s.Reachable kind others) :
    ∃ capacity, s.core.cache.Served capacity :=
  served_resting.reachable (e.carries_nested (σ := σ))
    (fun {_ x} _ => Bridge.preserves_ofRoutine
      (fun _ hm => hm.imp fun _ h => Moment.served_after h) x)
    (fun _ _ => ⟨_, .empty _⟩) hs

/-- The statistics of a cache are conserved. From when they were last at zero on, whatever the cache
is asked for then, lookups are hits and misses, the units that there were and that were stored are
those that are cached and those that were dropped, and a miss has stored a unit, has failed to make
one or was a direct lookup. Each unit that goes is counted once, when it goes: as an invalidation if
it goes on request, and as an eviction otherwise, which does not happen without a limit. A session
makes no direct lookups, so that its misses are insertions and failures, whatever scripts do. -/
theorem statistics_are_conserved {τ υ ε : Type} :
    (∀ (capacity : Nat) (earlier since : List (CacheRequest τ υ ε)),
      (∀ request ∈ since, request.resets = false) →
      let start := (serve CodeCache.respond ({ capacity } : CodeCache υ) earlier).2.resetStats
      let served := serve CodeCache.respond start since
      let c := served.2
      c.Conserved start.size (directMisses since served.1) ∧ c.capacity = capacity ∧
      c.stats.evictions + c.stats.invalidations = start.losses since ∧
      ∀ request : CacheRequest τ υ ε, request.resets = false →
        c.CountsLosses (c.respond request).2 request.removes) ∧
    ∀ s : Session e σ, s.Reachable (fun _ => True) (fun _ _ => True) →
      s.cacheStats.misses = s.cacheStats.insertions + s.cacheStats.compileFailures ∧
      s.core.cache.Conserved 0 0 := by
  refine ⟨fun capacity earlier since hsince => ?_, fun s hs => ?_⟩
  · obtain ⟨⟨r, hr⟩, hcapacity, hconserved, hlosses⟩ :=
      CodeCache.conserved_since_reset (υ := υ) capacity earlier hsince
    exact ⟨hconserved, hcapacity, hlosses, fun request hrequest => hr.countsLosses hrequest⟩
  · obtain ⟨_, hserved⟩ := hs.served
    exact ⟨hserved.conserved.misses, hserved.conserved⟩

/-- A unit that is made of nothing. -/
def making (id : Nat) : CacheRequest Unit Nat Unit := .getOrCompile ⟨id⟩ (.ok ()) fun _ => .ok id

/-- One miss that makes a unit and drops another one, one that makes none, one direct one, and a
removal. -/
def crowding : List (CacheRequest Unit Nat Unit) :=
  [.get ⟨2⟩, making 2, .getOrCompile ⟨3⟩ (.error ()) fun _ => .ok 3, .invalidate ⟨2⟩]

/-- The counts of a cache with room for one unit, which had one when they were at zero, and those of
a session with such a cache after a call that loads a schema. -/
theorem statistics_are_conserved_crowded :
    (let start := (serve CodeCache.respond ({ capacity := 1 } : CodeCache Nat) [making 1]).2.resetStats
     let served := serve CodeCache.respond start crowding
     served.2.Conserved start.size (directMisses crowding served.1) ∧
       served.2.stats = { lookups := 3, misses := 3, insertions := 1, evictions := 1,
                          invalidations := 1, compileFailures := 1 }) ∧
    (let stats := (Crowded.session.call Crowded.loader.id []).2.cacheStats
     stats.misses = stats.insertions + stats.compileFailures) := by
  obtain ⟨hcache, hsession⟩ :=
    statistics_are_conserved (e := Engine.preloading) (σ := MemoryHost) (τ := Unit) (υ := Nat)
      (ε := Unit)
  have hstart := ((CodeCache.Represents.empty (υ := Nat) 1).serve [making 1]).2.count fun _ => {}
  obtain ⟨opened, hopened, hlater⟩ := Crowded.session_reachable
  refine ⟨⟨(hcache 1 [making 1] crowding (by decide)).1, ?_⟩, ?_⟩
  · exact (hstart.serve crowding).2.stats.trans (by decide)
  · exact (hsession (Crowded.session.call Crowded.loader.id []).2
      ⟨opened, hopened, hlater.request (.operate (.call Crowded.loader.id []))⟩).1

end Session

end ProcedureBridge
