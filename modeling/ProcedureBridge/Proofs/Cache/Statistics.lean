import ProcedureBridge.Proofs.Cache.Refinement

/-! # What a cache counts

Every lookup is a hit or a miss, every miss stores a unit, fails to make one or was a direct lookup,
and every unit that is not there any more was counted when it went: as an invalidation if the cache
was asked to drop it, and as an eviction if it had to make room. -/

namespace ProcedureBridge

variable {τ υ ε : Type}

namespace CacheRequest

/-- The request is to drop units. -/
def removes : CacheRequest τ υ ε → Bool
  | .invalidate _ | .invalidateAll => true
  | _ => false

def resets : CacheRequest τ υ ε → Bool
  | .resetStats => true
  | _ => false

/-- What a session asks of its cache. -/
def ofSession : CacheRequest τ υ ε → Bool
  | .getOrCompile .. | .invalidate _ | .invalidateAll => true
  | _ => false

/-- How many direct lookups have found nothing: one or none. -/
def directMisses : CacheRequest τ υ ε → CacheAnswer υ ε → Nat
  | .get _, .found none => 1
  | _, _ => 0

theorem resets_of_ofSession {request : CacheRequest τ υ ε} (h : request.ofSession = true) :
    request.resets = false := by
  cases request with
  | resetStats => cases h
  | _ => rfl

theorem directMisses_of_ofSession {request : CacheRequest τ υ ε} (h : request.ofSession = true)
    (answer : CacheAnswer υ ε) : request.directMisses answer = 0 := by
  cases request with
  | get => cases h
  | _ => rfl

end CacheRequest

/-- How many of the lookups that made nothing have found nothing. -/
def directMisses : List (CacheRequest τ υ ε) → List (CacheAnswer υ ε) → Nat
  | request :: requests, answer :: answers =>
    request.directMisses answer + directMisses requests answers
  | _, _ => 0

theorem directMisses_of_ofSession {requests : List (CacheRequest τ υ ε)}
    (h : ∀ request ∈ requests, request.ofSession = true) (answers : List (CacheAnswer υ ε)) :
    directMisses requests answers = 0 := by
  induction requests generalizing answers with
  | nil => rfl
  | cons request rest ih =>
    obtain ⟨hfirst, hrest⟩ := List.forall_mem_cons.mp h
    cases answers with
    | nil => rfl
    | cons answer answers =>
      rw [directMisses, CacheRequest.directMisses_of_ofSession hfirst, Nat.zero_add]
      exact ih hrest answers

/-- What is counted as the one thing or as the other is counted once. -/
theorem counted_once (evictions invalidations lost : Nat) (removes : Bool) :
    (evictions + if removes then 0 else lost) + (invalidations + if removes then lost else 0) =
      evictions + invalidations + lost := by
  cases removes with
  | true => exact (Nat.add_assoc _ _ _).symm
  | false => exact Nat.add_right_comm _ _ _

namespace LruMap

/-- One request, counted. Of the pairs there were `kept` are still there and `lost` is the number of
the others, which were removed on request or had to make room; `fresh` are those that came. -/
structure Tally (r r' : LruMap υ) (removes : Bool) (direct : Nat)
    (kept fresh : List (ProcedureId × υ)) (lost : Nat) : Prop where
  capacity : r'.capacity = r.capacity
  entries : r'.entries.Perm (kept ++ fresh)
  sublist : kept.Sublist r.entries
  notMem : ∀ e ∈ fresh, e.1 ∉ r.ids
  length : kept.length + lost = r.entries.length
  lookups : r'.stats.lookups + (r.stats.hits + r.stats.misses) =
    r.stats.lookups + (r'.stats.hits + r'.stats.misses)
  misses : r'.stats.misses + (r.stats.insertions + r.stats.compileFailures) =
    r.stats.misses + (r'.stats.insertions + r'.stats.compileFailures) + direct
  insertions : r'.stats.insertions = r.stats.insertions + fresh.length
  evictions : r'.stats.evictions = r.stats.evictions + if removes then 0 else lost
  invalidations : r'.stats.invalidations = r.stats.invalidations + if removes then lost else 0
  unlimited : r.capacity = 0 → removes = false → lost = 0

variable {r r' : LruMap υ} {id : ProcedureId} {unit : υ} {removes : Bool} {direct lost : Nat}
  {kept fresh : List (ProcedureId × υ)}

/-- A hit only changes the order. -/
theorem put_perm (h : r.find? id = some unit) : (r.put id unit).entries.Perm r.entries := by
  have hmem : (id, unit) ∈ r.entries := r.find?_eq_some.mp h
  have hid : id ∈ r.ids := List.mem_map_of_mem hmem
  refine (List.perm_ext_iff_of_nodup ((r.put id unit).distinct.of_map _)
    (r.distinct.of_map _)).mpr fun ⟨x, u⟩ => ?_
  change (x, u) ∈ r.room id ++ [(id, unit)] ↔ (x, u) ∈ r.entries
  rw [r.room_of_mem hid, List.mem_append, r.mem_others, List.mem_singleton]
  constructor
  · rintro (⟨hx, -⟩ | hx)
    · exact hx
    · exact hx ▸ hmem
  · intro hx
    by_cases hxid : x = id
    · subst hxid
      exact .inr (by rw [Option.some.inj ((r.find?_eq_some.mpr hx).symm.trans h)])
    · exact .inl ⟨hx, hxid⟩

/-- Where pairs at most change their order, the counts of pairs stay as they are. -/
theorem Tally.of_perm (hcapacity : r'.capacity = r.capacity) (hentries : r'.entries.Perm r.entries)
    (hlookups : r'.stats.lookups + (r.stats.hits + r.stats.misses) =
      r.stats.lookups + (r'.stats.hits + r'.stats.misses))
    (hmisses : r'.stats.misses + r.stats.compileFailures =
      r.stats.misses + r'.stats.compileFailures + direct)
    (hinsertions : r'.stats.insertions = r.stats.insertions)
    (hevictions : r'.stats.evictions = r.stats.evictions)
    (hinvalidations : r'.stats.invalidations = r.stats.invalidations) :
    Tally r r' removes direct r.entries [] 0 where
  capacity := hcapacity
  entries := by rwa [List.append_nil]
  sublist := List.Sublist.refl _
  notMem _ h := nomatch h
  length := rfl
  lookups := hlookups
  misses := by omega
  insertions := hinsertions
  evictions := by rw [hevictions, ite_self, Nat.add_zero]
  invalidations := by rw [hinvalidations, ite_self, Nat.add_zero]
  unlimited _ _ := rfl

theorem Tally.refl : Tally r r removes 0 r.entries [] 0 := .of_perm rfl (.refl _) rfl rfl rfl rfl rfl

/-- A miss that is made up for puts one pair more, and drops the first one if the map is full. -/
theorem tally_insertion (h : r.find? id = none) (unit : υ) :
    Tally r (((r.count .miss).put id unit).count
        (.insertion (r.entries.length - (r.room id).length)))
      false 0 (r.room id) [(id, unit)] (r.entries.length - (r.room id).length) := by
  have hle := ((r.room_sublist id).trans (r.others_sublist id)).length_le
  have hnot : id ∉ r.ids := r.find?_eq_none.mp h
  refine ⟨rfl, .refl _, (r.room_sublist id).trans (r.others_sublist id), ?_, by omega, ?_, ?_, rfl,
    rfl, rfl, fun hunlimited _ => ?_⟩
  · rintro e he
    rwa [List.mem_singleton.mp he]
  · simp only [count, put, CacheStats.insertion, CacheStats.miss]
    omega
  · simp only [count, put, CacheStats.insertion, CacheStats.miss]
    omega
  · rw [r.room_of_notMem hnot, if_neg (fun hfull => hfull.1 hunlimited), Nat.sub_self]

/-- Every request but the one to count anew is counted. -/
theorem respond_tally (r : LruMap υ) {request : CacheRequest τ υ ε}
    (hrequest : request.resets = false) :
    ∃ kept fresh lost, Tally r (r.respond request).2 request.removes
      (request.directMisses (r.respond request).1) kept fresh lost := by
  cases request with
  | get id =>
    cases hfind : r.find? id with
    | none =>
      simp only [respond, hfind]
      exact ⟨_, _, _, .of_perm rfl (.refl _) (by simp [count, CacheStats.miss]; omega)
        (by simp [count, CacheStats.miss, CacheRequest.directMisses]; omega) rfl rfl rfl⟩
    | some unit =>
      simp only [respond, hfind]
      exact ⟨_, _, _, .of_perm rfl (put_perm hfind) (by simp [count, put, CacheStats.hit]; omega)
        rfl rfl rfl rfl⟩
  | getOrCompile id source compile =>
    cases hfind : r.find? id with
    | some unit =>
      simp only [respond, hfind]
      exact ⟨_, _, _, .of_perm rfl (put_perm hfind) (by simp [count, put, CacheStats.hit]; omega)
        rfl rfl rfl rfl⟩
    | none =>
      cases hmade : source.bind compile with
      | ok unit =>
        simp only [respond, hfind, hmade]
        exact ⟨_, _, _, tally_insertion hfind unit⟩
      | error e =>
        simp only [respond, hfind, hmade]
        exact ⟨_, _, _, .of_perm rfl (.refl _)
          (by simp [count, CacheStats.miss, CacheStats.failure]; omega)
          (by simp [count, CacheStats.miss, CacheStats.failure, CacheRequest.directMisses]; omega)
          rfl rfl rfl⟩
  | invalidate id =>
    cases hfind : r.find? id with
    | none =>
      simp only [respond, hfind]
      exact ⟨_, _, _, .refl⟩
    | some unit =>
      have hid : id ∈ r.ids := List.mem_map_of_mem (r.find?_eq_some.mp hfind)
      simp only [respond, hfind]
      exact ⟨r.others id, [], 1, rfl, by rw [List.append_nil]; exact .refl _, r.others_sublist id,
        List.forall_mem_nil _, r.others_length hid, rfl, rfl, rfl, rfl, rfl,
        fun _ h => Bool.noConfusion h⟩
  | invalidateAll =>
    exact ⟨[], [], r.entries.length, rfl, .refl _, List.nil_sublist _, List.forall_mem_nil _,
      Nat.zero_add _, rfl, rfl, rfl, rfl, rfl, fun _ h => Bool.noConfusion h⟩
  | peek | isCurrent | stats => exact ⟨_, _, _, .refl⟩
  | resetStats => cases hrequest

namespace Tally

theorem evictions_add_invalidations (h : Tally r r' removes direct kept fresh lost) :
    r'.stats.evictions + r'.stats.invalidations =
      r.stats.evictions + r.stats.invalidations + lost := by
  rw [h.evictions, h.invalidations, counted_once]

/-- What was there and is there still is the same pair. -/
theorem find?_eq (h : Tally r r' removes direct kept fresh lost) (hid : id ∈ r.ids)
    (hid' : id ∈ r'.ids) : r'.find? id = r.find? id := by
  obtain ⟨⟨x, u⟩, hmem, rfl⟩ := List.mem_map.mp hid'
  have hkept : (x, u) ∈ kept := by
    rcases List.mem_append.mp (h.entries.mem_iff.mp hmem) with hkept | hfresh
    · exact hkept
    · exact absurd hid (h.notMem _ hfresh)
  exact (r'.find?_eq_some.mpr hmem).trans (r.find?_eq_some.mpr (h.sublist.subset hkept)).symm

/-- As many ids are gone as pairs were lost. -/
theorem length_gone (h : Tally r r' removes direct kept fresh lost) :
    (r.ids.filter fun id => id ∉ r'.ids).length = lost := by
  have hkept : (r.ids.filter fun id => id ∈ r'.ids).Perm (kept.map Prod.fst) := by
    refine (List.perm_ext_iff_of_nodup (r.distinct.filter _)
      ((h.sublist.map Prod.fst).nodup r.distinct)).mpr fun id => ?_
    rw [List.mem_filter, decide_eq_true_iff]
    constructor
    · rintro ⟨hid, hid'⟩
      obtain ⟨e, hmem, rfl⟩ := List.mem_map.mp hid'
      rcases List.mem_append.mp (h.entries.mem_iff.mp hmem) with hkept | hfresh
      · exact List.mem_map_of_mem hkept
      · exact absurd hid (h.notMem e hfresh)
    · intro hid
      obtain ⟨e, hmem, rfl⟩ := List.mem_map.mp hid
      exact ⟨List.mem_map_of_mem (h.sublist.subset hmem),
        List.mem_map_of_mem (h.entries.mem_iff.mpr (List.mem_append_left _ hmem))⟩
  have hall := List.length_eq_length_filter_add (l := r.ids) fun id => decide (id ∈ r'.ids)
  have hlength : r.ids.length = r.entries.length := List.length_map _
  have hcount := h.length
  rw [hkept.length_eq, List.length_map] at hall
  simp only [decide_not]
  omega

end Tally

end LruMap

namespace CodeCache

variable {c : CodeCache υ} {r : LruMap υ} {before direct : Nat}

/-- The ids that another cache has no more. -/
def gone (c after : CodeCache υ) : List ProcedureId := c.ids.filter fun id => id ∉ after.ids

/-- The counts of a cache that had so many units when they were at zero, and in which so many direct
lookups have found nothing since. -/
structure Conserved (c : CodeCache υ) (before direct : Nat) : Prop where
  lookups : c.stats.lookups = c.stats.hits + c.stats.misses
  units : c.stats.insertions + before = c.size + c.stats.evictions + c.stats.invalidations
  misses : c.stats.misses = c.stats.insertions + c.stats.compileFailures + direct
  unlimited : c.capacity = 0 → c.stats.evictions = 0

/-- What a request does to a cache that it turns into `after`: units that stay are the same, and
each one that goes is counted once. -/
structure CountsLosses (c after : CodeCache υ) (removes : Bool) : Prop where
  kept : ∀ id ∈ c.ids, id ∈ after.ids → after.peek id = c.peek id
  evictions : after.stats.evictions =
    c.stats.evictions + if removes then 0 else (c.gone after).length
  invalidations : after.stats.invalidations =
    c.stats.invalidations + if removes then (c.gone after).length else 0

/-- How many units go, request by request. -/
def losses (c : CodeCache υ) : List (CacheRequest τ υ ε) → Nat
  | [] => 0
  | request :: rest =>
    (c.gone (c.respond request).2).length + (c.respond request).2.losses rest

theorem conserved_start (c : CodeCache υ) : c.resetStats.Conserved c.size 0 where
  lookups := rfl
  units := Nat.add_comm _ _
  misses := rfl
  unlimited _ := rfl

/-- The cache was empty once, and a session has asked it for all that happened since. -/
def Served (c : CodeCache υ) (capacity : Nat) : Prop :=
  ∃ requests : List (CacheRequest Unit υ Unit),
    (∀ request ∈ requests, request.ofSession = true) ∧
      c = (serve respond { capacity } requests).2

namespace Represents

variable {request : CacheRequest τ υ ε}

theorem countsLosses (h : c.Represents r) (hrequest : request.resets = false) :
    c.CountsLosses (c.respond request).2 request.removes := by
  obtain ⟨-, hafter⟩ := h.respond request
  obtain ⟨kept, fresh, lost, htally⟩ := r.respond_tally hrequest
  have hgone : (c.gone (c.respond request).2).length = lost := by
    rw [gone, h.ids_eq, hafter.ids_eq, htally.length_gone]
  refine ⟨fun id hid hid' => ?_, ?_, ?_⟩
  · rw [h.ids_eq] at hid
    rw [hafter.ids_eq] at hid'
    rw [hafter.peek_eq, h.peek_eq, htally.find?_eq hid hid']
  · rw [hgone, hafter.stats, h.stats, htally.evictions]
  · rw [hgone, hafter.stats, h.stats, htally.invalidations]

theorem conserved (h : c.Represents r) (hc : c.Conserved before direct)
    (hrequest : request.resets = false) :
    (c.respond request).2.Conserved before
      (direct + request.directMisses (c.respond request).1) := by
  obtain ⟨hanswer, hafter⟩ := h.respond request
  obtain ⟨kept, fresh, lost, htally⟩ := r.respond_tally hrequest
  obtain ⟨hlookups, hunits, hmisses, hunlimited⟩ := hc
  rw [h.stats] at hlookups hmisses
  rw [h.stats, h.lists.size] at hunits
  rw [h.stats, h.capacity] at hunlimited
  have hlength := htally.entries.length_eq
  rw [List.length_append] at hlength
  have htotal := htally.length
  refine ⟨?_, ?_, ?_, fun hcapacity => ?_⟩
  · have := htally.lookups
    rw [hafter.stats]
    omega
  · have := htally.insertions
    have := htally.evictions_add_invalidations
    rw [hafter.stats, hafter.lists.size]
    omega
  · have := htally.misses
    rw [hafter.stats, hanswer]
    omega
  · rw [hafter.capacity, htally.capacity] at hcapacity
    rw [hafter.stats, htally.evictions, hunlimited hcapacity, Nat.zero_add]
    split
    · rfl
    · next hremoves => exact htally.unlimited hcapacity (Bool.eq_false_iff.mpr hremoves)

variable {requests : List (CacheRequest τ υ ε)}

theorem conserved_serve (h : c.Represents r) (hc : c.Conserved before direct)
    (hrequests : ∀ request ∈ requests, request.resets = false) :
    (ProcedureBridge.serve CodeCache.respond c requests).2.Conserved before
      (direct + directMisses requests
        (ProcedureBridge.serve CodeCache.respond c requests).1) := by
  induction requests generalizing c r direct with
  | nil => exact hc
  | cons request rest ih =>
    obtain ⟨hfirst, hrest⟩ := List.forall_mem_cons.mp hrequests
    have hnext := ih (h.respond request).2 (h.conserved hc hfirst) hrest
    rw [Nat.add_assoc] at hnext
    exact hnext

theorem losses_serve (h : c.Represents r)
    (hrequests : ∀ request ∈ requests, request.resets = false) :
    let after := (ProcedureBridge.serve CodeCache.respond c requests).2
    after.stats.evictions + after.stats.invalidations =
      c.stats.evictions + c.stats.invalidations + c.losses requests := by
  induction requests generalizing c r with
  | nil => rfl
  | cons request rest ih =>
    obtain ⟨hfirst, hrest⟩ := List.forall_mem_cons.mp hrequests
    have hnext := ih (h.respond request).2 hrest
    have hcounts := h.countsLosses hfirst
    have hsum : (c.respond request).2.stats.evictions + (c.respond request).2.stats.invalidations =
        c.stats.evictions + c.stats.invalidations + (c.gone (c.respond request).2).length := by
      rw [hcounts.evictions, hcounts.invalidations, counted_once]
    rw [hsum] at hnext
    exact hnext.trans (Nat.add_assoc _ _ _)

end Represents

theorem serve_concat (c : CodeCache υ) (requests : List (CacheRequest τ υ ε))
    (request : CacheRequest τ υ ε) :
    (serve respond c (requests ++ [request])).2 =
      ((serve respond c requests).2.respond request).2 := by
  induction requests generalizing c with
  | nil => rfl
  | cons first rest ih => exact ih _

/-- The counts of a cache since they were last at zero. Before that it was asked for anything. -/
theorem conserved_since_reset (capacity : Nat) (earlier : List (CacheRequest τ υ ε))
    {since : List (CacheRequest τ υ ε)} (hsince : ∀ request ∈ since, request.resets = false) :
    let start := (serve respond ({ capacity } : CodeCache υ) earlier).2.resetStats
    let served := serve respond start since
    (∃ r, served.2.Represents r) ∧ served.2.capacity = capacity ∧
      served.2.Conserved start.size (directMisses since served.1) ∧
      served.2.stats.evictions + served.2.stats.invalidations = start.losses since := by
  intro start served
  obtain ⟨-, hearlier⟩ := (Represents.empty capacity).serve earlier
  have hstart : start.Represents _ := hearlier.count fun _ => {}
  have hserved : served.2.Represents _ := (hstart.serve since).2
  have hconserved : served.2.Conserved start.size (0 + directMisses since served.1) :=
    hstart.conserved_serve (conserved_start _) hsince
  have hlosses : served.2.stats.evictions + served.2.stats.invalidations =
      0 + 0 + start.losses since := hstart.losses_serve hsince
  rw [Nat.zero_add] at hconserved hlosses
  refine ⟨⟨_, hserved⟩, ?_, hconserved, hlosses⟩
  rw [hserved.capacity, LruMap.serve_capacity]
  exact LruMap.serve_capacity _ earlier

namespace Served

variable {capacity : Nat} {id : ProcedureId} {unit : υ}

theorem empty (capacity : Nat) : ({ capacity } : CodeCache υ).Served capacity :=
  ⟨[], List.forall_mem_nil _, rfl⟩

theorem respond (h : c.Served capacity) (request : CacheRequest Unit υ Unit)
    (hrequest : request.ofSession = true) : (c.respond request).2.Served capacity := by
  obtain ⟨requests, hrequests, rfl⟩ := h
  refine ⟨requests ++ [request], fun q hq => ?_, (serve_concat _ requests request).symm⟩
  rcases List.mem_append.mp hq with hq | hq
  · exact hrequests q hq
  · rwa [List.mem_singleton.mp hq]

theorem invalidate (h : c.Served capacity) (id : ProcedureId) :
    (c.invalidate id).2.Served capacity := h.respond (.invalidate id) rfl

theorem invalidateAll (h : c.Served capacity) : c.invalidateAll.2.Served capacity :=
  h.respond .invalidateAll rfl

theorem hit (h : c.Served capacity) (hit : c.peek id = some unit) :
    (c.get id).2.Served capacity := by
  have hserved := h.respond (.getOrCompile id (.ok ()) fun _ => .ok unit) rfl
  simp only [CodeCache.respond, getOrCompile_of_hit hit] at hserved
  exact hserved

/-- What is missing was made, or could not be made. -/
theorem settle (h : c.Served capacity) (miss : c.peek id = none) (made : Except Unit υ) :
    (CodeCache.settle { c with stats := c.stats.miss } id made).Served capacity := by
  have hserved := h.respond (.getOrCompile id (.ok ()) fun _ => made) rfl
  simp only [CodeCache.respond, getOrCompile_of_miss miss, get_of_miss miss] at hserved
  exact hserved

/-- A session has no direct lookups. -/
theorem conserved (h : c.Served capacity) : c.Conserved 0 0 := by
  obtain ⟨requests, hrequests, rfl⟩ := h
  obtain ⟨-, -, hconserved, -⟩ := conserved_since_reset capacity [] fun request hrequest =>
    request.resets_of_ofSession (hrequests request hrequest)
  rwa [directMisses_of_ofSession hrequests] at hconserved

end Served

end CodeCache

end ProcedureBridge
