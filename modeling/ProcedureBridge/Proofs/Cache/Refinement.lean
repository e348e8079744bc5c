import ProcedureBridge.Proofs.Cache.Lists

/-! # The code cache is a bounded map in the order of its uses

Whatever a cache is asked, it gives the answers of one list of pairs, in which no id is there twice
and the pair used longest ago comes first. Of every cache that is reached it follows what a hit and
what a miss do, whatever monad the compilation runs in. -/

namespace ProcedureBridge

/-- What can be asked of a cache. To make a unit a source is fetched and compiled, and both can
fail. -/
inductive CacheRequest (τ υ ε : Type)
  | get (id : ProcedureId)
  | peek (id : ProcedureId)
  | getOrCompile (id : ProcedureId) (source : Except ε τ) (compile : τ → Except ε υ)
  | invalidate (id : ProcedureId)
  | invalidateAll
  | isCurrent (id : ProcedureId) (current : υ → Bool)
  | stats
  | resetStats

inductive CacheAnswer (υ ε : Type)
  | found (unit : Option υ)
  | made (r : Except ε υ) (fetches : Nat)
  | dropped (flag : Bool)
  | droppedAll (count : Nat)
  | current (flag : Bool)
  | stats (s : CacheStats)
  | done

variable {τ υ ε : Type}

/-- The id whose unit was got hold of, if one was. -/
def CacheRequest.used? : CacheRequest τ υ ε → CacheAnswer υ ε → Option ProcedureId
  | .get id, .found (some _) => some id
  | .getOrCompile id .., .made (.ok _) _ => some id
  | _, _ => none

/-- Fetches a source and compiles it. The state counts the fetches. -/
def fetchAndCompile (source : Except ε τ) (compile : τ → Except ε υ) : StateM Nat (Except ε υ) :=
  fun fetches => (source.bind compile, fetches + 1)

def CodeCache.respond (c : CodeCache υ) : CacheRequest τ υ ε → CacheAnswer υ ε × CodeCache υ
  | .get id => let (unit, c) := c.get id; (.found unit, c)
  | .peek id => (.found (c.peek id), c)
  | .getOrCompile id source compile =>
    let ((r, c), fetches) := (c.getOrCompile id (fetchAndCompile source compile)).run 0
    (.made r fetches, c)
  | .invalidate id => let (flag, c) := c.invalidate id; (.dropped flag, c)
  | .invalidateAll => let (count, c) := c.invalidateAll; (.droppedAll count, c)
  | .isCurrent id current => (.current (c.isCurrent id current), c)
  | .stats => (.stats c.stats, c)
  | .resetStats => (.done, c.resetStats)

def LruMap.respond (r : LruMap υ) : CacheRequest τ υ ε → CacheAnswer υ ε × LruMap υ
  | .get id =>
    match r.find? id with
    | some unit => (.found (some unit), (r.put id unit).count .hit)
    | none => (.found none, r.count .miss)
  | .peek id => (.found (r.find? id), r)
  | .getOrCompile id source compile =>
    match r.find? id with
    | some unit => (.made (.ok unit) 0, (r.put id unit).count .hit)
    | none =>
      match source.bind compile with
      | .ok unit =>
        let evicted := r.entries.length - (r.room id).length
        (.made (.ok unit) 1, ((r.count .miss).put id unit).count (.insertion evicted))
      | .error e => (.made (.error e) 1, (r.count .miss).count .failure)
  | .invalidate id =>
    if (r.find? id).isSome then (.dropped true, (r.remove id).count (.invalidation 1))
    else (.dropped false, r)
  | .invalidateAll =>
    (.droppedAll r.entries.length, r.clear.count (.invalidation r.entries.length))
  | .isCurrent id current => (.current ((r.find? id).any current), r)
  | .stats => (.stats r.stats, r)
  | .resetStats => (.done, r.count fun _ => {})

/-- The answers to some requests, and the state after them. -/
def serve {α : Type} (respond : α → CacheRequest τ υ ε → CacheAnswer υ ε × α) (a : α) :
    List (CacheRequest τ υ ε) → List (CacheAnswer υ ε) × α
  | [] => ([], a)
  | request :: rest =>
    let (answer, a) := respond a request
    let (answers, a) := serve respond a rest
    (answer :: answers, a)

/-- The ids that were used, one for every use. -/
def uses : List (CacheRequest τ υ ε) → List (CacheAnswer υ ε) → List ProcedureId
  | request :: requests, answer :: answers =>
    (request.used? answer).toList ++ uses requests answers
  | _, _ => []

namespace LruMap

variable {r : LruMap υ} {used : List ProcedureId}

theorem respond_ids_sublist (h : r.ids.Sublist used.dedup) (request : CacheRequest τ υ ε) :
    (r.respond request).2.ids.Sublist
      (used ++ (request.used? (r.respond request).1).toList).dedup := by
  have hkept : r.ids.Sublist (used ++ (none : Option ProcedureId).toList).dedup := by simpa using h
  cases request with
  | get id =>
    cases hfind : r.find? id with
    | none => simp only [respond, hfind]; exact hkept
    | some unit => simp only [respond, hfind]; exact r.put_ids_sublist h id unit
  | getOrCompile id source compile =>
    cases hfind : r.find? id with
    | some unit => simp only [respond, hfind]; exact r.put_ids_sublist h id unit
    | none =>
      cases hmade : source.bind compile with
      | ok unit => simp only [respond, hfind, hmade]; exact r.put_ids_sublist h id unit
      | error e => simp only [respond, hfind, hmade]; exact hkept
  | invalidate id =>
    cases hfind : r.find? id with
    | none => simp only [respond, hfind]; exact hkept
    | some unit =>
      simp only [respond, hfind]
      exact ((r.others_sublist id).map Prod.fst).trans hkept
  | invalidateAll => exact List.nil_sublist _
  | peek | isCurrent | stats | resetStats => exact hkept

theorem serve_ids_sublist (h : r.ids.Sublist used.dedup) (requests : List (CacheRequest τ υ ε)) :
    (serve respond r requests).2.ids.Sublist
      (used ++ uses requests (serve respond r requests).1).dedup := by
  induction requests generalizing r used with
  | nil => simpa [serve, uses] using h
  | cons request rest ih =>
    have hrest := ih (respond_ids_sublist h request)
    rw [List.append_assoc] at hrest
    exact hrest

theorem respond_capacity (r : LruMap υ) (request : CacheRequest τ υ ε) :
    (r.respond request).2.capacity = r.capacity := by
  cases request with
  | getOrCompile id source compile =>
    simp only [respond]
    cases r.find? id with
    | some unit => rfl
    | none => cases source.bind compile <;> rfl
  | get id => simp only [respond]; cases r.find? id <;> rfl
  | invalidate id => simp only [respond]; split <;> rfl
  | peek | invalidateAll | isCurrent | stats | resetStats => rfl

theorem serve_capacity (r : LruMap υ) (requests : List (CacheRequest τ υ ε)) :
    (serve respond r requests).2.capacity = r.capacity := by
  induction requests generalizing r with
  | nil => rfl
  | cons request rest ih => exact (ih _).trans (r.respond_capacity request)

end LruMap

namespace CodeCache

variable {c : CodeCache υ} {r : LruMap υ} {id : ProcedureId} {unit : υ}

/-- The cache is the bounded map. -/
structure Represents (c : CodeCache υ) (r : LruMap υ) : Prop where
  lists : c.Lists r.entries
  capacity : c.capacity = r.capacity
  stats : c.stats = r.stats

namespace Represents

theorem empty (capacity : Nat) : ({ capacity } : CodeCache υ).Represents (.empty capacity) where
  lists := ⟨rfl, by simp [peek], by simp [CodeCache.size]⟩
  capacity := rfl
  stats := rfl

theorem peek_eq (h : c.Represents r) (id : ProcedureId) : c.peek id = r.find? id := by
  apply Option.ext
  intro unit
  rw [h.lists.units, r.find?_eq_some]

theorem ids_eq (h : c.Represents r) : c.ids = r.ids := h.lists.ids

theorem mem_ids (h : c.Represents r) : id ∈ r.ids ↔ (c.peek id).isSome :=
  (h.lists.isSome_peek id).symm

theorem notMem_ids (h : c.Represents r) : id ∉ r.ids ↔ c.peek id = none := by
  rw [h.mem_ids, Option.not_isSome_iff_eq_none]

theorem count (h : c.Represents r) (f : CacheStats → CacheStats) :
    ({ c with stats := f c.stats } : CodeCache υ).Represents (r.count f) where
  lists := ⟨h.lists.ids, h.lists.units, h.lists.size⟩
  capacity := h.capacity
  stats := congrArg f h.stats

theorem touch (h : c.Represents r) (hit : c.peek id = some unit) :
    (c.touch id).Represents (r.put id unit) := by
  have hmem : id ∈ r.ids := by
    rw [h.mem_ids, hit]
    rfl
  have hroom := r.room_of_mem hmem
  refine ⟨⟨?_, ?_, ?_⟩, h.capacity, h.stats⟩
  · have hids : c.recency = r.ids := h.ids_eq
    simp only [CodeCache.ids, CodeCache.touch, LruMap.put, hroom, List.map_append, r.others_ids,
      hids]
    rfl
  · intro x u
    change c.peek x = some u ↔ (x, u) ∈ r.room id ++ [(id, unit)]
    rw [hroom, List.mem_append, r.mem_others, ← h.lists.units, List.mem_singleton]
    by_cases hx : x = id
    · simp [hx, hit, eq_comm]
    · simp [hx]
  · change c.size = (r.room id ++ [(id, unit)]).length
    rw [h.lists.size, hroom, List.length_append, List.length_singleton, r.others_length hmem]

/-- A unit that was missing is stored last. -/
theorem insert_of_room (h : c.Represents r) (miss : c.peek id = none) (unit : υ)
    (hroom : r.capacity ≠ 0 → r.entries.length < r.capacity) :
    (c.insert id unit).2 = c.append id unit := by
  have hcap := h.capacity
  rw [insert_of_miss miss]
  dsimp only
  split
  · rfl
  · apply evictExcess_of_le
    change _ ≤ c.capacity
    rw [size_append miss, h.lists.size]
    omega

/-- Where there is no room for it, the one used longest ago goes. -/
theorem insert_of_full (h : c.Represents r) (miss : c.peek id = none) (unit : υ)
    (hc : r.capacity ≠ 0) (hfull : r.entries.length = r.capacity) :
    (c.insert id unit).2 = (c.append id unit).evictOne := by
  have hcap := h.capacity
  obtain ⟨e, rest, he⟩ : ∃ e rest, r.entries = e :: rest :=
    List.exists_cons_of_length_pos (by omega)
  have happend := h.lists.append miss unit
  rw [he, List.cons_append] at happend
  rw [insert_of_miss miss, if_neg (by omega)]
  apply evictExcess_of_one_over happend.ids
  · exact (happend.isSome_peek e.1).mpr (by simp)
  · change _ = c.capacity + 1
    rw [size_append miss, h.lists.size]
    omega

theorem insert (h : c.Represents r) (miss : c.peek id = none) (unit : υ) :
    (c.insert id unit).2.Represents
      ((r.put id unit).count (.insertion (r.entries.length - (r.room id).length))) := by
  have hnot : id ∉ r.ids := h.notMem_ids.mpr miss
  have happend := h.lists.append miss unit
  have hroom := r.room_of_notMem hnot
  by_cases hfull : r.capacity ≠ 0 ∧ r.entries.length = r.capacity
  · obtain ⟨e, rest, he⟩ : ∃ e rest, r.entries = e :: rest :=
      List.exists_cons_of_length_pos (by omega)
    have hd := LruMap.nodup_append r.distinct hnot unit
    rw [he, List.cons_append] at happend hd
    have hm := (happend.isSome_peek e.1).mpr (by simp)
    rw [if_pos hfull, he, List.tail_cons] at hroom
    rw [h.insert_of_full miss unit hfull.1 hfull.2]
    refine ⟨?_, ?_, ?_⟩
    · change Lists _ (r.room id ++ [(id, unit)])
      rw [hroom]
      exact happend.evictOne hd
    · rw [evictOne_of_cons happend.ids hm]
      exact h.capacity
    · rw [evictOne_of_cons happend.ids hm, hroom, he, List.length_cons, Nat.add_sub_cancel_left]
      simp only [CodeCache.append, h.stats]
      rfl
  · have hlt : r.capacity ≠ 0 → r.entries.length < r.capacity := by
      have hb := r.bounded
      omega
    rw [if_neg hfull] at hroom
    rw [h.insert_of_room miss unit hlt, hroom, Nat.sub_self]
    refine ⟨?_, h.capacity, congrArg (CacheStats.insertion 0) h.stats⟩
    change Lists _ (r.room id ++ [(id, unit)])
    rw [hroom]
    exact happend

theorem contains_iff (h : c.Represents r) : c.units.contains id = true ↔ id ∈ r.ids := by
  rw [h.mem_ids, peek, Std.HashMap.contains_eq_isSome_getElem?]

theorem remove (h : c.Represents r) (hm : id ∈ r.ids) :
    c.invalidate id = (true, (c.invalidate id).2) ∧
      (c.invalidate id).2.Represents ((r.remove id).count (.invalidation 1)) := by
  rw [invalidate, if_pos (h.contains_iff.mpr hm)]
  refine ⟨rfl, ⟨?_, ?_, ?_⟩, h.capacity, congrArg (CacheStats.invalidation 1) h.stats⟩
  · have hids : c.recency = r.entries.map Prod.fst := h.ids_eq
    change c.recency.filter (fun x => decide (x ≠ id)) = (r.others id).map Prod.fst
    rw [hids, List.filter_map]
    rfl
  · intro x u
    have hpeek : (c.units.erase id)[x]? = if id = x then none else c.peek x := by
      simp [peek, Std.HashMap.getElem?_erase]
    change (c.units.erase id)[x]? = some u ↔ (x, u) ∈ r.others id
    rw [hpeek, r.mem_others, ← h.lists.units]
    by_cases hx : id = x
    · simp [hx]
    · simp [hx, Ne.symm hx]
  · have hmem : id ∈ c.units := h.contains_iff.mpr hm
    have hsize : c.units.size = r.entries.length := h.lists.size
    have hlen := r.others_length hm
    change (c.units.erase id).size = (r.others id).length
    rw [Std.HashMap.size_erase, if_pos hmem]
    omega

theorem clear (h : c.Represents r) :
    c.invalidateAll.2.Represents (r.clear.count (.invalidation r.entries.length)) where
  lists := ⟨rfl, by simp [peek, invalidateAll, LruMap.clear, LruMap.count],
    by simp [CodeCache.size, invalidateAll, LruMap.clear, LruMap.count]⟩
  capacity := h.capacity
  stats := by
    rw [← h.lists.size]
    exact congrArg (CacheStats.invalidation c.size) h.stats

/-- Cache and map answer alike, and stay one. -/
theorem respond (h : c.Represents r) (request : CacheRequest τ υ ε) :
    (c.respond request).1 = (r.respond request).1 ∧
      (c.respond request).2.Represents (r.respond request).2 := by
  cases request with
  | get id =>
    simp only [CodeCache.respond, LruMap.respond]
    cases hit : c.peek id with
    | none =>
      rw [← h.peek_eq, hit, get_of_miss hit]
      exact ⟨rfl, h.count .miss⟩
    | some unit =>
      rw [← h.peek_eq, hit, get_of_hit hit]
      exact ⟨rfl, (h.count .hit).touch hit⟩
  | peek id => exact ⟨congrArg CacheAnswer.found (h.peek_eq id), h⟩
  | getOrCompile id source compile =>
    simp only [CodeCache.respond, LruMap.respond]
    cases hit : c.peek id with
    | none =>
      have hrun : (c.getOrCompile id (fetchAndCompile source compile)).run 0 =
          ((source.bind compile, (c.get id).2.settle id (source.bind compile)), 1) := by
        rw [getOrCompile_of_miss hit]
        rfl
      rw [hrun, get_of_miss hit, ← h.peek_eq, hit]
      have hmissed := h.count .miss
      cases source.bind compile with
      | ok unit => exact ⟨rfl, hmissed.insert hit unit⟩
      | error e => exact ⟨rfl, hmissed.count .failure⟩
    | some unit =>
      rw [← h.peek_eq, hit, getOrCompile_of_hit hit, get_of_hit hit]
      exact ⟨rfl, (h.count .hit).touch hit⟩
  | invalidate id =>
    simp only [CodeCache.respond, LruMap.respond]
    by_cases hm : id ∈ r.ids
    · have hs := h.mem_ids.mp hm
      rw [h.peek_eq] at hs
      rw [if_pos hs, (h.remove hm).1]
      exact ⟨rfl, (h.remove hm).2⟩
    · have hs := h.notMem_ids.mp hm
      rw [h.peek_eq] at hs
      rw [hs, invalidate, if_neg (fun hc => hm (h.contains_iff.mp hc))]
      exact ⟨rfl, h⟩
  | invalidateAll => exact ⟨congrArg CacheAnswer.droppedAll h.lists.size, h.clear⟩
  | isCurrent id current =>
    simp only [CodeCache.respond, LruMap.respond, CodeCache.isCurrent, h.peek_eq]
    exact ⟨trivial, h⟩
  | stats => exact ⟨congrArg CacheAnswer.stats h.stats, h⟩
  | resetStats => exact ⟨rfl, h.count fun _ => {}⟩

theorem serve (h : c.Represents r) (requests : List (CacheRequest τ υ ε)) :
    (ProcedureBridge.serve CodeCache.respond c requests).1 =
        (ProcedureBridge.serve LruMap.respond r requests).1 ∧
      (ProcedureBridge.serve CodeCache.respond c requests).2.Represents
        (ProcedureBridge.serve LruMap.respond r requests).2 := by
  induction requests generalizing c r with
  | nil => exact ⟨rfl, h⟩
  | cons request rest ih =>
    obtain ⟨hanswer, hnext⟩ := h.respond request
    obtain ⟨hanswers, hlast⟩ := ih hnext
    exact ⟨congrArg₂ List.cons hanswer hanswers, hlast⟩

end Represents

/-- What `getOrCompile` comes to once the compilation has come to `made`. -/
def obtained (c : CodeCache υ) (id : ProcedureId) (made : Except ε υ) :
    Except ε υ × CodeCache υ :=
  Id.run (c.getOrCompile id (pure made))

/-- What holds where a unit is cached: it is the answer, and there is no compilation. -/
structure Hits (c : CodeCache υ) (id : ProcedureId) (unit : υ) (ε : Type) : Prop where
  uncompiled : ∀ (m : Type → Type) [Monad m] (compile : m (Except ε υ)),
    c.getOrCompile id compile = pure (.ok unit, (c.get id).2)
  found : (c.get id).1 = some unit
  last : (c.get id).2.ids = c.ids.erase id ++ [id]
  kept : ∀ x, (c.get id).2.peek x = c.peek x

/-- What holds where no unit is cached: there is one compilation, and what it has made is cached. -/
structure Misses (c : CodeCache υ) (id : ProcedureId) (ε : Type) : Prop where
  once : ∀ (m : Type → Type) [Monad m] (compile : m (Except ε υ)),
    c.getOrCompile id compile = compile >>= fun made => pure (c.obtained id made)
  made : ∀ unit : υ, (c.obtained id (.ok unit : Except ε υ)).1 = .ok unit
  last : ∀ unit : υ, (c.obtained id (.ok unit : Except ε υ)).2.ids =
    (if c.capacity ≠ 0 ∧ c.size = c.capacity then c.ids.tail else c.ids) ++ [id]
  kept : ∀ (unit : υ) (x : ProcedureId),
    let after := (c.obtained id (.ok unit : Except ε υ)).2
    after.peek x = if x = id then some unit else if x ∈ after.ids then c.peek x else none
  failed : ∀ e : ε, (c.obtained id (.error e)).1 = .error e ∧
    (c.obtained id (.error e)).2.units = c.units ∧ (c.obtained id (.error e)).2.ids = c.ids

theorem obtained_of_miss (h : c.peek id = none) (made : Except ε υ) :
    c.obtained id made = (made, (c.get id).2.settle id made) := by
  rw [obtained, getOrCompile_of_miss h]
  rfl

theorem hits (h : c.peek id = some unit) : c.Hits id unit ε where
  uncompiled _ _ compile := getOrCompile_of_hit h compile
  found := by rw [get_of_hit h]
  last := by rw [get_of_hit h]; rfl
  kept x := by rw [get_of_hit h]; rfl

namespace Represents

theorem obtained (h : c.Represents r) (miss : c.peek id = none) (unit : υ) :
    (c.obtained id (.ok unit : Except ε υ)).2.Lists (r.room id ++ [(id, unit)]) := by
  rw [obtained_of_miss miss, get_of_miss miss]
  exact ((h.count .miss).insert miss unit).lists

/-- What is cached after a miss was cached before, the new unit apart. -/
theorem peek_obtained (h : c.Represents r) (miss : c.peek id = none) (unit : υ) (x : ProcedureId) :
    let after := (c.obtained id (.ok unit : Except ε υ)).2
    after.peek x = if x = id then some unit else if x ∈ after.ids then c.peek x else none := by
  intro after
  have hafter : after.Lists (r.room id ++ [(id, unit)]) := h.obtained miss unit
  cases hx : after.peek x with
  | none =>
    have hnot : x ∉ after.ids := by
      rw [hafter.ids, ← hafter.isSome_peek, hx]
      simp
    have hne : x ≠ id := by
      intro he
      apply hnot
      rw [hafter.ids, he]
      simp
    rw [if_neg hne, if_neg hnot]
  | some u =>
    have hmem := (hafter.units x u).mp hx
    by_cases he : x = id
    · have hlast := (hafter.units id unit).mpr (by simp)
      rw [if_pos he, ← hx, he, hlast]
    · have hin : x ∈ after.ids := by
        rw [hafter.ids, ← hafter.isSome_peek, hx]
        rfl
      have hroom : (x, u) ∈ r.room id := by simpa [he] using hmem
      have hold := ((r.room_sublist id).trans (r.others_sublist id)).subset hroom
      rw [if_neg he, if_pos hin, (h.lists.units x u).mpr hold]

theorem misses (h : c.Represents r) (miss : c.peek id = none) : c.Misses id ε where
  once m _ compile := by
    rw [getOrCompile_of_miss miss]
    simp only [obtained_of_miss miss]
  made unit := by rw [obtained_of_miss miss]
  last unit := by
    have hnot : id ∉ r.ids := h.notMem_ids.mpr miss
    rw [(h.obtained miss unit).ids, r.room_of_notMem hnot, h.capacity, h.lists.size, h.ids_eq,
      List.map_append]
    split
    · rw [List.map_tail]
      rfl
    · rfl
  kept unit x := h.peek_obtained miss unit x
  failed e := by
    rw [obtained_of_miss miss, get_of_miss miss]
    exact ⟨rfl, rfl, rfl⟩

end Represents

end CodeCache

/-- The code cache is a bounded map in the order of its uses, whatever is asked of it. -/
theorem cache_refines_lru (capacity : Nat) (requests : List (CacheRequest τ υ ε)) :
    let served := serve CodeCache.respond ({ capacity } : CodeCache υ) requests
    let reference := serve LruMap.respond (.empty capacity) requests
    let c := served.2
    served.1 = reference.1 ∧ c.Represents reference.2 ∧
      c.ids.Nodup ∧ (∀ id, id ∈ c.ids ↔ (c.peek id).isSome) ∧
      c.ids.Sublist (uses requests served.1).dedup ∧
      (capacity ≠ 0 → c.size ≤ capacity) ∧
      (∀ id unit, c.peek id = some unit → c.Hits id unit ε) ∧
      ∀ id, c.peek id = none → c.Misses id ε := by
  intro served reference c
  have hstart : ({ capacity } : CodeCache υ).Represents (.empty capacity) := .empty capacity
  have hempty : (LruMap.empty capacity : LruMap υ).ids.Sublist ([] : List ProcedureId).dedup :=
    List.nil_sublist _
  obtain ⟨hanswers, h⟩ := hstart.serve requests
  have hcapacity : reference.2.capacity = capacity := LruMap.serve_capacity _ requests
  have horder := LruMap.serve_ids_sublist hempty requests
  have hids : c.ids = reference.2.ids := h.ids_eq
  refine ⟨hanswers, h, ?_, ?_, ?_, ?_, ?_, ?_⟩
  · rw [hids]
    exact reference.2.distinct
  · intro id
    rw [hids, h.mem_ids]
  · rw [hids, show served.1 = reference.1 from hanswers]
    exact horder
  · rw [← hcapacity, show c.size = reference.2.entries.length from h.lists.size]
    exact reference.2.bounded
  · intro id unit hit
    exact CodeCache.hits hit
  · intro id miss
    exact h.misses miss

end ProcedureBridge
