import ProcedureBridge.Cache.Lru
import Mathlib.Data.List.Dedup

/-! # Bounded maps in the order of their uses

What a cache is meant to be: a list of pairs that differ in their ids, bounded in length, the pair
used longest ago first. All of it is in one list, so that there are no two structures that could
disagree. -/

namespace ProcedureBridge

structure LruMap (υ : Type) where
  /-- How many pairs are kept; 0 sets no limit. -/
  capacity : Nat
  entries : List (ProcedureId × υ)
  stats : CacheStats
  distinct : (entries.map Prod.fst).Nodup
  bounded : capacity ≠ 0 → entries.length ≤ capacity

namespace LruMap

variable {υ : Type} (r : LruMap υ) {id : ProcedureId} {unit : υ}

def empty (capacity : Nat) : LruMap υ where
  capacity := capacity
  entries := []
  stats := {}
  distinct := List.nodup_nil
  bounded _ := Nat.zero_le _

@[simp] theorem empty_entries (capacity : Nat) : (empty capacity : LruMap υ).entries = [] := rfl

def ids : List ProcedureId := r.entries.map Prod.fst

def find? (id : ProcedureId) : Option υ :=
  (r.entries.find? fun e => decide (e.1 = id)).map Prod.snd

def others (id : ProcedureId) : List (ProcedureId × υ) := r.entries.filter fun e => decide (e.1 ≠ id)

/-- The pairs that stay beside one for `id`: the first of them goes if there is no room for it. -/
def room (id : ProcedureId) : List (ProcedureId × υ) :=
  if r.capacity ≠ 0 ∧ r.capacity ≤ (r.others id).length then (r.others id).tail else r.others id

theorem others_sublist (id : ProcedureId) : (r.others id).Sublist r.entries := List.filter_sublist

theorem room_sublist (id : ProcedureId) : (r.room id).Sublist (r.others id) := by
  rw [room]
  split
  · exact List.tail_sublist _
  · exact List.Sublist.refl _

theorem mem_others {e : ProcedureId × υ} : e ∈ r.others id ↔ e ∈ r.entries ∧ e.1 ≠ id := by
  simp [others]

theorem notMem_room (id : ProcedureId) : id ∉ (r.room id).map Prod.fst := by
  intro h
  obtain ⟨e, he, hid⟩ := List.mem_map.mp h
  exact ((r.mem_others).mp ((r.room_sublist id).subset he)).2 hid

theorem room_length (id : ProcedureId) (hc : r.capacity ≠ 0) : (r.room id).length < r.capacity := by
  have hle := (r.others_sublist id).length_le
  have hb := r.bounded hc
  rw [room]
  split
  · rw [List.length_tail]
    omega
  · omega

/-- One more use is the last use. -/
theorem dedup_concat (used : List ProcedureId) (id : ProcedureId) :
    (used ++ [id]).dedup = used.dedup.filter (fun x => decide (x ≠ id)) ++ [id] := by
  induction used with
  | nil => rfl
  | cons x used ih =>
    rw [List.cons_append]
    by_cases hx : x ∈ used
    · rw [List.dedup_cons_of_mem hx, List.dedup_cons_of_mem (List.mem_append_left _ hx), ih]
    · by_cases hid : x = id
      · rw [List.dedup_cons_of_notMem hx, List.dedup_cons_of_mem (by simp [hid]), ih]
        simp [hid]
      · rw [List.dedup_cons_of_notMem hx, List.dedup_cons_of_notMem (by simp [hx, hid]), ih]
        simp [hid]

theorem nodup_append {entries : List (ProcedureId × υ)} (hd : (entries.map Prod.fst).Nodup)
    (hid : id ∉ entries.map Prod.fst) (unit : υ) :
    ((entries ++ [(id, unit)]).map Prod.fst).Nodup := by
  have hnew := hd.concat hid
  rw [List.concat_eq_append] at hnew
  rw [List.map_append]
  exact hnew

/-- The pair of `id` is the one used last. -/
def put (id : ProcedureId) (unit : υ) : LruMap υ where
  capacity := r.capacity
  entries := r.room id ++ [(id, unit)]
  stats := r.stats
  distinct := by
    have hs : ((r.room id).map Prod.fst).Sublist r.ids :=
      ((r.room_sublist id).trans (r.others_sublist id)).map Prod.fst
    exact nodup_append (hs.nodup r.distinct) (r.notMem_room id) unit
  bounded hc := by
    have hlt := r.room_length id hc
    simp only [List.length_append, List.length_singleton]
    omega

/-- The order of the ids is that of their last uses. -/
theorem put_ids_sublist {used : List ProcedureId} (h : r.ids.Sublist used.dedup) (id : ProcedureId)
    (unit : υ) : (r.put id unit).ids.Sublist (used ++ [id]).dedup := by
  have hroom : ((r.room id).map Prod.fst).Sublist r.ids :=
    ((r.room_sublist id).trans (r.others_sublist id)).map Prod.fst
  have hkept : ((r.room id).map Prod.fst).filter (fun x => decide (x ≠ id)) =
      (r.room id).map Prod.fst := by
    apply List.filter_eq_self.mpr
    intro x hx
    exact decide_eq_true fun hid => r.notMem_room id (hid ▸ hx)
  have hids : (r.put id unit).ids = (r.room id).map Prod.fst ++ [id] := by
    rw [ids, put, List.map_append]
    rfl
  rw [hids, dedup_concat, ← hkept]
  exact ((hroom.trans h).filter _).append (List.Sublist.refl _)

def remove (id : ProcedureId) : LruMap υ where
  capacity := r.capacity
  entries := r.others id
  stats := r.stats
  distinct := ((r.others_sublist id).map Prod.fst).nodup r.distinct
  bounded hc := Nat.le_trans (r.others_sublist id).length_le (r.bounded hc)

def clear : LruMap υ := { empty r.capacity with stats := r.stats }

def count (f : CacheStats → CacheStats) : LruMap υ := { r with stats := f r.stats }

theorem find?_eq_some : r.find? id = some unit ↔ (id, unit) ∈ r.entries := by
  have hd := r.distinct
  rw [find?]
  generalize r.entries = entries at hd
  induction entries with
  | nil => simp
  | cons e rest ih =>
    obtain ⟨x, u⟩ := e
    rw [List.map_cons, List.nodup_cons] at hd
    by_cases hx : x = id
    · subst hx
      have hnot : (x, unit) ∉ rest := fun h => hd.1 (List.mem_map.mpr ⟨_, h, rfl⟩)
      simp [hnot, eq_comm]
    · have hne : (id, unit) ≠ (x, u) := fun h => hx (Prod.mk.inj h).1.symm
      simp only [List.find?_cons, hx, decide_false, List.mem_cons, hne, false_or]
      exact ih hd.2

theorem find?_eq_none : r.find? id = none ↔ id ∉ r.ids := by
  simp only [find?, ids, Option.map_eq_none_iff, List.find?_eq_none, decide_eq_true_eq,
    List.mem_map, not_exists, not_and]

theorem others_ids (id : ProcedureId) : (r.others id).map Prod.fst = r.ids.erase id := by
  rw [ids, List.Nodup.erase_eq_filter r.distinct, List.filter_map, others]
  congr 1
  apply List.filter_congr
  intro e _
  simp [Bool.beq_eq_decide_eq, bne]

theorem others_of_notMem (h : id ∉ r.ids) : r.others id = r.entries := by
  apply List.filter_eq_self.mpr
  intro e he
  exact decide_eq_true fun hid => h (List.mem_map.mpr ⟨e, he, hid⟩)

theorem others_length (h : id ∈ r.ids) : (r.others id).length + 1 = r.entries.length := by
  have herase := List.length_erase_add_one h
  rw [← others_ids, ids] at herase
  simpa using herase

/-- Where the id has a pair already, there is room for it. -/
theorem room_of_mem (h : id ∈ r.ids) : r.room id = r.others id := by
  have hlen := r.others_length h
  have hb := r.bounded
  rw [room, if_neg]
  omega

theorem room_of_notMem (h : id ∉ r.ids) :
    r.room id = if r.capacity ≠ 0 ∧ r.entries.length = r.capacity then r.entries.tail
      else r.entries := by
  have hb := r.bounded
  rw [room, others_of_notMem r h]
  congr 1
  apply propext
  omega

end LruMap

end ProcedureBridge
