import ProcedureBridge.Proofs.Cache.Lists

/-! # What the code cache holds

An operation on the cache drops units, or drops none and adds the one unit that was missing. -/

namespace ProcedureBridge.CodeCache

variable {υ : Type} {c c' c'' : CodeCache υ} {id : ProcedureId} {unit : υ}

theorem peek_empty (capacity : Nat) (id : ProcedureId) :
    ({ capacity } : CodeCache υ).peek id = none := by simp [peek]

/-- The cache holds nothing but what the other one holds. -/
def Within (c' c : CodeCache υ) : Prop := ∀ x u, c'.peek x = some u → c.peek x = some u

theorem Within.refl (c : CodeCache υ) : c.Within c := fun _ _ h => h

theorem Within.trans (h' : c''.Within c') (h : c'.Within c) : c''.Within c :=
  fun x u hu => h x u (h' x u hu)

theorem within_of_peek (h : ∀ x, c'.peek x = c.peek x) : c'.Within c :=
  fun x _ hu => h x ▸ hu

theorem within_of_erase (id : ProcedureId)
    (h : ∀ x, c'.peek x = if id = x then none else c.peek x) : c'.Within c := by
  intro x u hu
  rw [h] at hu
  split at hu
  · cases hu
  · exact hu

theorem evictOne_within (c : CodeCache υ) : c.evictOne.Within c := by
  simp only [evictOne]
  split
  · exact .refl c
  · rename_i first _ _
    refine within_of_erase first fun x => ?_
    simp [peek, Std.HashMap.getElem?_erase]

theorem evictExcess_within (c : CodeCache υ) (fuel : Nat) : (c.evictExcess fuel).Within c := by
  induction fuel generalizing c with
  | zero => exact .refl c
  | succ fuel ih =>
    rw [evictExcess]
    split
    · exact (ih c.evictOne).trans c.evictOne_within
    · exact .refl c

theorem peek_get (c : CodeCache υ) (id x : ProcedureId) : (c.get id).2.peek x = c.peek x := by
  cases h : c.peek id with
  | some unit =>
    rw [get_of_hit h]
    rfl
  | none =>
    rw [get_of_miss h]
    rfl

theorem insert_within (miss : c.peek id = none) (unit : υ) :
    (c.insert id unit).2.Within (c.append id unit) := by
  rw [insert_of_miss miss]
  dsimp only
  split
  · exact .refl _
  · exact evictExcess_within _ _

/-- A unit that was missing is added, and others may be dropped for it. -/
theorem peek_insert {x : ProcedureId} {u : υ} (miss : c.peek id = none)
    (h : (c.insert id unit).2.peek x = some u) : (x = id ∧ u = unit) ∨ c.peek x = some u := by
  have happend := insert_within miss unit x u h
  rw [peek_append] at happend
  split at happend
  · rename_i hx
    cases happend
    exact .inl ⟨hx.symm, rfl⟩
  · exact .inr happend

/-- What is added stays if there is room for it. -/
theorem peek_insert_self (miss : c.peek id = none) (hroom : c.size < c.capacity) (unit : υ) :
    (c.insert id unit).2.peek id = some unit := by
  have hle : (c.append id unit).size ≤ (c.append id unit).capacity := by
    rw [size_append miss]
    exact hroom
  have hcap : c.capacity ≠ 0 := by omega
  rw [insert_of_miss miss, if_neg hcap, evictExcess_of_le hle, peek_append, if_pos rfl]

theorem peek_invalidate (c : CodeCache υ) (id x : ProcedureId) :
    (c.invalidate id).2.peek x = if id = x then none else c.peek x := by
  simp only [invalidate]
  split
  · simp [peek, Std.HashMap.getElem?_erase]
  · rename_i hnot
    split
    · rename_i hx
      subst hx
      simpa [peek] using hnot
    · rfl

theorem invalidate_within (c : CodeCache υ) (id : ProcedureId) : (c.invalidate id).2.Within c :=
  within_of_erase id (c.peek_invalidate id)

theorem peek_invalidateAll (c : CodeCache υ) (x : ProcedureId) :
    c.invalidateAll.2.peek x = none := by
  simp [invalidateAll, peek]

theorem invalidateAll_within (c : CodeCache υ) : c.invalidateAll.2.Within c := by
  intro x u hu
  rw [peek_invalidateAll] at hu
  cases hu

end ProcedureBridge.CodeCache
