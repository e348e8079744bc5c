import ProcedureBridge.Proofs.Scope.Stack
import ProcedureBridge.Host.Memory

/-! # Scopes and the subtransactions of a host in memory

As long as the host's open subtransactions are those of the scopes on the stack, the host refuses
neither a release nor a rollback, and every operation on scopes is described exactly. Handles count
the scopes: the depth of a handle is the place of its scope, and the ids grow from the outermost
scope to the innermost one. -/

namespace ProcedureBridge.ScopeStack

/-- The open subtransactions of the host are those of the scopes. -/
def Backed (s : ScopeStack) (h : MemoryHost) : Prop := h.openStack = s.scopes.map Scope.subxact

variable {s : ScopeStack} {h : MemoryHost} {top : Scope} {outer : List Scope}

theorem Backed.markFailed (hb : s.Backed h) : s.markFailed.Backed h := by
  rw [Backed, markFailed_map Scope.subxact (fun _ => rfl)]
  exact hb

/-- The host does not refuse to end the subtransaction of the innermost scope. -/
theorem rollbackSubxact_of_backed (hb : s.Backed h) (hc : s.scopes = top :: outer) :
    Host.rollbackSubxact top.subxact h = (.ok (),
      { h with openStack := outer.map Scope.subxact }.record (.rolledBack top.subxact)) := by
  have ho : h.openStack = top.subxact :: outer.map Scope.subxact := by rw [hb, hc]; rfl
  simp [Host.rollbackSubxact, MemoryHost.rollbackSubxact, MemoryHost.endInnermost, ho]

theorem releaseSubxact_of_backed (hb : s.Backed h) (hc : s.scopes = top :: outer) :
    Host.releaseSubxact top.subxact h = (.ok (),
      { h with openStack := outer.map Scope.subxact }.record (.released top.subxact)) := by
  have ho : h.openStack = top.subxact :: outer.map Scope.subxact := by rw [hb, hc]; rfl
  simp [Host.releaseSubxact, MemoryHost.releaseSubxact, MemoryHost.endInnermost, ho]

theorem rollback_of_backed (hb : s.Backed h) (hc : s.scopes = top :: outer) :
    { s with scopes := outer }.rollback top h = (.ok (), { s with scopes := outer },
      { h with openStack := outer.map Scope.subxact }.record (.rolledBack top.subxact)) := by
  rw [rollback, rollbackSubxact_of_backed hb hc]

theorem release_of_backed (hb : s.Backed h) (hc : s.scopes = top :: outer) :
    { s with scopes := outer }.release top h = (.ok (), { s with scopes := outer },
      { h with openStack := outer.map Scope.subxact }.record (.released top.subxact)) := by
  rw [release, releaseSubxact_of_backed hb hc]

theorem backed_rollbackKeeps : RollbackKeeps fun t : ScopeStack × MemoryHost => t.1.Backed t.2 := by
  intro s h top outer hc hb
  rw [rollback_of_backed hb hc]
  rfl

/-- A host in memory refuses to begin a subtransaction only when it was told to. -/
theorem beginSubxact_cases (h : MemoryHost) :
    (∃ report, Host.beginSubxact h = (.error report, { h with refusal := none })) ∨
      Host.beginSubxact h = (.ok ⟨h.nextSubxact⟩,
        { h with
          nextSubxact := h.nextSubxact + 1
          openStack := ⟨h.nextSubxact⟩ :: h.openStack }.record (.began ⟨h.nextSubxact⟩)) := by
  cases hr : h.refusal with
  | some report => exact .inl ⟨report, by simp [Host.beginSubxact, MemoryHost.beginSubxact, hr]⟩
  | none => exact .inr (by simp [Host.beginSubxact, MemoryHost.beginSubxact, hr])

theorem Backed.enter (hb : s.Backed h) : (s.enter h).2.1.Backed (s.enter h).2.2 := by
  refine enter_keeps (P := fun t : ScopeStack × MemoryHost => t.1.Backed t.2) hb ?_ ?_
  · intro h' report hr
    obtain ⟨report', hr'⟩ | hr' := beginSubxact_cases h
    · rw [hr'] at hr
      cases hr
      exact hb.markFailed
    · rw [hr'] at hr
      cases hr
  · intro h' id _ hr
    obtain ⟨report', hr'⟩ | hr' := beginSubxact_cases h
    · rw [hr'] at hr
      cases hr
    · rw [hr'] at hr
      cases hr
      change _ :: h.openStack = _ :: s.scopes.map Scope.subxact
      rw [hb]

theorem enter_hooks (s : ScopeStack) (h : MemoryHost) : (s.enter h).2.2.hooks = h.hooks := by
  refine enter_keeps (P := fun t : ScopeStack × MemoryHost => t.2.hooks = h.hooks) rfl ?_ ?_
  all_goals
    intros
    rename_i hr
    obtain ⟨report', hr'⟩ | hr' := beginSubxact_cases h
    all_goals
      rw [hr'] at hr
      cases hr
      try rfl

/-- Unwinding rolls the innermost scopes back, one after the other, and does nothing else. -/
theorem unwindBy_of_backed (hb : s.Backed h) (count : Nat) :
    s.unwindBy h count = ({ s with scopes := s.scopes.drop count },
      { h with
        openStack := (s.scopes.drop count).map Scope.subxact
        events := h.events ++
          ((s.scopes.take count).map fun x => HostEvent.rolledBack x.subxact).toArray }) := by
  induction count generalizing s h with
  | zero =>
    have ho : h.openStack = s.scopes.map Scope.subxact := hb
    simp [unwindBy, ← ho]
  | succ count ih =>
    cases hc : s.scopes with
    | nil =>
      have ho : h.openStack = [] := by rw [hb, hc]; rfl
      cases s
      cases h
      simp_all [unwindBy]
    | cons top outer =>
      have hb' := backed_rollbackKeeps hc hb
      rw [rollback_of_backed hb hc] at hb'
      rw [unwindBy, hc]
      simp only [rollback_of_backed hb hc]
      rw [ih hb']
      simp [MemoryHost.record, ← Array.append_singleton, Array.append_assoc]

/-! ## Handles -/

/-- From the innermost scope on: ids fall, beginning at `bound` at most, and depths tell how many
scopes are left. -/
def Nested : (bound : Nat) → List Scope → Prop
  | _, [] => True
  | bound, x :: outer =>
    0 < x.handle.id ∧ x.handle.id ≤ bound ∧ x.handle.depth = outer.length + 1 ∧
      Nested (x.handle.id - 1) outer

namespace Nested

theorem mono {m n : Nat} {l : List Scope} (hn : Nested m l) (hmn : m ≤ n) : Nested n l := by
  cases l with
  | nil => trivial
  | cons x outer => exact ⟨hn.1, Nat.le_trans hn.2.1 hmn, hn.2.2⟩

theorem tail {n : Nat} {x : Scope} {outer : List Scope} (hn : Nested n (x :: outer)) :
    Nested n outer :=
  hn.2.2.2.mono (by have := hn.2.1; omega)

/-- Only the handles matter. -/
theorem congr {n : Nat} {l l' : List Scope} (hn : Nested n l)
    (he : l'.map Scope.handle = l.map Scope.handle) : Nested n l' := by
  induction l generalizing n l' with
  | nil => simp_all
  | cons x outer ih =>
    cases l' with
    | nil => trivial
    | cons x' outer' =>
      simp only [List.map_cons, List.cons.injEq] at he
      have hl : outer'.length = outer.length := by simpa using congrArg List.length he.2
      obtain ⟨hpos, hle, hd, ho⟩ := hn
      exact ⟨he.1 ▸ hpos, he.1 ▸ hle, by rw [he.1, hl, hd], he.1 ▸ ih ho he.2⟩

theorem id_le {n : Nat} {l : List Scope} (hn : Nested n l) {x : Scope} (hx : x ∈ l) :
    x.handle.id ≤ n := by
  induction l generalizing n with
  | nil => cases hx
  | cons y outer ih =>
    cases hx with
    | head => exact hn.2.1
    | tail _ hx => exact ih hn.tail hx

theorem depth_append {n : Nat} {inner : List Scope} {x : Scope} {outer : List Scope}
    (hn : Nested n (inner ++ x :: outer)) : x.handle.depth = outer.length + 1 := by
  induction inner generalizing n with
  | nil => exact hn.2.2.1
  | cons y inner ih => exact ih hn.tail

theorem ids_pairwise {n : Nat} {l : List Scope} (hn : Nested n l) :
    (l.reverse.map fun x => x.handle.id).Pairwise (· < ·) := by
  induction l generalizing n with
  | nil => exact .nil
  | cons x outer ih =>
    rw [List.reverse_cons, List.map_append, List.pairwise_append]
    refine ⟨ih hn.2.2.2, List.pairwise_singleton _ _, ?_⟩
    intro a ha b hb
    obtain ⟨y, hy, rfl⟩ := List.mem_map.mp ha
    obtain rfl : b = x.handle.id := by simpa using hb
    have := hn.2.2.2.id_le (List.mem_reverse.mp hy)
    have := hn.1
    omega

theorem depths_eq {n : Nat} {l : List Scope} (hn : Nested n l) :
    (l.reverse.map fun x => x.handle.depth) = List.range' 1 l.length := by
  induction l generalizing n with
  | nil => rfl
  | cons x outer ih =>
    rw [List.reverse_cons, List.map_append, ih hn.tail, List.length_cons, List.range'_concat,
      List.map_singleton, hn.2.2.1]
    simp [Nat.add_comm]

end Nested

/-- Aborting through a scope rolls back the scopes inside it, innermost first, and then the scope
itself. -/
theorem abortThrough_of_backed (hb : s.Backed h) {n : Nat} (hn : Nested n s.scopes)
    {inner : List Scope} {x : Scope} (hc : s.scopes = inner ++ x :: outer) :
    s.abortThrough x.handle h = (.ok .aborted, { s with scopes := outer },
      { h with
        openStack := outer.map Scope.subxact
        events := h.events ++
          ((inner ++ [x]).map fun y => HostEvent.rolledBack y.subxact).toArray }) := by
  have hholds : s.holds x.handle = true := by simp [holds, hc]
  have hcount : s.depth - x.handle.depth = inner.length := by
    rw [hc] at hn
    rw [depth, hc, hn.depth_append]
    simp
  have hd : s.scopes.drop inner.length = x :: outer := by rw [hc, List.drop_left]
  have ht : s.scopes.take inner.length = inner := by rw [hc, List.take_left]
  have hb' : ScopeStack.Backed { s with scopes := x :: outer }
      { h with
        openStack := (x :: outer).map Scope.subxact
        events := h.events ++ (inner.map fun y => HostEvent.rolledBack y.subxact).toArray } := rfl
  rw [abortThrough, if_pos hholds, unwindTo, hcount]
  simp only [unwindBy_of_backed hb, hd, ht]
  rw [resolve_abort rfl, rollback_of_backed hb' rfl]
  simp [MemoryHost.record, ← Array.append_singleton, Array.append_assoc, Except.map]

end ProcedureBridge.ScopeStack
