import ProcedureBridge.Scope.Stack
import Mathlib.Tactic.Common

/-! # What operations on scopes keep

Beside opening scopes and marking them, all that operations do is to take the innermost scope off
the stack and to have its subtransaction rolled back or released. What these two keep, a resolution
and an unwinding keep as well. -/

namespace ProcedureBridge.ScopeStack

variable {σ : Type}

@[simp] theorem markFailed_issued (s : ScopeStack) : s.markFailed.issued = s.issued := by
  simp only [markFailed]
  split <;> rfl

@[simp] theorem markFailed_maxDepth (s : ScopeStack) : s.markFailed.maxDepth = s.maxDepth := by
  simp only [markFailed]
  split <;> rfl

@[simp] theorem markFailed_depth (s : ScopeStack) : s.markFailed.depth = s.depth := by
  simp only [markFailed, depth]
  split
  · rename_i h
    simp [h]
  · rfl

theorem markFailed_of_cons {s : ScopeStack} {top : Scope} {outer : List Scope}
    (h : s.scopes = top :: outer) :
    s.markFailed = { s with scopes := { top with failed := true } :: outer } := by
  rw [markFailed, h]

theorem markFailed_of_nil {s : ScopeStack} (h : s.scopes = []) :
    s.markFailed = { s with rootFailed := true } := by
  rw [markFailed, h]

/-- What a scope is marked with is all that a mark changes. -/
theorem markFailed_map {β : Type} (f : Scope → β) (hf : ∀ x : Scope, f { x with failed := true } = f x)
    (s : ScopeStack) : s.markFailed.scopes.map f = s.scopes.map f := by
  cases h : s.scopes with
  | nil => rw [markFailed_of_nil h, h]
  | cons top outer => rw [markFailed_of_cons h]; simp [hf]

theorem markFailed_rootFailed {s : ScopeStack} (hs : s.rootFailed = true) :
    s.markFailed.rootFailed = true := by
  simp only [markFailed]
  split
  · exact hs
  · rfl

theorem mem_markFailed {s : ScopeStack} {x : Scope} (hx : x ∈ s.markFailed.scopes) :
    x ∈ s.scopes ∨ x.failed = true := by
  cases h : s.scopes with
  | nil =>
    rw [markFailed_of_nil h] at hx
    exact .inl (h ▸ hx)
  | cons top outer =>
    rw [markFailed_of_cons h] at hx
    cases hx with
    | head => exact .inr rfl
    | tail _ hx => exact .inl (List.mem_cons_of_mem _ hx)

variable [Host σ]

/-- To take the innermost scope off and roll it back keeps `P`. -/
def RollbackKeeps (P : ScopeStack × σ → Prop) : Prop :=
  ∀ {s : ScopeStack} {h : σ} {top : Scope} {outer : List Scope}, s.scopes = top :: outer →
    P (s, h) → P ({ s with scopes := outer }.rollback top h).2

/-- To take an innermost scope off that has not failed, and release it, keeps `P`. -/
def ReleaseKeeps (P : ScopeStack × σ → Prop) : Prop :=
  ∀ {s : ScopeStack} {h : σ} {top : Scope} {outer : List Scope}, s.scopes = top :: outer →
    top.failed = false → P (s, h) → P ({ s with scopes := outer }.release top h).2

variable {P : ScopeStack × σ → Prop} {s : ScopeStack} {h : σ}

/-- A rollback that the host refuses leaves a mark. -/
theorem rollback_keeps (hmark : ∀ {s h}, P (s, h) → P (s.markFailed, h)) {scope : Scope}
    (hs : P (s, (Host.rollbackSubxact scope.subxact h).2)) : P (s.rollback scope h).2 := by
  simp only [rollback]
  match hr : Host.rollbackSubxact scope.subxact h with
  | (.error report, h') =>
    rw [hr] at hs
    exact hmark hs
  | (.ok _, h') =>
    rw [hr] at hs
    exact hs

theorem release_keeps (hmark : ∀ {s h}, P (s, h) → P (s.markFailed, h)) {scope : Scope}
    (hs : P (s, (Host.releaseSubxact scope.subxact h).2)) : P (s.release scope h).2 := by
  simp only [release]
  match hr : Host.releaseSubxact scope.subxact h with
  | (.error report, h') =>
    rw [hr] at hs
    exact hmark hs
  | (.ok _, h') =>
    rw [hr] at hs
    exact hs

theorem unwindBy_keeps (hP : RollbackKeeps P) (count : Nat) (hs : P (s, h)) :
    P (s.unwindBy h count) := by
  induction count generalizing s h with
  | zero => exact hs
  | succ count ih =>
    cases hc : s.scopes with
    | nil =>
      rw [unwindBy, hc]
      exact hs
    | cons top outer =>
      rw [unwindBy, hc]
      exact ih (hP hc hs)

theorem rollback_depth (s : ScopeStack) (scope : Scope) (h : σ) :
    (s.rollback scope h).2.1.depth = s.depth :=
  rollback_keeps (P := fun t => t.1.depth = s.depth) (by simp) rfl

/-- Whatever the host says to it. -/
theorem unwindBy_depth (s : ScopeStack) (h : σ) (count : Nat) :
    (s.unwindBy h count).1.depth = s.depth - count := by
  induction count generalizing s h with
  | zero => rfl
  | succ count ih =>
    cases hc : s.scopes with
    | nil =>
      rw [unwindBy, hc]
      simp [depth, hc]
    | cons top outer =>
      rw [unwindBy, hc]
      dsimp only
      rw [ih, rollback_depth]
      simp only [depth, hc, List.length_cons]
      omega

theorem unwindTo_depth (s : ScopeStack) (depth : Nat) (h : σ) :
    (s.unwindTo depth h).2.1.depth = min depth s.depth := by
  rw [unwindTo, unwindBy_depth]
  omega

theorem unwindTo_zero (s : ScopeStack) (h : σ) : (s.unwindTo 0 h).2.1.scopes = [] := by
  have hd := s.unwindTo_depth 0 h
  rw [Nat.zero_min] at hd
  exact List.length_eq_zero_iff.mp hd

/-- Nothing is left to do if no scope is open. -/
theorem unwindTo_of_nil {s : ScopeStack} (hs : s.scopes = []) (depth : Nat) (h : σ) :
    s.unwindTo depth h = (0, s, h) := by
  simp [unwindTo, ScopeStack.depth, hs, unwindBy]

theorem unwindTo_keeps (hP : RollbackKeeps P) (depth : Nat) (hs : P (s, h)) :
    P (s.unwindTo depth h).2 :=
  unwindBy_keeps hP _ hs

/-- A handle that is not the innermost one resolves nothing. -/
theorem resolve_of_ne {handle : ScopeHandle} (hne : s.current? ≠ some handle)
    (resolution : Resolution) :
    s.resolve handle resolution h = (.error (s.orderFailure handle), s, h) := by
  cases hc : s.scopes with
  | nil => simp [resolve, hc]
  | cons top outer =>
    have htop : top.handle ≠ handle := by
      intro he
      exact hne (by simp [current?, hc, he])
    simp [resolve, hc, htop]

theorem resolve_abort {top : Scope} {outer : List Scope} (hc : s.scopes = top :: outer) :
    s.resolve top.handle .abort h =
      let r := { s with scopes := outer }.rollback top h
      (r.1.map fun _ => .aborted, r.2) := by
  simp [resolve, hc]

theorem resolve_commit_of_failed {top : Scope} {outer : List Scope} (hc : s.scopes = top :: outer)
    (hf : top.failed = true) :
    s.resolve top.handle .commit h =
      let r := { s with scopes := outer }.rollback top h
      (r.1.bind fun _ => .error (.exception .inFailedTransaction), r.2) := by
  simp [resolve, hc, hf]

theorem resolve_commit {top : Scope} {outer : List Scope} (hc : s.scopes = top :: outer)
    (hf : top.failed = false) :
    s.resolve top.handle .commit h =
      let r := { s with scopes := outer }.release top h
      (r.1.map fun _ => .committed, r.2) := by
  simp [resolve, hc, hf]

/-- Either a handle is the innermost one, or resolving it does nothing. -/
theorem current?_cases (s : ScopeStack) (handle : ScopeHandle) :
    (∃ top outer, s.scopes = top :: outer ∧ top.handle = handle) ∨ s.current? ≠ some handle := by
  by_cases hcur : s.current? = some handle
  · left
    obtain ⟨top, htop, rfl⟩ := Option.map_eq_some_iff.mp hcur
    obtain ⟨outer, ho⟩ := List.head?_eq_some_iff.mp htop
    exact ⟨top, outer, ho, rfl⟩
  · exact .inr hcur

theorem abort_keeps (hP : RollbackKeeps P) (handle : ScopeHandle) (hs : P (s, h)) :
    P (s.resolve handle .abort h).2 := by
  obtain ⟨top, outer, hc, rfl⟩ | hne := s.current?_cases handle
  · rw [resolve_abort hc]
    exact hP hc hs
  · rw [resolve_of_ne hne]
    exact hs

theorem resolve_keeps (hP : RollbackKeeps P) (hR : ReleaseKeeps P) (handle : ScopeHandle)
    (resolution : Resolution) (hs : P (s, h)) : P (s.resolve handle resolution h).2 := by
  cases resolution with
  | abort => exact abort_keeps hP handle hs
  | commit =>
    obtain ⟨top, outer, hc, rfl⟩ | hne := s.current?_cases handle
    · cases hf : top.failed with
      | true =>
        rw [resolve_commit_of_failed hc hf]
        exact hP hc hs
      | false =>
        rw [resolve_commit hc hf]
        exact hR hc hf hs
    · rw [resolve_of_ne hne]
      exact hs

theorem abortThrough_keeps (hP : RollbackKeeps P) (handle : ScopeHandle) (hs : P (s, h)) :
    P (s.abortThrough handle h).2 := by
  simp only [abortThrough]
  split
  · exact abort_keeps hP handle (unwindTo_keeps hP handle.depth hs)
  · exact hs

theorem enter_of_limit (hl : s.maxDepth ≤ s.depth) :
    s.enter h = (.error (.scopeLimit s.maxDepth), s, h) := by
  rw [enter, if_pos hl]

theorem enter_of_refused (hl : s.depth < s.maxDepth) {report : Report} {h' : σ}
    (hr : Host.beginSubxact h = (.error report, h')) :
    s.enter h = (.error (.exception (.ofReport report)), s.markFailed, h') := by
  rw [enter, if_neg (by omega), hr]

theorem enter_of_began (hl : s.depth < s.maxDepth) {id : SubxactId} {h' : σ}
    (hr : Host.beginSubxact h = (.ok id, h')) :
    s.enter h = (.ok (s.push id).1, (s.push id).2, h') := by
  rw [enter, if_neg (by omega), hr]

/-- What holds however an enter ends. -/
theorem enter_keeps (hs : P (s, h))
    (hfail : ∀ h' report, Host.beginSubxact h = (.error report, h') → P (s.markFailed, h'))
    (hpush : ∀ h' id, s.depth < s.maxDepth → Host.beginSubxact h = (.ok id, h') →
      P ((s.push id).2, h')) : P (s.enter h).2 := by
  by_cases hl : s.maxDepth ≤ s.depth
  · rw [enter_of_limit hl]
    exact hs
  · have hlt : s.depth < s.maxDepth := by omega
    match hr : Host.beginSubxact h with
    | (.error report, h') =>
      rw [enter_of_refused hlt hr]
      exact hfail h' report hr
    | (.ok id, h') =>
      rw [enter_of_began hlt hr]
      exact hpush h' id hlt hr

end ProcedureBridge.ScopeStack
