import Mathlib.Data.List.Nodup
import ProcedureBridge.Proofs.Scope.Openings
import ProcedureBridge.Proofs.Scope.Subxacts

/-! # Where a refusal leaves its mark

A request that ends several scopes does what as many requests do that end one each. So it is enough
to look at requests with at most one exchange: if the host refuses, the scope that is then the
innermost one is marked, or the root. A marked scope stays marked as long as it is open, whatever is
asked of the stack, and is never released. -/

namespace ProcedureBridge

namespace HostExchange

/-- The host refused to begin or to end a subtransaction. -/
def isRefused : HostExchange → Bool
  | began (.error _) | released _ (.error _) | rolledBack _ (.error _) => true
  | _ => false

end HostExchange

namespace ScopeStack

variable {σ : Type} {s : ScopeStack} {scope top : Scope} {outer : List Scope}

/-- The requests, with one exchange each at most, that make up a request. -/
def singly (s : ScopeStack) : ScopeRequest → List ScopeRequest
  | .unwindTo depth =>
    (s.opened.take (s.depth - depth)).map fun handle => .resolve handle .abort
  | .abortThrough handle =>
    if s.holds handle then
      (s.opened.take (s.depth - handle.depth) ++ [handle]).map fun handle => .resolve handle .abort
    else []
  | request => [request]

@[simp] theorem isFailed_markFailed (s : ScopeStack) : s.markFailed.isFailed = true := by
  cases h : s.scopes with
  | nil => rw [markFailed_of_nil h, isFailed, h]
  | cons top outer => rw [markFailed_of_cons h, isFailed]

variable [Host σ]

/-! ## One scope at a time -/

theorem rollback_marks (s : ScopeStack) (scope : Scope) (h : σ) :
    (s.rollback scope h).2.1 = s ∨ (s.rollback scope h).2.1 = s.markFailed := by
  rw [rollback]
  split
  · exact .inr rfl
  · exact .inl rfl

theorem release_marks (s : ScopeStack) (scope : Scope) (h : σ) :
    (s.release scope h).2.1 = s ∨ (s.release scope h).2.1 = s.markFailed := by
  rw [release]
  split
  · exact .inr rfl
  · exact .inl rfl

/-- The innermost scope is gone whatever the host says, and at most a mark is added. -/
theorem resolve_marks (hc : s.scopes = top :: outer) (resolution : Resolution) (h : σ) :
    (s.resolve top.handle resolution h).2.1 = { s with scopes := outer } ∨
      (s.resolve top.handle resolution h).2.1 = { s with scopes := outer }.markFailed := by
  cases resolution with
  | abort =>
    rw [resolve_abort hc]
    exact rollback_marks _ top h
  | commit =>
    cases hf : top.failed with
    | true =>
      rw [resolve_commit_of_failed hc hf]
      exact rollback_marks _ top h
    | false =>
      rw [resolve_commit hc hf]
      exact release_marks _ top h

theorem perform_abort (hc : s.scopes = top :: outer) (h : σ) :
    perform (s, h) (.resolve top.handle .abort) = ({ s with scopes := outer }.rollback top h).2 := by
  rw [perform, resolve_abort hc]

theorem unwindBy_singly (s : ScopeStack) (h : σ) (count : Nat) :
    performAll (s, h) ((s.opened.take count).map fun handle => .resolve handle .abort) =
      s.unwindBy h count := by
  induction count generalizing s h with
  | zero => rfl
  | succ count ih =>
    cases hc : s.scopes with
    | nil => simp [opened, unwindBy, hc, performAll]
    | cons top outer =>
      have hrest : ({ s with scopes := outer }.rollback top h).2.1.opened = outer.map Scope.handle := by
        rcases rollback_marks { s with scopes := outer } top h with hm | hm
        · rw [hm, opened]
        · rw [hm, opened_markFailed, opened]
      rw [unwindBy, hc, opened, hc, List.map_cons, List.take_succ_cons, List.map_cons, performAll,
        List.foldl_cons, perform_abort hc, ← hrest]
      exact ih _ _

theorem performAll_append (t : ScopeStack × σ) (before after : List ScopeRequest) :
    performAll t (before ++ after) = performAll (performAll t before) after :=
  List.foldl_append

theorem performAll_singly (t : ScopeStack × σ) (request : ScopeRequest) :
    performAll t (t.1.singly request) = perform t request := by
  cases request with
  | unwindTo depth => exact unwindBy_singly t.1 t.2 _
  | abortThrough handle =>
    by_cases hh : t.1.holds handle = true
    · rw [singly, if_pos hh, List.map_append, performAll_append, unwindBy_singly, perform,
        abortThrough, if_pos hh]
      rfl
    · rw [singly, if_neg hh, perform, abortThrough, if_neg hh]
      rfl
  | _ => rfl

/-! ## Marks -/

section

variable {t u : ScopeStack × Recorded σ}

/-- There was one exchange. A refusal left a mark; a release was of the innermost scope, which had
no mark. -/
structure Answered (t u : ScopeStack × Recorded σ) (x : HostExchange) : Prop where
  log : u.2.log = t.2.log ++ [x]
  marked : x.isRefused = true → u.1.isFailed = true
  unmarked : ∀ {id answer}, x = .released id answer →
    ∃ top outer, t.1.scopes = top :: outer ∧ top.subxact = id ∧ top.failed = false

theorem enter_answered (t : ScopeStack × Recorded σ) :
    perform t .enter = t ∨ ∃ x, Answered t (perform t .enter) x := by
  by_cases hl : t.1.maxDepth ≤ t.1.depth
  · left
    rw [perform, enter_of_limit hl]
  · have hlt : t.1.depth < t.1.maxDepth := by omega
    right
    match hr : Host.beginSubxact t.2.host with
    | (.error report, host) =>
      rw [perform, enter_of_refused hlt (Recorded.beginSubxact_eq hr)]
      exact ⟨_, rfl, fun _ => isFailed_markFailed _, nofun⟩
    | (.ok id, host) =>
      rw [perform, enter_of_began hlt (Recorded.beginSubxact_eq hr)]
      exact ⟨_, rfl, nofun, nofun⟩

theorem rollback_answered (s : ScopeStack) (scope : Scope) (t : ScopeStack × Recorded σ) :
    ∃ x, Answered t (s.rollback scope t.2).2 x := by
  obtain ⟨host, h⟩ | ⟨report, host, h⟩ := s.rollback_cases scope t.2
  · rw [h]
    exact ⟨_, rfl, nofun, nofun⟩
  · rw [h]
    exact ⟨_, rfl, fun _ => isFailed_markFailed _, nofun⟩

theorem release_answered (hc : t.1.scopes = top :: outer) (hf : top.failed = false)
    (s : ScopeStack) : ∃ x, Answered t (s.release top t.2).2 x := by
  have hunmarked : ∀ {id : SubxactId} {answer answer' : Except Report Unit},
      HostExchange.released top.subxact answer' = .released id answer →
      ∃ top outer, t.1.scopes = top :: outer ∧ top.subxact = id ∧ top.failed = false := by
    intro id answer answer' he
    cases he
    exact ⟨top, outer, hc, rfl, hf⟩
  obtain ⟨host, h⟩ | ⟨report, host, h⟩ := s.release_cases top t.2
  · rw [h]
    exact ⟨_, rfl, nofun, hunmarked⟩
  · rw [h]
    exact ⟨_, rfl, fun _ => isFailed_markFailed _, hunmarked⟩

theorem resolve_answered (t : ScopeStack × Recorded σ) (handle : ScopeHandle)
    (resolution : Resolution) :
    perform t (.resolve handle resolution) = t ∨
      ∃ x, Answered t (perform t (.resolve handle resolution)) x := by
  obtain ⟨top, outer, hc, rfl⟩ | hne := t.1.current?_cases handle
  · right
    cases resolution with
    | abort =>
      rw [perform, resolve_abort hc]
      exact rollback_answered _ top t
    | commit =>
      cases hf : top.failed with
      | true =>
        rw [perform, resolve_commit_of_failed hc hf]
        exact rollback_answered _ top t
      | false =>
        rw [perform, resolve_commit hc hf]
        exact release_answered hc hf _
  · left
    rw [perform, resolve_of_ne hne]

theorem singly_answered {s : ScopeStack} {request single : ScopeRequest}
    (h : single ∈ s.singly request) (t : ScopeStack × Recorded σ) :
    (perform t single).2 = t.2 ∨ ∃ x, Answered t (perform t single) x := by
  have hsame : perform t single = t → (perform t single).2 = t.2 := congrArg Prod.snd
  cases request with
  | enter =>
    rw [List.mem_singleton.mp h] at hsame ⊢
    exact (enter_answered t).imp_left hsame
  | resolve handle resolution =>
    rw [List.mem_singleton.mp h] at hsame ⊢
    exact (resolve_answered t handle resolution).imp_left hsame
  | abortThrough handle =>
    rw [singly] at h
    split at h
    · obtain ⟨_, _, rfl⟩ := List.mem_map.mp h
      exact (resolve_answered t _ .abort).imp_left hsame
    · cases h
  | unwindTo depth =>
    obtain ⟨_, _, rfl⟩ := List.mem_map.mp h
    exact (resolve_answered t _ .abort).imp_left hsame
  | markFailed | takeRootFailed =>
    rw [List.mem_singleton.mp h]
    exact .inl rfl

end

/-! ## What lasts -/

omit [Host σ] in
theorem Nested.falling {n : Nat} {l : List Scope} (hn : Nested n l) :
    (l.map Scope.handle).Pairwise fun x y => y.id < x.id := by
  have hids := hn.ids_pairwise
  rw [List.map_reverse, List.pairwise_reverse, List.pairwise_map] at hids
  exact List.pairwise_map.mpr hids

omit [Host σ] in
/-- No two open scopes have one handle. -/
theorem Nested.nodup {n : Nat} {l : List Scope} (hn : Nested n l) : (l.map Scope.handle).Nodup := by
  refine hn.falling.imp fun hlt he => ?_
  rw [he] at hlt
  exact Nat.lt_irrefl _ hlt

theorem nested_keeps : RequestKeeps fun t : ScopeStack × σ => Nested t.1.issued t.1.scopes := by
  have hmark : ∀ {s : ScopeStack}, Nested s.issued s.scopes →
      Nested s.markFailed.issued s.markFailed.scopes := by
    intro s hs
    rw [markFailed_issued]
    exact hs.congr (opened_markFailed s)
  constructor
  · exact hmark
  · exact fun hs => hs
  · intro s h hs
    refine enter_keeps (P := fun t : ScopeStack × σ => Nested t.1.issued t.1.scopes) hs
      (fun _ _ _ => hmark hs) ?_
    intro _ _ _ _
    exact ⟨Nat.succ_pos _, Nat.le_refl _, rfl, hs⟩
  · intro s h top outer hc hs
    refine rollback_keeps (P := fun t : ScopeStack × σ => Nested t.1.issued t.1.scopes) hmark ?_
    rw [hc] at hs
    exact hs.tail
  · intro s h top outer hc _ hs
    refine release_keeps (P := fun t : ScopeStack × σ => Nested t.1.issued t.1.scopes) hmark ?_
    rw [hc] at hs
    exact hs.tail

/-- The mark of a scope lasts, since its handle is not given out again. -/
theorem failed_keeps (hf : scope.failed = true) :
    RequestKeeps fun t : ScopeStack × σ => scope.handle.id ≤ t.1.issued ∧
      ∀ y ∈ t.1.scopes, y.handle = scope.handle → y = scope := by
  let P := fun t : ScopeStack × σ => scope.handle.id ≤ t.1.issued ∧
      ∀ y ∈ t.1.scopes, y.handle = scope.handle → y = scope
  have hmark : ∀ {s : ScopeStack} {h : σ}, P (s, h) → P (s.markFailed, h) := by
    intro s h hs
    refine ⟨(markFailed_issued s).symm ▸ hs.1, ?_⟩
    cases hc : s.scopes with
    | nil =>
      rw [markFailed_of_nil hc]
      exact hs.2
    | cons top outer =>
      rw [markFailed_of_cons hc]
      simp only [P, hc, List.forall_mem_cons] at hs ⊢
      refine ⟨fun he => ?_, hs.2.2⟩
      rw [hs.2.1 he, ← hf]
  constructor
  · exact hmark
  · exact fun hs => hs
  · intro s h hs
    refine enter_keeps (P := P) hs (fun _ _ _ => hmark hs) ?_
    intro h' id _ _
    refine ⟨Nat.le_succ_of_le hs.1, List.forall_mem_cons.mpr ⟨fun he => ?_, hs.2⟩⟩
    have hid := congrArg ScopeHandle.id he
    have := hs.1
    simp only at hid this
    omega
  · intro s h top outer hc hs
    refine rollback_keeps (P := P) hmark ⟨hs.1, ?_⟩
    intro y hy
    exact hs.2 y (hc ▸ List.mem_cons_of_mem top hy)
  · intro s h top outer hc _ hs
    refine release_keeps (P := P) hmark ⟨hs.1, ?_⟩
    intro y hy
    exact hs.2 y (hc ▸ List.mem_cons_of_mem top hy)

/-- The mark of the root lasts until it is taken. -/
theorem perform_rootFailed {t : ScopeStack × σ} {request : ScopeRequest}
    (hr : request ≠ .takeRootFailed) (h : t.1.rootFailed = true) :
    (perform t request).1.rootFailed = true := by
  let P := fun t : ScopeStack × σ => t.1.rootFailed = true
  have hmark : ∀ {s : ScopeStack} {h : σ}, P (s, h) → P (s.markFailed, h) := markFailed_rootFailed
  have hrollback : RollbackKeeps P := fun _ hs => rollback_keeps (P := P) hmark hs
  have hrelease : ReleaseKeeps P := fun _ _ hs => release_keeps (P := P) hmark hs
  cases request with
  | enter => exact enter_keeps (P := P) h (fun _ _ _ => markFailed_rootFailed h) fun _ _ _ _ => h
  | resolve handle resolution => exact resolve_keeps hrollback hrelease handle resolution h
  | abortThrough handle => exact abortThrough_keeps hrollback handle h
  | markFailed => exact markFailed_rootFailed h
  | unwindTo depth => exact unwindTo_keeps hrollback depth h
  | takeRootFailed => exact absurd rfl hr

theorem performAll_rootFailed {t : ScopeStack × σ} {requests : List ScopeRequest}
    (hr : .takeRootFailed ∉ requests) (h : t.1.rootFailed = true) :
    (performAll t requests).1.rootFailed = true := by
  induction requests generalizing t with
  | nil => exact h
  | cons request requests ih =>
    simp only [List.mem_cons, not_or] at hr
    exact ih hr.2 (perform_rootFailed (Ne.symm hr.1) h)

/-- Whatever was asked of a stack, and whatever its host answered: every request is made of requests
with one exchange each at most, and where the host refuses, the scope that is then the innermost one
is marked, or the root if there is none. A marked scope stays as it is while it is open, and no
release is ever asked for it; the mark of the root stays until it is taken. A resolution takes the
innermost scope off, whatever the host says, and an unwinding ends at the depth it is given. -/
theorem refusal_marks (maxDepth : Nat) (host : σ) (requests : List ScopeRequest) :
    let t := performAll ({ maxDepth }, ({ host } : Recorded σ)) requests
    (∀ request, performAll t (t.1.singly request) = perform t request ∧
      ∀ before single after, t.1.singly request = before ++ single :: after →
        let u := performAll t before
        (perform u single).2 = u.2 ∨ ∃ x, Answered u (perform u single) x) ∧
    (∀ scope ∈ t.1.scopes, scope.failed = true → ∀ later,
      let u := performAll t later
      (∀ scope' ∈ u.1.scopes, scope'.handle = scope.handle → scope' = scope) ∧
      ∀ single x, Answered u (perform u single) x → x.isRelease = true →
        u.1.current? ≠ some scope.handle) ∧
    (t.1.rootFailed = true → ∀ later, .takeRootFailed ∉ later →
      (performAll t later).1.rootFailed = true) ∧
    (∀ handle resolution, t.1.current? ≠ some handle →
      t.1.resolve handle resolution t.2 = (.error (t.1.orderFailure handle), t)) ∧
    (∀ top outer resolution, t.1.scopes = top :: outer →
      (t.1.resolve top.handle resolution t.2).2.1 = { t.1 with scopes := outer } ∨
        (t.1.resolve top.handle resolution t.2).2.1 = { t.1 with scopes := outer }.markFailed) ∧
    ∀ depth, (t.1.unwindTo depth t.2).2.1.depth = min t.1.depth depth := by
  intro t
  have hnested : Nested t.1.issued t.1.scopes := nested_keeps.performAll requests trivial
  refine ⟨?_, ?_, ?_, ?_, ?_, ?_⟩
  · intro request
    refine ⟨performAll_singly t request, ?_⟩
    intro before single after hsplit
    exact singly_answered (hsplit ▸ List.mem_append_right _ List.mem_cons_self) _
  · intro scope hscope hf later u
    have hlater := (failed_keeps hf).performAll (t := t) later
      ⟨hnested.id_le hscope, fun y hy he => List.inj_on_of_nodup_map hnested.nodup hy hscope he⟩
    refine ⟨hlater.2, ?_⟩
    intro single x hx hrelease hcurrent
    cases x with
    | released id answer =>
      obtain ⟨top, outer, hc, -, hunmarked⟩ := hx.unmarked rfl
      have htop : top = scope := by
        refine hlater.2 top (hc ▸ List.mem_cons_self) ?_
        simpa [current?, hc] using hcurrent
      rw [htop, hf] at hunmarked
      cases hunmarked
    | _ => cases hrelease
  · intro hroot later hlater
    exact performAll_rootFailed hlater hroot
  · intro handle resolution hne
    exact resolve_of_ne hne resolution
  · intro top outer resolution hc
    exact resolve_marks hc resolution t.2
  · intro depth
    rw [unwindTo_depth, Nat.min_comm]

end ScopeStack

end ProcedureBridge
