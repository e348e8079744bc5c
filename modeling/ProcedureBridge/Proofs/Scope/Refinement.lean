import ProcedureBridge.Proofs.Scope.Subxacts

/-! # A stack of scopes is a stack of subtransactions

Over a host in memory, and whatever is asked of a stack in whatever order, the scopes on the stack
are the host's open subtransactions. Only the innermost scope can be resolved, an abort through a
scope ends that scope and what is inside it, and a request that is out of order or beyond the limit
changes nothing. Handles may be stale, and they may even be handles that the stack never gave out. -/

namespace ProcedureBridge

/-- What can be asked of a stack and, last, of its host. -/
inductive StackRequest
  | enter
  | resolve (handle : ScopeHandle) (resolution : Resolution)
  | abortThrough (handle : ScopeHandle)
  | markFailed
  | unwindTo (depth : Nat)
  | takeRootFailed
  | refuseNextBegin (report : Report)

inductive StackAnswer
  | entered (r : Except Failure ScopeHandle)
  | ended (r : Except Failure ScopeStatus)
  | unwound (count : Nat)
  | rootFailed (flag : Bool)
  | done

namespace StackAnswer

def handle? : StackAnswer → Option ScopeHandle
  | entered (.ok handle) => some handle
  | _ => none

def failure? : StackAnswer → Option Failure
  | entered (.error f) | ended (.error f) => some f
  | _ => none

end StackAnswer

/-- A stack and its host after some requests. -/
structure StackHistory where
  stack : ScopeStack
  host : MemoryHost := {}
  /-- Every handle that was given out, the oldest first. -/
  handles : List ScopeHandle := []

namespace StackHistory

def respond (t : StackHistory) : StackRequest → StackAnswer × ScopeStack × MemoryHost
  | .enter => let (r, t) := t.stack.enter t.host; (.entered r, t)
  | .resolve handle resolution =>
    let (r, t) := t.stack.resolve handle resolution t.host
    (.ended r, t)
  | .abortThrough handle => let (r, t) := t.stack.abortThrough handle t.host; (.ended r, t)
  | .markFailed => (.done, t.stack.markFailed, t.host)
  | .unwindTo depth => let (n, t) := t.stack.unwindTo depth t.host; (.unwound n, t)
  | .takeRootFailed => let (b, s) := t.stack.takeRootFailed; (.rootFailed b, s, t.host)
  | .refuseNextBegin report => (.done, t.stack, { t.host with refusal := some report })

def step (t : StackHistory) (request : StackRequest) : StackHistory :=
  let (answer, stack, host) := t.respond request
  { stack, host, handles := t.handles ++ answer.handle?.toList }

/-- A new stack on a new host, after some requests. -/
def after (maxDepth : Nat) (requests : List StackRequest) : StackHistory :=
  requests.foldl step { stack := { maxDepth } }

end StackHistory

namespace MemoryHost

/-- All but `n` of the subtransactions that were begun have been ended. -/
def Balanced (h : MemoryHost) (n : Nat) : Prop := h.begins = h.releases + h.rollbacks + n

variable {h h' : MemoryHost} {n : Nat} {id : SubxactId}

theorem Balanced.began (hb : h.Balanced n) (he : h'.events = h.events.push (.began id)) :
    h'.Balanced (n + 1) := by
  simp only [Balanced, begins, releases, rollbacks, Array.countP_toList] at hb ⊢
  simp only [he, Array.countP_push]
  simp
  omega

theorem Balanced.ended (hb : h.Balanced (n + 1))
    (he : h'.events = h.events.push (.released id) ∨ h'.events = h.events.push (.rolledBack id)) :
    h'.Balanced n := by
  simp only [Balanced, begins, releases, rollbacks, Array.countP_toList] at hb ⊢
  rcases he with he | he
  all_goals
    simp only [he, Array.countP_push]
    simp
    omega

end MemoryHost

namespace ScopeStack

/-- What holds of a stack and its host at any time. -/
structure Refines (s : ScopeStack) (h : MemoryHost) : Prop where
  backed : s.Backed h
  nested : Nested s.issued s.scopes
  bounded : s.depth ≤ s.maxDepth
  balanced : h.Balanced s.depth

namespace Refines

variable {s : ScopeStack} {h : MemoryHost}

theorem markFailed (hr : s.Refines h) : s.markFailed.Refines h where
  backed := hr.backed.markFailed
  nested := by
    rw [markFailed_issued]
    exact hr.nested.congr (markFailed_map Scope.handle (fun _ => rfl) s)
  bounded := by simpa using hr.bounded
  balanced := by simpa using hr.balanced

/-- The innermost scope is off the stack, and its subtransaction has ended. -/
theorem pop {top : Scope} {outer : List Scope} {h' : MemoryHost} (hr : s.Refines h)
    (hc : s.scopes = top :: outer) (ho : h'.openStack = outer.map Scope.subxact)
    (he : h'.events = h.events.push (.released top.subxact) ∨
      h'.events = h.events.push (.rolledBack top.subxact)) :
    ScopeStack.Refines { s with scopes := outer } h' := by
  have hd : s.depth = outer.length + 1 := by simp [depth, hc]
  have hn := hr.nested
  have hbal := hr.balanced
  rw [hc] at hn
  rw [hd] at hbal
  refine ⟨ho, hn.tail, ?_, hbal.ended he⟩
  have hle := hr.bounded
  change outer.length ≤ s.maxDepth
  omega

theorem rollbackKeeps : RollbackKeeps fun t : ScopeStack × MemoryHost => t.1.Refines t.2 := by
  intro s h top outer hc hr
  rw [rollback_of_backed hr.backed hc]
  exact hr.pop hc rfl (.inr rfl)

theorem releaseKeeps : ReleaseKeeps fun t : ScopeStack × MemoryHost => t.1.Refines t.2 := by
  intro s h top outer hc _ hr
  rw [release_of_backed hr.backed hc]
  exact hr.pop hc rfl (.inl rfl)

theorem enter (hr : s.Refines h) : (s.enter h).2.1.Refines (s.enter h).2.2 := by
  refine enter_keeps (P := fun t : ScopeStack × MemoryHost => t.1.Refines t.2) hr ?_ ?_
  · intro h' report hbegin
    obtain ⟨report', hbegin'⟩ | hbegin' := beginSubxact_cases h
    · rw [hbegin'] at hbegin
      cases hbegin
      exact ⟨hr.markFailed.backed, hr.markFailed.nested, hr.markFailed.bounded,
        hr.markFailed.balanced⟩
    · rw [hbegin'] at hbegin
      cases hbegin
  · intro h' id hlt hbegin
    obtain ⟨report', hbegin'⟩ | hbegin' := beginSubxact_cases h
    · rw [hbegin'] at hbegin
      cases hbegin
    · rw [hbegin'] at hbegin
      cases hbegin
      refine ⟨?_, ⟨Nat.succ_pos _, Nat.le_refl _, rfl, hr.nested⟩, hlt, hr.balanced.began rfl⟩
      change _ :: h.openStack = _ :: s.scopes.map Scope.subxact
      rw [hr.backed]

theorem resolve (hr : s.Refines h) (handle : ScopeHandle) (resolution : Resolution) :
    (s.resolve handle resolution h).2.1.Refines (s.resolve handle resolution h).2.2 :=
  resolve_keeps (P := fun t => t.1.Refines t.2) rollbackKeeps releaseKeeps handle resolution hr

theorem abortThrough (hr : s.Refines h) (handle : ScopeHandle) :
    (s.abortThrough handle h).2.1.Refines (s.abortThrough handle h).2.2 :=
  abortThrough_keeps (P := fun t => t.1.Refines t.2) rollbackKeeps handle hr

theorem unwindTo (hr : s.Refines h) (depth : Nat) :
    (s.unwindTo depth h).2.1.Refines (s.unwindTo depth h).2.2 :=
  unwindTo_keeps (P := fun t => t.1.Refines t.2) rollbackKeeps depth hr

end Refines

/-- Whatever takes scopes off the stack leaves the numbering of handles and the limit alone. -/
theorem numbering_rollbackKeeps {σ : Type} [Host σ] (n m : Nat) :
    RollbackKeeps fun t : ScopeStack × σ => t.1.issued = n ∧ t.1.maxDepth = m := by
  intro s h top outer _ hs
  exact rollback_keeps (P := fun t => t.1.issued = n ∧ t.1.maxDepth = m) (by simp) hs

theorem numbering_releaseKeeps {σ : Type} [Host σ] (n m : Nat) :
    ReleaseKeeps fun t : ScopeStack × σ => t.1.issued = n ∧ t.1.maxDepth = m := by
  intro s h top outer _ _ hs
  exact release_keeps (P := fun t => t.1.issued = n ∧ t.1.maxDepth = m) (by simp) hs

section Numbering

variable {σ : Type} [Host σ] (s : ScopeStack) (h : σ)

theorem resolve_numbering (handle : ScopeHandle) (resolution : Resolution) :
    (s.resolve handle resolution h).2.1.issued = s.issued ∧
      (s.resolve handle resolution h).2.1.maxDepth = s.maxDepth :=
  resolve_keeps (P := fun t => t.1.issued = s.issued ∧ t.1.maxDepth = s.maxDepth)
    (numbering_rollbackKeeps _ _) (numbering_releaseKeeps _ _) handle resolution ⟨rfl, rfl⟩

theorem abortThrough_numbering (handle : ScopeHandle) :
    (s.abortThrough handle h).2.1.issued = s.issued ∧
      (s.abortThrough handle h).2.1.maxDepth = s.maxDepth :=
  abortThrough_keeps (P := fun t => t.1.issued = s.issued ∧ t.1.maxDepth = s.maxDepth)
    (numbering_rollbackKeeps _ _) handle ⟨rfl, rfl⟩

theorem unwindTo_numbering (depth : Nat) :
    (s.unwindTo depth h).2.1.issued = s.issued ∧ (s.unwindTo depth h).2.1.maxDepth = s.maxDepth :=
  unwindTo_keeps (P := fun t => t.1.issued = s.issued ∧ t.1.maxDepth = s.maxDepth)
    (numbering_rollbackKeeps _ _) depth ⟨rfl, rfl⟩

end Numbering

/-- A new handle has the next number. -/
theorem enter_issued (s : ScopeStack) (h : MemoryHost) :
    (s.enter h).1.toOption.toList.map ScopeHandle.id =
        List.range' (s.issued + 1) ((s.enter h).2.1.issued - s.issued) ∧
      s.issued ≤ (s.enter h).2.1.issued ∧ (s.enter h).2.1.maxDepth = s.maxDepth := by
  by_cases hl : s.maxDepth ≤ s.depth
  · rw [enter_of_limit hl]
    simp [Except.toOption]
  · have hlt : s.depth < s.maxDepth := by omega
    match hr : Host.beginSubxact h with
    | (.error report, h') =>
      rw [enter_of_refused hlt hr]
      simp [Except.toOption]
    | (.ok id, h') =>
      rw [enter_of_began hlt hr]
      simp [Except.toOption, push]

/-- A failed enter or a failed resolution was out of order or beyond the limit only if it changed
nothing. -/
theorem enter_of_scopeLimit {s : ScopeStack} {h : MemoryHost} {f : Failure}
    (hf : (s.enter h).1 = .error f) (hl : ∀ e, f ≠ .exception e) : (s.enter h).2 = (s, h) := by
  by_cases hlim : s.maxDepth ≤ s.depth
  · rw [enter_of_limit hlim]
  · have hlt : s.depth < s.maxDepth := by omega
    match hr : Host.beginSubxact h with
    | (.error report, h') =>
      rw [enter_of_refused hlt hr] at hf
      cases hf
      exact absurd rfl (hl _)
    | (.ok id, h') =>
      rw [enter_of_began hlt hr] at hf
      cases hf

theorem resolve_of_scopeOrder {s : ScopeStack} {h : MemoryHost} (hb : s.Backed h)
    {handle : ScopeHandle} {resolution : Resolution} {f : Failure}
    (hf : (s.resolve handle resolution h).1 = .error f) (hl : ∀ e, f ≠ .exception e) :
    (s.resolve handle resolution h).2 = (s, h) := by
  obtain ⟨top, outer, hc, rfl⟩ | hne := s.current?_cases handle
  · cases resolution with
    | abort =>
      rw [resolve_abort hc, rollback_of_backed hb hc] at hf
      cases hf
    | commit =>
      cases hfail : top.failed with
      | true =>
        rw [resolve_commit_of_failed hc hfail, rollback_of_backed hb hc] at hf
        cases hf
        exact absurd rfl (hl _)
      | false =>
        rw [resolve_commit hc hfail, release_of_backed hb hc] at hf
        cases hf
  · rw [resolve_of_ne hne]

theorem holds_iff {s : ScopeStack} {handle : ScopeHandle} :
    s.holds handle = true ↔ ∃ inner x outer, s.scopes = inner ++ x :: outer ∧ x.handle = handle := by
  constructor
  · intro hh
    obtain ⟨x, hx, he⟩ := List.any_eq_true.mp hh
    obtain ⟨inner, outer, hsplit⟩ := List.append_of_mem hx
    exact ⟨inner, x, outer, hsplit, of_decide_eq_true he⟩
  · rintro ⟨inner, x, outer, hc, rfl⟩
    simp [holds, hc]

theorem abortThrough_of_scopeOrder {s : ScopeStack} {h : MemoryHost} (hr : s.Refines h)
    {handle : ScopeHandle} {f : Failure} (hf : (s.abortThrough handle h).1 = .error f) :
    (s.abortThrough handle h).2 = (s, h) := by
  cases hh : s.holds handle with
  | true =>
    obtain ⟨inner, x, outer, hc, rfl⟩ := holds_iff.mp hh
    rw [abortThrough_of_backed hr.backed hr.nested hc] at hf
    cases hf
  | false =>
    simp [abortThrough, hh]

end ScopeStack

namespace StackHistory

open ScopeStack

/-- What holds of a stack with the limit `maxDepth` after any requests. -/
structure Sound (maxDepth : Nat) (t : StackHistory) : Prop where
  refines : t.stack.Refines t.host
  limit : t.stack.maxDepth = maxDepth
  numbered : t.handles.map ScopeHandle.id = List.range' 1 t.stack.issued

variable {maxDepth : Nat} {t : StackHistory}

/-- A request that gives no handle out and leaves the numbering alone keeps the stack sound. -/
theorem Sound.of_numbering (ht : t.Sound maxDepth) {s : ScopeStack} {h : MemoryHost}
    (hr : s.Refines h) (hs : s.issued = t.stack.issued ∧ s.maxDepth = t.stack.maxDepth) :
    Sound maxDepth { stack := s, host := h, handles := t.handles ++ [] } where
  refines := hr
  limit := hs.2.trans ht.limit
  numbered := by rw [List.append_nil, ht.numbered, hs.1]

theorem step_sound (ht : t.Sound maxDepth) (request : StackRequest) :
    (t.step request).Sound maxDepth := by
  cases request with
  | enter =>
    obtain ⟨hids, hle, hmax⟩ := enter_issued t.stack t.host
    refine ⟨ht.refines.enter, hmax.trans ht.limit, ?_⟩
    have hh : (StackAnswer.entered (t.stack.enter t.host).1).handle? =
        (t.stack.enter t.host).1.toOption := by
      cases (t.stack.enter t.host).1 <;> rfl
    change (t.handles ++ (StackAnswer.entered (t.stack.enter t.host).1).handle?.toList).map _ = _
    rw [hh, List.map_append, hids, ht.numbered, Nat.add_comm, List.range'_append_1]
    congr 1
    change t.stack.issued + (_ - t.stack.issued) = (t.stack.enter t.host).2.1.issued
    omega
  | resolve handle resolution =>
    exact ht.of_numbering (ht.refines.resolve handle resolution)
      (resolve_numbering t.stack t.host handle resolution)
  | abortThrough handle =>
    exact ht.of_numbering (ht.refines.abortThrough handle)
      (abortThrough_numbering t.stack t.host handle)
  | markFailed =>
    exact ht.of_numbering ht.refines.markFailed (by simp)
  | unwindTo depth =>
    exact ht.of_numbering (ht.refines.unwindTo depth) (unwindTo_numbering t.stack t.host depth)
  | takeRootFailed =>
    exact ht.of_numbering ⟨ht.refines.backed, ht.refines.nested, ht.refines.bounded,
      ht.refines.balanced⟩ ⟨rfl, rfl⟩
  | refuseNextBegin report =>
    exact ht.of_numbering ⟨ht.refines.backed, ht.refines.nested, ht.refines.bounded,
      ht.refines.balanced⟩ ⟨rfl, rfl⟩

theorem after_sound (maxDepth : Nat) (requests : List StackRequest) :
    (after maxDepth requests).Sound maxDepth := by
  suffices hfold : ∀ t : StackHistory, t.Sound maxDepth → (requests.foldl step t).Sound maxDepth from
    hfold _ ⟨⟨rfl, trivial, Nat.zero_le _, rfl⟩, rfl, rfl⟩
  induction requests with
  | nil => exact fun _ ht => ht
  | cons request requests ih => exact fun t ht => ih _ (step_sound ht request)

theorem respond_of_misuse (ht : t.Sound maxDepth) {request : StackRequest} {f : Failure}
    (hf : (t.respond request).1.failure? = some f) (hl : ∀ e, f ≠ .exception e) :
    (t.respond request).2 = (t.stack, t.host) := by
  cases request with
  | enter =>
    refine enter_of_scopeLimit (f := f) ?_ hl
    revert hf
    change (StackAnswer.entered (t.stack.enter t.host).1).failure? = some f → _
    cases (t.stack.enter t.host).1 <;> simp [StackAnswer.failure?]
  | resolve handle resolution =>
    refine resolve_of_scopeOrder (f := f) ht.refines.backed ?_ hl
    revert hf
    change (StackAnswer.ended (t.stack.resolve handle resolution t.host).1).failure? = some f → _
    cases (t.stack.resolve handle resolution t.host).1 <;> simp [StackAnswer.failure?]
  | abortThrough handle =>
    refine abortThrough_of_scopeOrder (f := f) ht.refines ?_
    revert hf
    change (StackAnswer.ended (t.stack.abortThrough handle t.host).1).failure? = some f → _
    cases (t.stack.abortThrough handle t.host).1 <;> simp [StackAnswer.failure?]
  | markFailed => cases hf
  | unwindTo depth => cases hf
  | takeRootFailed => cases hf
  | refuseNextBegin report => cases hf

end StackHistory

/-- After any requests the scopes are the open subtransactions, in order; the `i`th scope has depth
`i`; handles are numbered in the order in which they were given out, so that none is given out twice;
and every subtransaction that is not open has ended. Of what can be asked next, a resolution does
something only to the innermost scope, an abort through an open scope rolls back what is inside it
and then the scope, an unwinding tells how many scopes it took off, and what fails for want of order
or of room changes nothing. -/
theorem scopes_refine_subxacts (maxDepth : Nat) (requests : List StackRequest) :
    let t := StackHistory.after maxDepth requests
    (t.host.openSubxacts = t.stack.scopes.reverse.map Scope.subxact ∧
      (t.stack.scopes.reverse.map fun x => x.handle.depth) = List.range' 1 t.stack.depth ∧
      (t.stack.scopes.reverse.map fun x => x.handle.id).Pairwise (· < ·) ∧
      (t.handles.map ScopeHandle.id).Pairwise (· < ·) ∧
      t.stack.depth ≤ maxDepth ∧
      t.host.begins = t.host.releases + t.host.rollbacks + t.stack.depth) ∧
    (∀ handle resolution, t.stack.current? ≠ some handle →
      t.stack.resolve handle resolution t.host =
        (.error (t.stack.orderFailure handle), t.stack, t.host)) ∧
    (∀ handle, t.stack.holds handle = true → ∃ inner x outer,
      t.stack.scopes = inner ++ x :: outer ∧ x.handle = handle ∧
      t.stack.abortThrough handle t.host = (.ok .aborted, { t.stack with scopes := outer },
        { t.host with
          openStack := outer.map Scope.subxact
          events := t.host.events ++
            ((inner ++ [x]).map fun y => HostEvent.rolledBack y.subxact).toArray })) ∧
    (∀ depth, (t.stack.unwindTo depth t.host).2.1.depth = min depth t.stack.depth ∧
      (t.stack.unwindTo depth t.host).1 + (t.stack.unwindTo depth t.host).2.1.depth =
        t.stack.depth) ∧
    (∀ request f, (t.respond request).1.failure? = some f →
      (∃ id detail, f = .scopeOrder id detail) ∨ (∃ limit, f = .scopeLimit limit) →
      (t.respond request).2 = (t.stack, t.host)) := by
  intro t
  have ht : t.Sound maxDepth := StackHistory.after_sound maxDepth requests
  refine ⟨⟨?_, ht.refines.nested.depths_eq, ht.refines.nested.ids_pairwise, ?_, ?_, ht.refines.balanced⟩,
    ?_, ?_, ?_, ?_⟩
  · rw [MemoryHost.openSubxacts, ht.refines.backed, List.map_reverse]
  · rw [ht.numbered]
    exact List.pairwise_lt_range'
  · exact ht.limit ▸ ht.refines.bounded
  · intro handle resolution hne
    exact ScopeStack.resolve_of_ne hne resolution
  · intro handle hh
    obtain ⟨inner, x, outer, hc, rfl⟩ := ScopeStack.holds_iff.mp hh
    exact ⟨inner, x, outer, hc, rfl,
      ScopeStack.abortThrough_of_backed ht.refines.backed ht.refines.nested hc⟩
  · intro depth
    rw [ScopeStack.unwindTo_depth]
    refine ⟨rfl, ?_⟩
    change t.stack.depth - depth + min depth t.stack.depth = t.stack.depth
    omega
  · intro request f hf hmisuse
    refine StackHistory.respond_of_misuse ht hf ?_
    rintro e rfl
    rcases hmisuse with ⟨id, detail, he⟩ | ⟨limit, he⟩ <;> cases he

end ProcedureBridge
