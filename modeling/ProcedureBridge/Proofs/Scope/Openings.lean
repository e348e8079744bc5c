import ProcedureBridge.Proofs.Scope.Refusals

/-! # How scopes begin and end

To enter a scope puts a handle with the next number in front of those that are open; every other
request takes handles away from the front, or none. A recorded host tells which of them were
released. -/

namespace ProcedureBridge

/-- The exchange is a release. -/
def HostExchange.isRelease : HostExchange → Bool
  | released .. => true
  | _ => false

namespace ScopeStack

variable {σ : Type}

/-- The handles of the open scopes, innermost first. -/
def opened (s : ScopeStack) : List ScopeHandle := s.scopes.map Scope.handle

/-- The open scopes, and how many there have been. -/
def tally (s : ScopeStack) : List ScopeHandle × Nat := (s.opened, s.issued)

@[simp] theorem opened_markFailed (s : ScopeStack) : s.markFailed.opened = s.opened :=
  markFailed_map Scope.handle (fun _ => rfl) s

@[simp] theorem tally_markFailed (s : ScopeStack) : s.markFailed.tally = s.tally := by
  simp only [tally, opened_markFailed, markFailed_issued]

theorem opened_of_tally {s s' : ScopeStack} (h : s'.tally = s.tally) : s'.opened = s.opened :=
  congrArg Prod.fst h

theorem issued_of_tally {s s' : ScopeStack} (h : s'.tally = s.tally) : s'.issued = s.issued :=
  congrArg Prod.snd h

variable [Host σ]

/-- The handle is the next one, and its scope the innermost one. -/
structure Opens (s : ScopeStack) (handle : ScopeHandle) (s' : ScopeStack) : Prop where
  id : handle.id = s.issued + 1
  tally : s'.tally = (handle :: s.opened, s.issued + 1)

theorem enter_cases (s : ScopeStack) (h : σ) :
    (∃ f, (s.enter h).1 = .error f ∧ (s.enter h).2.1.tally = s.tally) ∨
      ∃ handle, (s.enter h).1 = .ok handle ∧ s.Opens handle (s.enter h).2.1 := by
  by_cases hl : s.maxDepth ≤ s.depth
  · rw [enter_of_limit hl]
    exact .inl ⟨_, rfl, rfl⟩
  · have hlt : s.depth < s.maxDepth := by omega
    match hr : Host.beginSubxact h with
    | (.error report, h') =>
      rw [enter_of_refused hlt hr]
      exact .inl ⟨_, rfl, s.tally_markFailed⟩
    | (.ok id, h') =>
      rw [enter_of_began hlt hr]
      exact .inr ⟨_, rfl, rfl, rfl⟩

/-! ## Ends on a recorded host -/

variable {s : ScopeStack} {r : Recorded σ}

theorem rollback_cases (s : ScopeStack) (scope : Scope) (r : Recorded σ) :
    (∃ host, s.rollback scope r = (.ok (), s, r.add host (.rolledBack scope.subxact (.ok ())))) ∨
      ∃ report host, s.rollback scope r = (.error (.exception (.ofReport report)), s.markFailed,
        r.add host (.rolledBack scope.subxact (.error report))) := by
  match h : Host.rollbackSubxact scope.subxact r.host with
  | (.ok (), host) => exact .inl ⟨host, by rw [rollback, Recorded.rollbackSubxact_eq h]⟩
  | (.error report, host) =>
    exact .inr ⟨report, host, by rw [rollback, Recorded.rollbackSubxact_eq h]⟩

theorem release_cases (s : ScopeStack) (scope : Scope) (r : Recorded σ) :
    (∃ host, s.release scope r = (.ok (), s, r.add host (.released scope.subxact (.ok ())))) ∨
      ∃ report host, s.release scope r = (.error (.exception (.ofReport report)), s.markFailed,
        r.add host (.released scope.subxact (.error report))) := by
  match h : Host.releaseSubxact scope.subxact r.host with
  | (.ok (), host) => exact .inl ⟨host, by rw [release, Recorded.releaseSubxact_eq h]⟩
  | (.error report, host) =>
    exact .inr ⟨report, host, by rw [release, Recorded.releaseSubxact_eq h]⟩

/-- The host was told to release a subtransaction, and did, and was told nothing else. -/
def Released (id : SubxactId) (r r' : Recorded σ) : Prop :=
  r'.log = r.log ++ [.released id (.ok ())]

omit [Host σ] in
theorem not_released_add {x : HostExchange} (hx : ∀ id, x ≠ .released id (.ok ())) (host : σ)
    (id : SubxactId) : ¬ Released id r (r.add host x) := by
  intro h
  obtain ⟨-, h⟩ := List.append_inj' h rfl
  exact hx id (List.singleton_inj.mp h)

/-- The ways in which the resolution of a scope goes. -/
inductive Resolving (s : ScopeStack) (handle : ScopeHandle) (r : Recorded σ) :
    Except Failure ScopeStatus × ScopeStack × Recorded σ → Prop
  | refused : s.current? ≠ some handle →
      Resolving s handle r (.error (s.orderFailure handle), s, r)
  | released {top : Scope} {outer : List Scope} {s' : ScopeStack} {r' : Recorded σ} :
      s.scopes = top :: outer → top.handle = handle →
      s'.tally = (outer.map Scope.handle, s.issued) → Released top.subxact r r' →
      Resolving s handle r (.ok .committed, s', r')
  | dropped {top : Scope} {outer : List Scope} {answer : Except Failure ScopeStatus}
      {s' : ScopeStack} {r' : Recorded σ} :
      s.scopes = top :: outer → top.handle = handle →
      s'.tally = (outer.map Scope.handle, s.issued) → (∀ id, ¬ Released id r r') →
      answer = .ok .aborted ∨ (∃ e, answer = .error (.exception e)) →
      Resolving s handle r (answer, s', r')

/-- Rolled back, a scope is dropped, whatever that makes of the answer. -/
theorem Resolving.of_rollback {top : Scope} {outer : List Scope} (hc : s.scopes = top :: outer)
    (r : Recorded σ) (answer : Except Failure Unit → Except Failure ScopeStatus)
    (hok : answer (.ok ()) = .ok .aborted ∨ ∃ e, answer (.ok ()) = .error (.exception e))
    (herror : ∀ f, answer (.error f) = .error f) :
    Resolving s top.handle r (answer ({ s with scopes := outer }.rollback top r).1,
      ({ s with scopes := outer }.rollback top r).2) := by
  obtain ⟨host, h⟩ | ⟨report, host, h⟩ :=
    ({ s with scopes := outer } : ScopeStack).rollback_cases top r
  · rw [h]
    exact .dropped hc rfl rfl (fun _ => not_released_add (by simp) host _) hok
  · rw [h]
    exact .dropped hc rfl (tally_markFailed _) (fun _ => not_released_add (by simp) host _)
      (.inr ⟨_, herror _⟩)

theorem resolve_cases (s : ScopeStack) (handle : ScopeHandle) (resolution : Resolution)
    (r : Recorded σ) : s.Resolving handle r (s.resolve handle resolution r) := by
  obtain ⟨top, outer, hc, rfl⟩ | hne := s.current?_cases handle
  · cases resolution with
    | abort =>
      rw [resolve_abort hc]
      exact .of_rollback hc r (fun r => r.map fun _ => .aborted) (.inl rfl) fun _ => rfl
    | commit =>
      cases hf : top.failed with
      | true =>
        rw [resolve_commit_of_failed hc hf]
        exact .of_rollback hc r (fun r => r.bind fun _ => .error (.exception .inFailedTransaction))
          (.inr ⟨_, rfl⟩) fun _ => rfl
      | false =>
        rw [resolve_commit hc hf]
        obtain ⟨host, h⟩ | ⟨report, host, h⟩ :=
          ({ s with scopes := outer } : ScopeStack).release_cases top r
        · rw [h]
          exact .released hc rfl rfl rfl
        · rw [h]
          exact .dropped hc rfl (tally_markFailed _) (fun _ => not_released_add (by simp) host _)
            (.inr ⟨_, rfl⟩)
  · rw [resolve_of_ne hne]
    exact .refused hne

omit [Host σ] in
/-- Nothing but the scope can end. -/
theorem Resolving.ends {handle : ScopeHandle} {answer : Except Failure ScopeStatus}
    {s' : ScopeStack} {r' : Recorded σ} (h : s.Resolving handle r (answer, s', r')) :
    s'.opened <:+ s.opened ∧ s'.issued = s.issued ∧
      ∀ scope ∈ s.opened, scope ∉ s'.opened → scope = handle := by
  cases h with
  | refused => exact ⟨List.suffix_rfl, rfl, fun _ h h' => absurd h h'⟩
  | released hc htop htally _ | dropped hc htop htally _ _ =>
    obtain ⟨hopened, hissued⟩ := Prod.mk.inj htally
    have hs : s.opened = handle :: s'.opened := by
      rw [ScopeStack.opened, hc, List.map_cons, htop, hopened]
    refine ⟨hs ▸ List.suffix_cons _ _, hissued, fun scope hscope hgone => ?_⟩
    rw [hs] at hscope
    exact (List.mem_cons.mp hscope).resolve_right hgone

/-- Scopes have ended, and none of them was released. -/
structure Dropped (s : ScopeStack) (r : Recorded σ) (t : ScopeStack × Recorded σ) : Prop where
  opened : t.1.opened <:+ s.opened
  issued : t.1.issued = s.issued
  log : ∃ more, t.2.log = r.log ++ more ∧ ∀ x ∈ more, x.isRelease = false

omit [Host σ] in
theorem dropped_refl (s : ScopeStack) (r : Recorded σ) : Dropped s r (s, r) :=
  ⟨List.suffix_rfl, rfl, [], (List.append_nil _).symm, nofun⟩

omit [Host σ] in
theorem Dropped.mark {s' : ScopeStack} {r' : Recorded σ} (h : Dropped s r (s', r')) :
    Dropped s r (s'.markFailed, r') :=
  ⟨(opened_markFailed s').symm ▸ h.opened, (markFailed_issued s').trans h.issued, h.log⟩

theorem dropped_keeps (s : ScopeStack) (r : Recorded σ) : RollbackKeeps (Dropped s r) := by
  rintro t r' top outer hc ⟨hopened, hissued, more, hlog, hmore⟩
  have hpopped : ({ t with scopes := outer } : ScopeStack).opened <:+ s.opened := by
    rw [ScopeStack.opened, hc] at hopened
    exact (List.suffix_cons _ _).trans hopened
  refine rollback_keeps Dropped.mark ⟨hpopped, hissued,
    more ++ [.rolledBack top.subxact (Host.rollbackSubxact top.subxact r'.host).1], ?_, ?_⟩
  · rw [← List.append_assoc]
    exact congrArg (· ++ _) hlog
  · intro x hx
    rcases List.mem_append.mp hx with hx | hx
    · exact hmore x hx
    · rw [List.mem_singleton.mp hx]
      rfl

theorem abortThrough_dropped (s : ScopeStack) (handle : ScopeHandle) (r : Recorded σ) :
    Dropped s r (s.abortThrough handle r).2 :=
  abortThrough_keeps (dropped_keeps s r) handle (dropped_refl s r)

theorem unwindTo_dropped (s : ScopeStack) (depth : Nat) (r : Recorded σ) :
    Dropped s r (s.unwindTo depth r).2 :=
  unwindTo_keeps (dropped_keeps s r) depth (dropped_refl s r)

omit [Host σ] in
theorem Dropped.not_released {r' : Recorded σ} {s' : ScopeStack} (h : Dropped s r (s', r'))
    (id : SubxactId) : ¬ Released id r r' := by
  intro hreleased
  obtain ⟨more, hlog, hmore⟩ := h.log
  have hmore' : more = [.released id (.ok ())] :=
    List.append_cancel_left (hlog.symm.trans hreleased)
  have hfalse := hmore _ (hmore' ▸ List.mem_singleton_self _)
  cases hfalse

end ScopeStack

end ProcedureBridge
