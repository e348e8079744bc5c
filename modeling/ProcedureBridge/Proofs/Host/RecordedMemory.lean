import ProcedureBridge.Proofs.Host.Recorded
import ProcedureBridge.Proofs.Session.Boundary

/-! # Records of a host in memory

A host in memory that is driven by the bridge alone refuses neither a release nor a rollback, and it
numbers subtransactions one after the other. So its record tells which subtransactions are open and
how the others have ended. -/

namespace ProcedureBridge

open Session ScopeStack

/-- The property of the scopes, the number of the next subtransaction and the record is kept by
whatever a host in memory is asked. -/
structure MemoryLogged (Q : ScopeStack → Nat → List HostExchange → Prop) : Prop where
  mark : ∀ {s n l}, Q s n l → Q s.markFailed n l
  rollback : ∀ {s n l top outer}, s.scopes = top :: outer → Q s n l →
    Q { s with scopes := outer } n (l ++ [.rolledBack top.subxact (.ok ())])
  release : ∀ {s n l top outer}, s.scopes = top :: outer → Q s n l →
    Q { s with scopes := outer } n (l ++ [.released top.subxact (.ok ())])
  push : ∀ {s n l}, Q s n l → Q (s.push ⟨n⟩).2 (n + 1) (l ++ [.began (.ok ⟨n⟩)])
  ask : ∀ {s n l x}, x.isBegin = false → Q s n l → Q s n (l ++ [x])

/-- The host behind the record is driven by the bridge alone. -/
def RecordDriven (f : Option Exception) (t : ScopeStack × Recorded MemoryHost) : Prop :=
  Driven f (t.1, t.2.host)

variable {Q : ScopeStack → Nat → List HostExchange → Prop}

theorem MemoryLogged.enter (hQ : MemoryLogged Q) {f : Option Exception} {s : ScopeStack}
    {r : Recorded MemoryHost} (hd : Driven f (s, r.host)) (hs : Q s r.host.nextSubxact r.log) :
    Driven f ((s.enter r).2.1, (s.enter r).2.2.host) ∧
      Q (s.enter r).2.1 (s.enter r).2.2.host.nextSubxact (s.enter r).2.2.log := by
  refine enter_keeps (P := fun t : ScopeStack × Recorded MemoryHost =>
    Driven f (t.1, t.2.host) ∧ Q t.1 t.2.host.nextSubxact t.2.log) ⟨hd, hs⟩ ?_ ?_
  all_goals
    intros
    rename_i hr
    obtain ⟨report', hr'⟩ | hr' := beginSubxact_cases r.host
    all_goals
      rw [Recorded.beginSubxact_eq hr'] at hr
      cases hr
  · exact ⟨(driven_standing.mark hd).alike ⟨rfl, rfl, rfl⟩, hQ.mark (hQ.ask rfl hs)⟩
  · refine ⟨⟨?_, hd.2⟩, hQ.push hs⟩
    change _ :: r.host.openStack = _ :: s.scopes.map Scope.subxact
    rw [hd.1]

theorem MemoryLogged.lasting (hQ : MemoryLogged Q) :
    Lasting fun f (t : ScopeStack × Recorded MemoryHost) =>
      RecordDriven f t ∧ Q t.1 t.2.host.nextSubxact t.2.log where
  mark h := ⟨driven_standing.mark h.1, hQ.mark h.2⟩
  rollback := by
    rintro f s r top outer hc ⟨hd, hs⟩
    rw [ScopeStack.rollback, Recorded.rollbackSubxact_eq (rollbackSubxact_of_backed hd.1 hc)]
    exact ⟨⟨rfl, hd.2⟩, hQ.rollback hc hs⟩
  release := by
    rintro f s r top outer hc _ ⟨hd, hs⟩
    rw [ScopeStack.release, Recorded.releaseSubxact_eq (releaseSubxact_of_backed hd.1 hc)]
    exact ⟨⟨rfl, hd.2⟩, hQ.release hc hs⟩
  list _ h := ⟨h.1, hQ.ask rfl h.2⟩
  poll h := ⟨h.1.alike ⟨rfl, rfl, rfl⟩, hQ.ask rfl h.2⟩
  enter h := hQ.enter h.1 h.2
  deliver := by
    rintro s r report ⟨hd, hs⟩
    have ha := MemoryHost.deliver_alike hd.2 report
    refine ⟨hd.alike ha, ?_⟩
    change Q s (r.host.deliver report).2.nextSubxact (r.log ++ [.delivered report])
    rw [ha.2.1]
    exact hQ.ask rfl hs
  lookup _ h := ⟨h.1.alike ⟨rfl, rfl, rfl⟩, hQ.ask rfl h.2⟩
  condemn _ h := h

theorem recordDriven_standing : Standing RecordDriven where
  toLasting := by
    have h := MemoryLogged.lasting (Q := fun _ _ _ => True)
      ⟨fun _ => trivial, fun _ _ => trivial, fun _ _ => trivial, fun _ => trivial,
        fun _ _ => trivial⟩
    simpa only [and_true] using h
  find id h := driven_standing.find id h
  tell report h := driven_standing.tell report h
  idle h hs hs' := driven_standing.idle h hs hs'

/-- The subtransactions of the open scopes are numbered downwards, from below the next number on. -/
def Numbered (s : ScopeStack) (next : Nat) : Prop :=
  (next :: s.scopes.map fun x => x.subxact.number).Pairwise (· > ·)

theorem Numbered.pop {s : ScopeStack} {next : Nat} {top : Scope} {outer : List Scope}
    (hc : s.scopes = top :: outer) (h : Numbered s next) :
    Numbered { s with scopes := outer } next := by
  simp only [Numbered] at h ⊢
  rw [hc] at h
  exact h.sublist ((List.sublist_cons_self _ _).cons_cons next)

theorem numbered_logged : MemoryLogged fun s next _ => Numbered s next where
  mark := by
    intro s n _ h
    rw [Numbered, markFailed_map (fun x => x.subxact.number) (fun _ => rfl)]
    exact h
  rollback hc h := h.pop hc
  release hc h := h.pop hc
  push := by
    intro s n _ h
    refine List.pairwise_cons.mpr ⟨?_, h⟩
    intro k hk
    rcases List.mem_cons.mp hk with rfl | hk
    · exact Nat.lt_succ_self _
    · exact Nat.lt_succ_of_lt ((List.pairwise_cons.mp h).1 k hk)
  ask _ h := h

/-- No subtransaction was begun under the number of `id` since `past`, and unless its scope is still
open it has been told how to end. -/
def Settles (past : List HostExchange) (id : SubxactId) (s : ScopeStack) (next : Nat)
    (log : List HostExchange) : Prop :=
  ∃ later, log = past ++ later ∧ id.number < next ∧ .began (.ok id) ∉ later ∧
    (id ∈ s.scopes.map Scope.subxact ∨ .rolledBack id (.ok ()) ∈ later ∨
      ∃ answer, .released id answer ∈ later)

section Settles

variable {past log : List HostExchange} {id : SubxactId} {s s' : ScopeStack} {next : Nat}

theorem Settles.add {x : HostExchange} (hx : x.isBegin = false) (h : Settles past id s next log)
    (hs : id ∈ s.scopes.map Scope.subxact → id ∈ s'.scopes.map Scope.subxact ∨
      x = .rolledBack id (.ok ()) ∨ x = .released id (.ok ())) :
    Settles past id s' next (log ++ [x]) := by
  obtain ⟨later, rfl, hlt, hnew, hend⟩ := h
  refine ⟨later ++ [x], List.append_assoc _ _ _, hlt, ?_, ?_⟩
  · intro hmem
    rcases List.mem_append.mp hmem with hmem | hmem
    · exact hnew hmem
    · rw [← List.mem_singleton.mp hmem] at hx
      cases hx
  · rcases hend with hopen | hback | ⟨answer, hrel⟩
    · rcases hs hopen with hopen | rfl | rfl
      · exact .inl hopen
      · exact .inr (.inl (List.mem_append_right _ List.mem_cons_self))
      · exact .inr (.inr ⟨_, List.mem_append_right _ List.mem_cons_self⟩)
    · exact .inr (.inl (List.mem_append_left _ hback))
    · exact .inr (.inr ⟨answer, List.mem_append_left _ hrel⟩)

theorem settles_logged (past : List HostExchange) (id : SubxactId) :
    MemoryLogged (Settles past id) where
  mark := by
    rintro s n log ⟨later, rfl, hlt, hnew, hend⟩
    refine ⟨later, rfl, hlt, hnew, ?_⟩
    rw [markFailed_map Scope.subxact (fun _ => rfl)]
    exact hend
  rollback := by
    intro s n log top outer hc h
    refine h.add rfl fun hopen => ?_
    rw [hc] at hopen
    rcases List.mem_cons.mp hopen with rfl | hopen
    · exact .inr (.inl rfl)
    · exact .inl hopen
  release := by
    intro s n log top outer hc h
    refine h.add rfl fun hopen => ?_
    rw [hc] at hopen
    rcases List.mem_cons.mp hopen with rfl | hopen
    · exact .inr (.inr rfl)
    · exact .inl hopen
  push := by
    rintro s n log ⟨later, rfl, hlt, hnew, hend⟩
    refine ⟨later ++ [.began (.ok ⟨n⟩)], List.append_assoc _ _ _, Nat.lt_succ_of_lt hlt, ?_, ?_⟩
    · intro hmem
      rcases List.mem_append.mp hmem with hmem | hmem
      · exact hnew hmem
      · cases List.mem_singleton.mp hmem
        exact Nat.lt_irrefl _ hlt
    · rcases hend with hopen | hback | ⟨answer, hrel⟩
      · exact .inl (List.mem_cons_of_mem _ hopen)
      · exact .inr (.inl (List.mem_append_left _ hback))
      · exact .inr (.inr ⟨answer, List.mem_append_left _ hrel⟩)
  ask hx h := h.add hx .inl

end Settles

end ProcedureBridge
