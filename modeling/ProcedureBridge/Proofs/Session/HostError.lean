import ProcedureBridge.Proofs.Bridge.Condition
import ProcedureBridge.Proofs.Host.RecordedMemory

/-! # Errors of the host cannot be swallowed

Scripts may catch an error of the host, or pay it no heed; but the scope in which it was raised has
failed, and a failed scope is never released. Where no scope was open the whole call has failed. -/

namespace ProcedureBridge

/-- Each release of `id` comes after a subtransaction was newly begun under that id. -/
def ReleasedAnew (id : SubxactId) (later : List HostExchange) : Prop :=
  ∀ pre answer, pre ++ [.released id answer] <+: later → .began (.ok id) ∈ pre

theorem ReleasedAnew.nil (id : SubxactId) : ReleasedAnew id [] := by
  intro pre answer hpre
  simp at hpre

theorem ReleasedAnew.add {id : SubxactId} {later : List HostExchange} {x : HostExchange}
    (h : ReleasedAnew id later)
    (hx : ∀ answer, x = .released id answer → .began (.ok id) ∈ later) :
    ReleasedAnew id (later ++ [x]) := by
  intro pre answer hpre
  rcases List.prefix_concat_iff.mp hpre with heq | hpre
  · obtain ⟨rfl, hlast⟩ := List.append_inj' heq rfl
    exact hx answer (List.cons.inj hlast).1.symm
  · exact h pre answer hpre

theorem ReleasedAnew.not_mem {id : SubxactId} {later : List HostExchange}
    (h : ReleasedAnew id later) (hnew : .began (.ok id) ∉ later) (answer : Except Report Unit) :
    .released id answer ∉ later := by
  intro hmem
  obtain ⟨pre, post, rfl⟩ := List.append_of_mem hmem
  exact hnew (List.mem_append_left _ (h pre answer ⟨post, by simp⟩))

/-- Since `past` the subtransaction `id` has not been released: unless a new one was begun under the
same id, every scope that stands for it has failed. -/
def Doomed (past : List HostExchange) (id : SubxactId) (_ : Option Exception) (s : ScopeStack)
    (log : List HostExchange) : Prop :=
  ∃ later, log = past ++ later ∧ ReleasedAnew id later ∧
    (.began (.ok id) ∈ later ∨ ∀ x ∈ s.scopes, x.subxact = id → x.failed = true)

section Doomed

variable {past log : List HostExchange} {f : Option Exception} {s s' : ScopeStack} {id : SubxactId}

/-- Another exchange, after which no more scopes are open; it may release only a scope that has not
failed. -/
theorem Doomed.add {x : HostExchange}
    (hx : ∀ answer, x = .released id answer → ∃ y ∈ s.scopes, y.subxact = id ∧ y.failed = false)
    (hs : ∀ y ∈ s'.scopes, y ∈ s.scopes) (h : Doomed past id f s log) :
    Doomed past id f s' (log ++ [x]) := by
  obtain ⟨later, rfl, hanew, hlater⟩ := h
  refine ⟨later ++ [x], List.append_assoc _ _ _, hanew.add ?_, ?_⟩
  · intro answer he
    obtain ⟨y, hy, hid, hok⟩ := hx answer he
    rcases hlater with hnew | hfailed
    · exact hnew
    · rw [hfailed y hy hid] at hok
      cases hok
  · rcases hlater with hnew | hfailed
    · exact .inl (List.mem_append_left _ hnew)
    · exact .inr fun y hy => hfailed y (hs y hy)

theorem doomed_logged (past : List HostExchange) (id : SubxactId) : Logged (Doomed past id) where
  mark := by
    rintro f s log ⟨later, rfl, hanew, hlater⟩
    refine ⟨later, rfl, hanew, ?_⟩
    rcases hlater with hnew | hfailed
    · exact .inl hnew
    · refine .inr fun x hx hid => ?_
      rcases ScopeStack.mem_markFailed hx with hx | hx
      · exact hfailed x hx hid
      · exact hx
  rollback := by
    intro f s log top outer _ hc h
    refine h.add (fun _ he => by cases he) ?_
    rw [hc]
    exact fun y hy => List.mem_cons_of_mem _ hy
  release := by
    intro f s log top outer _ hc hf h
    refine h.add ?_ ?_
    · intro _ he
      cases he
      exact ⟨top, hc ▸ List.mem_cons_self, rfl, hf⟩
    · rw [hc]
      exact fun y hy => List.mem_cons_of_mem _ hy
  list _ h := h.add (fun _ he => by cases he) (fun _ hy => hy)
  push := by
    rintro s log new ⟨later, rfl, hanew, hlater⟩
    refine ⟨later ++ [.began (.ok new)], List.append_assoc _ _ _,
      hanew.add (fun _ he => by cases he), ?_⟩
    rcases hlater with hnew | hfailed
    · exact .inl (List.mem_append_left _ hnew)
    · by_cases hid : new = id
      · exact .inl (hid ▸ List.mem_append_right _ List.mem_cons_self)
      · refine .inr fun x hx hxid => ?_
        cases hx with
        | head => exact absurd hxid hid
        | tail _ hx => exact hfailed x hx hxid
  ask := by
    intro s log x _ hend h
    refine h.add ?_ (fun _ hy => hy)
    rintro answer rfl
    cases hend
  condemn _ h := h

end Doomed

/-! ## Any host -/

section AnyHost

variable {σ : Type} [Host σ]

/-- Nothing that a script does takes the mark off the call. -/
theorem rootFailed_lasting :
    Lasting fun _ (t : ScopeStack × σ) => t.1.rootFailed = true where
  mark h := ScopeStack.markFailed_rootFailed h
  rollback := by
    intro _ s h top outer _ hs
    exact ScopeStack.rollback_keeps (P := fun t : ScopeStack × σ => t.1.rootFailed = true)
      ScopeStack.markFailed_rootFailed hs
  release := by
    intro _ s h top outer _ _ hs
    exact ScopeStack.release_keeps (P := fun t : ScopeStack × σ => t.1.rootFailed = true)
      ScopeStack.markFailed_rootFailed hs
  list _ h := h
  poll h := h
  enter := by
    intro s h hs
    exact ScopeStack.enter_keeps (P := fun t : ScopeStack × σ => t.1.rootFailed = true) hs
      (fun _ _ _ => ScopeStack.markFailed_rootFailed hs) (fun _ _ _ _ => hs)
  deliver _ h := h
  lookup _ h := h
  condemn _ h := h

end AnyHost

namespace Session

variable {e : Engine} {σ : Type} [Host σ]

theorem verdict_of_rootFailed {α : Type} (fatal : Option Exception) (leftOpen : Nat)
    (result : Except Failure α) : ∃ f, verdict fatal leftOpen true result = .error f := by
  cases fatal with
  | some exc => exact ⟨_, rfl⟩
  | none =>
    cases result with
    | error f => exact ⟨f, rfl⟩
    | ok a =>
      unfold verdict
      dsimp only
      split
      · exact ⟨_, rfl⟩
      · exact ⟨_, rfl⟩

/-- A call that has failed outside of every scope is answered with a failure. -/
theorem finish_of_rootFailed {α : Type} {c : Core σ e.Code} (hroot : c.scopes.rootFailed = true)
    (base : Nat) (result : Except Failure α) : ∃ f, (finish base result c).1 = .error f := by
  have hunwound : (c.unwindTo base).2.scopes.rootFailed = true :=
    rootFailed_lasting.unwindTo hroot base
  obtain ⟨f, hf⟩ := verdict_of_rootFailed c.takeFatal.1 (c.unwindTo base).1 result
  rw [finish_eq, hunwound, hf]
  exact ⟨_, rfl⟩

/-- With no scope open, an error of the host makes the operation fail. -/
theorem operate_of_errs {s : Session e σ} (hs : Settled s.core) {o : Operation}
    {m : Moment σ e.State e.Code} (hm : m ∈ s.trace o) (herr : m.Errs)
    (hnil : m.core.scopes.scopes = []) : ∃ f, (s.operate o).1 = .error f := by
  have ht := open_of_mem_trace hm
  rw [trace_of_open ht] at hm
  have hroot : m.after.scopes.rootFailed = true := by
    rw [herr.after, ScopeStack.markFailed_of_nil hnil]
  rw [operate_of_open ht hs]
  exact finish_of_rootFailed (settleCall_has (rootFailed_lasting.run_of_moment _ hm hroot)) 0 _

variable {s : Session e (Recorded σ)}

/-- What is recorded after the scope `X` has failed. -/
theorem log_of_errs (hs : Settled s.core) {o : Operation}
    {m : Moment (Recorded σ) e.State e.Code} (hm : m ∈ s.trace o) (herr : m.Errs) {X : Scope}
    {outer : List Scope} (hX : m.core.scopes.scopes = X :: outer)
    (hown : X.subxact ∉ outer.map Scope.subxact) :
    ∃ later, (s.operate o).2.host.log = m.after.host.log ++ later ∧
      ReleasedAnew X.subxact later := by
  have hscopes := herr.after_of_cons hX
  have hdoomed : m.after.Has fun f t => Doomed m.after.host.log X.subxact f t.1 t.2.log := by
    refine ⟨[], by simp, .nil _, .inr ?_⟩
    intro x hx hid
    rw [hscopes] at hx
    cases hx with
    | head => rfl
    | tail _ hx => exact absurd (hid ▸ List.mem_map_of_mem hx) hown
  obtain ⟨_, _, -, later, hlater, hanew, -⟩ :=
    host_of_moment (doomed_logged m.after.host.log X.subxact).lasting hs hm hdoomed
  exact ⟨later, hlater, hanew⟩

section Memory

variable {s : Session e (Recorded MemoryHost)} {o : Operation}
  {m : Moment (Recorded MemoryHost) e.State e.Code}

theorem numbered_of_mem_trace (hs : Settled s.core) (hd : s.core.Has RecordDriven)
    (hm : m ∈ s.trace o) :
    m.after.Has fun f t => RecordDriven f t ∧ Numbered t.1 t.2.host.nextSubxact := by
  have hstart : s.core.Has fun f t => RecordDriven f t ∧ Numbered t.1 t.2.host.nextSubxact := by
    refine ⟨hd, ?_⟩
    simp [Numbered, hs.scopes]
  exact numbered_logged.lasting.after m (trace_has numbered_logged.lasting hstart hm)

/-- On a host in memory the subtransaction of an open scope is told how to end before the operation
returns, and none is begun under its id. -/
theorem memory_log_of_open (hs : Settled s.core) (hd : s.core.Has RecordDriven)
    (hm : m ∈ s.trace o) {id : SubxactId} (hid : id ∈ m.after.scopes.scopes.map Scope.subxact) :
    ∃ later, (s.operate o).2.host.log = m.after.host.log ++ later ∧ .began (.ok id) ∉ later ∧
      (.rolledBack id (.ok ()) ∈ later ∨ ∃ answer, .released id answer ∈ later) := by
  obtain ⟨hdriven, hnum⟩ := numbered_of_mem_trace hs hd hm
  obtain ⟨X, hX, rfl⟩ := List.mem_map.mp hid
  have hlt : X.subxact.number < m.after.host.host.nextSubxact :=
    (List.pairwise_cons.mp hnum).1 _ (List.mem_map_of_mem hX)
  have hafter : m.after.Has fun f t => RecordDriven f t ∧
      Settles m.after.host.log X.subxact t.1 t.2.host.nextSubxact t.2.log :=
    ⟨hdriven, [], by simp, hlt, List.not_mem_nil, .inl hid⟩
  obtain ⟨_, stack, hnil, -, later, hlater, -, hnew, hend⟩ :=
    host_of_moment (settles_logged m.after.host.log X.subxact).lasting hs hm hafter
  refine ⟨later, hlater, hnew, ?_⟩
  rcases hend with hopen | hend
  · rw [hnil] at hopen
    cases hopen
  · exact hend

/-- On a host in memory the subtransaction of a scope that has failed is rolled back. -/
theorem memory_log_of_errs (hs : Settled s.core) (hd : s.core.Has RecordDriven)
    (hm : m ∈ s.trace o) (herr : m.Errs) {X : Scope} {outer : List Scope}
    (hX : m.core.scopes.scopes = X :: outer) :
    ∃ later, (s.operate o).2.host.log = m.after.host.log ++ later ∧
      .rolledBack X.subxact (.ok ()) ∈ later ∧ ∀ answer, .released X.subxact answer ∉ later := by
  have hscopes := herr.after_of_cons hX
  obtain ⟨-, hnum⟩ := numbered_of_mem_trace hs hd hm
  simp only [Numbered, hscopes] at hnum
  have hown : X.subxact ∉ outer.map Scope.subxact := by
    intro hmem
    obtain ⟨y, hy, heq⟩ := List.mem_map.mp hmem
    have hgt := (List.pairwise_cons.mp (List.pairwise_cons.mp hnum).2).1 y.subxact.number
      (List.mem_map_of_mem hy)
    rw [heq] at hgt
    exact Nat.lt_irrefl _ hgt
  obtain ⟨later, hlater, hanew⟩ := log_of_errs hs hm herr hX hown
  have hopen : X.subxact ∈ m.after.scopes.scopes.map Scope.subxact := by
    rw [hscopes]
    exact List.mem_cons_self
  obtain ⟨since, hsince, hnew, hend⟩ := memory_log_of_open hs hd hm hopen
  obtain rfl : later = since := List.append_cancel_left (hlater.symm.trans hsince)
  refine ⟨later, hlater, ?_, hanew.not_mem hnew⟩
  rcases hend with hback | ⟨answer, hrel⟩
  · exact hback
  · exact absurd hrel (hanew.not_mem hnew answer)

end Memory

/-- Whatever a script makes of an error of the host: if no scope was open the operation fails, and
otherwise the host is never told to release the subtransaction of the scope that was innermost,
short of a new one under the same id. A host in memory is always told to roll it back before the
operation returns. -/
theorem host_errors_persist (e : Engine) :
    (∀ (σ : Type) [Host σ] (s : Session e (Recorded σ)),
      s.Reachable (fun _ => True) (fun _ _ => True) → ∀ o, ∀ m ∈ s.trace o, m.Errs →
        (m.core.scopes.scopes = [] → ∃ f, (s.operate o).1 = .error f) ∧
        (∀ X outer, m.core.scopes.scopes = X :: outer → X.subxact ∉ outer.map Scope.subxact →
          ∃ later, (s.operate o).2.host.log = m.after.host.log ++ later ∧
            ReleasedAnew X.subxact later)) ∧
    (∀ s : Session e (Recorded MemoryHost),
      s.Reachable (fun r => r.host.Fresh) (fun r r' => r.host.LeftAlone r'.host) →
      ∀ o, ∀ m ∈ s.trace o, m.Errs → ∀ X outer, m.core.scopes.scopes = X :: outer →
        ∃ later, (s.operate o).2.host.log = m.after.host.log ++ later ∧
          .rolledBack X.subxact (.ok ()) ∈ later ∧
          ∀ answer, .released X.subxact answer ∉ later) := by
  constructor
  · intro σ _ s hs o m hm herr
    exact ⟨operate_of_errs hs.settled hm herr,
      fun X outer hX hown => log_of_errs hs.settled hm herr hX hown⟩
  · intro s hs o m hm herr X outer hX
    have hd : s.core.Has RecordDriven :=
      hs.has recordDriven_standing (fun hnil hh => driven_of_fresh hnil hh)
        (fun _ hl hd => hd.leftAlone hl)
    exact memory_log_of_errs hs.settled hd hm herr hX

/-- A script that reports an error in a scope and swallows it there, and then swallows what becomes
of the scope. -/
def swallowing : Session (Engine.scripted (.scope ()
    (fun _ => .report .error "no" {} fun _ => .done ⟨.ok (), ()⟩) fun _ => .done ⟨.ok (), ()⟩))
    (Recorded MemoryHost) :=
  fresh _ () { host := {} }

theorem host_errors_persist_swallowing :
    ∃ m ∈ swallowing.trace (.executeInline ""), m.Errs ∧ ∃ X, m.core.scopes.scopes = [X] ∧
      ∃ later, (swallowing.operate (.executeInline "")).2.host.log = m.after.host.log ++ later ∧
        .rolledBack X.subxact (.ok ()) ∈ later := by
  have hs : swallowing.Reachable (fun r => r.host.Fresh) (fun r r' => r.host.LeftAlone r'.host) :=
    ⟨swallowing, fresh_opened _ _ ⟨rfl, fun _ hook => by cases hook⟩, .refl⟩
  have hrun : (swallowing.trace (.executeInline "")).any
      (fun m => m.reportsError && m.core.scopes.scopes.length == 1) = true := by decide +kernel
  obtain ⟨m, hm, hmoment⟩ := List.any_eq_true.mp hrun
  obtain ⟨herr, hlength⟩ := Bool.and_eq_true_iff.mp hmoment
  obtain ⟨X, hX⟩ := List.length_eq_one_iff.mp (beq_iff_eq.mp hlength)
  obtain ⟨later, hlater, hback, -⟩ :=
    (host_errors_persist _).2 _ hs _ m hm (.reported herr) X [] hX
  exact ⟨m, hm, .reported herr, X, hX, later, hlater, hback⟩

end Session

end ProcedureBridge
