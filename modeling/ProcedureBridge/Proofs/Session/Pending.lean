import ProcedureBridge.Proofs.Bridge.Arrival
import ProcedureBridge.Proofs.Interrupt.Requests
import ProcedureBridge.Proofs.Session.Standing

/-! # Requests that no safepoint has observed

A request that is pending when the body of an operation is over is pending when the operation has
returned, and the next safepoint raises it, in whichever operation that is. At the call boundary a
cancellation cannot be told from the one that the watchdog of the call has asked for: if the
watchdog has fired, both are taken back. -/

namespace ProcedureBridge

variable {σ S U α : Type} [Host σ]

namespace Task

theorem run_pending (t : Task S U α) {c : Core σ U} {kind : Interrupt}
    (h : c.monitor.Pending kind) (hu : ∀ m ∈ t.trace c, ∀ seen, ¬ m.Consumes seen) :
    (t.run c).2.monitor.Pending kind := by
  induction t generalizing c with
  | pure a => exact h
  | act action next ih =>
    rw [run_act]
    rw [trace_act] at hu
    exact ih _ (Moment.pending_of_unconsumed h (hu _ List.mem_cons_self))
      fun m hm => hu m (List.mem_cons_of_mem _ hm)

/-- The watchdog of a call is left alone, unless its time comes. -/
theorem run_callWatchdog (t : Task S U α) (c : Core σ U) :
    (t.run c).2.callWatchdog = c.callWatchdog ∨ ∃ m ∈ t.trace c, m.Expires := by
  induction t generalizing c with
  | pure a => exact .inl rfl
  | act action next ih =>
    rw [run_act, trace_act]
    rcases ih (c.perform action).1 (Moment.after ⟨c, action⟩) with hrun | ⟨m, hm, hexp⟩
    · rcases Moment.after_callWatchdog ⟨c, action⟩ with hfirst | hfirst
      · exact .inl (hrun.trans hfirst)
      · exact .inr ⟨_, .head _, hfirst⟩
    · exact .inr ⟨m, .tail _ hm, hexp⟩

end Task

namespace Session

variable {e : Engine} {s t : Session e σ} {kind : Interrupt}

/-! ## The call boundary -/

theorem finish_monitor {α : Type} (result : Except Failure α) (c : Core σ e.Code) :
    (finish 0 result c).2.monitor = c.monitor.acknowledge := by
  rcases finish_core 0 result c with h | h
  · rw [h]
    rfl
  · rw [h, terminate_of_nil (cleaned_settled c).scopes]
    rfl

theorem boundary_monitor {α : Type} (ht : s.isTerminated = false) (hs : Settled s.core)
    (body : Bridge e.State σ e.Code α) :
    (s.boundary body).2.core.monitor =
      (settleCall (body ⟨s.state, armCall s.core⟩).2.core).monitor.acknowledge := by
  rw [boundary_of_open ht hs]
  exact finish_monitor _ _

omit [Host σ] in
/-- Only a watchdog that has fired takes a request back, and only a cancellation. -/
theorem settleCall_pending {c : Core σ e.Code} (h : c.monitor.Pending kind) :
    (settleCall c).monitor.Pending kind ∨
      (kind = .cancel ∧ (∃ w, c.callWatchdog = some w ∧ w.fired = true) ∧
        (settleCall c).monitor = .idle) := by
  cases hw : c.callWatchdog with
  | none =>
    left
    simp only [settleCall, hw]
    exact h
  | some w =>
    have hsettle : (settleCall c).monitor = w.settle c.monitor := by simp only [settleCall, hw]
    rw [hsettle, Watchdog.settle]
    split
    · rename_i hfired
      rcases h.withdraw with hkept | ⟨hk, hidle⟩
      · exact .inl hkept
      · exact .inr ⟨hk, ⟨w, rfl, (Bool.and_eq_true_iff.mp hfired).1⟩, hidle⟩
    · exact .inl h

theorem boundary_pending {α : Type} (ht : s.isTerminated = false) (hs : Settled s.core)
    {body : Bridge e.State σ e.Code α}
    (h : (body ⟨s.state, armCall s.core⟩).2.core.monitor.Pending kind) :
    (s.boundary body).2.core.monitor.Pending kind ∨
      (kind = .cancel ∧
        (∃ w, (body ⟨s.state, armCall s.core⟩).2.core.callWatchdog = some w ∧ w.fired = true) ∧
        (s.boundary body).2.core.monitor = .idle) := by
  rw [boundary_monitor ht hs]
  rcases settleCall_pending h with hkept | ⟨hk, hw, hidle⟩
  · left
    rw [hkept.acknowledge]
    exact hkept
  · exact .inr ⟨hk, hw, by rw [hidle]; rfl⟩

omit [Host σ] in
/-- The watchdog that an operation arms has not fired. -/
theorem unfired_armCall {c : Core σ e.Code} {w : Watchdog} (hw : (armCall c).callWatchdog = some w) :
    w.fired = false := by
  obtain ⟨timeout, -, rfl⟩ := Option.map_eq_some_iff.mp hw
  rfl

/-- What is pending when the body of an operation is over. -/
theorem operate_pending (ht : s.isTerminated = false) (hs : Settled s.core) {o : Operation}
    (h : (Task.run (o.routine e s.options.entryPoint s.state)
      (armCall s.core)).2.monitor.Pending kind) :
    (s.operate o).2.core.monitor.Pending kind ∨
      (kind = .cancel ∧ (∃ x ∈ s.trace o, x.Expires) ∧ (s.operate o).2.core.monitor = .idle) := by
  have hbody : ((Bridge.ofRoutine (o.routine e s.options.entryPoint) : Bridge e.State σ e.Code _)
      ⟨s.state, armCall s.core⟩).2.core.monitor.Pending kind := h
  rcases boundary_pending ht hs hbody with
    hkept | ⟨hk, ⟨w, hw, hfired⟩, hidle⟩
  · exact .inl hkept
  · refine .inr ⟨hk, ?_, hidle⟩
    rw [trace_of_open ht]
    rcases Task.run_callWatchdog (o.routine e s.options.entryPoint s.state) (armCall s.core) with
      hsame | hexp
    · have hunfired := unfired_armCall (hsame.symm.trans hw)
      rw [hfired] at hunfired
      cases hunfired
    · exact hexp

/-! ## The status byte of a session -/

theorem boundary_canonical {α : Type} (hs : Settled s.core) (hm : s.core.monitor.Canonical)
    {body : Bridge e.State σ e.Code α}
    (hbody : Bridge.Preserves (fun c => c.monitor.Canonical) body) :
    (s.boundary body).2.core.monitor.Canonical := by
  cases ht : s.isTerminated with
  | true =>
    rw [boundary_of_terminated ht]
    exact hm
  | false =>
    have hend : (body ⟨s.state, armCall s.core⟩).2.core.monitor.Canonical :=
      hbody ⟨s.state, armCall s.core⟩ hm
    rw [boundary_monitor ht hs]
    refine Monitor.Canonical.acknowledge ?_
    simp only [settleCall]
    split
    · exact hend
    · simp only [Watchdog.settle]
      split
      · exact hend.withdraw _
      · exact hend

theorem respond_canonical (hs : Settled s.core) (hm : s.core.monitor.Canonical) (r : Request) :
    (s.respond r).2.core.monitor.Canonical := by
  cases r with
  | operate o =>
    exact boundary_canonical hs hm
      (Bridge.preserves_ofRoutine (fun _ hc => Moment.canonical_after hc) _)
  | validate id =>
    obtain ⟨body, hbody, hkeeps⟩ := s.validate_eq id
    change (s.validate id).2.core.monitor.Canonical
    rw [hbody]
    exact boundary_canonical hs hm (hkeeps (fun _ hc => hc) fun _ _ hc => hc)
  | refresh id =>
    obtain ⟨cache, host, hcore, -⟩ := s.refresh_core id
    change (s.refresh id).2.core.monitor.Canonical
    rw [hcore]
    exact hm
  | interrupt kind => exact hm.signal kind
  | invalidate | clearCache | watch | disarm => exact hm

theorem Opened.canonical {kind : σ → Prop} (hs : s.Opened kind) : s.core.monitor.Canonical := by
  obtain ⟨initial, files, host, options, -, hstart⟩ := hs
  obtain ⟨f, hf⟩ | ⟨fresh, hcore, -, hf | ⟨f, hf⟩⟩ := start_cases initial files host options
  · rw [hf] at hstart
    cases hstart
  · rw [hf] at hstart
    cases hstart
    refine boundary_canonical (hcore ▸ new_settled host options) ?_ (runInit_preserves
      (fun _ hc => Moment.canonical_after hc) (fun c report hc => ?_) files)
    · rw [hcore]
      exact .idle
    · exact hc.receives (c.deliver_monitor report)
  · rw [hf] at hstart
    cases hstart

theorem Reachable.canonical {kind : σ → Prop} {others : σ → σ → Prop}
    (hs : s.Reachable kind others) : s.core.monitor.Canonical := by
  obtain ⟨opened, hopened, hlater⟩ := hs
  induction hlater with
  | refl => exact hopened.canonical
  | request r hl ih => exact respond_canonical (hl.settled hopened.settled) ih r
  | outside _ _ ih => exact ih

/-! ## The end of an operation -/

/-- No safepoint is reached, and the time of the operation does not come. -/
def Spares (s : Session e σ) : Request → Prop
  | .operate o => ∀ x ∈ s.trace o, x.core.checkpoint x.action = none ∧ ¬ x.Expires
  | _ => True

/-- What a session can become without a safepoint. -/
inductive Undisturbed (s : Session e σ) : Session e σ → Prop
  | refl : Undisturbed s s
  | request {t : Session e σ} (r : Request) :
      Undisturbed s t → t.Spares r → Undisturbed s (t.respond r).2
  | outside {t : Session e σ} (host : σ) : Undisturbed s t → Undisturbed s (t.withHost host)

theorem operate_spared (hs : Settled s.core) (h : s.core.monitor.Pending kind) {o : Operation}
    (hspared : s.Spares (.operate o)) : (s.operate o).2.core.monitor.Pending kind := by
  cases ht : s.isTerminated with
  | true =>
    rw [operate, boundary_of_terminated ht]
    exact h
  | false =>
    have hu : ∀ x ∈ s.trace o, ∀ seen, ¬ x.Consumes seen := by
      intro x hx
      exact Moment.not_consumes (hspared x hx).1
    rw [trace_of_open ht] at hu
    rcases operate_pending ht hs (Task.run_pending _ (c := armCall s.core) h hu) with
      hkept | ⟨-, ⟨x, hx, hexp⟩, -⟩
    · exact hkept
    · exact absurd hexp (hspared x hx).2

theorem validate_pending (hs : Settled s.core) (h : s.core.monitor.Pending kind)
    (id : ProcedureId) : (s.validate id).2.core.monitor.Pending kind := by
  obtain ⟨body, hbody, hkeeps⟩ := s.validate_eq id
  rw [hbody]
  cases ht : s.isTerminated with
  | true =>
    rw [boundary_of_terminated ht]
    exact h
  | false =>
    obtain ⟨hpending, hunfired⟩ := hkeeps
      (Q := fun c => c.monitor.Pending kind ∧ ∀ w, c.callWatchdog = some w → w.fired = false)
      (fun _ hc => hc) (fun _ _ hc => hc) ⟨s.state, armCall s.core⟩
      ⟨h, fun _ hw => unfired_armCall hw⟩
    rcases boundary_pending ht hs hpending with hkept | ⟨-, ⟨w, hw, hfired⟩, -⟩
    · exact hkept
    · rw [hunfired w hw] at hfired
      cases hfired

theorem respond_pending (hs : Settled s.core) (h : s.core.monitor.Pending kind) {r : Request}
    (hspared : s.Spares r) : (s.respond r).2.core.monitor.Pending kind := by
  cases r with
  | operate o => exact operate_spared hs h hspared
  | validate id => exact validate_pending hs h id
  | refresh id =>
    obtain ⟨cache, host, hcore, -⟩ := s.refresh_core id
    change (s.refresh id).2.core.monitor.Pending kind
    rw [hcore]
    exact h
  | interrupt next => exact (Monitor.Receives.one _ next).pending h
  | invalidate | clearCache | watch | disarm => exact h

theorem Undisturbed.pending (hl : s.Undisturbed t) (hs : Settled s.core)
    (h : s.core.monitor.Pending kind) : Settled t.core ∧ t.core.monitor.Pending kind := by
  induction hl with
  | refl => exact ⟨hs, h⟩
  | request r _ hspared ih => exact ⟨respond_settled ih.1 r, respond_pending ih.1 ih.2 hspared⟩
  | outside host _ ih =>
    exact ⟨⟨ih.1.scopes, ih.1.root, ih.1.fatal, ih.1.handling, ih.1.monitor⟩, ih.2⟩

/-- The script is interrupted once, and does nothing else. -/
def unlimited : Session (Engine.scripted (.interrupted .cancel (.done ⟨.ok (), ()⟩))) MemoryHost :=
  fresh _ () {}

end Session

end ProcedureBridge
