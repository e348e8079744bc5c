import ProcedureBridge.Proofs.Bridge.Handler
import ProcedureBridge.Proofs.Session.Termination

/-! # A cancellation that was observed stays raised

From the safepoint that consumes a request until a handler for cancellations acknowledges it, every
safepoint raises. So the host is asked for nothing new. A request that arrives meanwhile is not lost
by the acknowledgement: the next safepoint raises it. -/

namespace ProcedureBridge

variable {σ S U : Type} [Host σ]

namespace Interrupt

theorem isCancellation_toException (kind : Interrupt) : kind.toException.isCancellation = true := by
  cases kind <;> decide

end Interrupt

/-! ## What the host is asked for -/

namespace HostExchange

/-- The host is asked to begin a subtransaction, to deliver a message or for a text. -/
def asksAnew : HostExchange → Bool
  | began _ | delivered _ | lookedUp _ => true
  | _ => false

end HostExchange

/-- Since `past` the host has been asked for nothing new. -/
def Unasked (past log : List HostExchange) : Prop :=
  ∃ later, log = past ++ later ∧ ∀ x ∈ later, x.asksAnew = false

theorem Unasked.refl (past : List HostExchange) : Unasked past past := ⟨[], by simp⟩

theorem Unasked.add {past log : List HostExchange} {x : HostExchange} (hx : x.asksAnew = false)
    (h : Unasked past log) : Unasked past (log ++ [x]) := by
  obtain ⟨later, rfl, hlater⟩ := h
  refine ⟨later ++ [x], List.append_assoc _ _ _, ?_⟩
  intro y hy
  rcases List.mem_append.mp hy with hy | hy
  · exact hlater y hy
  · rw [List.mem_singleton.mp hy]
    exact hx

theorem unasked_rollbackKeeps (past : List HostExchange) :
    ScopeStack.RollbackKeeps fun t : ScopeStack × Recorded σ => Unasked past t.2.log := by
  intro s r top outer _ h
  exact ScopeStack.rollback_keeps (P := fun t : ScopeStack × Recorded σ => Unasked past t.2.log)
    (fun h => h) (h.add rfl)

theorem unasked_releaseKeeps (past : List HostExchange) :
    ScopeStack.ReleaseKeeps fun t : ScopeStack × Recorded σ => Unasked past t.2.log := by
  intro s r top outer _ _ h
  exact ScopeStack.release_keeps (P := fun t : ScopeStack × Recorded σ => Unasked past t.2.log)
    (fun h => h) (h.add rfl)

namespace Moment

variable {m : Moment σ S U} {c : Core σ U} {kind : Interrupt}

/-! ## Safepoints while a request is held -/

/-- A safepoint of the action consumes a request that no safepoint had seen. -/
def Consumes (m : Moment σ S U) (kind : Interrupt) : Prop :=
  ∃ c, m.core.checkpoint m.action = some c ∧ c.fatal = none ∧
    c.poll.monitor.state = .signaled kind

theorem held_of_checkpoint (hc : m.core.checkpoint m.action = some c)
    (h : m.core.monitor.held ≠ none) : ∃ kind, c.poll.monitor.held = some kind :=
  Option.ne_none_iff_exists'.mp ((poll_monitor_of_checkpoint hc).held h)

end Moment

/-- A safepoint that finds a request raises a cancellation, or again what is fatal. -/
theorem Core.safepoint_raises {c : Core σ U} {kind : Interrupt} (h : c.poll.monitor.held = some kind) :
    ∃ exc, c.safepoint.1 = .error (.exception exc) ∧
      (exc.isCancellation = true ∨ c.fatal = some exc) := by
  cases hf : c.fatal with
  | some e => exact ⟨e, by rw [safepoint_of_fatal hf], .inr rfl⟩
  | none =>
    exact ⟨kind.toException, by rw [safepoint_of_held hf h], .inl kind.isCancellation_toException⟩

namespace Moment

variable {m : Moment (Recorded σ) S U} {past : List HostExchange}

omit [Host σ] in
theorem checkpoint_host {σ : Type} {m : Moment σ S U} {c : Core σ U}
    (hc : m.core.checkpoint m.action = some c) : c.host = m.core.host := by
  obtain rfl | ⟨n, -, rfl⟩ := checkpoint_cases hc
  · rfl
  · rfl

/-- As long as every safepoint raises, the host is asked for nothing new. -/
theorem unasked_after (h : m.core.monitor.held ≠ none) (hlog : Unasked past m.core.host.log) :
    Unasked past m.after.host.log := by
  cases hc : m.core.checkpoint m.action with
  | none =>
    by_cases hl : ∃ schema, m.action = .listProcedures schema
    · obtain ⟨schema, ha⟩ := hl
      have hlist : m.after.host = (Host.procedures schema m.core.host).2 := by
        obtain ⟨report, -, h⟩ | h := listing_cases ha
        · rw [h, Core.raise_host]
        · rw [h]
      rw [hlist]
      exact hlog.add rfl
    · exact (quiet hc fun schema ha => hl ⟨schema, ha⟩).ends
        (P := fun t : ScopeStack × Recorded σ => Unasked past t.2.log)
        (unasked_rollbackKeeps past) (unasked_releaseKeeps past) hlog
  | some c =>
    obtain ⟨kind, hk⟩ := held_of_checkpoint hc h
    rw [← checkpoint_host hc] at hlog
    cases hf : c.fatal with
    | some e =>
      rw [after_of_raise hc (Core.safepoint_of_fatal hf)]
      exact hlog
    | none =>
      rw [after_of_raise hc (Core.safepoint_of_held hf hk)]
      change Unasked past c.poll.host.log
      rw [Core.poll_host]
      exact hlog.add rfl

/-- What consuming a request leaves. -/
theorem Consumes.after {m : Moment σ S U} {kind : Interrupt} (h : m.Consumes kind) :
    m.after.monitor.state = .consumed kind ∧
      m.after.fatal = if kind = .terminate then some kind.toException else none := by
  obtain ⟨c, hc, hf, hk⟩ := h
  have hheld := Monitor.held_of_signaled hk
  rw [after_of_raise hc (Core.safepoint_of_held hf hheld)]
  exact ⟨Monitor.check_of_held hheld, rfl⟩

theorem Consumes.held {m : Moment σ S U} {kind : Interrupt} (h : m.Consumes kind) :
    m.after.monitor.held = some kind :=
  (Monitor.state_eq_consumed.mp h.after.1).1

theorem Consumes.raises {m : Moment (Recorded σ) S U} {kind : Interrupt} (h : m.Consumes kind)
    {c : Core (Recorded σ) U} (hc : m.core.checkpoint m.action = some c) :
    c.safepoint.1 = .error (.exception kind.toException) := by
  obtain ⟨c', hc', hf, hk⟩ := h
  obtain rfl : c = c' := Option.some.inj (hc.symm.trans hc')
  rw [Core.safepoint_of_held hf (Monitor.held_of_signaled hk)]

theorem Consumes.unasked {kind : Interrupt} (h : m.Consumes kind) :
    Unasked m.core.host.log m.after.host.log := by
  obtain ⟨c, hc, hf, hk⟩ := h
  rw [after_of_raise hc (Core.safepoint_of_held hf (Monitor.held_of_signaled hk))]
  change Unasked _ c.poll.host.log
  rw [Core.poll_host, ← checkpoint_host hc]
  exact (Unasked.refl _).add rfl

end Moment

/-- While a request is held and not acknowledged, it stays held and the host is asked for nothing
new. -/
theorem Task.held_stretch {α : Type} {past : List HostExchange}
    {stretch after : List (Moment (Recorded σ) S U)} (t : Task S U α) {c : Core (Recorded σ) U}
    (ht : t.trace c = stretch ++ after) (hheld : c.monitor.held ≠ none)
    (hlog : Unasked past c.host.log) (hack : ∀ m ∈ stretch, m.acknowledges = false) :
    ∀ m ∈ stretch, (m.core.monitor.held ≠ none ∧ Unasked past m.core.host.log) ∧
      m.after.monitor.held ≠ none ∧ Unasked past m.after.host.log :=
  (t.stretch_keeps (I := fun c => c.monitor.held ≠ none ∧ Unasked past c.host.log) ht ⟨hheld, hlog⟩
    fun m hm h => ⟨Moment.held_after (hack m hm) h.1, Moment.unasked_after h.1 h.2⟩).1

namespace Moment

/-- The host refuses a list of procedures with a report that is fatal. -/
def RefusesList (m : Moment σ S U) (exc : Exception) : Prop :=
  ∃ schema report, m.action = .listProcedures schema ∧
    (Host.procedures schema m.core.host).1 = .error report ∧ report.severity.isFatal = true ∧
    exc = .raised report m.core.handling.head?

section Refusals

variable {m : Moment σ S U} {exc : Exception}

/-- A text is asked for behind a safepoint, which lets nothing pass while a request is held. -/
theorem RefusesFatally.list_of_held (h : m.RefusesFatally exc) (hheld : m.core.monitor.held ≠ none) :
    m.RefusesList exc := by
  cases h with
  | @lookup _ id compile _ ha hs =>
    have hc : m.core.checkpoint m.action = some m.core := by rw [ha]; rfl
    obtain ⟨kind, hk⟩ := held_of_checkpoint hc hheld
    obtain ⟨_, hraise, -⟩ := Core.safepoint_raises hk
    rw [hs] at hraise
    cases hraise
  | listing ha _ hlist hsev => exact ⟨_, _, ha, hlist, hsev, rfl⟩

theorem RefusesFatally.list_of_no_checkpoint (h : m.RefusesFatally exc)
    (hc : m.core.checkpoint m.action = none) : m.RefusesList exc := by
  cases h with
  | lookup ha =>
    rw [ha] at hc
    cases hc
  | listing ha _ hlist hsev => exact ⟨_, _, ha, hlist, hsev, rfl⟩

theorem not_refusesList (hlists : ∀ schema (h : σ), (Host.procedures schema h).1.isOk = true) :
    ¬ m.RefusesList exc := by
  rintro ⟨schema, report, -, hlist, -⟩
  have hok := hlists schema m.core.host
  rw [hlist] at hok
  cases hok

end Refusals

/-- The condition is fatal because the host refused a list during one of the moments. -/
def RefusedIn (stretch : List (Moment σ S U)) (f : Option Exception) : Prop :=
  ∃ exc, f = some exc ∧ ∃ m ∈ stretch, m.RefusesList exc

theorem RefusedIn.mono {stretch stretch' : List (Moment σ S U)} {f : Option Exception}
    (h : RefusedIn stretch f) (hsub : ∀ m ∈ stretch, m ∈ stretch') : RefusedIn stretch' f := by
  obtain ⟨exc, hf, m, hm, hrefuse⟩ := h
  exact ⟨exc, hf, m, hsub m hm, hrefuse⟩

variable {m : Moment σ S U} {stretch : List (Moment σ S U)}

theorem RefusedIn.after (h : RefusedIn stretch m.core.fatal) : RefusedIn stretch m.after.fatal := by
  obtain ⟨exc, hf, hrefuse⟩ := h
  exact ⟨exc, (fatal_lasting exc).after m hf, hrefuse⟩

/-- While a request is held, only a termination and a list that the host refuses make a condition
fatal. -/
theorem fatal_after_of_held (hm : m ∈ stretch) (hack : m.acknowledges = false)
    (hheld : m.core.monitor.held ≠ none)
    (h : m.core.fatal = none ∨ m.core.monitor.held = some .terminate ∨
      RefusedIn stretch m.core.fatal) :
    m.after.fatal = none ∨ m.after.monitor.held = some .terminate ∨
      RefusedIn stretch m.after.fatal := by
  rcases h with hnone | hterm | hrefused
  · rcases m.after_fatal with hsame | ⟨exc, hends⟩
    · exact .inl (hsame.trans hnone)
    · have hafter := hends.after
      rcases hends with hcond | hrefuse
      · cases hcond with
        | raised ha _ hr hok =>
          -- a report is raised only behind a safepoint that lets pass
          have hc : m.core.checkpoint m.action = some m.core := by
            rw [ha]
            simp only [Core.checkpoint, hr]
          obtain ⟨kind, hk⟩ := held_of_checkpoint hc hheld
          obtain ⟨exc, hraise, -⟩ := Core.safepoint_raises hk
          rw [hraise] at hok
          cases hok
        | @terminated c hc hf hk =>
          right; left
          rw [after_of_raise hc (Core.safepoint_of_held hf hk)]
          exact (Monitor.state_eq_consumed.mp (Monitor.check_of_held hk)).1
      · exact .inr (.inr ⟨exc, hafter, m, hm, hrefuse.list_of_held hheld⟩)
  · exact .inr (.inl (held_terminate_after hack hterm))
  · exact .inr (.inr hrefused.after)

theorem Condemns.checkpoint {exc : Exception} (h : m.Condemns exc) :
    ∃ c, m.core.checkpoint m.action = some c := by
  cases h with
  | raised ha _ hr _ =>
    refine ⟨m.core, ?_⟩
    rw [ha]
    simp only [Core.checkpoint, hr]
  | terminated hc _ _ => exact ⟨_, hc⟩

/-- Without a safepoint only a list that the host refuses makes a condition fatal. -/
theorem fatal_after_of_no_checkpoint (hm : m ∈ stretch) (hc : m.core.checkpoint m.action = none)
    (h : m.core.fatal = none ∨ RefusedIn stretch m.core.fatal) :
    m.after.fatal = none ∨ RefusedIn stretch m.after.fatal := by
  rcases h with hnone | hrefused
  · rcases m.after_fatal with hsame | ⟨exc, hends⟩
    · exact .inl (hsame.trans hnone)
    · have hafter := hends.after
      rcases hends with hcond | hrefuse
      · obtain ⟨c, hc'⟩ := hcond.checkpoint
        rw [hc] at hc'
        cases hc'
      · exact .inr ⟨exc, hafter, m, hm, hrefuse.list_of_no_checkpoint hc⟩
  · exact .inr hrefused.after

end Moment

/-- A request that arrives while a cancellation is held is pending when the next safepoint comes. What
has become fatal meanwhile, a list made fatal that the host refused. -/
theorem Task.pending_stretch {α : Type} (t : Task S U α) {c : Core σ U} {seen kind : Interrupt}
    {before held kept after : List (Moment σ S U)} {m arrival last : Moment σ S U}
    (ht : t.trace c = before ++ m :: (held ++ arrival :: (kept ++ last :: after)))
    (hm : m.Consumes seen) (hack : ∀ x ∈ held, x.acknowledges = false)
    (hreq : arrival.Requests kind) (habsorb : arrival.core.monitor.held ≠ some .terminate)
    (harrival : arrival.core.checkpoint arrival.action = none)
    (hkept : ∀ x ∈ kept, x.core.checkpoint x.action = none) :
    last.core.monitor.Pending kind ∧
      (last.core.fatal = none ∨ Moment.RefusedIn (held ++ kept) last.core.fatal) := by
  obtain ⟨rest, -, hrest⟩ := t.exists_rest_of_append ht
  -- first the stretch in which the request is held that was consumed
  have hstart : m.after.fatal = none ∨ m.after.monitor.held = some .terminate ∨
      Moment.RefusedIn held m.after.fatal := by
    rw [hm.held, hm.after.2]
    cases seen with
    | cancel => exact .inl rfl
    | terminate => exact .inr (.inl rfl)
  obtain ⟨-, rest, c₁, ⟨hheld, hfatal⟩, hrest, -⟩ := rest.stretch_keeps
    (I := fun c => c.monitor.held ≠ none ∧
      (c.fatal = none ∨ c.monitor.held = some .terminate ∨ Moment.RefusedIn held c.fatal))
    hrest ⟨by simp [hm.held], hstart⟩
    fun x hx h => ⟨Moment.held_after (hack x hx) h.1,
      Moment.fatal_after_of_held hx (hack x hx) h.1 h.2⟩
  obtain rfl := core_of_trace hrest
  have hcancel : arrival.core.monitor.held = some .cancel := by
    obtain ⟨found, hfound⟩ := Option.ne_none_iff_exists'.mp hheld
    cases found with
    | cancel => exact hfound
    | terminate => exact absurd hfound habsorb
  -- then the one in which the new request is pending
  obtain ⟨rest, -, hrest⟩ := rest.exists_rest_of_append (hrest.trans (List.nil_append _).symm)
  have hsame : arrival.after.fatal = arrival.core.fatal :=
    (Moment.quiet harrival hreq.not_listing).fatal
  have hnow : arrival.after.fatal = none ∨ Moment.RefusedIn (held ++ kept) arrival.after.fatal := by
    rw [hsame]
    rcases hfatal with h | h | h
    · exact .inl h
    · exact absurd h habsorb
    · exact .inr (h.mono fun x hx => List.mem_append_left _ hx)
  obtain ⟨-, rest, c₂, hend, hrest, -⟩ := rest.stretch_keeps
    (I := fun c => c.monitor.Pending kind ∧
      (c.fatal = none ∨ Moment.RefusedIn (held ++ kept) c.fatal))
    hrest ⟨.inl (hreq.signaled harrival hcancel), hnow⟩
    fun x hx h => ⟨Moment.pending_after (hkept x hx) h.1,
      Moment.fatal_after_of_no_checkpoint (List.mem_append_right _ hx) (hkept x hx) h.2⟩
  obtain rfl := core_of_trace hrest
  exact hend

namespace Session

variable {e : Engine} {s : Session e (Recorded σ)} {o : Operation}
  {before between held kept after : List (Moment (Recorded σ) e.State e.Code)}
  {m arrival last : Moment (Recorded σ) e.State e.Code}

/-- Until it is acknowledged, a request that was consumed is raised by every safepoint, unless something
fatal is. -/
theorem consumed_stays_raised {kind : Interrupt}
    (htrace : s.trace o = before ++ m :: (between ++ after)) (hm : m.Consumes kind)
    (hack : ∀ x ∈ between, x.acknowledges = false) {x : Moment (Recorded σ) e.State e.Code}
    (hx : x ∈ between) :
    x.core.monitor.state ≠ .idle ∧ x.after.monitor.state ≠ .idle ∧
      (∀ c, x.core.checkpoint x.action = some c → ∃ exc,
        c.safepoint.1 = .error (.exception exc) ∧
          (exc.isCancellation = true ∨ c.fatal = some exc)) ∧
      Unasked m.core.host.log x.after.host.log := by
  obtain ⟨rest, -, hrest⟩ := Task.exists_rest_of_append _ (task_trace htrace)
  have hstart : m.after.monitor.held ≠ none := by simp [hm.held]
  obtain ⟨⟨hheld, -⟩, hheld', hlog⟩ := rest.held_stretch hrest hstart hm.unasked hack x hx
  refine ⟨Monitor.ne_idle_of_held hheld, Monitor.ne_idle_of_held hheld', ?_, hlog⟩
  intro c hc
  obtain ⟨kind, hk⟩ := Moment.held_of_checkpoint hc hheld
  exact Core.safepoint_raises hk

/-- Only a handler whose pattern names cancellations acknowledges. -/
theorem acknowledges_named (hm : m ∈ s.trace o) (hack : m.acknowledges = true) :
    ∃ exc pattern p err, m.action = .beginHandling exc ∧ CatchPattern.parse pattern = .ok p ∧
      p.namesCancellation = true ∧ p.caught? err = some exc := by
  have hnamed : m.action.Named := by
    rw [trace_of_open (open_of_mem_trace hm)] at hm
    exact Task.every_trace (Operation.routine_named e _ o s.state) m hm
  obtain ⟨core, action⟩ := m
  cases action with
  | beginHandling exc =>
    obtain ⟨pattern, p, err, hp, hcaught⟩ := hnamed
    exact ⟨exc, pattern, p, err, rfl, hp,
      CatchPattern.namesCancellation_of_caught hcaught hack, hcaught⟩
  | _ => cases hack

/-- A request that arrives while another one is held is raised by the next safepoint, whether or not
the other one has been acknowledged by then. -/
theorem request_survives {seen kind : Interrupt} {c : Core (Recorded σ) e.Code}
    (htrace : s.trace o = before ++ m :: (held ++ arrival :: (kept ++ last :: after)))
    (hm : m.Consumes seen) (hack : ∀ x ∈ held, x.acknowledges = false)
    (hreq : arrival.Requests kind) (habsorb : arrival.core.monitor.held ≠ some .terminate)
    (harrival : arrival.core.checkpoint arrival.action = none)
    (hkept : ∀ x ∈ kept, x.core.checkpoint x.action = none)
    (hc : last.core.checkpoint last.action = some c) :
    ∃ next, (next = kind ∨ next = .terminate) ∧ c.poll.monitor.state = .signaled next ∧
      ((∀ schema (h : Recorded σ), (Host.procedures schema h).1.isOk = true) →
        c.safepoint.1 = .error (.exception next.toException)) ∧
      (c.safepoint.1 = .error (.exception next.toException) ∨
        ∃ exc, c.fatal = some exc ∧ c.safepoint.1 = .error (.exception exc) ∧
          ∃ x ∈ held ++ kept, x.RefusesList exc) := by
  obtain ⟨hpending, hfatal⟩ :=
    Task.pending_stretch _ (task_trace htrace) hm hack hreq habsorb harrival hkept
  obtain ⟨next, hnext, hsignaled⟩ : ∃ next, (next = kind ∨ next = .terminate) ∧
      c.poll.monitor.state = .signaled next := by
    rcases (Moment.poll_monitor_of_checkpoint hc).pending hpending with h | h
    · exact ⟨kind, .inl rfl, h⟩
    · exact ⟨.terminate, .inr rfl, h⟩
  refine ⟨next, hnext, hsignaled, ?_⟩
  rw [← Moment.checkpoint_fatal hc] at hfatal
  rcases hfatal with hf | ⟨exc, hf, x, hx, hrefused⟩
  · have hraised : c.safepoint.1 = .error (.exception next.toException) := by
      rw [Core.safepoint_of_held hf (Monitor.held_of_signaled hsignaled)]
    exact ⟨fun _ => hraised, .inl hraised⟩
  · refine ⟨fun hlists => absurd hrefused (Moment.not_refusesList hlists), .inr ⟨exc, hf, ?_⟩⟩
    exact ⟨by rw [Core.safepoint_of_fatal hf], x, hx, hrefused⟩

/-- Once a safepoint has consumed a request, and until a handler acknowledges it or the body of the
operation is over, the monitor is never idle, every safepoint raises a cancellation or what is
fatal, and the host is asked for nothing new. Only a handler whose pattern names cancellations
acknowledges. A request that arrives before that, and is not absorbed by a termination that is held,
is pending still at the next safepoint. It is raised there, or a termination that has taken its
place, if the host refuses no list of procedures. Only a refusal that is fatal goes before it. -/
theorem cancellation_stays_raised (s : Session e (Recorded σ)) (o : Operation) :
    (∀ (before between after : List (Moment (Recorded σ) e.State e.Code)) m kind,
      s.trace o = before ++ m :: (between ++ after) →
      m.Consumes kind → (∀ x ∈ between, x.acknowledges = false) →
      (∀ c, m.core.checkpoint m.action = some c →
        c.safepoint.1 = .error (.exception kind.toException)) ∧
      m.after.monitor.state ≠ .idle ∧ Unasked m.core.host.log m.after.host.log ∧
      ∀ x ∈ between, x.core.monitor.state ≠ .idle ∧ x.after.monitor.state ≠ .idle ∧
        (∀ c, x.core.checkpoint x.action = some c → ∃ exc,
          c.safepoint.1 = .error (.exception exc) ∧
            (exc.isCancellation = true ∨ c.fatal = some exc)) ∧
        Unasked m.core.host.log x.after.host.log) ∧
    (∀ m ∈ s.trace o, m.acknowledges = true → ∃ exc pattern p err,
      m.action = .beginHandling exc ∧ CatchPattern.parse pattern = .ok p ∧
        p.namesCancellation = true ∧ p.caught? err = some exc) ∧
    (∀ (before held kept after : List (Moment (Recorded σ) e.State e.Code)) m arrival last seen kind c,
      s.trace o = before ++ m :: (held ++ arrival :: (kept ++ last :: after)) →
      m.Consumes seen → (∀ x ∈ held, x.acknowledges = false) →
      arrival.Requests kind → arrival.core.monitor.held ≠ some .terminate →
      arrival.core.checkpoint arrival.action = none →
      (∀ x ∈ kept, x.core.checkpoint x.action = none) →
      last.core.checkpoint last.action = some c →
      ∃ next, (next = kind ∨ next = .terminate) ∧ c.poll.monitor.state = .signaled next ∧
        ((∀ schema (h : Recorded σ), (Host.procedures schema h).1.isOk = true) →
          c.safepoint.1 = .error (.exception next.toException)) ∧
        (c.safepoint.1 = .error (.exception next.toException) ∨
          ∃ exc, c.fatal = some exc ∧ c.safepoint.1 = .error (.exception exc) ∧
            ∃ x ∈ held ++ kept, x.RefusesList exc)) := by
  refine ⟨?_, ?_, ?_⟩
  · intro before between after m kind htrace hm hack
    refine ⟨fun c hc => hm.raises hc, ?_, hm.unasked, ?_⟩
    · exact Monitor.ne_idle_of_held (by simp [hm.held])
    · exact fun x hx => consumed_stays_raised htrace hm hack hx
  · exact fun m hm hack => acknowledges_named hm hack
  · intro before held kept after m arrival last seen kind c htrace hm hack hreq habsorb harrival
      hkept hc
    exact request_survives htrace hm hack hreq habsorb harrival hkept hc

/-- A script that is interrupted, swallows what is raised, and asks the host for something else. -/
def undeterred : Session (Engine.scripted (.interrupted .cancel (.report .notice "once" {} fun _ =>
    .scope () (fun _ => .done ⟨.ok (), ()⟩) .done))) (Recorded MemoryHost) :=
  fresh _ () { host := {} }

theorem cancellation_stays_raised_undeterred :
    ∃ before m after, undeterred.trace (.executeInline "") = before ++ m :: after ∧
      m.Consumes .cancel ∧ ∃ x ∈ after, x.entersScope = true ∧
        Unasked m.core.host.log x.after.host.log := by
  -- before the report come a safepoint, the number of the block, its unit, the start of its load and
  -- the interruption
  have hrun : (match (undeterred.trace (.executeInline "")).drop 5 with
      | m :: after => (match m.core.checkpoint m.action with
          | some c => c.fatal.isNone && decide (c.poll.monitor.state = .signaled .cancel)
          | none => false) && after.any (fun x => x.entersScope) && after.all (!·.acknowledges)
      | [] => false) = true := by decide +kernel
  match hafter : (undeterred.trace (.executeInline "")).drop 5 with
  | [] =>
    rw [hafter] at hrun
    cases hrun
  | m :: after =>
    rw [hafter] at hrun
    simp only [Bool.and_eq_true, List.all_eq_true, Bool.not_eq_true'] at hrun
    obtain ⟨⟨hconsumes, henters⟩, hack⟩ := hrun
    have htrace : undeterred.trace (.executeInline "") =
        (undeterred.trace (.executeInline "")).take 5 ++ m :: (after ++ []) := by
      rw [List.append_nil, ← hafter, List.take_append_drop]
    have hm : m.Consumes .cancel := by
      split at hconsumes
      · rename_i c hc
        simp only [Bool.and_eq_true, Option.isNone_iff_eq_none, decide_eq_true_eq] at hconsumes
        exact ⟨c, hc, hconsumes⟩
      · cases hconsumes
    obtain ⟨x, hx, henter⟩ := List.any_eq_true.mp henters
    obtain ⟨-, -, -, hafter⟩ :=
      (cancellation_stays_raised undeterred _).1 _ after [] m .cancel htrace hm hack
    obtain ⟨-, -, -, hlog⟩ := hafter x hx
    exact ⟨_, m, after, by simpa using htrace, hm, x, hx, henter, hlog⟩

end Session

end ProcedureBridge
