import ProcedureBridge.Proofs.Session.Cancellation

/-! # Requests that arrive during a run

Someone interrupts the script, the host does so while a message is delivered, or the time comes that
the client has set. The request is then pending until a safepoint consumes it. Beside requests there
is the watchdog of the call, which fires when its time has come and asks for a cancellation too. -/

namespace ProcedureBridge

variable {σ U S : Type}

/-- The watchdog of the client signals last when time passes. -/
theorem Core.elapse_standing {c : Core σ U} {n : Nat} {w : Watchdog}
    (hw : c.standingWatchdog = some w) (hexp : w.expired (c.now + n) = true) :
    ∃ m, c.monitor.Receives m ∧ (c.elapse n).monitor = m.signal .cancel := by
  cases hcall : c.callWatchdog with
  | none =>
    refine ⟨c.monitor, .refl _, ?_⟩
    simp only [elapse, hcall, hw, Watchdog.advance, hexp, if_true]
  | some w' =>
    refine ⟨(w'.advance (c.now + n) c.monitor).2, w'.advance_receives _ _, ?_⟩
    simp only [elapse, hcall, hw]
    rw [Watchdog.advance, if_pos hexp]

variable [Host σ]

namespace Moment

variable {m : Moment σ S U} {kind : Interrupt}

/-- Someone asks for an interruption while the action is performed. -/
inductive Asks (m : Moment σ S U) (kind : Interrupt) : Prop
  | interrupt : m.action = .interrupt kind → Asks m kind
  | delivered {severity : Severity} {message : String} {options : ReportOptions} {r : Report}
      {c : Core σ U} : m.action = .report severity message options →
      Core.scriptReport severity message options = .ok r → severity.isError = false →
      m.core.safepoint = (.ok (), c) → kind ∈ (Host.deliver r c.host).1 → Asks m kind
  | watched {n : Nat} {w : Watchdog} : m.action = .tick n → m.core.checkpoint m.action = none →
      m.core.standingWatchdog = some w → w.expired (m.core.now + n) = true → kind = .cancel →
      Asks m kind

/-- The time of the call has come. -/
def Expires (m : Moment σ S U) : Prop :=
  ∃ n w, m.action = .tick n ∧ m.core.callWatchdog = some w ∧ w.expired (m.core.now + n) = true

theorem canonical_after (h : m.core.monitor.Canonical) : m.after.monitor.Canonical := by
  rcases after_monitor m with ⟨c, hc, -, hr⟩ | ⟨-, hack⟩ | ⟨-, hr⟩
  · exact (h.receives (poll_monitor_of_checkpoint hc)).check.receives hr
  · rw [hack]
    exact h.acknowledge
  · exact h.receives hr

/-- A request is pending when it has arrived, unless a termination has been consumed. -/
theorem Asks.pending (ha : m.Asks kind) (h : m.core.monitor.Canonical) :
    m.after.monitor.Pending kind ∨ m.core.monitor.state = .consumed .terminate := by
  by_cases hterm : m.core.monitor.state = .consumed .terminate
  · exact .inr hterm
  left
  obtain ⟨core, action⟩ := m
  cases ha with
  | interrupt ha =>
    cases ha
    exact h.pending_signal hterm kind
  | @delivered severity message options r c ha hr hsev hs hk =>
    cases ha
    obtain ⟨-, hheld, rfl⟩ := Core.safepoint_ok hs
    have hafter : (⟨core, .report severity message options⟩ : Moment σ S U).after =
        core.poll.deliver r := by
      change (core.reportFromScript severity message options).2 = _
      rw [Core.reportFromScript, hr]
      simp only [Core.report]
      rw [hs]
      simp only [Core.severity_scriptReport hr, hsev, Bool.false_eq_true, if_false]
    have hidle : core.poll.monitor.state ≠ .consumed .terminate := by
      rw [Monitor.state_eq_idle.mpr hheld]
      exact fun hx => by cases hx
    rw [hafter, Core.deliver]
    dsimp only
    rw [Core.foldl_signal]
    exact (h.receives core.poll_monitor).pending_foldl hidle hk
  | @watched n w ha hc hw hexp hk =>
    cases ha
    cases hk
    have hafter : (⟨core, .tick n⟩ : Moment σ S U).after.monitor = (core.elapse n).monitor := by
      simp only [Core.checkpoint] at hc
      change (core.tick n).2.monitor = _
      unfold Core.tick
      dsimp only
      split at hc
      · cases hc
      · rename_i hearly
        rw [if_neg hearly]
    obtain ⟨m, hreceives, helapse⟩ := Core.elapse_standing hw hexp
    rw [hafter, helapse]
    exact (h.receives hreceives).pending_signal (fun hx => hterm (hreceives.consumed hx)) _

theorem not_consumes (hc : m.core.checkpoint m.action = none) (seen : Interrupt) :
    ¬ m.Consumes seen := by
  rintro ⟨c, hsome, -⟩
  rw [hc] at hsome
  cases hsome

/-- A request stays pending as long as no safepoint consumes it. -/
theorem pending_of_unconsumed (h : m.core.monitor.Pending kind) (hu : ∀ seen, ¬ m.Consumes seen) :
    m.after.monitor.Pending kind := by
  rcases after_monitor m with ⟨c, hc, hf, -⟩ | ⟨-, hack⟩ | ⟨-, hr⟩
  · rcases (poll_monitor_of_checkpoint hc).pending h with hs | hs
    · exact absurd ⟨c, hc, hf, hs⟩ (hu kind)
    · exact absurd ⟨c, hc, hf, hs⟩ (hu .terminate)
  · rw [hack, h.acknowledge]
    exact h
  · exact hr.pending h

end Moment

namespace Core

@[simp] theorem poll_callWatchdog (c : Core σ U) : c.poll.callWatchdog = c.callWatchdog := by
  rw [poll]
  dsimp only
  split <;> rfl

omit [Host σ] in
@[simp] theorem raise_callWatchdog (c : Core σ U) (report : Report) :
    (c.raise report).2.callWatchdog = c.callWatchdog := by
  rw [raise_eq]
  rfl

omit [Host σ] in
theorem elapse_callWatchdog (c : Core σ U) (n : Nat) :
    (c.elapse n).callWatchdog = c.callWatchdog ∨ ∃ w, c.callWatchdog = some w ∧
      w.expired (c.now + n) = true ∧ (c.elapse n).callWatchdog = some ({ w with fired := true } : Watchdog) := by
  cases hw : c.callWatchdog with
  | none =>
    left
    simp only [elapse, hw]
  | some w =>
    cases hexp : w.expired (c.now + n) with
    | false =>
      left
      simp only [elapse, hw, Watchdog.advance, hexp, Bool.false_eq_true, if_false]
    | true =>
      right
      refine ⟨w, rfl, hexp, ?_⟩
      simp only [elapse, hw, Watchdog.advance, hexp, if_true]

end Core

namespace Moment

theorem callWatchdog_of_no_checkpoint {m : Moment σ S U}
    (hc : m.core.checkpoint m.action = none) :
    m.after.callWatchdog = m.core.callWatchdog ∨
      ∃ n, m.action = .tick n ∧ m.after.callWatchdog = (m.core.elapse n).callWatchdog := by
  obtain ⟨core, action⟩ := m
  cases action with
  | tick n =>
    refine .inr ⟨n, rfl, ?_⟩
    change (core.tick n).2.callWatchdog = _
    simp only [Core.checkpoint] at hc
    unfold Core.tick
    dsimp only
    split at hc
    · cases hc
    · rename_i hearly
      rw [if_neg hearly]
  | safepoint | enterScope | obtain => cases hc
  | report severity message options =>
    left
    change (core.reportFromScript severity message options).2.callWatchdog = _
    simp only [Core.checkpoint] at hc
    split at hc
    · cases hc
    · rename_i hr
      simp only [Core.reportFromScript, hr]
  | beginHandling e =>
    left
    change (core.beginHandling e).callWatchdog = _
    unfold Core.beginHandling
    split <;> rfl
  | enterHandle handle =>
    left
    change (core.enterHandle handle).2.callWatchdog = _
    simp only [Core.checkpoint] at hc
    unfold Core.enterHandle
    split
    · rename_i hfresh
      simp [hfresh] at hc
    · rfl
  | resolveHandle handle resolution =>
    left
    change (core.resolveHandle handle resolution).2.callWatchdog = _
    unfold Core.resolveHandle Core.resolveScope
    split
    · split
      all_goals
        rename_i h
        obtain ⟨-, rfl⟩ := Prod.mk.inj h
        rfl
    all_goals rfl
  | beginLoad ref =>
    left
    change (core.beginLoad ref).2.callWatchdog = _
    unfold Core.beginLoad
    split
    · rfl
    · split <;> rfl
  | listProcedures schema =>
    left
    obtain ⟨report, -, h⟩ | h := listing_cases (m := ⟨core, .listProcedures schema⟩) rfl
    · rw [h, Core.raise_callWatchdog]
    · rw [h]
  | interrupt | resolveScope | abortThrough | endHandling | newHandle | handleStatus | addUnit
  | endLoad | unit | invalidate | clearCache | countInline => exact .inl rfl

/-- Behind a checkpoint the watchdog is what it is there. -/
theorem callWatchdog_of_checkpoint {m : Moment σ S U} {c : Core σ U}
    (hc : m.core.checkpoint m.action = some c) : m.after.callWatchdog = c.callWatchdog := by
  cases hf : c.fatal with
  | some e =>
    rw [after_of_raise hc (Core.safepoint_of_fatal hf)]
    rfl
  | none =>
    cases hk : c.poll.monitor.held with
    | some kind =>
      rw [after_of_raise hc (Core.safepoint_of_held hf hk)]
      exact Core.poll_callWatchdog c
    | none =>
      obtain ⟨_, _, _, _, h⟩ | ⟨_, _, _, r, -, -, h⟩ | ⟨id, compile, _, -, -, h⟩ :=
        after_of_pass hc (Core.safepoint_of_clear hf hk)
      · rw [h]
        exact Core.poll_callWatchdog c
      · rw [h]
        split
        · simp
        · rw [Core.deliver]
          dsimp only
          rw [Core.foldl_signal]
          exact Core.poll_callWatchdog c
      · rw [h]
        obtain ⟨report, -, h⟩ | ⟨units, h⟩ := c.poll.fetch_cases id compile
        · simp [h]
        · simp [h]

/-- Only its time changes the watchdog of a call. -/
theorem after_callWatchdog (m : Moment σ S U) :
    m.after.callWatchdog = m.core.callWatchdog ∨ m.Expires := by
  have htick : ∀ n, m.action = .tick n →
      m.after.callWatchdog = (m.core.elapse n).callWatchdog →
      m.after.callWatchdog = m.core.callWatchdog ∨ m.Expires := by
    intro n ha hafter
    obtain hsame | ⟨w, hw, hexp, -⟩ := m.core.elapse_callWatchdog n
    · exact .inl (hafter.trans hsame)
    · exact .inr ⟨n, w, ha, hw, hexp⟩
  cases hc : m.core.checkpoint m.action with
  | none =>
    obtain hsame | ⟨n, ha, hafter⟩ := callWatchdog_of_no_checkpoint hc
    · exact .inl hsame
    · exact htick n ha hafter
  | some c =>
    have hafter := callWatchdog_of_checkpoint hc
    obtain rfl | ⟨n, ha, rfl⟩ := checkpoint_cases hc
    · exact .inl hafter
    · exact htick n ha hafter

end Moment

end ProcedureBridge
