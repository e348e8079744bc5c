import ProcedureBridge.Proofs.Bridge.Condition
import ProcedureBridge.Proofs.Interrupt.Monitor

/-! # Interruptions during a run

Requests arrive at any time. All else that happens to the monitor happens at safepoints, which
consume what is held, and where a cancellation begins to be handled, which acknowledges it. -/

namespace ProcedureBridge

variable {σ U S : Type}

theorem Watchdog.advance_receives (w : Watchdog) (now : Nat) (m : Monitor) :
    m.Receives (w.advance now m).2 := by
  simp only [advance]
  split
  · exact .one m .cancel
  · exact .refl m

namespace Core

theorem elapse_monitor (c : Core σ U) (time : Nat) :
    c.monitor.Receives (c.elapse time).monitor := by
  simp only [elapse]
  cases c.callWatchdog with
  | none =>
    cases c.standingWatchdog with
    | none => exact .refl _
    | some standing => exact standing.advance_receives _ _
  | some call =>
    cases c.standingWatchdog with
    | none => exact call.advance_receives _ _
    | some standing => exact (call.advance_receives _ _).trans (standing.advance_receives _ _)

/-- To raise a report marks the innermost scope and may record the exception. -/
theorem raise_eq (c : Core σ U) (report : Report) :
    (c.raise report).2 = { c.markFailed with fatal := (c.raise report).2.fatal } := by
  simp only [raise, recordFatal, markFailed]
  split
  · split <;> rfl
  · rfl

@[simp] theorem raise_monitor (c : Core σ U) (report : Report) :
    (c.raise report).2.monitor = c.monitor := by
  rw [raise_eq]
  rfl

@[simp] theorem raise_host (c : Core σ U) (report : Report) : (c.raise report).2.host = c.host := by
  rw [raise_eq]
  rfl

@[simp] theorem raise_terminated (c : Core σ U) (report : Report) :
    (c.raise report).2.terminated = c.terminated := by
  rw [raise_eq]
  rfl

/-- A watchdog that expires replaces a cancellation that is held. -/
theorem elapse_signaled {c : Core σ U} {n : Nat} {w : Watchdog}
    (hw : c.callWatchdog = some w ∨ c.standingWatchdog = some w)
    (hexp : w.expired (c.now + n) = true) (hheld : c.monitor.held = some .cancel) :
    (c.elapse n).monitor.state = .signaled .cancel := by
  -- whichever comes first, a cancellation stays one
  have hkeep : ∀ (w : Watchdog) (m : Monitor), m.held = some .cancel →
      (w.advance (c.now + n) m).2.held = some .cancel := by
    intro w m hm
    simp only [Watchdog.advance]
    split
    · exact Monitor.held_of_signaled (Monitor.signal_of_cancel hm _)
    · exact hm
  have hfire : ∀ m : Monitor, m.held = some .cancel →
      (w.advance (c.now + n) m).2.state = .signaled .cancel := by
    intro m hm
    simp only [Watchdog.advance, hexp, if_true]
    exact Monitor.signal_of_cancel hm _
  have hstay : ∀ (w : Watchdog) (m : Monitor), m.state = .signaled .cancel →
      (w.advance (c.now + n) m).2.state = .signaled .cancel := by
    intro w m hm
    simp only [Watchdog.advance]
    split
    · exact Monitor.signal_of_cancel (Monitor.held_of_signaled hm) _
    · exact hm
  simp only [elapse]
  rcases hw with hw | hw
  · rw [hw]
    cases c.standingWatchdog with
    | none => exact hfire _ hheld
    | some w' => exact hstay w' _ (hfire _ hheld)
  · rw [hw]
    cases c.callWatchdog with
    | none => exact hfire _ hheld
    | some w' => exact hfire _ (hkeep w' _ hheld)

variable [Host σ]

theorem poll_monitor (c : Core σ U) : c.monitor.Receives c.poll.monitor := by
  rw [poll]
  dsimp only
  split
  · exact .one _ _
  · exact .refl _

theorem deliver_monitor (c : Core σ U) (report : Report) :
    c.monitor.Receives (c.deliver report).monitor := by
  rw [deliver]
  dsimp only
  rw [foldl_signal]
  exact ⟨_, rfl⟩

/-- A fetch that the host refuses raises the refusal; otherwise it makes a unit or nothing. -/
theorem fetch_cases (c : Core σ U) (id : ProcedureId)
    (compile : ProcedureSource → Except Failure (ExecutionUnit U × S)) :
    (∃ report, (Host.lookup id c.host).1 = .error report ∧
      (c.fetch id compile).2 = ({ c with host := (Host.lookup id c.host).2 }.raise report).2) ∨
    ∃ units, (c.fetch id compile).2 = { c with host := (Host.lookup id c.host).2, units } := by
  simp only [fetch]
  cases Host.lookup id c.host with
  | mk result host =>
    cases result with
    | error report => exact .inl ⟨report, rfl, rfl⟩
    | ok source =>
      right
      dsimp only
      split
      · exact ⟨c.units, rfl⟩
      · exact ⟨_, rfl⟩

end Core

namespace Moment

variable [Host σ] {m : Moment σ S U} {c c' : Core σ U}

/-- What an action does behind a safepoint that lets pass. -/
theorem after_of_pass (hc : m.core.checkpoint m.action = some c) (hs : c.safepoint = (.ok (), c')) :
    (∃ scopes host handles cache, m.after = { c' with scopes, host, handles, cache }) ∨
    (∃ severity message options r, m.action = .report severity message options ∧
      Core.scriptReport severity message options = .ok r ∧
      m.after = if severity.isError then (c'.raise r).2 else c'.deliver r) ∨
    ∃ id compile cache, m.action = .obtain id compile ∧ c'.cache.peek id = none ∧
      m.after = { (c'.fetch id compile).2 with cache } := by
  obtain ⟨core, action⟩ := m
  cases action with
  | tick n =>
    left
    refine ⟨c'.scopes, c'.host, c'.handles, c'.cache, ?_⟩
    change (core.tick n).2 = c'
    simp only [Core.checkpoint] at hc
    unfold Core.tick
    dsimp only
    split at hc
    · rename_i hlate
      cases hc
      rw [if_pos hlate, hs]
    · cases hc
  | safepoint =>
    cases hc
    exact .inl ⟨c'.scopes, c'.host, c'.handles, c'.cache, congrArg Prod.snd hs⟩
  | enterScope =>
    cases hc
    left
    change ∃ scopes host handles cache, core.enterScope.2 = _
    rw [Core.enterScope, hs]
    exact ⟨_, _, c'.handles, c'.cache, rfl⟩
  | obtain id compile =>
    cases hc
    change _ ∨ _ ∨ ∃ id' compile' cache, _ ∧ _ ∧ (core.obtain id compile).2 = _
    cases hit : c'.cache.peek id with
    | some ref =>
      left
      refine ⟨c'.scopes, c'.host, c'.handles, (c'.cache.get id).2, ?_⟩
      exact congrArg Prod.snd (Core.obtain_of_hit hs hit compile)
    | none =>
      obtain ⟨cache, hafter⟩ := Core.obtain_of_miss hs hit compile
      exact .inr (.inr ⟨id, compile, cache, rfl, hit, hafter⟩)
  | report severity message options =>
    right; left
    simp only [Core.checkpoint] at hc
    split at hc
    · rename_i r hr
      cases hc
      refine ⟨severity, message, options, r, rfl, hr, ?_⟩
      change (c.reportFromScript severity message options).2 = _
      rw [Core.reportFromScript, hr]
      simp only [Core.report]
      rw [hs]
      simp only [Core.severity_scriptReport hr]
      split <;> rfl
    · cases hc
  | enterHandle handle =>
    left
    simp only [Core.checkpoint] at hc
    split at hc
    · rename_i hfresh
      cases hc
      change ∃ scopes host handles cache, (c.enterHandle handle).2 = _
      rw [Core.enterHandle, Core.enterScope, hfresh, hs]
      dsimp only
      split
      all_goals
        rename_i h
        obtain ⟨-, rfl⟩ := Prod.mk.inj h
        exact ⟨_, _, _, c'.cache, rfl⟩
    · cases hc
  | _ => cases hc

/-! ## The monitor after an action -/

/-- A cancellation begins to be handled. -/
def acknowledges (m : Moment σ S U) : Bool :=
  match m.action with
  | .beginHandling e => e.isCancellation
  | _ => false

omit [Host σ] in
theorem checkpoint_monitor (hc : m.core.checkpoint m.action = some c) :
    m.core.monitor.Receives c.monitor := by
  obtain rfl | ⟨n, -, rfl⟩ := checkpoint_cases hc
  · exact .refl _
  · exact Core.elapse_monitor m.core n

theorem monitor_of_pass (hc : m.core.checkpoint m.action = some c)
    (hs : c.safepoint = (.ok (), c')) : c'.monitor.Receives m.after.monitor := by
  obtain ⟨_, _, _, _, h⟩ | ⟨_, _, _, r, -, -, h⟩ | ⟨id, compile, _, -, -, h⟩ := after_of_pass hc hs
  · rw [h]
    exact .refl _
  · rw [h]
    split
    · rw [Core.raise_monitor]
      exact .refl _
    · exact c'.deliver_monitor r
  · rw [h]
    obtain ⟨report, -, h⟩ | ⟨units, h⟩ := c'.fetch_cases id compile
    · simp only [h, Core.raise_monitor]
      exact .refl _
    · simp only [h]
      exact .refl _

/-- From the one core to the other nothing has become fatal, requests may have arrived or a
cancellation been acknowledged, and of scopes all that can have happened is that they ended. -/
structure Quiet (acknowledged : Bool) (c c' : Core σ U) : Prop where
  fatal : c'.fatal = c.fatal
  terminated : c'.terminated = c.terminated
  monitor : (acknowledged = true ∧ c'.monitor = c.monitor.acknowledge) ∨
    c.monitor.Receives c'.monitor
  ends : ∀ {P : ScopeStack × σ → Prop}, ScopeStack.RollbackKeeps P → ScopeStack.ReleaseKeeps P →
    P (c.scopes, c.host) → P (c'.scopes, c'.host)

theorem Quiet.refl (acknowledged : Bool) (c : Core σ U) : Quiet acknowledged c c :=
  ⟨rfl, rfl, .inr (.refl _), fun _ _ h => h⟩

/-- An action that passes no safepoint asks the host for nothing but lists of procedures. -/
theorem quiet (hc : m.core.checkpoint m.action = none)
    (hl : ∀ schema, m.action ≠ .listProcedures schema) : Quiet m.acknowledges m.core m.after := by
  obtain ⟨core, action⟩ := m
  cases action with
  | interrupt kind => exact ⟨rfl, rfl, .inr (.one core.monitor kind), fun _ _ h => h⟩
  | tick n =>
    change Quiet _ core (core.tick n).2
    simp only [Core.checkpoint] at hc
    unfold Core.tick
    dsimp only
    split at hc
    · cases hc
    · rename_i hearly
      rw [if_neg hearly]
      exact ⟨rfl, rfl, .inr (core.elapse_monitor n), fun _ _ h => h⟩
  | report severity message options =>
    change Quiet _ core (core.reportFromScript severity message options).2
    simp only [Core.checkpoint] at hc
    split at hc
    · cases hc
    · rename_i hr
      simp only [Core.reportFromScript, hr]
      exact .refl _ _
  | resolveScope handle resolution =>
    exact ⟨rfl, rfl, .inr (.refl _), fun hb hr h => ScopeStack.resolve_keeps hb hr handle resolution h⟩
  | abortThrough handle =>
    exact ⟨rfl, rfl, .inr (.refl _), fun hb _ h => ScopeStack.abortThrough_keeps hb handle h⟩
  | beginHandling e =>
    change Quiet e.isCancellation core (core.beginHandling e)
    unfold Core.beginHandling
    split
    · rename_i he
      exact ⟨rfl, rfl, .inl ⟨he, rfl⟩, fun _ _ h => h⟩
    · exact ⟨rfl, rfl, .inr (.refl _), fun _ _ h => h⟩
  | enterHandle handle =>
    change Quiet _ core (core.enterHandle handle).2
    simp only [Core.checkpoint] at hc
    unfold Core.enterHandle
    split
    · rename_i hfresh
      simp [hfresh] at hc
    · exact .refl _ _
  | resolveHandle handle resolution =>
    change Quiet _ core (core.resolveHandle handle resolution).2
    unfold Core.resolveHandle Core.resolveScope
    split
    · rename_i scope _
      split
      all_goals
        rename_i h
        obtain ⟨-, rfl⟩ := Prod.mk.inj h
        exact ⟨rfl, rfl, .inr (.refl _),
          fun hb hr h => ScopeStack.resolve_keeps hb hr scope resolution h⟩
    all_goals exact .refl _ _
  | beginLoad ref =>
    change Quiet _ core (core.beginLoad ref).2
    unfold Core.beginLoad
    split
    · exact .refl _ _
    · split <;> exact ⟨rfl, rfl, .inr (.refl _), fun _ _ h => h⟩
  | listProcedures schema => exact absurd rfl (hl schema)
  | safepoint | enterScope | obtain => cases hc
  | endHandling | newHandle | handleStatus | addUnit | endLoad | unit | invalidate | clearCache
  | countInline => exact ⟨rfl, rfl, .inr (.refl _), fun _ _ h => h⟩

/-- A list of procedures that the host refuses raises the refusal. -/
theorem listing_cases {schema : String} (ha : m.action = .listProcedures schema) :
    (∃ report, (Host.procedures schema m.core.host).1 = .error report ∧ m.after =
      ({ m.core with host := (Host.procedures schema m.core.host).2 }.raise report).2) ∨
    m.after = { m.core with host := (Host.procedures schema m.core.host).2 } := by
  obtain ⟨core, action⟩ := m
  cases ha
  change (∃ report, _ ∧ (core.listProcedures schema).2 = _) ∨ (core.listProcedures schema).2 = _
  simp only [Core.listProcedures]
  cases Host.procedures schema core.host with
  | mk result host =>
    cases result with
    | ok ids => exact .inr rfl
    | error report => exact .inl ⟨report, rfl, rfl⟩

theorem monitor_of_no_checkpoint (hc : m.core.checkpoint m.action = none) :
    (m.acknowledges = true ∧ m.after.monitor = m.core.monitor.acknowledge) ∨
      m.core.monitor.Receives m.after.monitor := by
  by_cases hl : ∃ schema, m.action = .listProcedures schema
  · obtain ⟨schema, ha⟩ := hl
    right
    obtain ⟨report, -, h⟩ | h := listing_cases ha
    · rw [h, Core.raise_monitor]
      exact .refl _
    · rw [h]
      exact .refl _
  · exact (quiet hc fun schema ha => hl ⟨schema, ha⟩).monitor

/-- A safepoint that asks for requests consumes what is held, a cancellation that begins to be
handled is acknowledged, and beyond that all that happens to the monitor is that requests arrive. -/
theorem after_monitor (m : Moment σ S U) :
    (∃ c, m.core.checkpoint m.action = some c ∧ c.fatal = none ∧
      c.poll.monitor.check.2.Receives m.after.monitor) ∨
    (m.acknowledges = true ∧ m.after.monitor = m.core.monitor.acknowledge) ∨
    ((∀ c, m.core.checkpoint m.action = some c → c.fatal ≠ none) ∧
      m.core.monitor.Receives m.after.monitor) := by
  cases hc : m.core.checkpoint m.action with
  | none =>
    rcases monitor_of_no_checkpoint hc with h | h
    · exact .inr (.inl h)
    · exact .inr (.inr ⟨by simp, h⟩)
  | some c =>
    cases hf : c.fatal with
    | some e =>
      refine .inr (.inr ⟨fun _ h => ?_, ?_⟩)
      · cases h
        simp [hf]
      · rw [after_of_raise hc (Core.safepoint_of_fatal hf)]
        change m.core.monitor.Receives c.monitor
        exact checkpoint_monitor hc
    | none =>
      refine .inl ⟨c, rfl, hf, ?_⟩
      cases hk : c.poll.monitor.held with
      | some kind =>
        rw [after_of_raise hc (Core.safepoint_of_held hf hk)]
        exact .refl _
      | none =>
        rw [Monitor.check_of_none hk]
        exact monitor_of_pass hc (Core.safepoint_of_clear hf hk)

theorem poll_monitor_of_checkpoint (hc : m.core.checkpoint m.action = some c) :
    m.core.monitor.Receives c.poll.monitor :=
  (checkpoint_monitor hc).trans c.poll_monitor

/-- A request is held until it is acknowledged. -/
theorem held_after (hm : m.acknowledges = false) (h : m.core.monitor.held ≠ none) :
    m.after.monitor.held ≠ none := by
  rcases after_monitor m with ⟨c, hc, -, hr⟩ | ⟨hack, -⟩ | ⟨-, hr⟩
  · obtain ⟨kind, hk⟩ :=
      Option.ne_none_iff_exists'.mp ((poll_monitor_of_checkpoint hc).held h)
    refine hr.held ?_
    simp [(Monitor.state_eq_consumed.mp (Monitor.check_of_held hk)).1]
  · rw [hm] at hack
    cases hack
  · exact hr.held h

theorem held_terminate_after (hm : m.acknowledges = false)
    (h : m.core.monitor.held = some .terminate) : m.after.monitor.held = some .terminate := by
  rcases after_monitor m with ⟨c, hc, -, hr⟩ | ⟨hack, -⟩ | ⟨-, hr⟩
  · have hpoll : c.poll.monitor.held = some .terminate := by
      rw [(poll_monitor_of_checkpoint hc).of_terminate h]
      exact h
    have hcheck := (Monitor.state_eq_consumed.mp (Monitor.check_of_held hpoll)).1
    rw [hr.of_terminate hcheck]
    exact hcheck
  · rw [hm] at hack
    cases hack
  · rw [hr.of_terminate h]
    exact h

/-- Without a safepoint a request stays pending, also through an acknowledgement. -/
theorem pending_after {kind : Interrupt} (hc : m.core.checkpoint m.action = none)
    (h : m.core.monitor.Pending kind) : m.after.monitor.Pending kind := by
  rcases monitor_of_no_checkpoint hc with ⟨-, hack⟩ | hr
  · rw [hack, h.acknowledge]
    exact h
  · exact hr.pending h

/-- An interruption is requested while the action is performed: by someone else, or by a watchdog
whose time has come. -/
inductive Requests (m : Moment σ S U) : Interrupt → Prop
  | interrupt {kind : Interrupt} : m.action = .interrupt kind → Requests m kind
  | expired {n : Nat} {w : Watchdog} : m.action = .tick n →
      m.core.callWatchdog = some w ∨ m.core.standingWatchdog = some w →
      w.expired (m.core.now + n) = true → Requests m .cancel

omit [Host σ] in
theorem Requests.not_listing {kind : Interrupt} (h : m.Requests kind) (schema : String) :
    m.action ≠ .listProcedures schema := by
  cases h with
  | interrupt ha => simp [ha]
  | expired ha => simp [ha]

/-- A request that finds a cancellation is pending then. -/
theorem Requests.signaled {kind : Interrupt} (h : m.Requests kind)
    (hc : m.core.checkpoint m.action = none) (hheld : m.core.monitor.held = some .cancel) :
    m.after.monitor.state = .signaled kind := by
  obtain ⟨core, action⟩ := m
  cases h with
  | interrupt ha =>
    cases ha
    exact Monitor.signal_of_cancel hheld kind
  | @expired n w ha hw hexp =>
    cases ha
    simp only [Core.checkpoint] at hc
    split at hc
    · cases hc
    · rename_i hearly
      change (core.tick n).2.monitor.state = _
      unfold Core.tick
      dsimp only
      rw [if_neg hearly]
      exact Core.elapse_signaled hw hexp hheld

end Moment

end ProcedureBridge
