import ProcedureBridge.Proofs.Bridge.Interruption
import ProcedureBridge.Proofs.Session.Fatal

/-! # When an operation ends the session

A session ends with an operation that has met a fatal condition, or that comes to a fatal failure.
The host can bring a fatal condition about by what it answers to a lookup or a listing. When it
refuses to begin, release or roll back a subtransaction it does not: however severe its report is,
a script that swallows it has only a scope that failed. -/

namespace ProcedureBridge

variable {σ U S : Type}

namespace Core

theorem raise_fatal {c : Core σ U} (hf : c.fatal = none) {report : Report}
    (hreport : report.severity.isFatal = true) :
    (c.raise report).2.fatal = some (.raised report c.handling.head?) := by
  have hexc : (Exception.raised report c.handling.head?).isFatal = true := by
    rw [Exception.isFatal, Exception.severity_raised]
    exact hreport
  simp [raise, hexc, recordFatal, hf, markFailed]

/-- Raising a report makes it the fatal condition of the call, or leaves that as it is. -/
theorem raise_fatal_cases (c : Core σ U) (report : Report) :
    (c.raise report).2.fatal = c.fatal ∨ report.severity.isFatal = true ∧ c.fatal = none := by
  cases hf : c.fatal with
  | some e =>
    left
    simp only [raise, recordFatal, markFailed]
    split <;> simp [hf]
  | none =>
    by_cases hsev : report.severity.isFatal = true
    · exact .inr ⟨hsev, rfl⟩
    · have hexc : (Exception.raised report c.handling.head?).isFatal = false := by
        rw [Exception.isFatal, Exception.severity_raised]
        simpa using hsev
      left
      simp [raise, hexc, markFailed, hf]

end Core

variable [Host σ]

namespace Moment

variable {m : Moment σ S U} {exc : Exception}

/-- The host refuses a text or a list of procedures with a report that is fatal. -/
inductive RefusesFatally (m : Moment σ S U) : Exception → Prop
  | lookup {c : Core σ U} {id : ProcedureId}
      {compile : ProcedureSource → Except Failure (ExecutionUnit U × S)} {report : Report} :
      m.action = .obtain id compile → m.core.safepoint = (.ok (), c) → c.cache.peek id = none →
      (Host.lookup id c.host).1 = .error report → report.severity.isFatal = true →
      RefusesFatally m (.raised report m.core.handling.head?)
  | listing {schema : String} {report : Report} :
      m.action = .listProcedures schema → m.core.fatal = none →
      (Host.procedures schema m.core.host).1 = .error report → report.severity.isFatal = true →
      RefusesFatally m (.raised report m.core.handling.head?)

/-- A scope is asked for. -/
def entersScope (m : Moment σ S U) : Bool :=
  match m.action with
  | .enterScope => true
  | _ => false

/-- The moment brings about what ends the session. -/
def Ends (m : Moment σ S U) (exc : Exception) : Prop := m.Condemns exc ∨ m.RefusesFatally exc

theorem Ends.isFatal (h : m.Ends exc) : exc.isFatal = true := by
  rcases h with h | h
  · exact h.isFatal
  · cases h with
    | lookup _ _ _ _ hsev =>
      rw [Exception.isFatal, Exception.severity_raised]
      exact hsev
    | listing _ _ _ hsev =>
      rw [Exception.isFatal, Exception.severity_raised]
      exact hsev

/-- The condition is recorded. -/
theorem Ends.after (h : m.Ends exc) : m.after.fatal = some exc := by
  rcases h with h | h
  · exact h.after
  · cases h with
    | @lookup c id compile report ha hs hmiss hlook hsev =>
      obtain ⟨hf, -, rfl⟩ := Core.safepoint_ok hs
      obtain ⟨core, action⟩ := m
      cases ha
      obtain ⟨cache, hafter⟩ := Core.obtain_of_miss hs hmiss compile
      have hrefuse : Host.lookup id core.poll.host =
          (.error report, (Host.lookup id core.poll.host).2) := Prod.ext hlook rfl
      have hraise := Core.raise_fatal (c := { core.poll with host := (Host.lookup id core.poll.host).2 })
        ((Core.poll_fatal core).trans hf) hsev
      change (core.obtain id compile).2.fatal = _
      rw [hafter, Core.fetch, hrefuse]
      refine hraise.trans ?_
      change some (Exception.raised report core.poll.handling.head?) = _
      rw [Core.poll_handling]
    | @listing schema report ha hf hlist hsev =>
      obtain ⟨core, action⟩ := m
      cases ha
      have hrefuse : Host.procedures schema core.host =
          (.error report, (Host.procedures schema core.host).2) := Prod.ext hlist rfl
      change (core.listProcedures schema).2.fatal = _
      rw [Core.listProcedures, hrefuse]
      exact Core.raise_fatal (c := { core with host := (Host.procedures schema core.host).2 }) hf hsev

/-- No other moment changes the fatal condition of a call. -/
theorem after_fatal (m : Moment σ S U) : m.after.fatal = m.core.fatal ∨ ∃ exc, m.Ends exc := by
  cases hc : m.core.checkpoint m.action with
  | none =>
    by_cases hl : ∃ schema, m.action = .listProcedures schema
    · obtain ⟨schema, ha⟩ := hl
      obtain ⟨report, hlist, h⟩ | h := listing_cases ha
      · obtain hsame | ⟨hsev, hf⟩ := Core.raise_fatal_cases
          { m.core with host := (Host.procedures schema m.core.host).2 } report
        · exact .inl (h ▸ hsame)
        · exact .inr ⟨_, .inr (.listing ha hf hlist hsev)⟩
      · exact .inl (by rw [h])
    · exact .inl (quiet hc fun schema ha => hl ⟨schema, ha⟩).fatal
  | some c =>
    have hcore := checkpoint_fatal hc
    cases hf : c.fatal with
    | some e =>
      left
      rw [after_of_raise hc (Core.safepoint_of_fatal hf), ← hcore]
      rfl
    | none =>
      cases hk : c.poll.monitor.held with
      | some kind =>
        cases kind with
        | terminate => exact .inr ⟨_, .inl (.terminated hc hf hk)⟩
        | cancel =>
          left
          rw [after_of_raise hc (Core.safepoint_of_held hf hk), ← hcore, hf]
          rfl
      | none =>
        have hs := Core.safepoint_of_clear hf hk
        obtain ⟨_, _, _, _, h⟩ | ⟨severity, message, options, r, ha, hr, h⟩ |
          ⟨id, compile, _, ha, hmiss, h⟩ := after_of_pass hc hs
        · left
          rw [h, ← hcore]
          exact Core.poll_fatal c
        · have hcond : m.core = c := checkpoint_core hc (by simp [ha])
          rw [hcond, h]
          split
          · obtain hsame | ⟨hsev, -⟩ := Core.raise_fatal_cases c.poll r
            · exact .inl (hsame.trans (Core.poll_fatal c))
            · rw [Core.severity_scriptReport hr] at hsev
              exact .inr ⟨_, .inl (.raised ha hsev hr (by rw [hcond, hs]))⟩
          · left
            rw [Core.deliver]
            dsimp only
            rw [Core.foldl_signal]
            exact Core.poll_fatal c
        · have hcond : m.core = c := checkpoint_core hc (by simp [ha])
          rw [hcond, h]
          obtain ⟨report, hlook, h⟩ | ⟨units, h⟩ := c.poll.fetch_cases id compile
          · simp only [h]
            obtain hsame | ⟨hsev, -⟩ := Core.raise_fatal_cases
              { c.poll with host := (Host.lookup id c.poll.host).2 } report
            · exact .inl (hsame.trans (Core.poll_fatal c))
            · exact .inr ⟨_, .inr (.lookup ha (by rw [hcond, hs]) hmiss hlook hsev)⟩
          · simp only [h]
            exact .inl (Core.poll_fatal c)

/-- A termination that was consumed has been recorded. -/
theorem recorded_of_consumed
    (h : m.core.monitor.state = .consumed .terminate → m.core.fatal ≠ none) :
    m.after.monitor.state = .consumed .terminate → m.after.fatal ≠ none := by
  intro hafter
  rcases after_monitor m with ⟨c, hc, hf, hm⟩ | ⟨-, hm⟩ | ⟨-, hm⟩
  · have hseen := hm.consumed hafter
    cases hk : c.poll.monitor.held with
    | none =>
      rw [Monitor.check_of_none hk, Monitor.state_eq_idle.mpr hk] at hseen
      cases hseen
    | some kind =>
      rw [Monitor.check_of_held hk] at hseen
      cases hseen
      rw [after_of_raise hc (Core.safepoint_of_held hf hk)]
      simp [Core.markFailed]
  · rw [hm] at hafter
    exact absurd hafter (Monitor.acknowledge_unseen _ _)
  · obtain ⟨e, he⟩ := Option.ne_none_iff_exists'.mp (h (hm.consumed hafter))
    have hsame : m.after.fatal = some e := (fatal_lasting e).after m he
    simp [hsame]

/-- No action ends the session: only the call boundary does. -/
theorem after_terminated (m : Moment σ S U) : m.after.terminated = m.core.terminated := by
  cases hc : m.core.checkpoint m.action with
  | none =>
    by_cases hl : ∃ schema, m.action = .listProcedures schema
    · obtain ⟨schema, ha⟩ := hl
      obtain ⟨report, -, h⟩ | h := listing_cases ha
      · rw [h, Core.raise_terminated]
      · rw [h]
    · exact (quiet hc fun schema ha => hl ⟨schema, ha⟩).terminated
  | some c =>
    have hcore : c.terminated = m.core.terminated := by
      obtain rfl | ⟨n, -, rfl⟩ := checkpoint_cases hc
      · rfl
      · rfl
    rw [← hcore]
    cases hf : c.fatal with
    | some e =>
      rw [after_of_raise hc (Core.safepoint_of_fatal hf)]
      rfl
    | none =>
      cases hk : c.poll.monitor.held with
      | some kind =>
        rw [after_of_raise hc (Core.safepoint_of_held hf hk)]
        exact Core.poll_terminated c
      | none =>
        obtain ⟨_, _, _, _, h⟩ | ⟨_, _, _, r, -, -, h⟩ | ⟨id, compile, _, -, -, h⟩ :=
          after_of_pass hc (Core.safepoint_of_clear hf hk)
        · rw [h]
          exact Core.poll_terminated c
        · rw [h]
          split
          · simp
          · rw [Core.deliver]
            dsimp only
            rw [Core.foldl_signal]
            exact Core.poll_terminated c
        · rw [h]
          obtain ⟨report, -, h⟩ | ⟨units, h⟩ := c.poll.fetch_cases id compile
          · simp [h]
          · simp [h]

end Moment

/-- A fatal condition that a run leaves was there before, or some moment of the run has brought it
about. -/
theorem Task.run_fatal {α : Type} (t : Task S U α) (c : Core σ U) :
    (t.run c).2.fatal = c.fatal ∨ ∃ m ∈ t.trace c, ∃ exc, m.Ends exc := by
  induction t generalizing c with
  | pure a => exact .inl rfl
  | act action next ih =>
    rw [run_act, trace_act]
    rcases ih (c.perform action).1 (Moment.after ⟨c, action⟩) with hrun | ⟨m, hm, hends⟩
    · rcases Moment.after_fatal ⟨c, action⟩ with hfirst | hfirst
      · exact .inl (hrun.trans hfirst)
      · exact .inr ⟨_, .head _, hfirst⟩
    · exact .inr ⟨m, .tail _ hm, hends⟩

/-- The report of the failure is fatal. -/
def Failure.endsSession (f : Failure) : Bool :=
  match f, f.disposition with
  | .terminated, _ | _, .suppress _ => false
  | _, .report report => report.severity.isFatal

namespace Session

variable {e : Engine}

/-- What the body of an operation comes to. -/
def outcome (s : Session e σ) (o : Operation) : Except Failure o.Answer :=
  (Task.run (o.routine e s.options.entryPoint s.state) (armCall s.core)).1.1

theorem reportFailure_terminated {c : Core σ e.Code} (hc : c.terminated = false) (f : Failure) :
    (reportFailure c f).2.terminated = f.endsSession := by
  have hreport : ∀ report : Report,
      (if report.severity.isFatal then terminate c else c).terminated =
        report.severity.isFatal := by
    intro report
    split
    · rename_i h
      rw [h]
      rfl
    · rename_i h
      rw [hc]
      simpa using h
  unfold reportFailure Failure.endsSession
  split
  · exact hc
  · rename_i hne
    dsimp only
    rw [hreport]
    cases f with
    | terminated => exact absurd rfl hne
    | script err =>
      simp only [Failure.disposition]
      cases err.carried with
      | none => rfl
      | some carried => cases carried <;> rfl
    | _ => rfl

omit [Host σ] in
/-- To disarm the watchdog at most takes back a request. -/
theorem settleCall_cases (c : Core σ e.Code) :
    ∃ monitor callWatchdog, settleCall c = { c with monitor, callWatchdog } ∧
      (monitor = c.monitor ∨ monitor = .idle) := by
  simp only [settleCall]
  split
  · exact ⟨c.monitor, c.callWatchdog, rfl, .inl rfl⟩
  · rename_i w _
    refine ⟨w.settle c.monitor, none, rfl, ?_⟩
    simp only [Watchdog.settle, Monitor.withdraw]
    split
    · split
      · exact .inr rfl
      · exact .inl rfl
    · exact .inl rfl

omit [Host σ] in
/-- If a termination that was observed has been recorded, what was recorded is all that is fatal. -/
theorem takeFatal_settleCall {c : Core σ e.Code}
    (hseen : c.monitor.state = .consumed .terminate → c.fatal ≠ none) :
    (settleCall c).takeFatal.1 = c.fatal := by
  obtain ⟨monitor, callWatchdog, hsettle, hmonitor⟩ := settleCall_cases c
  rw [hsettle]
  cases hf : c.fatal with
  | some exc => rfl
  | none =>
    have hunseen : monitor.state ≠ .consumed .terminate := by
      rcases hmonitor with rfl | rfl
      · exact fun h => hseen h hf
      · exact Monitor.idle_unseen _
    simp [Core.takeFatal]

/-- With nothing fatal recorded, only a fatal failure ends the session. -/
theorem finish_terminated {α : Type} {c : Core σ e.Code} (hc : c.terminated = false)
    (hf : c.fatal = none) (hm : c.monitor.state ≠ .consumed .terminate)
    (result : Except Failure α) :
    (finish 0 result (settleCall c)).2.terminated = true ↔
      ∃ f, result = .error f ∧ f.endsSession = true := by
  obtain ⟨monitor, callWatchdog, hsettle, -⟩ := settleCall_cases c
  have htake : (settleCall c).takeFatal.1 = none :=
    (takeFatal_settleCall fun h => absurd h hm).trans hf
  have hclean : (cleaned 0 (settleCall c)).terminated = false := by
    rw [hsettle]
    exact hc
  rw [finish_eq, htake]
  cases result with
  | error f =>
    simp [verdict, reportFailure_terminated hclean]
  | ok a =>
    -- scopes left open and errors outside of every scope are no fatal failures
    unfold verdict
    dsimp only
    split
    · rename_i h
      split at h
      · cases h
      · split at h
        · cases h
        · simp [hclean]
    · rename_i f h
      have hmild : f.endsSession = false := by
        split at h
        · cases h
          rfl
        · split at h
          · cases h
            rfl
          · cases h
      simp [reportFailure_terminated hclean, hmild]

/-- A termination that a run observes is recorded. -/
theorem recorded_of_run {α : Type} {c : Core σ e.Code} (hc : Settled c)
    (t : Task e.State e.Code α) :
    (t.run (armCall c)).2.monitor.state = .consumed .terminate →
      (t.run (armCall c)).2.fatal ≠ none := by
  refine t.run_keeps (P := fun c => c.monitor.state = .consumed .terminate → c.fatal ≠ none) ?_ ?_
  · exact fun _ hseen => Moment.recorded_of_consumed hseen
  · exact fun hseen => absurd hseen (hc.monitor _)

/-- The core of a body that is over: a termination that was consumed has been recorded, and the
session has not been ended. -/
theorem body_end {s : Session e σ} (ht : s.isTerminated = false) (hs : Settled s.core)
    (o : Operation) :
    let c := (Task.run (o.routine e s.options.entryPoint s.state) (armCall s.core)).2
    c.terminated = false ∧ (c.monitor.state = .consumed .terminate → c.fatal ≠ none) := by
  refine ⟨?_, recorded_of_run hs _⟩
  exact Task.run_keeps (P := fun c => c.terminated = false)
    (fun m hterm => m.after_terminated.trans hterm) _ ht

/-- What ends the session is what the operation answers. -/
theorem operate_of_ends {s : Session e σ} (hs : Settled s.core) {o : Operation}
    {m : Moment σ e.State e.Code} (hm : m ∈ s.trace o) {exc : Exception} (hexc : m.Ends exc) :
    (s.operate o).1 = .error (.reported exc.toReport) ∧ (s.operate o).2.isTerminated = true := by
  have ht := open_of_mem_trace hm
  have hop := operate_of_open ht hs o
  rw [trace_of_open ht] at hm
  have hfatal := settleCall_has ((fatal_lasting exc).run_of_moment _ hm hexc.after)
  simp only [finish_of_fatal hfatal hexc.isFatal] at hop
  rw [hop]
  exact ⟨rfl, rfl⟩

/-- An operation ends the session exactly if a fatal condition was met, raised by a script or brought
about by a termination request or by what the host answered to a lookup or a listing, or if the body
of the operation came to a fatal failure. A fatal condition that was met is what the operation
answers, whatever the script made of it. -/
theorem terminated_iff {s : Session e σ} (hs : s.Reachable (fun _ => True) (fun _ _ => True))
    (ht : s.isTerminated = false) (o : Operation) :
    ((s.operate o).2.isTerminated = true ↔
      (∃ m ∈ s.trace o, ∃ exc, m.Ends exc) ∨
        ∃ f, s.outcome o = .error f ∧ f.endsSession = true) ∧
    (∀ m ∈ s.trace o, ∀ exc, m.Ends exc →
      (s.operate o).1 = .error (.reported exc.toReport) ∧ exc.isFatal = true) := by
  have hsettled := hs.settled
  refine ⟨?_, fun m hm exc hexc => ⟨(operate_of_ends hsettled hm hexc).1, hexc.isFatal⟩⟩
  by_cases hmet : ∃ m ∈ s.trace o, ∃ exc, m.Ends exc
  · obtain ⟨m, hm, exc, hexc⟩ := hmet
    simp only [(operate_of_ends hsettled hm hexc).2, true_iff]
    exact .inl ⟨m, hm, exc, hexc⟩
  · -- nothing fatal is recorded when the body is over, so that its result decides
    have hop := operate_of_open ht hsettled o
    obtain ⟨hterm, hseen⟩ := body_end ht hsettled o
    have hnone : (Task.run (o.routine e s.options.entryPoint s.state) (armCall s.core)).2.fatal =
        none := by
      rcases Task.run_fatal (o.routine e s.options.entryPoint s.state) (armCall s.core) with h | h
      · exact h.trans hsettled.fatal
      · rw [← trace_of_open ht] at h
        exact absurd h hmet
    rw [hop]
    refine (finish_terminated hterm hnone (fun h => hseen h hnone) (s.outcome o)).trans ?_
    simp [hmet]

def outOfSubxacts : Report :=
  .plain { severity := .fatal, code := .internalError, message := "out of subtransactions" }

/-- A script that opens a scope, on a host that refuses it with a fatal report. -/
def refused (next : Outcome Unit Unit → Script Unit Unit Unit) :
    Session (Engine.scripted (.scope () (fun _ => .done ⟨.ok (), ()⟩) next)) MemoryHost :=
  fresh _ () { refusal := some outOfSubxacts }

/-- The failure that the script lets through ends the session. -/
theorem terminated_iff_refused :
    ((refused .done).operate (.executeInline "")).2.isTerminated = true := by
  have hfatal : (match (refused .done).outcome (.executeInline "") with
      | .error f => f.endsSession
      | .ok _ => false) = true := by decide +kernel
  refine ((terminated_iff (fresh_reachable _ _ _ trivial) rfl _).1).mpr (.inr ?_)
  split at hfatal
  · rename_i f hf
    exact ⟨f, hf, hfatal⟩
  · cases hfatal

/-- The failure that the script swallows does not, and the call comes to a lesser one. -/
theorem refused_swallowed :
    (∃ m ∈ (refused fun _ => .done ⟨.ok (), ()⟩).trace (.executeInline ""), m.entersScope = true ∧
      (Host.beginSubxact m.core.host).1 = .error outOfSubxacts) ∧
      outOfSubxacts.severity.isFatal = true ∧
      ((refused fun _ => .done ⟨.ok (), ()⟩).operate (.executeInline "")).1 =
        .error (.reported Exception.inFailedTransaction.toReport) ∧
      ((refused fun _ => .done ⟨.ok (), ()⟩).operate (.executeInline "")).2.isTerminated = false := by
  refine ⟨?_, rfl, ?_, ?_⟩
  · have hrun : ((refused fun _ => .done ⟨.ok (), ()⟩).trace (.executeInline "")).any (fun m =>
        m.entersScope && decide ((Host.beginSubxact m.core.host).1 = .error outOfSubxacts)) =
          true := by decide +kernel
    obtain ⟨m, hm, hmoment⟩ := List.any_eq_true.mp hrun
    obtain ⟨henters, hrefused⟩ := Bool.and_eq_true_iff.mp hmoment
    exact ⟨m, hm, henters, of_decide_eq_true hrefused⟩
  · change (((refused fun _ => .done ⟨.ok (), ()⟩).executeInline "").1 : Except Failure PUnit) =
      .error (.reported Exception.inFailedTransaction.toReport)
    decide +kernel
  · decide +kernel

end Session

end ProcedureBridge
