import ProcedureBridge.Proofs.Interrupt.Monitor

/-! # A call and its watchdog

The watchdog of a call runs in a thread of its own. It waits until its time has come or the call
disarms it; when its time has come it first sets a flag and then asks for the cancellation. The call
that is over reads the flag, disarms the watchdog, joins the thread, takes an unobserved
cancellation back if it has found the flag set, and acknowledges what was observed. The steps of the
two come in any order, and between them requests from outside. -/

namespace ProcedureBridge

/-- Where the thread of a watchdog is. -/
inductive TimerThread
  | waiting
  | expired
  /-- The flag is set. -/
  | flagged
  | ended
deriving DecidableEq

/-- Where the call is. -/
inductive CallPhase
  | running
  | returned
  /-- The flag has been read. -/
  | asked
  | disarmed
  | joined
  /-- The watchdog is found to have fired too late. -/
  | late
  | settled
  | closed
deriving DecidableEq

structure TimedCall where
  monitor : Monitor := .idle
  thread : TimerThread := .waiting
  fired : Bool := false
  /-- What the call has read of the flag. -/
  sawFired : Bool := false
  armed : Bool := true
  phase : CallPhase := .running
deriving DecidableEq

inductive TimedStep
  /-- The thread: its time has come, the flag is set, the cancellation is asked for, or the watchdog
  is disarmed before. -/
  | expire | flag | signal | stop
  /-- The script: a safepoint, a handler of a cancellation, and the end. -/
  | check | handle | leave
  /-- The call boundary. -/
  | ask | disarm | join | judge | withdraw | acknowledge
  /-- Anyone else. -/
  | request (kind : Interrupt)
deriving DecidableEq

namespace TimedCall

def enabled (t : TimedCall) : TimedStep → Bool
  | .expire => decide (t.thread = .waiting)
  | .flag => decide (t.thread = .expired)
  | .signal => decide (t.thread = .flagged)
  | .stop => decide (t.thread = .waiting) && !t.armed
  | .check | .handle | .leave => decide (t.phase = .running)
  | .ask => decide (t.phase = .returned)
  | .disarm => decide (t.phase = .asked)
  | .join => decide (t.phase = .disarmed) && decide (t.thread = .ended)
  | .judge => decide (t.phase = .joined)
  | .withdraw => decide (t.phase = .late)
  | .acknowledge => decide (t.phase = .settled)
  | .request _ => true

def effect (t : TimedCall) : TimedStep → TimedCall
  | .expire => { t with thread := .expired }
  | .flag => { t with thread := .flagged, fired := true }
  | .signal => { t with thread := .ended, monitor := t.monitor.signal .cancel }
  | .stop => { t with thread := .ended }
  | .check => { t with monitor := t.monitor.check.2 }
  | .handle => { t with monitor := t.monitor.acknowledge }
  | .leave => { t with phase := .returned }
  | .ask => { t with phase := .asked, sawFired := t.fired }
  | .disarm => { t with phase := .disarmed, armed := false }
  | .join => { t with phase := .joined }
  | .judge =>
    { t with phase :=
        if t.sawFired && decide (t.monitor.state = .signaled .cancel) then .late else .settled }
  | .withdraw => { t with phase := .settled, monitor := (t.monitor.withdraw .cancel).2 }
  | .acknowledge => { t with phase := .closed, monitor := t.monitor.acknowledge }
  | .request kind => { t with monitor := t.monitor.signal kind }

def step (t : TimedCall) (s : TimedStep) : Option TimedCall :=
  if t.enabled s then some (t.effect s) else none

/-- The call after some steps, if they can be taken in that order. -/
def run (t : TimedCall) (steps : List TimedStep) : Option TimedCall := steps.foldlM step t

theorem step_eq_some {t u : TimedCall} {s : TimedStep} :
    t.step s = some u ↔ t.enabled s = true ∧ t.effect s = u := by
  simp only [step]
  split <;> simp_all

/-- What every step keeps that satisfies `Q`, a run of such steps keeps. -/
theorem run_keeps {P : TimedCall → Prop} {Q : TimedStep → Prop}
    (hP : ∀ {t s}, Q s → t.enabled s = true → P t → P (t.effect s)) {t u : TimedCall}
    {steps : List TimedStep} (hrun : t.run steps = some u) (hQ : ∀ s ∈ steps, Q s) (ht : P t) :
    P u := by
  induction steps generalizing t with
  | nil =>
    cases hrun
    exact ht
  | cons s steps ih =>
    rw [run, List.foldlM_cons] at hrun
    obtain ⟨v, hv, hrest⟩ := Option.bind_eq_some_iff.mp hrun
    obtain ⟨henabled, rfl⟩ := step_eq_some.mp hv
    exact ih hrest (fun x hx => hQ x (List.mem_cons_of_mem _ hx))
      (hP (hQ s List.mem_cons_self) henabled ht)

/-! ## A call with no other requests -/

/-- What holds if all requests are the watchdog's. -/
structure Alone (t : TimedCall) : Prop where
  unflagged : t.thread = .waiting ∨ t.thread = .expired → t.fired = false
  flagged : t.thread = .flagged → t.fired = true
  idle : t.fired = false ∨ t.thread = .flagged → t.monitor = .idle
  kinds : t.monitor = .idle ∨ t.monitor = .ofState (.signaled .cancel) ∨
    t.monitor = .ofState (.consumed .cancel)
  saw : t.sawFired = true → t.fired = true
  /-- What comes after the flag was read is not observed, and stays. -/
  unseen : t.phase ≠ .running → t.phase ≠ .returned → t.sawFired = false → t.fired = true →
    t.thread = .ended → t.monitor = .ofState (.signaled .cancel)
  ended : t.phase = .joined ∨ t.phase = .late ∨ t.phase = .settled ∨ t.phase = .closed →
    t.thread = .ended
  late : t.phase = .late → t.sawFired = true
  settled : t.phase = .settled → t.sawFired = true → t.monitor ≠ .ofState (.signaled .cancel)
  closed : t.phase = .closed → t.sawFired = true → t.monitor = .idle

namespace Alone

variable {t : TimedCall}

theorem start : Alone {} := by
  constructor <;> simp

/-- Of a thread that has not ended the call has not been joined. -/
theorem not_joined (h : Alone t) (hw : t.thread ≠ .ended) {P : Prop} :
    t.phase = .joined ∨ t.phase = .late ∨ t.phase = .settled ∨ t.phase = .closed → P := by
  intro hp
  exact absurd (h.ended hp) hw

theorem expire (h : Alone t) (hw : t.thread = .waiting) : Alone (t.effect .expire) := by
  have hf := h.unflagged (.inl hw)
  refine { h with
    unflagged := fun _ => hf
    flagged := ?_
    idle := fun _ => h.idle (.inl hf)
    unseen := ?_
    ended := h.not_joined (by simp [hw]) }
  · intro hx
    cases hx
  · intro _ _ _ _ hx
    cases hx

theorem flag (h : Alone t) (hw : t.thread = .expired) : Alone (t.effect .flag) := by
  have hf := h.unflagged (.inr hw)
  refine { h with
    unflagged := ?_
    flagged := fun _ => rfl
    idle := fun _ => h.idle (.inl hf)
    saw := fun _ => rfl
    unseen := ?_
    ended := h.not_joined (by simp [hw]) }
  · rintro (hx | hx) <;> cases hx
  · intro _ _ _ _ hx
    cases hx

/-- The cancellation is asked for while nothing is held. -/
theorem signal (h : Alone t) (hw : t.thread = .flagged) : Alone (t.effect .signal) := by
  have hsignal : (t.effect .signal).monitor = .ofState (.signaled .cancel) := by
    change t.monitor.signal .cancel = _
    rw [h.idle (.inr hw), Monitor.signal_idle]
  have hne : t.thread ≠ .ended := by simp [hw]
  refine { h with
    unflagged := ?_
    flagged := ?_
    idle := ?_
    kinds := .inr (.inl hsignal)
    unseen := fun _ _ _ _ _ => hsignal
    ended := fun _ => rfl
    settled := fun hp => h.not_joined hne (.inr (.inr (.inl hp)))
    closed := fun hp => h.not_joined hne (.inr (.inr (.inr hp))) }
  · rintro (hx | hx) <;> cases hx
  · intro hx
    cases hx
  · rintro (hx | hx)
    · rw [show (t.effect .signal).fired = t.fired from rfl, h.flagged hw] at hx
      cases hx
    · cases hx

theorem stop (h : Alone t) (hw : t.thread = .waiting) : Alone (t.effect .stop) := by
  have hf := h.unflagged (.inl hw)
  refine { h with
    unflagged := fun _ => hf
    flagged := ?_
    idle := fun _ => h.idle (.inl hf)
    unseen := ?_
    ended := fun _ => rfl }
  · intro hx
    cases hx
  · intro _ _ _ hx
    rw [show (t.effect .stop).fired = t.fired from rfl, hf] at hx
    cases hx

/-- What a safepoint or a handler of the script does to the monitor. -/
theorem observe (h : Alone t) (hp : t.phase = .running) {monitor : Monitor}
    (hidle : t.monitor = .idle → monitor = .idle)
    (hkinds : monitor = .idle ∨ monitor = .ofState (.signaled .cancel) ∨
      monitor = .ofState (.consumed .cancel)) : Alone { t with monitor } := by
  refine { h with
    idle := fun hx => hidle (h.idle hx)
    kinds := hkinds
    unseen := fun hx => absurd hp hx
    settled := ?_
    closed := ?_ }
  · intro hx
    rw [hp] at hx
    cases hx
  · intro hx
    rw [hp] at hx
    cases hx

theorem check (h : Alone t) (hp : t.phase = .running) : Alone (t.effect .check) := by
  apply h.observe hp
  · intro hm
    rw [hm]
    rfl
  · rcases h.kinds with hm | hm | hm
    · exact .inl (by rw [hm]; rfl)
    · exact .inr (.inr (by rw [hm, Monitor.check_signaled]))
    · exact .inr (.inr (by rw [hm, Monitor.check_consumed]))

theorem handle (h : Alone t) (hp : t.phase = .running) : Alone (t.effect .handle) := by
  apply h.observe hp
  · intro hm
    rw [hm]
    rfl
  · rcases h.kinds with hm | hm | hm
    · exact .inl (by rw [hm]; rfl)
    · exact .inr (.inl (by rw [hm]; rfl))
    · exact .inl (by rw [hm, Monitor.acknowledge_consumed])

theorem leave (h : Alone t) : Alone (t.effect .leave) := by
  refine { h with
    unseen := fun _ hx => absurd rfl hx
    ended := ?_
    late := ?_
    settled := ?_
    closed := ?_ }
  · rintro (hx | hx | hx | hx) <;> cases hx
  all_goals
    intro hx
    cases hx

theorem ask (h : Alone t) : Alone (t.effect .ask) := by
  refine { h with
    saw := fun hx => hx
    unseen := ?_
    ended := ?_
    late := ?_
    settled := ?_
    closed := ?_ }
  · intro _ _ hx hf
    rw [show (t.effect .ask).sawFired = (t.effect .ask).fired from rfl, hf] at hx
    cases hx
  · rintro (hx | hx | hx | hx) <;> cases hx
  all_goals
    intro hx
    cases hx

theorem disarm (h : Alone t) (hp : t.phase = .asked) : Alone (t.effect .disarm) := by
  refine { h with
    unseen := fun _ _ => h.unseen (by simp [hp]) (by simp [hp])
    ended := ?_
    late := ?_
    settled := ?_
    closed := ?_ }
  · rintro (hx | hx | hx | hx) <;> cases hx
  all_goals
    intro hx
    cases hx

theorem join (h : Alone t) (hp : t.phase = .disarmed) (hw : t.thread = .ended) :
    Alone (t.effect .join) := by
  refine { h with
    unseen := fun _ _ => h.unseen (by simp [hp]) (by simp [hp])
    ended := fun _ => hw
    late := ?_
    settled := ?_
    closed := ?_ }
  all_goals
    intro hx
    cases hx

theorem judge (h : Alone t) (hp : t.phase = .joined) : Alone (t.effect .judge) := by
  have hw := h.ended (.inl hp)
  have hphase : (t.effect .judge).phase =
      if t.sawFired && decide (t.monitor.state = .signaled .cancel) then .late else .settled := rfl
  refine { h with
    unseen := fun _ _ => h.unseen (by simp [hp]) (by simp [hp])
    ended := fun _ => hw
    late := ?_
    settled := ?_
    closed := ?_ }
  · intro hx
    rw [hphase] at hx
    split at hx
    · rename_i hlate
      exact (Bool.and_eq_true_iff.mp hlate).1
    · cases hx
  · intro hx hsaw hm
    rw [hphase, show t.monitor = .ofState (.signaled .cancel) from hm,
      show t.sawFired = true from hsaw] at hx
    simp at hx
  · intro hx
    rw [hphase] at hx
    split at hx <;> cases hx

theorem withdraw (h : Alone t) (hp : t.phase = .late) : Alone (t.effect .withdraw) := by
  have hsaw := h.late hp
  have hfired := h.saw hsaw
  have hw := h.ended (.inr (.inl hp))
  have hm : (t.monitor.withdraw .cancel).2 = .idle ∨
      (t.monitor.withdraw .cancel).2 = .ofState (.consumed .cancel) := by
    rcases h.kinds with hm | hm | hm
    · exact .inl (by rw [hm]; rfl)
    · exact .inl (by rw [hm, Monitor.withdraw_signaled])
    · exact .inr (by rw [hm]; rfl)
  refine { h with
    idle := ?_
    kinds := hm.imp_right .inr
    unseen := ?_
    ended := fun _ => hw
    late := ?_
    settled := ?_
    closed := ?_ }
  · intro hx
    rcases hx with hx | hx
    · exact absurd (hfired.symm.trans hx) (by simp)
    · exact absurd (hw.symm.trans hx) (by simp)
  · intro _ _ hx
    exact absurd (hsaw.symm.trans hx) (by simp)
  · intro hx
    cases hx
  · intro _ _ hx
    have hx : (t.monitor.withdraw .cancel).2 = .ofState (.signaled .cancel) := hx
    rcases hm with hm | hm
    all_goals
      rw [hm] at hx
      exact absurd hx (by decide)
  · intro hx
    cases hx

theorem acknowledge (h : Alone t) (hp : t.phase = .settled) : Alone (t.effect .acknowledge) := by
  have hw := h.ended (.inr (.inr (.inl hp)))
  refine { h with
    idle := ?_
    kinds := ?_
    unseen := ?_
    ended := fun _ => hw
    late := ?_
    settled := ?_
    closed := ?_ }
  · intro hx
    change t.monitor.acknowledge = .idle
    rw [h.idle hx]
    rfl
  · change t.monitor.acknowledge = _ ∨ t.monitor.acknowledge = _ ∨ t.monitor.acknowledge = _
    rcases h.kinds with hm | hm | hm
    · exact .inl (by rw [hm]; rfl)
    · exact .inr (.inl (by rw [hm]; rfl))
    · exact .inl (by rw [hm, Monitor.acknowledge_consumed])
  · intro _ _ hsaw hf hx
    change t.monitor.acknowledge = _
    rw [h.unseen (by simp [hp]) (by simp [hp]) hsaw hf hx]
    rfl
  · intro hx
    cases hx
  · intro hx
    cases hx
  · intro _ hsaw
    change t.monitor.acknowledge = .idle
    rcases h.kinds with hm | hm | hm
    · rw [hm]
      rfl
    · exact absurd hm (h.settled hp hsaw)
    · rw [hm, Monitor.acknowledge_consumed]

theorem effect (h : Alone t) {s : TimedStep} (hs : ∀ kind, s ≠ .request kind)
    (henabled : t.enabled s = true) : Alone (t.effect s) := by
  cases s with
  | expire => exact h.expire (of_decide_eq_true henabled)
  | flag => exact h.flag (of_decide_eq_true henabled)
  | signal => exact h.signal (of_decide_eq_true henabled)
  | stop => exact h.stop (of_decide_eq_true (Bool.and_eq_true_iff.mp henabled).1)
  | check => exact h.check (of_decide_eq_true henabled)
  | handle => exact h.handle (of_decide_eq_true henabled)
  | leave => exact h.leave
  | ask => exact h.ask
  | disarm => exact h.disarm (of_decide_eq_true henabled)
  | join =>
    obtain ⟨hp, hw⟩ := Bool.and_eq_true_iff.mp henabled
    exact h.join (of_decide_eq_true hp) (of_decide_eq_true hw)
  | judge => exact h.judge (of_decide_eq_true henabled)
  | withdraw => exact h.withdraw (of_decide_eq_true henabled)
  | acknowledge => exact h.acknowledge (of_decide_eq_true henabled)
  | request kind => exact absurd rfl (hs kind)

end Alone

/-- A call is over when its thread has ended, and what its watchdog has asked for is pending exactly
if the flag was set after the call had read it. -/
theorem timeout_outlives_iff {steps : List TimedStep} {t : TimedCall}
    (hrun : run {} steps = some t) (halone : ∀ kind, .request kind ∉ steps)
    (hclosed : t.phase = .closed) :
    t.thread = .ended ∧
      (t.monitor.isPending = true ↔ t.fired = true ∧ t.sawFired = false) ∧
      (t.monitor.isPending = false → t.monitor = .idle) ∧
      t.monitor.check.1 = if t.fired && !t.sawFired then some .cancel else none := by
  have h : t.Alone := by
    refine run_keeps (Q := fun s => ∀ kind, s ≠ .request kind) ?_ hrun ?_ Alone.start
    · intro t s hs henabled ht
      exact ht.effect hs henabled
    · rintro s hs kind rfl
      exact halone kind hs
  have hw := h.ended (.inr (.inr (.inr hclosed)))
  refine ⟨hw, ?_⟩
  cases hf : t.fired with
  | false =>
    rw [h.idle (.inl hf)]
    cases t.sawFired <;> decide
  | true =>
    cases hsaw : t.sawFired with
    | false =>
      rw [h.unseen (by simp [hclosed]) (by simp [hclosed]) hsaw hf hw]
      decide
    | true =>
      rw [h.closed hclosed hsaw]
      decide

/-- The watchdog expires while the call disarms it: the call has read the flag by then. -/
def expiredLate : List TimedStep :=
  [.leave, .ask, .expire, .flag, .signal, .disarm, .join, .judge, .acknowledge]

theorem timeout_outlives_iff_late :
    ∃ t, run {} expiredLate = some t ∧ (∀ kind, .request kind ∉ expiredLate) ∧ t.phase = .closed ∧
      t.monitor.isPending = true := by
  have halone : ∀ kind, .request kind ∉ expiredLate := by
    intro kind
    cases kind <;> decide
  obtain ⟨t, ht⟩ := Option.isSome_iff_exists.mp (show (run {} expiredLate).isSome = true by decide)
  have hlate : t.phase = .closed ∧ t.fired = true ∧ t.sawFired = false := by
    have hrun : (run {} expiredLate).all (fun t =>
      decide (t.phase = .closed ∧ t.fired = true ∧ t.sawFired = false)) = true := by decide
    rw [ht] at hrun
    exact of_decide_eq_true hrun
  exact ⟨t, ht, halone, hlate.1, ((timeout_outlives_iff ht halone hlate.1).2.1).mpr hlate.2⟩

/-- The call is over, and the first safepoint of the next one raises the cancellation that was meant
for it. -/
theorem expired_late_cancels_next :
    (∀ kind, .request kind ∉ expiredLate) ∧
    (run {} expiredLate).map (fun t => (t.phase, t.monitor.state, t.monitor.check.1)) =
      some (.closed, .signaled .cancel, some .cancel) := by
  refine ⟨?_, by decide⟩
  intro kind
  cases kind <;> decide

/-! ## The call boundary of a session -/

theorem run_cons {t u : TimedCall} {s : TimedStep} (hs : t.enabled s = true)
    {steps : List TimedStep} (hrun : (t.effect s).run steps = some u) :
    t.run (s :: steps) = some u := by
  rw [run, List.foldlM_cons, step, if_pos hs]
  exact hrun

/-- Once the thread is joined, the boundary settles the watchdog as a session does. -/
theorem run_joined {t : TimedCall} (hp : t.phase = .joined) (deadline : Nat) :
    ∃ steps u, t.run steps = some u ∧ u.phase = .closed ∧
      u.monitor = (({ deadline, fired := t.sawFired } : Watchdog).settle t.monitor).acknowledge := by
  have hjudge : t.enabled .judge = true := decide_eq_true hp
  cases hlate : t.sawFired && decide (t.monitor.state = .signaled .cancel) with
  | true =>
    have hnext : (t.effect .judge).phase = .late := by simp only [effect, hlate, if_true]
    refine ⟨[.judge, .withdraw, .acknowledge], _,
      run_cons hjudge (run_cons (s := .withdraw) (decide_eq_true hnext) (run_cons rfl rfl)), rfl, ?_⟩
    simp only [Watchdog.settle, hlate, if_true]
    rfl
  | false =>
    have hnext : (t.effect .judge).phase = .settled := by
      simp only [effect, hlate, Bool.false_eq_true, if_false]
    refine ⟨[.judge, .acknowledge], _,
      run_cons hjudge (run_cons (s := .acknowledge) (decide_eq_true hnext) rfl), rfl, ?_⟩
    simp only [Watchdog.settle, hlate, Bool.false_eq_true, if_false]
    rfl

/-- If nothing comes between its steps, the boundary does what the call boundary of a session does:
the watchdog has fired or not. -/
theorem exists_closing {t : TimedCall} (hp : t.phase = .returned)
    (hw : t.thread = .ended ∨ t.thread = .waiting) (deadline : Nat) :
    ∃ steps u, t.run steps = some u ∧ u.phase = .closed ∧
      u.monitor = (({ deadline, fired := t.fired } : Watchdog).settle t.monitor).acknowledge := by
  have hask : t.enabled .ask = true := decide_eq_true hp
  rcases hw with hw | hw
  · obtain ⟨steps, u, hrun, hclosed, hm⟩ :=
      run_joined (t := ((t.effect .ask).effect .disarm).effect .join) rfl deadline
    refine ⟨.ask :: .disarm :: .join :: steps, u, ?_, hclosed, hm⟩
    refine run_cons hask (run_cons rfl (run_cons ?_ hrun))
    exact Bool.and_eq_true_iff.mpr ⟨rfl, decide_eq_true hw⟩
  · obtain ⟨steps, u, hrun, hclosed, hm⟩ :=
      run_joined (t := (((t.effect .ask).effect .disarm).effect .stop).effect .join) rfl deadline
    refine ⟨.ask :: .disarm :: .stop :: .join :: steps, u, ?_, hclosed, hm⟩
    refine run_cons hask (run_cons rfl (run_cons ?_ (run_cons rfl hrun)))
    exact Bool.and_eq_true_iff.mpr ⟨decide_eq_true hw, rfl⟩

end TimedCall

end ProcedureBridge
