import Mathlib.Data.List.Induction
import ProcedureBridge.Proofs.Interrupt.Monitor

/-! # What the calls made so far say about the monitor

Requests, safepoints, withdrawals and acknowledgements come in any order. A request that took effect
is held until it is taken back or acknowledged, or until a stronger one has replaced it; what a
safepoint or a withdrawal answers is told by the calls and answers before it. -/

namespace ProcedureBridge

inductive MonitorCall
  | signal (kind : Interrupt)
  | check
  | withdraw (kind : Interrupt)
  | acknowledge
deriving DecidableEq

/-- A call together with its answer. -/
inductive MonitorEvent
  | signaled (kind : Interrupt)
  | checked (found : Option Interrupt)
  | withdrew (kind : Interrupt) (done : Bool)
  | acknowledged
deriving DecidableEq

namespace Monitor

variable {m : Monitor} {kind found : Interrupt} {call : MonitorCall} {past calls : List MonitorCall}
  {seen events : List MonitorEvent}

def serve (m : Monitor) : MonitorCall → Monitor
  | .signal kind => m.signal kind
  | .check => m.check.2
  | .withdraw kind => (m.withdraw kind).2
  | .acknowledge => m.acknowledge

def answer (m : Monitor) : MonitorCall → MonitorEvent
  | .signal kind => .signaled kind
  | .check => .checked m.check.1
  | .withdraw kind => .withdrew kind (m.withdraw kind).1
  | .acknowledge => .acknowledged

def after (m : Monitor) (calls : List MonitorCall) : Monitor := calls.foldl serve m

def history (m : Monitor) : List MonitorCall → List MonitorEvent
  | [] => []
  | call :: calls => m.answer call :: (m.serve call).history calls

@[simp] theorem after_nil : m.after [] = m := rfl

@[simp] theorem after_cons : m.after (call :: calls) = (m.serve call).after calls := rfl

@[simp] theorem after_append : m.after (past ++ calls) = (m.after past).after calls :=
  List.foldl_append

/-! ## Single calls -/

theorem check_eq_none : m.check.1 = none ↔ m.state = .idle := by
  rw [state_eq_idle, check]
  split <;> simp_all

theorem check_eq_held : m.check.1 = m.held := by
  rw [check]
  split <;> simp_all

theorem withdraw_cases (m : Monitor) (kind : Interrupt) :
    (m.state = .signaled kind ∧ m.withdraw kind = (true, idle)) ∨ m.withdraw kind = (false, m) := by
  rw [withdraw]
  split
  · rename_i h
    exact .inl ⟨by rw [← state_fresh, ← h], rfl⟩
  · exact .inr rfl

theorem withdraw_iff (h : m.Canonical) : (m.withdraw kind).1 = true ↔ m.state = .signaled kind := by
  obtain ⟨s, rfl⟩ := h
  constructor
  · intro hdone
    rcases withdraw_cases (ofState s) kind with h | h
    · exact h.1
    · simp [h] at hdone
  · intro hs
    rw [state_ofState] at hs
    rw [hs, withdraw_signaled]

theorem acknowledge_cases (m : Monitor) :
    (m.isConsumed = true ∧ m.acknowledge = idle) ∨ (m.isConsumed = false ∧ m.acknowledge = m) := by
  cases h : m.isConsumed <;> simp [acknowledge, h]

/-- Unless a termination absorbs it, a request is one that no safepoint has seen. -/
theorem signal_unconsumed (h : m.held ≠ some .terminate) (kind : Interrupt) :
    (m.signal kind).isConsumed = false := by
  have hbits : m.status &&& kindMask ≠ Interrupt.terminate.bits := fun hb => h (held_eq_some.mpr hb)
  rw [signal]
  split
  · rename_i hkept
    have hstronger : m.isConsumed = false ∧ kind.bits ≤ m.status &&& kindMask := by
      simpa [hbits] using hkept
    exact hstronger.1
  · exact (state_eq_signaled.mp (state_fresh kind)).2

/-- What is held is not weakened by a further request. -/
theorem signal_held (h : m.held = some found) (kind : Interrupt) :
    ∃ next, (m.signal kind).held = some next ∧ found.bits ≤ next.bits := by
  cases found with
  | cancel => exact ⟨kind, held_of_signaled (signal_of_cancel h kind), by cases kind <;> decide⟩
  | terminate => exact ⟨.terminate, by rw [signal_of_terminate h, h], by decide⟩

theorem Canonical.serve (h : m.Canonical) (call : MonitorCall) : (m.serve call).Canonical := by
  cases call with
  | signal kind => exact h.signal kind
  | check => exact h.check
  | withdraw kind => exact h.withdraw kind
  | acknowledge => exact h.acknowledge

theorem Canonical.after (h : m.Canonical) (calls : List MonitorCall) : (m.after calls).Canonical := by
  induction calls generalizing m with
  | nil => exact h
  | cons call calls ih => exact ih (h.serve call)

/-- Only a safepoint consumes. -/
theorem unconsumed_serve (h : m.isConsumed = false) (hc : call ≠ .check) :
    (m.serve call).isConsumed = false := by
  cases call with
  | signal kind =>
    rcases signal_cases m kind with hm | hm
    · rwa [serve, hm]
    · rw [serve, hm]
      exact (state_eq_signaled.mp (state_fresh kind)).2
  | check => exact absurd rfl hc
  | withdraw kind =>
    rcases withdraw_cases m kind with ⟨_, hm⟩ | hm
    · rw [serve, hm]
      rfl
    · rwa [serve, hm]
  | acknowledge => simp [serve, acknowledge, h]

theorem unconsumed_after (h : m.isConsumed = false) (hc : .check ∉ calls) :
    (m.after calls).isConsumed = false := by
  induction calls generalizing m with
  | nil => exact h
  | cons call calls ih =>
    simp only [List.mem_cons, not_or] at hc
    exact ih (unconsumed_serve h (Ne.symm hc.1)) hc.2

/-! ## Requests that stand -/

/-- A request at least as strong as the kind was taken back. -/
def TakenBack (kind : Interrupt) (events : List MonitorEvent) : Prop :=
  ∃ found, kind.bits ≤ found.bits ∧ .withdrew found true ∈ events

/-- Among the events is an acknowledgement that comes after a safepoint which found a request at
least as strong as the kind; the safepoint may be one of those seen before. -/
def Cleared (kind : Interrupt) (seen events : List MonitorEvent) : Prop :=
  ∃ found earlier later, kind.bits ≤ found.bits ∧ events = earlier ++ .acknowledged :: later ∧
    .checked (some found) ∈ seen ++ earlier

theorem TakenBack.tail {event : MonitorEvent} (h : TakenBack kind events) :
    TakenBack kind (event :: events) := by
  obtain ⟨found, hle, hmem⟩ := h
  exact ⟨found, hle, List.mem_cons_of_mem event hmem⟩

theorem Cleared.tail {event : MonitorEvent} (h : Cleared kind (seen ++ [event]) events) :
    Cleared kind seen (event :: events) := by
  obtain ⟨found, earlier, later, hle, rfl, hmem⟩ := h
  exact ⟨found, event :: earlier, later, hle, rfl, by simpa using hmem⟩

/-- Whatever is consumed was found by a safepoint. -/
structure Told (seen : List MonitorEvent) (m : Monitor) : Prop where
  canonical : m.Canonical
  told : ∀ found, m.state = .consumed found → .checked (some found) ∈ seen

theorem Told.serve (h : Told seen m) (call : MonitorCall) :
    Told (seen ++ [m.answer call]) (m.serve call) := by
  refine ⟨h.canonical.serve call, ?_⟩
  intro found hs
  -- all calls but a safepoint consume nothing, so what is consumed was consumed before
  have hold : m.state = .consumed found → .checked (some found) ∈ seen ++ [m.answer call] :=
    fun hm => List.mem_append_left _ (h.told found hm)
  cases call with
  | signal kind => exact hold ((Receives.one m kind).consumed hs)
  | check =>
    cases hm : m.held with
    | none =>
      rw [Monitor.serve, check_of_none hm] at hs
      exact hold hs
    | some kind =>
      rw [Monitor.serve, check_of_held hm] at hs
      cases hs
      simp [answer, check_eq_held, hm]
  | withdraw kind =>
    rcases withdraw_cases m kind with ⟨_, hm⟩ | hm
    · rw [Monitor.serve, hm] at hs
      cases hs
    · rw [Monitor.serve, hm] at hs
      exact hold hs
  | acknowledge =>
    rcases acknowledge_cases m with ⟨_, hm⟩ | ⟨_, hm⟩
    · rw [Monitor.serve, hm] at hs
      cases hs
    · rw [Monitor.serve, hm] at hs
      exact hold hs

theorem Told.after (h : Told seen m) (calls : List MonitorCall) :
    Told (seen ++ m.history calls) (m.after calls) := by
  induction calls generalizing m seen with
  | nil => simpa [history] using h
  | cons call calls ih => simpa [history] using ih (h.serve call)

theorem told_idle : Told [] idle := by
  refine ⟨Canonical.idle, ?_⟩
  intro found hs
  cases hs

/-- A request of at least this kind is held. -/
def HeldFrom (kind : Interrupt) (m : Monitor) : Prop :=
  ∃ found, m.held = some found ∧ kind.bits ≤ found.bits

theorem HeldFrom.serve (ht : Told seen m) (h : HeldFrom kind m)
    (hback : ¬ TakenBack kind [m.answer call]) (hclear : ¬ Cleared kind seen [m.answer call]) :
    HeldFrom kind (m.serve call) := by
  obtain ⟨found, hheld, hle⟩ := h
  cases call with
  | signal next =>
    obtain ⟨stronger, hstronger, hmore⟩ := signal_held hheld next
    exact ⟨stronger, hstronger, UInt8.le_trans hle hmore⟩
  | check => exact ⟨found, (state_eq_consumed.mp (check_of_held hheld)).1, hle⟩
  | withdraw next =>
    rcases withdraw_cases m next with ⟨hs, hm⟩ | hm
    · have hsame : next = found := Option.some.inj ((held_of_signaled hs).symm.trans hheld)
      subst hsame
      exact absurd ⟨next, hle, by simp [answer, hm]⟩ hback
    · exact ⟨found, by rw [Monitor.serve, hm, hheld], hle⟩
  | acknowledge =>
    rcases acknowledge_cases m with ⟨hc, _⟩ | ⟨_, hm⟩
    · have hseen := ht.told found (state_eq_consumed.mpr ⟨hheld, hc⟩)
      exact absurd ⟨found, [], [], hle, rfl, by simpa using hseen⟩ hclear
    · exact ⟨found, by rw [Monitor.serve, hm, hheld], hle⟩

theorem HeldFrom.after (ht : Told seen m) (h : HeldFrom kind m)
    (hback : ¬ TakenBack kind (m.history calls)) (hclear : ¬ Cleared kind seen (m.history calls)) :
    HeldFrom kind (m.after calls) := by
  induction calls generalizing m seen with
  | nil => exact h
  | cons call calls ih =>
    have hnext : HeldFrom kind (m.serve call) := by
      apply h.serve ht
      · rintro ⟨found, hle, hmem⟩
        exact hback ⟨found, hle, List.mem_cons.mpr (.inl (List.mem_singleton.mp hmem))⟩
      · rintro ⟨found, earlier, later, hle, heq, hmem⟩
        exact hclear ⟨found, earlier, later ++ (m.serve call).history calls, hle,
          by rw [history, ← List.singleton_append, heq, List.append_assoc, List.cons_append], hmem⟩
    exact ih (ht.serve call) hnext (fun hb => hback hb.tail) (fun hc => hclear hc.tail)

theorem heldFrom_signal (h : m.Canonical) (kind : Interrupt) : HeldFrom kind (m.signal kind) := by
  by_cases hs : m.state = .consumed .terminate
  · have hheld := (state_eq_consumed.mp hs).1
    exact ⟨.terminate, by rw [signal_of_terminate hheld, hheld], by cases kind <;> decide⟩
  · rcases h.pending_signal hs kind with hp | hp
    · exact ⟨kind, held_of_signaled hp, UInt8.le_refl _⟩
    · exact ⟨.terminate, held_of_signaled hp, by cases kind <;> decide⟩

theorem Told.signal (h : Told seen m) (kind : Interrupt) : Told seen (m.signal kind) := by
  refine ⟨h.canonical.signal kind, ?_⟩
  intro found hs
  exact h.told found ((Receives.one m kind).consumed hs)

/-- A request that no termination absorbed does not depend on any safepoint before it. -/
theorem told_signal (h : m.Canonical) (hs : m.state ≠ .consumed .terminate) (kind : Interrupt) :
    Told [] (m.signal kind) := by
  refine ⟨h.signal kind, ?_⟩
  intro found hfound
  rcases h.pending_signal hs kind with hp | hp <;> simp [hp] at hfound

/-- As long as it is neither taken back nor cleared, a request is found by the next safepoint. -/
theorem found_of_signal (h : m.Canonical) (ht : Told seen (m.signal kind))
    (hback : ¬ TakenBack kind ((m.signal kind).history calls))
    (hclear : ¬ Cleared kind seen ((m.signal kind).history calls)) :
    ∃ found, ((m.signal kind).after calls).check.1 = some found ∧ kind.bits ≤ found.bits := by
  rw [check_eq_held]
  exact (heldFrom_signal h kind).after ht hback hclear

theorem eq_terminate (h : Interrupt.terminate.bits ≤ found.bits) : found = .terminate := by
  cases found with
  | cancel => exact absurd h (by decide)
  | terminate => rfl

/-! ## Requests that no safepoint has seen -/

/-- The request is not absorbed by what is held when it arrives. -/
def TakesEffect (past : List MonitorCall) (kind : Interrupt) : Prop :=
  (idle.after past).signal kind ≠ idle.after past

/-- There was no safepoint since the last request that took effect. -/
inductive Unobserved : List MonitorCall → Prop
  | arrives {past : List MonitorCall} {kind : Interrupt} (h : TakesEffect past kind) :
      Unobserved (past ++ [.signal kind])
  | stays {past : List MonitorCall} {call : MonitorCall} (h : Unobserved past)
      (hcheck : call ≠ .check) (habsorbed : ∀ kind, call = .signal kind → ¬ TakesEffect past kind) :
      Unobserved (past ++ [call])

theorem Unobserved.of_signaled (h : (idle.after past).state = .signaled kind) : Unobserved past := by
  induction past using List.reverseRecOn with
  | nil => cases h
  | append_singleton past call ih =>
    rw [after_append, after_cons, after_nil] at h
    cases call with
    | signal next =>
      by_cases he : TakesEffect past next
      · exact .arrives he
      · rw [serve, not_not.mp he] at h
        exact (ih h).stays nofun (by rintro _ ⟨⟩; exact he)
    | check =>
      -- after a safepoint nothing is left to be seen
      cases hm : (idle.after past).held with
      | none =>
        rw [serve, check_of_none hm] at h
        exact absurd (held_of_signaled h) (by simp [hm])
      | some found =>
        rw [serve, check_of_held hm] at h
        cases h
    | withdraw next =>
      rcases withdraw_cases (idle.after past) next with ⟨_, hm⟩ | hm
      · rw [serve, hm] at h
        cases h
      · rw [serve, hm] at h
        exact (ih h).stays nofun nofun
    | acknowledge =>
      rcases acknowledge_cases (idle.after past) with ⟨_, hm⟩ | ⟨_, hm⟩
      · rw [serve, hm] at h
        cases h
      · rw [serve, hm] at h
        exact (ih h).stays nofun nofun

theorem Unobserved.unconsumed (h : Unobserved past) : (idle.after past).isConsumed = false := by
  induction h with
  | @arrives past kind h =>
    rw [after_append, after_cons, after_nil, serve, (signal_cases _ kind).resolve_left h]
    exact (state_eq_signaled.mp (state_fresh kind)).2
  | stays _ hcheck _ ih =>
    rw [after_append, after_cons, after_nil]
    exact unconsumed_serve ih hcheck

/-! ## The law -/

/-- After any calls on a new monitor:
a request is found by every later safepoint, as it is or stronger, until one as strong is taken back
or an acknowledgement follows a safepoint that found one as strong;
a safepoint from before the request matters only if a consumed termination absorbed the request;
a termination is found as a termination;
an acknowledgement changes nothing if a request came since the last safepoint, unless a termination
absorbed it;
what can be taken back is what is held, as long as no safepoint has seen it;
a safepoint finds nothing exactly if the monitor is idle;
and the byte is that of the state. -/
theorem history_law (past : List MonitorCall) :
    (∀ kind later,
      ¬ TakenBack kind (((idle.after past).signal kind).history later) →
      ¬ Cleared kind (idle.history past) (((idle.after past).signal kind).history later) →
      ∃ found, (idle.after (past ++ .signal kind :: later)).check.1 = some found ∧
        kind.bits ≤ found.bits) ∧
    (∀ kind later, (idle.after past).state ≠ .consumed .terminate →
      ¬ TakenBack kind (((idle.after past).signal kind).history later) →
      ¬ Cleared kind [] (((idle.after past).signal kind).history later) →
      ∃ found, (idle.after (past ++ .signal kind :: later)).check.1 = some found ∧
        kind.bits ≤ found.bits) ∧
    (∀ later,
      .withdrew .terminate true ∉ ((idle.after past).signal .terminate).history later →
      (∀ before rest,
        ((idle.after past).signal .terminate).history later = before ++ .acknowledged :: rest →
        .checked (some .terminate) ∉ idle.history past ++ before) →
      (idle.after (past ++ .signal .terminate :: later)).check.1 = some .terminate) ∧
    (∀ earlier kind later, past = earlier ++ .signal kind :: later → .check ∉ later →
      (idle.after earlier).held ≠ some .terminate →
      (idle.after past).acknowledge = idle.after past) ∧
    (∀ kind, ((idle.after past).withdraw kind).1 = true ↔
      (idle.after past).held = some kind ∧ Unobserved past) ∧
    ((idle.after past).check.1 = none ↔ (idle.after past).state = .idle) ∧
    idle.after past = ofState (idle.after past).state := by
  have hcanonical := Canonical.idle.after past
  have htold : Told (idle.history past) (idle.after past) := told_idle.after past
  refine ⟨?_, ?_, ?_, ?_, ?_, check_eq_none, ?_⟩
  · intro kind later hback hclear
    rw [after_append]
    exact found_of_signal hcanonical (htold.signal kind) hback hclear
  · intro kind later habsorbed hback hclear
    rw [after_append]
    exact found_of_signal hcanonical (told_signal hcanonical habsorbed kind) hback hclear
  · intro later hback hclear
    rw [after_append]
    have hfound : ∃ found, (((idle.after past).signal .terminate).after later).check.1 =
        some found ∧ Interrupt.terminate.bits ≤ found.bits :=
      found_of_signal hcanonical (htold.signal .terminate) ?_ ?_
    · obtain ⟨found, hfound, hle⟩ := hfound
      rwa [eq_terminate hle] at hfound
    · rintro ⟨found, hle, hmem⟩
      rw [eq_terminate hle] at hmem
      exact hback hmem
    · rintro ⟨found, before, rest, hle, heq, hmem⟩
      rw [eq_terminate hle] at hmem
      exact hclear before rest heq hmem
  · rintro earlier kind later rfl hcheck habsorbed
    have hquiet := unconsumed_after (signal_unconsumed habsorbed kind) hcheck
    rw [after_append, after_cons, serve, acknowledge, hquiet]
    rfl
  · intro kind
    rw [withdraw_iff hcanonical]
    constructor
    · intro hs
      exact ⟨held_of_signaled hs, .of_signaled hs⟩
    · intro h
      exact state_eq_signaled.mpr ⟨h.1, h.2.unconsumed⟩
  · obtain ⟨s, hs⟩ := hcanonical
    rw [hs, state_ofState]

-- a cancellation that a consumed termination absorbs is cleared with it
example : (idle.after [.signal .terminate, .check, .signal .cancel, .acknowledge]).check.1 = none := by
  decide

end Monitor

end ProcedureBridge
