import ProcedureBridge.Proofs.Interrupt.Timeout

/-! # Requests while a call and its watchdog run

A request from outside can come between any two steps. What no safepoint observes is pending after
each of them, but for a cancellation at a boundary that has found its watchdog fired. -/

namespace ProcedureBridge

namespace TimedCall

/-- What holds whoever sends requests. -/
structure Ordered (t : TimedCall) : Prop where
  early : t.phase = .running ∨ t.phase = .returned → t.sawFired = false
  late : t.phase = .late → t.sawFired = true
  canonical : t.monitor.Canonical

/-- The request is pending, or the call has taken it for that of its watchdog. -/
def Keeps (kind : Interrupt) (t : TimedCall) : Prop :=
  t.monitor.Pending kind ∨ (kind = .cancel ∧ t.sawFired = true)

variable {t u : TimedCall} {kind : Interrupt}

theorem Ordered.effect (h : Ordered t) {s : TimedStep} (henabled : t.enabled s = true) :
    Ordered (t.effect s) := by
  cases s with
  | expire | flag | stop => exact ⟨h.early, h.late, h.canonical⟩
  | signal => exact ⟨h.early, h.late, h.canonical.signal _⟩
  | check => exact ⟨h.early, h.late, h.canonical.check⟩
  | handle => exact ⟨h.early, h.late, h.canonical.acknowledge⟩
  | request kind => exact ⟨h.early, h.late, h.canonical.signal kind⟩
  | leave =>
    refine ⟨fun _ => h.early (.inl (of_decide_eq_true henabled)), ?_, h.canonical⟩
    intro hx
    cases hx
  | ask | disarm | join =>
    refine ⟨?_, ?_, h.canonical⟩
    · rintro (hx | hx) <;> cases hx
    · intro hx
      cases hx
  | judge =>
    have hphase : (t.effect .judge).phase =
      if t.sawFired && decide (t.monitor.state = .signaled .cancel) then .late else .settled := rfl
    refine ⟨?_, ?_, h.canonical⟩
    all_goals
      rw [hphase]
      split
    · rintro (hx | hx) <;> cases hx
    · rintro (hx | hx) <;> cases hx
    · rename_i hlate
      exact fun _ => (Bool.and_eq_true_iff.mp hlate).1
    · intro hx
      cases hx
  | withdraw =>
    refine ⟨?_, ?_, h.canonical.withdraw _⟩
    · rintro (hx | hx) <;> cases hx
    · intro hx
      cases hx
  | acknowledge =>
    refine ⟨?_, ?_, h.canonical.acknowledge⟩
    · rintro (hx | hx) <;> cases hx
    · intro hx
      cases hx

/-- Without a safepoint only the boundary takes a request back. -/
theorem Keeps.effect (h : t.Keeps kind) (ho : Ordered t) {s : TimedStep} (hs : s ≠ .check)
    (henabled : t.enabled s = true) : (t.effect s).Keeps kind := by
  cases s with
  | expire | flag | stop | leave | disarm | join | judge => exact h
  | check => exact absurd rfl hs
  | signal => exact h.imp_left fun hm => (Monitor.Receives.one _ _).pending hm
  | request next => exact h.imp_left fun hm => (Monitor.Receives.one _ next).pending hm
  | handle | acknowledge =>
    refine h.imp_left fun hm => ?_
    change t.monitor.acknowledge.Pending kind
    rw [hm.acknowledge]
    exact hm
  | ask =>
    have hsaw := ho.early (.inr (of_decide_eq_true henabled))
    exact .inl (h.resolve_right fun hk => by simp [hsaw] at hk)
  | withdraw =>
    rcases h with hm | hk
    · rcases hm.withdraw with hm | ⟨hk, -⟩
      · exact .inl hm
      · exact .inr ⟨hk, ho.late (of_decide_eq_true henabled)⟩
    · exact .inr hk

end TimedCall

end ProcedureBridge
