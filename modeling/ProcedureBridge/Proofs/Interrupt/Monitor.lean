import ProcedureBridge.Interrupt.Watchdog
import Mathlib.Tactic.Common

/-! # What the monitor does

Each operation on the status byte, in terms of the state that the byte stands for. A termination
that is held is never replaced; a cancellation is replaced by a termination, and once it is consumed
by any request. -/

namespace ProcedureBridge.Monitor

variable {m m' : Monitor} {kind : Interrupt}

theorem held_eq_some : m.held = some kind ↔ m.status &&& kindMask = kind.bits := by
  unfold held
  cases kind with
  | cancel =>
    split
    · simp_all
    · split <;> simp_all
  | terminate =>
    split
    · rename_i h
      rw [h]
      decide
    · split <;> simp_all

theorem state_eq_signaled : m.state = .signaled kind ↔ m.held = some kind ∧ m.isConsumed = false := by
  unfold state
  cases m.held with
  | none => simp
  | some kind => cases m.isConsumed <;> simp

theorem state_eq_consumed : m.state = .consumed kind ↔ m.held = some kind ∧ m.isConsumed = true := by
  unfold state
  cases m.held with
  | none => simp
  | some kind => cases m.isConsumed <;> simp

theorem state_eq_idle : m.state = .idle ↔ m.held = none := by
  unfold state
  cases m.held with
  | none => simp
  | some kind => cases m.isConsumed <;> simp

theorem ne_idle_of_held (h : m.held ≠ none) : m.state ≠ .idle := fun hidle => h (state_eq_idle.mp hidle)

theorem held_of_signaled (h : m.state = .signaled kind) : m.held = some kind :=
  (state_eq_signaled.mp h).1

/-! ## Requests -/

theorem state_fresh (kind : Interrupt) : (⟨kind.bits⟩ : Monitor).state = .signaled kind := by
  cases kind <;> decide

theorem signal_cases (m : Monitor) (kind : Interrupt) :
    m.signal kind = m ∨ m.signal kind = ⟨kind.bits⟩ := by
  simp only [signal]
  split
  · exact .inl rfl
  · exact .inr rfl

theorem signal_of_terminate (h : m.held = some .terminate) (kind : Interrupt) :
    m.signal kind = m := by
  rw [held_eq_some] at h
  simp [signal, h]

/-- A request that finds a cancellation takes its place. -/
theorem signal_of_cancel (h : m.held = some .cancel) (kind : Interrupt) :
    (m.signal kind).state = .signaled kind := by
  rw [held_eq_some] at h
  simp only [signal, h]
  split
  · -- only a cancellation that is pending already stays as it is
    rename_i hsame
    cases kind with
    | cancel =>
      refine state_eq_signaled.mpr ⟨held_eq_some.mpr h, ?_⟩
      cases hc : m.isConsumed with
      | false => rfl
      | true =>
        rw [hc] at hsame
        exact absurd hsame (by decide)
    | terminate =>
      cases hc : m.isConsumed
      all_goals
        rw [hc] at hsame
        exact absurd hsame (by decide)
  · exact state_fresh kind

/-- The request has not been seen by a safepoint; a termination may have taken its place. -/
def Pending (m : Monitor) (kind : Interrupt) : Prop :=
  m.state = .signaled kind ∨ m.state = .signaled .terminate

/-- Some requests have arrived between the two. -/
def Receives (m m' : Monitor) : Prop := ∃ kinds : List Interrupt, m' = kinds.foldl signal m

namespace Receives

theorem refl (m : Monitor) : m.Receives m := ⟨[], rfl⟩

theorem one (m : Monitor) (kind : Interrupt) : m.Receives (m.signal kind) := ⟨[kind], rfl⟩

theorem trans {m₁ m₂ m₃ : Monitor} (h : m₁.Receives m₂) (h' : m₂.Receives m₃) :
    m₁.Receives m₃ := by
  obtain ⟨kinds, rfl⟩ := h
  obtain ⟨kinds', rfl⟩ := h'
  exact ⟨kinds ++ kinds', List.foldl_append.symm⟩

/-- What each request keeps, any number of them keeps. -/
theorem keeps {P : Monitor → Prop} (hP : ∀ m kind, P m → P (m.signal kind)) (h : m.Receives m')
    (hm : P m) : P m' := by
  obtain ⟨kinds, rfl⟩ := h
  induction kinds generalizing m with
  | nil => exact hm
  | cons kind kinds ih => exact ih (hP m kind hm)

theorem held (h : m.Receives m') (hm : m.held ≠ none) : m'.held ≠ none := by
  refine h.keeps (P := fun m => m.held ≠ none) ?_ hm
  intro m kind hm
  cases hk : m.held with
  | none => exact absurd hk hm
  | some found =>
    cases found with
    | cancel => simp [held_of_signaled (signal_of_cancel hk kind)]
    | terminate => simp [signal_of_terminate hk kind, hk]

theorem of_terminate (h : m.Receives m') (hm : m.held = some .terminate) : m' = m := by
  refine h.keeps (P := fun x => x = m) ?_ rfl
  rintro _ kind rfl
  exact signal_of_terminate hm kind

/-- A request that is pending stays pending, unless a termination takes its place. -/
theorem pending (h : m.Receives m') (hm : m.Pending kind) : m'.Pending kind := by
  refine h.keeps (P := fun m => m.Pending kind) ?_ hm
  intro m next hm
  by_cases ht : m.held = some .terminate
  · rw [signal_of_terminate ht]
    exact hm
  · have hk : m.state = .signaled kind := hm.resolve_right fun h => ht (held_of_signaled h)
    cases kind with
    | terminate => exact absurd (held_of_signaled hk) ht
    | cancel =>
      rw [Pending, signal_of_cancel (held_of_signaled hk)]
      cases next with
      | cancel => exact .inl rfl
      | terminate => exact .inr rfl

/-- Requests leave nothing consumed that was not. -/
theorem consumed (h : m.Receives m') (hm : m'.state = .consumed kind) :
    m.state = .consumed kind := by
  by_contra hne
  refine h.keeps (P := fun m => m.state ≠ .consumed kind) ?_ hne hm
  intro m next hm
  rcases signal_cases m next with h | h
  · rw [h]
    exact hm
  · rw [h, state_fresh]
    exact fun h => by cases h

end Receives

/-! ## Safepoints and handlers -/

theorem kind_of_mark (status : UInt8) :
    (consumedBit ||| status) &&& kindMask = status &&& kindMask := by
  apply UInt8.eq_of_toBitVec_eq
  rw [UInt8.toBitVec_and, UInt8.toBitVec_or, BitVec.and_or_distrib_right]
  exact BitVec.zero_or

theorem mark_of_mark (status : UInt8) :
    (consumedBit ||| status) &&& consumedBit = consumedBit := by
  apply UInt8.eq_of_toBitVec_eq
  rw [UInt8.toBitVec_and, UInt8.toBitVec_or]
  ext i hi
  simp only [BitVec.getElem_and, BitVec.getElem_or]
  cases (UInt8.toBitVec consumedBit)[i] <;> simp

theorem check_of_none (h : m.held = none) : m.check = (none, m) := by
  simp [check, h]

/-- What a safepoint finds is consumed. -/
theorem check_of_held (h : m.held = some kind) : m.check.2.state = .consumed kind := by
  simp only [check, h]
  split
  · rename_i hc
    exact state_eq_consumed.mpr ⟨h, hc⟩
  · rw [held_eq_some] at h
    refine state_eq_consumed.mpr ⟨held_eq_some.mpr ?_, ?_⟩
    · rw [kind_of_mark, h]
    · rw [isConsumed, mark_of_mark]
      decide

/-- A request that no safepoint has seen survives an acknowledgement. -/
theorem acknowledge_of_signaled (h : m.state = .signaled kind) : m.acknowledge = m := by
  simp [acknowledge, (state_eq_signaled.mp h).2]

theorem Pending.acknowledge (h : m.Pending kind) : m.acknowledge = m := by
  rcases h with h | h
  · exact acknowledge_of_signaled h
  · exact acknowledge_of_signaled h

/-! ## Bytes -/

/-- The byte of a state. -/
def ofState : MonitorState → Monitor
  | .idle => idle
  | .signaled kind => ⟨kind.bits⟩
  | .consumed kind => ⟨consumedBit ||| kind.bits⟩

@[simp] theorem state_ofState (s : MonitorState) : (ofState s).state = s := by
  cases s with
  | idle => decide
  | signaled kind => exact state_fresh kind
  | consumed kind => cases kind <;> decide

theorem signal_idle (kind : Interrupt) : idle.signal kind = ofState (.signaled kind) := by
  cases kind <;> decide

theorem check_signaled (kind : Interrupt) :
    (ofState (.signaled kind)).check = (some kind, ofState (.consumed kind)) := by
  cases kind <;> decide

theorem check_consumed (kind : Interrupt) :
    (ofState (.consumed kind)).check = (some kind, ofState (.consumed kind)) := by
  cases kind <;> decide

theorem acknowledge_consumed (kind : Interrupt) : (ofState (.consumed kind)).acknowledge = idle := by
  cases kind <;> decide

theorem withdraw_signaled (kind : Interrupt) :
    (ofState (.signaled kind)).withdraw kind = (true, idle) := by
  cases kind <;> decide

/-- The byte is that of its state: no other bits are set. -/
def Canonical (m : Monitor) : Prop := ∃ s, m = ofState s

namespace Canonical

theorem idle : Monitor.idle.Canonical := ⟨.idle, rfl⟩

theorem signal (h : m.Canonical) (kind : Interrupt) : (m.signal kind).Canonical := by
  rcases signal_cases m kind with hm | hm
  · rw [hm]
    exact h
  · exact ⟨.signaled kind, hm⟩

theorem receives (h : m.Canonical) (hr : m.Receives m') : m'.Canonical :=
  hr.keeps (P := Canonical) (fun _ kind hm => hm.signal kind) h

theorem check (h : m.Canonical) : m.check.2.Canonical := by
  obtain ⟨s, rfl⟩ := h
  cases s with
  | idle => exact ⟨.idle, rfl⟩
  | signaled kind => exact ⟨.consumed kind, by rw [check_signaled]⟩
  | consumed kind => exact ⟨.consumed kind, by rw [check_consumed]⟩

theorem acknowledge (h : m.Canonical) : m.acknowledge.Canonical := by
  simp only [Monitor.acknowledge]
  split
  · exact idle
  · exact h

theorem withdraw (h : m.Canonical) (kind : Interrupt) : (m.withdraw kind).2.Canonical := by
  simp only [Monitor.withdraw]
  split
  · exact idle
  · exact h

/-- A request is lost only to a termination that was consumed. -/
theorem pending_signal (h : m.Canonical) (hne : m.state ≠ .consumed .terminate)
    (kind : Interrupt) : (m.signal kind).Pending kind := by
  obtain ⟨s, rfl⟩ := h
  rw [state_ofState] at hne
  have hcancel : (ofState s).held = some .cancel → ((ofState s).signal kind).Pending kind :=
    fun hheld => .inl (signal_of_cancel hheld kind)
  cases s with
  | idle => exact .inl (by rw [ofState, signal_idle, state_ofState])
  | signaled found =>
    cases found with
    | cancel => exact hcancel (by decide)
    | terminate => exact .inr (by rw [signal_of_terminate (by decide), state_ofState])
  | consumed found =>
    cases found with
    | cancel => exact hcancel (by decide)
    | terminate => exact absurd rfl hne

/-- Of requests that arrive one after the other each is pending in the end. -/
theorem pending_foldl (h : m.Canonical) (hne : m.state ≠ .consumed .terminate)
    {kinds : List Interrupt} (hk : kind ∈ kinds) : (kinds.foldl Monitor.signal m).Pending kind := by
  obtain ⟨earlier, later, rfl⟩ := List.append_of_mem hk
  rw [List.foldl_append, List.foldl_cons]
  have hearlier : m.Receives (earlier.foldl Monitor.signal m) := ⟨earlier, rfl⟩
  have hnow := (h.receives hearlier).pending_signal (fun hs => hne (hearlier.consumed hs)) kind
  exact Receives.pending ⟨later, rfl⟩ hnow

end Canonical

/-- What is taken back is a cancellation and nothing stronger. -/
theorem Pending.withdraw {kind : Interrupt} (h : m.Pending kind) :
    (m.withdraw .cancel).2.Pending kind ∨ (kind = .cancel ∧ (m.withdraw .cancel).2 = idle) := by
  simp only [Monitor.withdraw]
  split
  · rename_i hm
    have hstate : m.state = .signaled .cancel := by
      rw [← state_fresh, ← hm]
    rcases h with h | h
    · rw [hstate] at h
      cases h
      exact .inr ⟨rfl, rfl⟩
    · rw [hstate] at h
      cases h
  · exact .inl h

end ProcedureBridge.Monitor
