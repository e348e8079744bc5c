import ProcedureBridge.Proofs.Session.Standing

/-! # What lasts between runs

Around the runs of scripts a session does little: it arms and settles watchdogs, ends the scopes
that a call left open, forgets what belonged to the call, drops units from the cache, and compiles a
text to see if that works. What none of this changes holds at all times if runs keep it. -/

namespace ProcedureBridge.Session

variable {e : Engine} {σ α : Type} [Host σ]

/-- The property is kept by all that a session does outside of runs. -/
structure Resting (Q : Core σ e.Code → Prop) : Prop where
  forget : ∀ {c}, Q c → ∀ host monitor fatal handling terminated callWatchdog standingWatchdog
    rootFailed, Q { c with
      host, monitor, fatal, handling, terminated, callWatchdog, standingWatchdog
      scopes := { c.scopes with rootFailed } }
  unwind : ∀ {c}, Q c → ∀ base, Q (c.unwindTo base).2
  invalidate : ∀ {c}, Q c → ∀ id, Q (c.invalidate id).2
  clearCache : ∀ {c}, Q c → Q c.clearCache.2
  addUnit : ∀ {c}, Q c → ∀ unit, Q (c.addUnit unit).2

namespace Resting

variable {Q : Core σ e.Code → Prop} {s : Session e σ} {c : Core σ e.Code}

theorem arm (hQ : Resting Q) (hc : Q c) : Q (armCall c) := hQ.forget hc _ _ _ _ _ _ _ _

theorem settle (hQ : Resting Q) (hc : Q c) : Q (settleCall c) := by
  simp only [settleCall]
  split
  · exact hc
  · exact hQ.forget hc _ _ _ _ _ _ _ _

theorem finish (hQ : Resting Q) {base : Nat} {result : Except Failure α} (hc : Q c) :
    Q (Session.finish base result c).2 := by
  have hclean : Q (cleaned base c) := hQ.forget (hQ.unwind hc base) _ _ _ _ _ _ _ _
  obtain h | h := finish_core base result c
  · exact h ▸ hclean
  · rw [h]
    exact hQ.forget (hQ.clearCache (hQ.unwind hclean 0)) _ _ _ _ _ _ _ _

/-- What holds when the body is over holds in the end. -/
theorem boundary_of_open (hQ : Resting Q) (ht : s.isTerminated = false)
    {body : Bridge e.State σ e.Code α} (hbody : Q (body ⟨s.state, armCall s.core⟩).2.core) :
    Q (s.boundary body).2.core := by
  rw [Session.boundary, ht]
  exact hQ.finish (hQ.settle hbody)

theorem boundary (hQ : Resting Q) {body : Bridge e.State σ e.Code α}
    (hbody : Bridge.Preserves Q body) (hs : Q s.core) : Q (s.boundary body).2.core := by
  cases ht : s.isTerminated with
  | true =>
    rw [boundary_of_terminated ht]
    exact hs
  | false => exact hQ.boundary_of_open ht (hbody _ (hQ.arm hs))

theorem refresh (hQ : Resting Q) (hs : Q s.core) (id : ProcedureId) : Q (s.refresh id).2.core := by
  have hasked : Q { s.core with host := (Host.lookup id s.host).2 } :=
    hQ.forget hs _ _ _ _ _ _ _ _
  rw [Session.refresh]
  split
  · exact hs
  · split
    · exact hs
    · dsimp only
      split
      · exact hasked
      · split
        · exact hasked
        · exact hQ.invalidate hasked id

/-- Only an operation runs scripts. -/
theorem respond (hQ : Resting Q) (hs : Q s.core) {r : Request} (hr : ∀ o, r ≠ .operate o) :
    Q (s.respond r).2.core := by
  cases r with
  | operate o => exact absurd rfl (hr o)
  | validate id =>
    obtain ⟨body, hbody, hkeeps⟩ := s.validate_eq id
    change Q (s.validate id).2.core
    rw [hbody]
    exact hQ.boundary (hkeeps (fun c hc => hQ.forget hc _ _ _ _ _ _ _ _)
      fun c unit hc => hQ.addUnit hc unit) hs
  | refresh id => exact hQ.refresh hs id
  | invalidate id => exact hQ.invalidate hs id
  | clearCache => exact hQ.clearCache hs
  | interrupt | watch | disarm => exact hQ.forget hs _ _ _ _ _ _ _ _

theorem withHost (hQ : Resting Q) (hs : Q s.core) (host : σ) : Q (s.withHost host).core :=
  hQ.forget hs _ _ _ _ _ _ _ _

theorem deliver (hQ : Resting Q) (hc : Q c) (report : Report) : Q (c.deliver report) := by
  rw [Core.deliver]
  dsimp only
  rw [Core.foldl_signal]
  exact hQ.forget hc _ _ _ _ _ _ _ _

/-! ## Runs that keep the property -/

/-- Whatever is made of parts of some kind keeps the property. -/
def KeptBy (Q : Core σ e.Code → Prop) (N : (α : Type) → Task e.State e.Code α → Prop) : Prop :=
  ∀ {α : Type} {x : Routine e.State e.Code α}, Routine.All N x → Bridge.Preserves Q (.ofRoutine x)

variable {N : (α : Type) → Task e.State e.Code α → Prop}

theorem later (hQ : Resting Q) (hN : e.compiler.Carries N) (hkept : KeptBy Q N)
    {others : σ → σ → Prop} {t : Session e σ} (hl : s.Later others t) (hs : Q s.core) :
    Q t.core := by
  induction hl with
  | refl => exact hs
  | @request t r _ ih =>
    by_cases hr : ∃ o, r = .operate o
    · obtain ⟨o, rfl⟩ := hr
      exact hQ.boundary (hkept (hN.routine t.options.entryPoint o)) ih
    · exact hQ.respond ih fun o ho => hr ⟨o, ho⟩
  | outside _ _ ih => exact hQ.withHost ih _

theorem runInit (hQ : Resting Q) (hN : e.compiler.Carries N) (hkept : KeptBy Q N)
    (files : String → FileContent) :
    Bridge.Preserves Q (Session.runInit (e := e) (σ := σ) files) :=
  runInit_steps (fun id name text => hkept (hN.compile id name text))
    (fun ref => hkept (hN.loadUnit ref)) (fun script => hkept (hN.runScript script))
    (fun _ report hc => hQ.deliver hc report) files

theorem opened (hQ : Resting Q) (hN : e.compiler.Carries N) (hkept : KeptBy Q N)
    (hnew : ∀ (host : σ) options, Q (.new host options)) {kind : σ → Prop} (hs : s.Opened kind) :
    Q s.core := by
  obtain ⟨initial, files, host, options, -, hstart⟩ := hs
  obtain ⟨f, hf⟩ | ⟨fresh, hcore, -, hf | ⟨f, hf⟩⟩ := start_cases initial files host options
  · rw [hf] at hstart
    cases hstart
  · rw [hf] at hstart
    cases hstart
    exact hQ.boundary (hQ.runInit hN hkept files) (hcore ▸ hnew host options)
  · rw [hf] at hstart
    cases hstart

theorem reachable (hQ : Resting Q) (hN : e.compiler.Carries N) (hkept : KeptBy Q N)
    (hnew : ∀ (host : σ) options, Q (.new host options)) {kind : σ → Prop} {others : σ → σ → Prop}
    (hs : s.Reachable kind others) : Q s.core := by
  obtain ⟨opened, hopened, hlater⟩ := hs
  exact hQ.later hN hkept hlater (hQ.opened hN hkept hnew hopened)

end Resting

end ProcedureBridge.Session
