import ProcedureBridge.Proofs.Host.EventLog
import ProcedureBridge.Proofs.Session.Standing

/-! # Sessions on a host in memory

Whatever scripts do, the open subtransactions of a host in memory are those of the scopes, provided
that nobody else begins or ends any. Since a call leaves no scope open, it leaves no subtransaction
open either. -/

namespace ProcedureBridge

/-- The call leaves subtransactions to the bridge. -/
def HostCall.sparesSubxacts : HostCall → Bool
  | .beginSubxact | .releaseSubxact _ | .rollbackSubxact _ => false
  | _ => true

namespace MemoryHost

/-- No call made on a delivery begins or ends a subtransaction. -/
def HooksSpare (h : MemoryHost) : Prop :=
  ∀ hook ∈ h.hooks, ∀ call ∈ hook.calls, call.sparesSubxacts = true

/-- The subtransactions and the hooks are the same. -/
def Alike (h h' : MemoryHost) : Prop :=
  h'.openStack = h.openStack ∧ h'.nextSubxact = h.nextSubxact ∧ h'.hooks = h.hooks

theorem Alike.trans {h₁ h₂ h₃ : MemoryHost} (h : h₁.Alike h₂) (h' : h₂.Alike h₃) : h₁.Alike h₃ :=
  ⟨h'.1.trans h.1, h'.2.1.trans h.2.1, h'.2.2.trans h.2.2⟩

theorem HooksSpare.alike {h h' : MemoryHost} (hh : h.HooksSpare) (ha : h.Alike h') :
    h'.HooksSpare := by
  rw [HooksSpare, ha.2.2]
  exact hh

theorem perform_alike {fuel : Nat} {call : HostCall} {h : MemoryHost} (hh : h.HooksSpare)
    (hc : call.sparesSubxacts = true) : h.Alike (perform fuel call h).2.2 := by
  refine perform_keeps (P := fun h' => h.Alike h') (A := fun call => call.sparesSubxacts = true)
    ?_ (fun _ _ ha => ha) (fun _ ha => hh.alike ha) fuel hc ⟨rfl, rfl, rfl⟩
  intro call h' hc hcall ha
  cases call with
  | beginSubxact | releaseSubxact | rollbackSubxact => cases hc
  | deliver report => exact absurd rfl (hcall report)
  | _ => exact ha.trans ⟨rfl, rfl, rfl⟩

theorem deliver_alike {h : MemoryHost} (hh : h.HooksSpare) (report : Report) :
    h.Alike (h.deliver report).2 :=
  perform_alike hh rfl

end MemoryHost

namespace Session

/-- The subtransactions of the host are those of the scopes, and nobody else ends any. -/
def Driven (_ : Option Exception) (t : ScopeStack × MemoryHost) : Prop :=
  t.1.Backed t.2 ∧ t.2.HooksSpare

theorem Driven.alike {f : Option Exception} {s : ScopeStack} {h h' : MemoryHost}
    (hd : Driven f (s, h)) (ha : h.Alike h') : Driven f (s, h') :=
  ⟨ha.1.trans hd.1, hd.2.alike ha⟩

theorem driven_standing : Standing Driven where
  mark hd := ⟨hd.1.markFailed, hd.2⟩
  rollback := by
    intro _ s h top outer hc hd
    rw [ScopeStack.rollback_of_backed hd.1 hc]
    exact ⟨rfl, hd.2⟩
  release := by
    intro _ s h top outer hc _ hd
    rw [ScopeStack.release_of_backed hd.1 hc]
    exact ⟨rfl, hd.2⟩
  list _ hd := hd
  poll hd := hd.alike ⟨rfl, rfl, rfl⟩
  enter := by
    intro s h hd
    refine ⟨hd.1.enter, ?_⟩
    rw [MemoryHost.HooksSpare, ScopeStack.enter_hooks]
    exact hd.2
  deliver report hd := hd.alike (MemoryHost.deliver_alike hd.2 report)
  lookup _ hd := hd.alike ⟨rfl, rfl, rfl⟩
  condemn _ hd := hd
  find _ hd := hd.alike ⟨rfl, rfl, rfl⟩
  tell report hd := hd.alike (MemoryHost.deliver_alike hd.2 report)
  idle := by
    intro _ _ s s' h hd hnil hnil'
    refine ⟨?_, hd.2⟩
    have hb := hd.1
    simp only [ScopeStack.Backed] at hb ⊢
    rw [hnil']
    rw [hnil] at hb
    exact hb

end Session

namespace MemoryHost

/-- Nobody has begun a subtransaction, and no hook will. -/
def Fresh (h : MemoryHost) : Prop := h.openStack = [] ∧ h.HooksSpare

/-- Others have changed the host, but neither its subtransactions nor the hooks that would. -/
def LeftAlone (h h' : MemoryHost) : Prop := h'.openStack = h.openStack ∧ h'.HooksSpare

theorem fresh_empty : Fresh {} := ⟨rfl, fun _ hook => by cases hook⟩

end MemoryHost

namespace Session

theorem driven_of_fresh {s : ScopeStack} {h : MemoryHost} (hnil : s.scopes = []) (hh : h.Fresh) :
    Driven none (s, h) := by
  refine ⟨?_, hh.2⟩
  rw [ScopeStack.Backed, hnil]
  exact hh.1

theorem Driven.leftAlone {f : Option Exception} {s : ScopeStack} {h h' : MemoryHost}
    (hd : Driven f (s, h)) (hl : h.LeftAlone h') : Driven f (s, h') :=
  ⟨hl.1.trans hd.1, hl.2⟩

theorem idle_of_driven {e : Engine} {s : Session e MemoryHost} (hs : Settled s.core)
    (hd : s.core.Has Driven) : s.host.openSubxacts = [] := by
  have hb := hd.1
  rw [ScopeStack.Backed, hs.scopes] at hb
  rw [MemoryHost.openSubxacts, Session.host, hb]
  rfl

/-- Whatever was asked of a session, and whatever scripts did: between two requests no scope and no
subtransaction is open, no failure of the call and no fatal condition is remembered, no exception is
being handled, and a request to stop is held only if no safepoint has seen it. A session that cannot
be opened leaves no subtransaction open either. -/
theorem boundary_resets (e : Engine) :
    (∀ s : Session e MemoryHost, s.Reachable MemoryHost.Fresh MemoryHost.LeftAlone →
      s.scopeDepth = 0 ∧ s.host.openSubxacts = [] ∧ s.core.scopes.rootFailed = false ∧
        s.core.fatal = none ∧ s.core.handling = [] ∧
        (s.core.monitor.state = .idle ∨ ∃ kind, s.core.monitor.state = .signaled kind)) ∧
    (∀ (initial : e.State) files (host : MemoryHost) options f host', host.Fresh →
      start e initial files host options = .error (f, host') → host'.openSubxacts = []) := by
  constructor
  · intro s hs
    have hsettled := hs.settled
    have hdriven : s.core.Has Driven :=
      hs.has driven_standing driven_of_fresh fun _ hl hd => hd.leftAlone hl
    exact ⟨by simp [scopeDepth, ScopeStack.depth, hsettled.scopes],
      idle_of_driven hsettled hdriven, hsettled.root, hsettled.fatal, hsettled.handling,
      hsettled.monitor.cases⟩
  · intro initial files host options f host' hh hstart
    obtain ⟨f', hf⟩ | ⟨fresh, hcore, ht, hf | ⟨f', hf⟩⟩ := start_cases initial files host options
    · rw [hf] at hstart
      cases hstart
      simp [MemoryHost.openSubxacts, hh.1]
    · rw [hf] at hstart
      cases hstart
    · rw [hf] at hstart
      cases hstart
      have hdriven := runInit_has driven_standing hcore
        (driven_of_fresh (by rw [hcore]; rfl) hh) files
      exact idle_of_driven (boundary_settled (hcore ▸ new_settled host options) _) hdriven

/-- A script that opens a scope, swallows an error in it and leaves it open. -/
def leaking : Session (Engine.scripted (.newHandle fun handle => .enter handle fun _ =>
    .report .error "no" {} fun _ => .done ⟨.ok (), ()⟩)) MemoryHost :=
  fresh _ () {}

theorem boundary_resets_leaking :
    (leaking.trace (.executeInline "")).any
        (fun m => m.after.scopes.depth == 1 && m.after.scopes.isFailed) = true ∧
      (leaking.operate (.executeInline "")).2.scopeDepth = 0 ∧
      (leaking.operate (.executeInline "")).2.host.openSubxacts = [] := by
  have hs : (leaking.respond (.operate (.executeInline ""))).2.Reachable
      MemoryHost.Fresh MemoryHost.LeftAlone :=
    ⟨leaking, fresh_opened _ _ ⟨rfl, fun _ hook => by cases hook⟩, .request _ .refl⟩
  obtain ⟨hdepth, hopen, -⟩ := (boundary_resets _).1 _ hs
  exact ⟨by decide +kernel, hdepth, hopen⟩

end Session

end ProcedureBridge
