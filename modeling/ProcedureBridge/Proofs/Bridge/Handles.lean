import ProcedureBridge.Proofs.Bridge.Composition
import ProcedureBridge.Proofs.Scope.Openings

/-! # What an action does to scopes and handles

A scope is opened for a body or for a handle, and only a handle that has opened one is told of its
end: by its own resolution of the scope. The bridge resolves or aborts the scopes of bodies, and
whatever is open inside them. -/

namespace ProcedureBridge

variable {σ S U : Type}

namespace Core

def tally (c : Core σ U) : List ScopeHandle × Nat := c.scopes.tally

theorem tally_steady : Steady (tally (σ := σ) (U := U)) :=
  ⟨fun c => c.scopes.tally_markFailed, fun _ _ _ _ _ _ _ _ => rfl⟩

theorem handles_steady : Steady (handles (σ := σ) (U := U)) :=
  ⟨fun _ => rfl, fun _ _ _ _ _ _ _ _ => rfl⟩

theorem handleState_congr {c c' : Core σ U} (h : c'.handles = c.handles) (handle : HandleId) :
    c'.handleState handle = c.handleState handle := by
  simp only [handleState, h]

theorem handleState_set {c c' : Core σ U} {handle : HandleId} {state : HandleState}
    (h : c'.handles = c.handles.setIfInBounds handle.number state)
    (hmade : handle.number < c.handles.size) : c'.handleState handle = state := by
  simp [handleState, h, hmade]

theorem handleState_set_of_ne {c c' : Core σ U} {handle other : HandleId} {state : HandleState}
    (h : c'.handles = c.handles.setIfInBounds handle.number state) (hne : other ≠ handle) :
    c'.handleState other = c.handleState other := by
  have hnumber : handle.number ≠ other.number := by
    intro he
    obtain ⟨number⟩ := other
    obtain ⟨number'⟩ := handle
    exact hne (congrArg HandleId.mk he.symm)
  simp [handleState, h, hnumber]

variable [Host σ]

theorem enterScope_cases (c : Core σ U) :
    (∃ f, c.enterScope.1 = .error f ∧ c.enterScope.2.tally = c.tally) ∨
      ∃ scope, c.enterScope.1 = .ok scope ∧ c.scopes.Opens scope c.enterScope.2.scopes := by
  simp only [enterScope]
  rcases hs : c.safepoint with ⟨f | u, c'⟩
  · exact .inl ⟨f, rfl, tally_steady.of_safepoint hs⟩
  · have htally : c'.scopes.tally = c.scopes.tally := tally_steady.of_safepoint hs
    obtain ⟨f, hf, hafter⟩ | ⟨scope, hscope, hid, hafter⟩ := c'.scopes.enter_cases c'.host
    · exact .inl ⟨f, hf, hafter.trans htally⟩
    · refine .inr ⟨scope, hscope, ?_, ?_⟩
      · rw [hid, ScopeStack.issued_of_tally htally]
      · rw [← ScopeStack.opened_of_tally htally, ← ScopeStack.issued_of_tally htally]
        exact hafter

end Core

namespace Moment

section

variable [Host σ]

/-- The action opens the scope: for a body, or for a handle that exists. -/
def Opens (m : Moment σ S U) : Option HandleId → ScopeHandle → Prop
  | none, scope => m.action = .enterScope ∧ m.core.enterScope.1 = .ok scope
  | some handle, scope => m.action = .enterHandle handle ∧
      handle.number < m.core.handles.size ∧ (m.core.enterHandle handle).1 = .ok () ∧
      m.after.scopes.current? = some scope

/-- The scope is open before the action, and not after it. -/
def Removes (m : Moment σ S U) (scope : ScopeHandle) : Prop :=
  scope ∈ m.core.scopes.opened ∧ scope ∉ m.after.scopes.opened

/-- The action resolves the handle, or tries to. -/
def Resolves (m : Moment σ S U) (handle : HandleId) : Prop :=
  ∃ resolution, m.action = .resolveHandle handle resolution

end

/-- The action ends the scope, and the host releases its subtransaction. -/
def Releases [Host σ] (m : Moment (Recorded σ) S U) (scope : ScopeHandle) : Prop :=
  m.Removes scope ∧ ∃ x ∈ m.core.scopes.scopes, x.handle = scope ∧
    ScopeStack.Released x.subxact m.core.host m.after.host

variable [Host σ] {m : Moment (Recorded σ) S U}

theorem Opens.unique {owner owner' : Option HandleId} {scope scope' : ScopeHandle}
    (h : m.Opens owner scope) (h' : m.Opens owner' scope') : owner = owner' ∧ scope = scope' := by
  cases owner with
  | none =>
    cases owner' with
    | none => exact ⟨rfl, Except.ok.inj (h.2.symm.trans h'.2)⟩
    | some handle' => exact absurd (h.1.symm.trans h'.1) nofun
  | some handle =>
    cases owner' with
    | none => exact absurd (h.1.symm.trans h'.1) nofun
    | some handle' =>
      obtain ⟨haction, -, -, hscope⟩ := h
      obtain ⟨haction', -, -, hscope'⟩ := h'
      obtain rfl : handle = handle' := Action.enterHandle.inj (haction.symm.trans haction')
      exact ⟨rfl, Option.some.inj (hscope.symm.trans hscope')⟩

theorem not_opens_of_action (hscope : m.action ≠ .enterScope)
    (hhandle : ∀ handle, m.action ≠ .enterHandle handle) (owner : Option HandleId)
    (scope : ScopeHandle) : ¬ m.Opens owner scope := by
  cases owner with
  | none => exact fun h => hscope h.1
  | some handle => exact fun h => hhandle handle h.1

/-- All that an action can do to scopes and handles. -/
inductive Deals (m : Moment (Recorded σ) S U) : Prop
  /-- Nothing. -/
  | calm : m.after.tally = m.core.tally → m.after.handles = m.core.handles →
      (∀ owner scope, ¬ m.Opens owner scope) → Deals m
  | made : m.action = .newHandle → Deals m
  /-- A scope is opened for a body. -/
  | opened (scope : ScopeHandle) : m.Opens none scope → m.core.scopes.Opens scope m.after.scopes →
      m.after.handles = m.core.handles → Deals m
  /-- A scope is opened for a handle. -/
  | entered (handle : HandleId) (scope : ScopeHandle) : m.action = .enterHandle handle →
      m.core.handleState handle = .fresh → (m.core.enterHandle handle).1 = .ok () →
      m.core.scopes.Opens scope m.after.scopes →
      m.after.handles = m.core.handles.setIfInBounds handle.number (.entered scope) → Deals m
  /-- The bridge ends scopes, and releases none but the one that it resolves. -/
  | ended : (∀ handle, ¬ m.Resolves handle) → m.after.scopes.opened <:+ m.core.scopes.opened →
      m.after.scopes.issued = m.core.scopes.issued → m.after.handles = m.core.handles →
      (∀ scope, m.Releases scope → ∃ resolution, m.action = .resolveScope scope resolution) →
      (∀ owner scope, ¬ m.Opens owner scope) → Deals m
  /-- A handle ends its scope. -/
  | resolved (handle : HandleId) (scope : ScopeHandle) (outer : List ScopeHandle)
      (state : HandleState) : m.Resolves handle → m.core.handleState handle = .entered scope →
      m.core.scopes.opened = scope :: outer →
      m.after.tally = (outer, m.core.scopes.issued) →
      m.after.handles = m.core.handles.setIfInBounds handle.number state →
      (state = .committed ∧ ∃ x ∈ m.core.scopes.scopes, x.handle = scope ∧
          ScopeStack.Released x.subxact m.core.host m.after.host) ∨
        (state = .aborted ∧ ∀ scope, ¬ m.Releases scope) → Deals m

theorem deals_enterScope (c : Core (Recorded σ) U) : Deals (⟨c, .enterScope⟩ : Moment _ S U) := by
  have hhandles := Core.handles_steady.enterScope (fun _ _ => rfl) c
  obtain ⟨f, hf, hafter⟩ | ⟨scope, hscope, hopens⟩ := c.enterScope_cases
  · refine .calm hafter hhandles fun owner scope hopens => ?_
    cases owner with
    | none => exact absurd (hf.symm.trans hopens.2) nofun
    | some handle => exact absurd hopens.1 nofun
  · exact .opened scope ⟨rfl, hscope⟩ hopens hhandles

theorem deals_enterHandle (c : Core (Recorded σ) U) (handle : HandleId) :
    Deals (⟨c, .enterHandle handle⟩ : Moment _ S U) := by
  have hhandles := Core.handles_steady.enterScope (fun _ _ => rfl) c
  have hcalm : ∀ {f : Failure} {c' : Core (Recorded σ) U}, c.enterHandle handle = (.error f, c') →
      c'.tally = c.tally → c'.handles = c.handles →
      Deals (⟨c, .enterHandle handle⟩ : Moment _ S U) := by
    intro f c' h htally hsame
    have hafter : Moment.after (⟨c, .enterHandle handle⟩ : Moment _ S U) = c' :=
      congrArg Prod.snd h
    refine .calm (hafter ▸ htally) (hafter ▸ hsame) fun owner scope hopens => ?_
    cases owner with
    | none => exact absurd hopens.1 nofun
    | some other =>
      obtain ⟨haction, -, hok, -⟩ := hopens
      obtain rfl : handle = other := Action.enterHandle.inj haction
      rw [h] at hok
      cases hok
  cases hstate : c.handleState handle with
  | fresh =>
    obtain ⟨f, hf, htally⟩ | ⟨scope, hscope, hopens⟩ := c.enterScope_cases
    · have h : c.enterHandle handle = (.error f, c.enterScope.2) := by
        rw [Core.enterHandle, hstate]
        simp only
        rw [show c.enterScope = (.error f, c.enterScope.2) from Prod.ext hf rfl]
      exact hcalm h htally hhandles
    · have h : c.enterHandle handle =
          (.ok (), c.enterScope.2.setHandle handle (.entered scope)) := by
        rw [Core.enterHandle, hstate]
        simp only
        rw [show c.enterScope = (.ok scope, c.enterScope.2) from Prod.ext hscope rfl]
      have hafter : Moment.after (⟨c, .enterHandle handle⟩ : Moment _ S U) =
          c.enterScope.2.setHandle handle (.entered scope) := congrArg Prod.snd h
      refine .entered handle scope rfl hstate (congrArg Prod.fst h) ?_ ?_
      · rw [hafter]
        exact hopens
      · rw [hafter, Core.setHandle, hhandles]
  | entered scope | committed | aborted =>
    have h : c.enterHandle handle =
        (.error (Core.misuse "this transaction has already been entered"), c) := by
      rw [Core.enterHandle, hstate]
    exact hcalm h rfl rfl

theorem deals_resolveScope (c : Core (Recorded σ) U) (scope : ScopeHandle)
    (resolution : Resolution) : Deals (⟨c, .resolveScope scope resolution⟩ : Moment _ S U) := by
  obtain ⟨hopened, hissued, honly⟩ := (c.scopes.resolve_cases scope resolution c.host).ends
  refine .ended (fun _ h => nomatch h) hopened hissued rfl ?_ (not_opens_of_action nofun nofun)
  rintro other ⟨⟨hopen, hgone⟩, -⟩
  rw [honly other hopen hgone]
  exact ⟨resolution, rfl⟩

theorem deals_abortThrough (c : Core (Recorded σ) U) (scope : ScopeHandle) :
    Deals (⟨c, .abortThrough scope⟩ : Moment _ S U) := by
  have hdropped := c.scopes.abortThrough_dropped scope c.host
  refine .ended (fun _ h => nomatch h) hdropped.opened hdropped.issued rfl ?_
    (not_opens_of_action nofun nofun)
  rintro other ⟨-, x, -, -, hreleased⟩
  exact absurd hreleased (hdropped.not_released x.subxact)

theorem deals_resolveHandle (c : Core (Recorded σ) U) (handle : HandleId)
    (resolution : Resolution) : Deals (⟨c, .resolveHandle handle resolution⟩ : Moment _ S U) := by
  have hopens := not_opens_of_action
    (m := (⟨c, .resolveHandle handle resolution⟩ : Moment _ S U)) nofun nofun
  have hcalm : ∀ {f : Failure}, c.resolveHandle handle resolution = (.error f, c) →
      Deals (⟨c, .resolveHandle handle resolution⟩ : Moment _ S U) := by
    intro f h
    have hafter : Moment.after (⟨c, .resolveHandle handle resolution⟩ : Moment _ S U) = c :=
      congrArg Prod.snd h
    exact .calm (congrArg Core.tally hafter) (congrArg Core.handles hafter) hopens
  cases hstate : c.handleState handle with
  | fresh | committed | aborted => exact hcalm (by rw [Core.resolveHandle, hstate])
  | entered scope =>
    have hcases := c.scopes.resolve_cases scope resolution c.host
    rcases hr : c.scopes.resolve scope resolution c.host with ⟨answer, s', r'⟩
    have hresolve : c.resolveScope scope resolution =
        (answer, { c with scopes := s', host := r' }) := by
      rw [Core.resolveScope, hr]
    rw [hr] at hcases
    cases hcases with
    | refused hne => exact hcalm (by rw [Core.resolveHandle, hstate]; simp only [hresolve]; rfl)
    | @released top outer _ _ hc htop htally hreleased =>
      have h : c.resolveHandle handle resolution =
          (.ok (), { c with scopes := s', host := r' }.setHandle handle .committed) := by
        rw [Core.resolveHandle, hstate]
        simp only [hresolve]
      have hafter : Moment.after (⟨c, .resolveHandle handle resolution⟩ : Moment _ S U) =
          { c with scopes := s', host := r' }.setHandle handle .committed := congrArg Prod.snd h
      refine .resolved handle scope (outer.map Scope.handle) .committed ⟨resolution, rfl⟩ hstate
        ?_ ?_ ?_ (.inl ⟨rfl, top, hc ▸ List.mem_cons_self, htop, ?_⟩)
      · rw [ScopeStack.opened, hc, List.map_cons, htop]
      · exact hafter ▸ htally
      · exact hafter ▸ rfl
      · exact hafter ▸ hreleased
    | @dropped top outer _ _ _ hc htop htally hreleased hanswer =>
      have h : (c.resolveHandle handle resolution).2 =
          { c with scopes := s', host := r' }.setHandle handle .aborted := by
        rw [Core.resolveHandle, hstate]
        obtain rfl | ⟨exc, rfl⟩ := hanswer
        all_goals simp only [hresolve]
      have hafter : Moment.after (⟨c, .resolveHandle handle resolution⟩ : Moment _ S U) =
          { c with scopes := s', host := r' }.setHandle handle .aborted := h
      refine .resolved handle scope (outer.map Scope.handle) .aborted ⟨resolution, rfl⟩ hstate
        ?_ ?_ ?_ (.inr ⟨rfl, ?_⟩)
      · rw [ScopeStack.opened, hc, List.map_cons, htop]
      · exact hafter ▸ htally
      · exact hafter ▸ rfl
      · rintro other ⟨-, x, -, -, hother⟩
        rw [hafter] at hother
        exact hreleased x.subxact hother

theorem deals (m : Moment (Recorded σ) S U) : m.Deals := by
  obtain ⟨c, action⟩ := m
  have hcalm (htally : (Moment.after ⟨c, action⟩).tally = c.tally)
      (hhandles : (Moment.after ⟨c, action⟩).handles = c.handles)
      (hscope : action ≠ .enterScope) (hhandle : ∀ handle, action ≠ .enterHandle handle) :
      Deals (⟨c, action⟩ : Moment _ S U) :=
    .calm htally hhandles (not_opens_of_action hscope hhandle)
  cases action with
  | enterScope => exact deals_enterScope c
  | enterHandle handle => exact deals_enterHandle c handle
  | resolveScope scope resolution => exact deals_resolveScope c scope resolution
  | abortThrough scope => exact deals_abortThrough c scope
  | resolveHandle handle resolution => exact deals_resolveHandle c handle resolution
  | newHandle => exact .made rfl
  | beginHandling exc =>
    have hsame : (c.beginHandling exc).tally = c.tally ∧
        (c.beginHandling exc).handles = c.handles := by
      unfold Core.beginHandling
      dsimp only
      split <;> exact ⟨rfl, rfl⟩
    exact hcalm hsame.1 hsame.2 nofun nofun
  | endHandling | countInline => exact hcalm rfl rfl nofun nofun
  | obtain | addUnit | beginLoad | endLoad | invalidate | clearCache =>
    exact hcalm (after_of_handlesUnits Core.tally_steady (fun _ _ _ => rfl) rfl)
      (after_of_handlesUnits Core.handles_steady (fun _ _ _ => rfl) rfl) nofun nofun
  | _ =>
    exact hcalm (after_of_passing Core.tally_steady rfl) (after_of_passing Core.handles_steady rfl)
      nofun nofun

end Moment

end ProcedureBridge
