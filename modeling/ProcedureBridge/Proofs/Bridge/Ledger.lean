import ProcedureBridge.Proofs.Bridge.Handles

/-! # What handles tell of their scopes

Of everything that has been done so far, a handle remembers whether it entered a scope, and how it
ended that scope itself. It is not told when its scope is ended in another way, and then goes on
saying that the scope is open. -/

namespace ProcedureBridge

variable {σ S U α : Type} [Host σ]

/-! ## What has been done -/

/-- The scope is the one that the handle has entered. -/
def Entered (past : List (Moment σ S U)) (handle : HandleId) (scope : ScopeHandle) : Prop :=
  (∃ m ∈ past, m.Opens (some handle) scope) ∧
    ∀ m ∈ past, ∀ other, m.Opens (some handle) other → other = scope

/-- What the state of a handle tells, given the scopes that are open. -/
inductive Told (past : List (Moment (Recorded σ) S U)) (opened : List ScopeHandle)
    (handle : HandleId) : HandleState → Prop
  | fresh : (∀ m ∈ past, ∀ scope, ¬ m.Opens (some handle) scope) → Told past opened handle .fresh
  /-- The handle has not ended its scope, and nobody has released it. -/
  | entered {scope : ScopeHandle} : Entered past handle scope → (∀ m ∈ past, ¬ m.Releases scope) →
      (∀ m ∈ past, m.Resolves handle → ¬ m.Removes scope) → Told past opened handle (.entered scope)
  | committed {scope : ScopeHandle} : Entered past handle scope → scope ∉ opened →
      (∃ m ∈ past, m.Resolves handle ∧ m.Releases scope) →
      (∀ m ∈ past, m.Resolves handle → m.Removes scope → m.Releases scope) →
      Told past opened handle .committed
  | aborted {scope : ScopeHandle} : Entered past handle scope → scope ∉ opened →
      (∃ m ∈ past, m.Resolves handle ∧ m.Removes scope) → (∀ m ∈ past, ¬ m.Releases scope) →
      Told past opened handle .aborted

theorem forall_mem_snoc {l : List α} {a : α} {p : α → Prop} (h : ∀ x ∈ l, p x) (ha : p a) :
    ∀ x ∈ l ++ [a], p x :=
  List.forall_mem_append.mpr ⟨h, List.forall_mem_singleton.mpr ha⟩

theorem Entered.snoc {past : List (Moment σ S U)} {handle : HandleId} {scope : ScopeHandle}
    {m : Moment σ S U} (h : Entered past handle scope)
    (hopens : ∀ other, ¬ m.Opens (some handle) other) : Entered (past ++ [m]) handle scope := by
  obtain ⟨⟨first, hfirst, hopened⟩, honly⟩ := h
  exact ⟨⟨first, List.mem_append_left _ hfirst, hopened⟩,
    forall_mem_snoc honly fun other hother => absurd hother (hopens other)⟩

theorem exists_mem_snoc {l : List α} {a : α} {p : α → Prop} (h : ∃ x ∈ l, p x) :
    ∃ x ∈ l ++ [a], p x := by
  obtain ⟨x, hx, hp⟩ := h
  exact ⟨x, List.mem_append_left _ hx, hp⟩

section Moments

variable {past : List (Moment (Recorded σ) S U)} {opened opened' : List ScopeHandle}
  {handle : HandleId} {state : HandleState} {m : Moment (Recorded σ) S U}
  {c c' : Core (Recorded σ) U}

/-- What has been told stays told if the scope of the handle is not concerned. -/
theorem Told.snoc (h : Told past opened handle state)
    (hopens : ∀ scope, ¬ m.Opens (some handle) scope)
    (hquiet : ∀ scope, Entered past handle scope →
      ¬ m.Releases scope ∧ (m.Resolves handle → ¬ m.Removes scope))
    (hopened : ∀ scope, Entered past handle scope → scope ∉ opened → scope ∉ opened') :
    Told (past ++ [m]) opened' handle state := by
  cases h with
  | fresh hnever => exact .fresh (forall_mem_snoc hnever hopens)
  | entered he hreleases hremoves =>
    obtain ⟨hreleased, hremoved⟩ := hquiet _ he
    exact .entered (he.snoc hopens) (forall_mem_snoc hreleases hreleased)
      (forall_mem_snoc hremoves hremoved)
  | committed he hgone hreleased honly =>
    exact .committed (he.snoc hopens) (hopened _ he hgone) (exists_mem_snoc hreleased)
      (forall_mem_snoc honly fun hr hremoves => absurd hremoves ((hquiet _ he).2 hr))
  | aborted he hgone hremoved hreleases =>
    exact .aborted (he.snoc hopens) (hopened _ he hgone) (exists_mem_snoc hremoved)
      (forall_mem_snoc hreleases (hquiet _ he).1)

namespace Told

variable {scope : ScopeHandle}

theorem fresh_iff (h : Told past opened handle state) :
    state.status = .fresh ↔ ∀ m ∈ past, ∀ scope, ¬ m.Opens (some handle) scope := by
  cases h with
  | fresh hnever => exact ⟨fun _ => hnever, fun _ => rfl⟩
  | entered he | committed he | aborted he =>
    obtain ⟨m, hm, hopens⟩ := he.1
    exact ⟨nofun, fun hnever => absurd hopens (hnever m hm _)⟩

/-- A handle that has entered a scope says what became of that one. -/
theorem of_entered (h : Told past opened handle state)
    (hentered : ∃ m ∈ past, m.Opens (some handle) scope) :
    Entered past handle scope ∧
      ((state.status = .open ∧ (∀ m ∈ past, ¬ m.Releases scope) ∧
          ∀ m ∈ past, m.Resolves handle → ¬ m.Removes scope) ∨
        (state.status = .committed ∧ scope ∉ opened ∧
          (∃ m ∈ past, m.Resolves handle ∧ m.Releases scope) ∧
          ∀ m ∈ past, m.Resolves handle → m.Removes scope → m.Releases scope) ∨
        (state.status = .aborted ∧ scope ∉ opened ∧
          (∃ m ∈ past, m.Resolves handle ∧ m.Removes scope) ∧ ∀ m ∈ past, ¬ m.Releases scope)) := by
  obtain ⟨m, hm, hopens⟩ := hentered
  cases h with
  | fresh hnever => exact absurd hopens (hnever m hm scope)
  | entered he hreleases hremoves =>
    obtain rfl := he.2 m hm scope hopens
    exact ⟨he, .inl ⟨rfl, hreleases, hremoves⟩⟩
  | committed he hgone hreleased honly =>
    obtain rfl := he.2 m hm scope hopens
    exact ⟨he, .inr (.inl ⟨rfl, hgone, hreleased, honly⟩)⟩
  | aborted he hgone hremoved hreleases =>
    obtain rfl := he.2 m hm scope hopens
    exact ⟨he, .inr (.inr ⟨rfl, hgone, hremoved, hreleases⟩)⟩

theorem committed_iff (h : Told past opened handle state)
    (hentered : ∃ m ∈ past, m.Opens (some handle) scope) :
    state.status = .committed ↔ ∃ m ∈ past, m.Releases scope := by
  obtain ⟨-, ⟨hstatus, hnone, -⟩ | ⟨hstatus, -, ⟨m, hm, -, hreleases⟩, -⟩ |
    ⟨hstatus, -, -, hnone⟩⟩ := h.of_entered hentered
  · exact ⟨fun hc => absurd (hstatus.symm.trans hc) nofun,
      fun ⟨m, hm, hr⟩ => absurd hr (hnone m hm)⟩
  · exact ⟨fun _ => ⟨m, hm, hreleases⟩, fun _ => hstatus⟩
  · exact ⟨fun hc => absurd (hstatus.symm.trans hc) nofun,
      fun ⟨m, hm, hr⟩ => absurd hr (hnone m hm)⟩

theorem aborted_iff (h : Told past opened handle state)
    (hentered : ∃ m ∈ past, m.Opens (some handle) scope) :
    state.status = .aborted ↔
      ∃ m ∈ past, m.Resolves handle ∧ m.Removes scope ∧ ¬ m.Releases scope := by
  obtain ⟨-, ⟨hstatus, -, hkept⟩ | ⟨hstatus, -, -, honly⟩ |
    ⟨hstatus, -, ⟨m, hm, hr, hremoves⟩, hnone⟩⟩ := h.of_entered hentered
  · exact ⟨fun ha => absurd (hstatus.symm.trans ha) nofun,
      fun ⟨m, hm, hr, hremoves, _⟩ => absurd hremoves (hkept m hm hr)⟩
  · exact ⟨fun ha => absurd (hstatus.symm.trans ha) nofun,
      fun ⟨m, hm, hr, hremoves, hnot⟩ => absurd (honly m hm hr hremoves) hnot⟩
  · exact ⟨fun _ => ⟨m, hm, hr, hremoves, hnone m hm⟩, fun _ => hstatus⟩

theorem open_iff (h : Told past opened handle state)
    (hentered : ∃ m ∈ past, m.Opens (some handle) scope) :
    state.status = .open ↔ ∀ m ∈ past, m.Resolves handle → ¬ m.Removes scope := by
  obtain ⟨-, ⟨hstatus, -, hkept⟩ | ⟨hstatus, -, ⟨m, hm, hr, hreleases⟩, -⟩ |
    ⟨hstatus, -, ⟨m, hm, hr, hremoves⟩, -⟩⟩ := h.of_entered hentered
  · exact ⟨fun _ => hkept, fun _ => hstatus⟩
  · exact ⟨fun ho => absurd (hstatus.symm.trans ho) nofun,
      fun hkept => absurd hreleases.1 (hkept m hm hr)⟩
  · exact ⟨fun ho => absurd (hstatus.symm.trans ho) nofun,
      fun hkept => absurd hremoves (hkept m hm hr)⟩

theorem open_of_mem (h : Told past opened handle state)
    (hentered : ∃ m ∈ past, m.Opens (some handle) scope) (hopen : scope ∈ opened) :
    state.status = .open := by
  obtain ⟨-, ⟨hstatus, -⟩ | ⟨-, hgone, -⟩ | ⟨-, hgone, -⟩⟩ := h.of_entered hentered
  · exact hstatus
  · exact absurd hopen hgone
  · exact absurd hopen hgone

end Told

theorem Told.shrink (h : Told past opened handle state) (hopened : opened' ⊆ opened) :
    Told past opened' handle state := by
  cases h with
  | fresh hnever => exact .fresh hnever
  | entered he hreleases hremoves => exact .entered he hreleases hremoves
  | committed he hgone hreleased honly =>
    exact .committed he (fun hopen => hgone (hopened hopen)) hreleased honly
  | aborted he hgone hremoved hreleases =>
    exact .aborted he (fun hopen => hgone (hopened hopen)) hremoved hreleases

/-! ## The ledger -/

/-- Scopes are numbered in the order in which they are opened, and each is opened once. -/
structure Serial (past : List (Moment (Recorded σ) S U)) (c : Core (Recorded σ) U) : Prop where
  falling : c.scopes.opened.Pairwise fun x y => y.id < x.id
  bounded : ∀ x ∈ c.scopes.opened, x.id ≤ c.scopes.issued
  earlier : ∀ m ∈ past, m.core.handles.size ≤ c.handles.size ∧
    ∀ x ∈ m.core.scopes.opened, x.id ≤ c.scopes.issued
  known : ∀ m ∈ past, ∀ owner x, m.Opens owner x → x.id ≤ c.scopes.issued
  single : ∀ m ∈ past, ∀ m' ∈ past, ∀ owner owner' x, m.Opens owner x → m'.Opens owner' x →
    owner = owner'

/-- And what handles tell of their scopes agrees with what has been done. -/
structure Ledger (past : List (Moment (Recorded σ) S U)) (c : Core (Recorded σ) U) : Prop
    extends Serial past c where
  told : ∀ handle : HandleId, handle.number < c.handles.size →
    Told past c.scopes.opened handle (c.handleState handle)

theorem Serial.entered_le (h : Serial past c) {scope : ScopeHandle}
    (he : Entered past handle scope) : scope.id ≤ c.scopes.issued := by
  obtain ⟨⟨m, hm, hopens⟩, -⟩ := he
  exact h.known m hm _ scope hopens

theorem Serial.removes_iff (h : Serial past m.core) {scope : ScopeHandle}
    {outer : List ScopeHandle} (hopen : m.core.scopes.opened = scope :: outer)
    (hafter : m.after.scopes.opened = outer) {other : ScopeHandle} :
    m.Removes other ↔ other = scope := by
  have hfalling := h.falling
  rw [hopen] at hfalling
  have hnot : scope ∉ outer := fun hmem =>
    Nat.lt_irrefl _ ((List.pairwise_cons.mp hfalling).1 scope hmem)
  rw [Moment.Removes, hopen, hafter, List.mem_cons]
  constructor
  · rintro ⟨rfl | hmem, hgone⟩
    · rfl
    · exact absurd hmem hgone
  · rintro rfl
    exact ⟨.inl rfl, hnot⟩

theorem Serial.keep (h : Serial past m.core)
    (hopened : m.after.scopes.opened <:+ m.core.scopes.opened)
    (hissued : m.after.scopes.issued = m.core.scopes.issued)
    (hsize : m.core.handles.size ≤ m.after.handles.size)
    (hopens : ∀ owner scope, ¬ m.Opens owner scope) : Serial (past ++ [m]) m.after where
  falling := h.falling.sublist hopened.sublist
  bounded x hx := hissued ▸ h.bounded x (hopened.subset hx)
  earlier := by
    refine forall_mem_snoc (fun m' hm' => ?_) ⟨hsize, hissued ▸ h.bounded⟩
    obtain ⟨hmade, hbounded⟩ := h.earlier m' hm'
    exact ⟨Nat.le_trans hmade hsize, hissued ▸ hbounded⟩
  known := forall_mem_snoc (hissued ▸ h.known) fun owner x hx => absurd hx (hopens owner x)
  single := by
    refine forall_mem_snoc (fun m₁ hm₁ => forall_mem_snoc (h.single m₁ hm₁) ?_) ?_
    · exact fun _ owner x _ hx => absurd hx (hopens owner x)
    · exact fun _ _ owner _ x hx => absurd hx (hopens owner x)

/-- A scope that is opened has a number that none had before. -/
theorem Serial.push (h : Serial past m.core) {scope : ScopeHandle}
    (hnew : m.core.scopes.Opens scope m.after.scopes)
    (hsize : m.core.handles.size ≤ m.after.handles.size)
    (honly : ∀ owner x, m.Opens owner x → x = scope) : Serial (past ++ [m]) m.after := by
  obtain ⟨hid, htally⟩ := hnew
  obtain ⟨hopened, hissued⟩ := Prod.mk.inj htally
  have hle : m.core.scopes.issued ≤ m.after.scopes.issued := by omega
  have hfresh : ∀ m' ∈ past, ∀ owner x, m'.Opens owner x → x ≠ scope := by
    rintro m' hm' owner x hx rfl
    have := h.known m' hm' owner x hx
    omega
  refine ⟨?_, ?_, ?_, ?_, ?_⟩
  · rw [hopened, List.pairwise_cons]
    exact ⟨fun x hx => by have := h.bounded x hx; omega, h.falling⟩
  · intro x hx
    rw [hopened] at hx
    rcases List.mem_cons.mp hx with rfl | hx
    · omega
    · exact Nat.le_trans (h.bounded x hx) hle
  · refine forall_mem_snoc (fun m' hm' => ?_) ⟨hsize, fun x hx =>
      Nat.le_trans (h.bounded x hx) hle⟩
    obtain ⟨hmade, hbounded⟩ := h.earlier m' hm'
    exact ⟨Nat.le_trans hmade hsize, fun x hx => Nat.le_trans (hbounded x hx) hle⟩
  · refine forall_mem_snoc (fun m' hm' owner x hx =>
      Nat.le_trans (h.known m' hm' owner x hx) hle) ?_
    intro owner x hx
    rw [honly owner x hx]
    omega
  · refine forall_mem_snoc (fun m₁ hm₁ => forall_mem_snoc (h.single m₁ hm₁) ?_)
      (forall_mem_snoc (fun m₂ hm₂ => ?_) ?_)
    · exact fun owner owner' x hx hx' => absurd (honly owner' x hx') (hfresh m₁ hm₁ owner x hx)
    · exact fun owner owner' x hx hx' => absurd (honly owner x hx) (hfresh m₂ hm₂ owner' x hx')
    · exact fun owner owner' x hx hx' => (hx.unique hx').1

/-- Scopes may end outside of actions. -/
theorem Ledger.shrink (h : Ledger past c) (hopened : c'.scopes.opened <:+ c.scopes.opened)
    (hissued : c'.scopes.issued = c.scopes.issued) (hhandles : c'.handles = c.handles) :
    Ledger past c' where
  falling := h.falling.sublist hopened.sublist
  bounded x hx := hissued ▸ h.bounded x (hopened.subset hx)
  earlier := hissued ▸ hhandles ▸ h.earlier
  known := hissued ▸ h.known
  single := h.single
  told handle hmade := by
    rw [Core.handleState_congr hhandles]
    exact (h.told handle (hhandles ▸ hmade)).shrink hopened.subset

/-- Before it is made, nobody has entered a handle. -/
theorem Serial.not_opens (h : Serial past c) (hnew : c.handles.size ≤ handle.number) :
    ∀ m ∈ past, ∀ scope, ¬ m.Opens (some handle) scope := by
  rintro m hm scope ⟨-, hmade, -, -⟩
  have := (h.earlier m hm).1
  omega

namespace Ledger

variable (h : Ledger past m.core)
include h

theorem calm (htally : m.after.tally = m.core.tally) (hhandles : m.after.handles = m.core.handles)
    (hopens : ∀ owner scope, ¬ m.Opens owner scope) : Ledger (past ++ [m]) m.after := by
  have hopened : m.after.scopes.opened = m.core.scopes.opened := ScopeStack.opened_of_tally htally
  have hremoves : ∀ scope, ¬ m.Removes scope := by
    rintro scope ⟨hopen, hgone⟩
    exact hgone (hopened ▸ hopen)
  refine ⟨h.toSerial.keep (hopened ▸ List.suffix_rfl) (ScopeStack.issued_of_tally htally)
    (hhandles ▸ Nat.le_refl _) hopens, fun handle hmade => ?_⟩
  rw [Core.handleState_congr hhandles]
  refine (h.told handle (hhandles ▸ hmade)).snoc (hopens _) (fun scope _ => ?_)
    fun scope _ hgone => hopened ▸ hgone
  exact ⟨fun hreleases => hremoves scope hreleases.1, fun _ => hremoves scope⟩

theorem made (haction : m.action = .newHandle) : Ledger (past ++ [m]) m.after := by
  obtain ⟨c, action⟩ := m
  cases haction
  have hopens := Moment.not_opens_of_action (m := (⟨c, .newHandle⟩ : Moment _ S U)) nofun nofun
  have hsize : (Moment.after (⟨c, .newHandle⟩ : Moment _ S U)).handles.size = c.handles.size + 1 :=
    Array.size_push ..
  refine ⟨h.toSerial.keep List.suffix_rfl rfl (by rw [hsize]; exact Nat.le_succ _) hopens,
    fun handle hmade => ?_⟩
  rw [hsize] at hmade
  by_cases hlt : handle.number < c.handles.size
  · have hstate : (Moment.after (⟨c, .newHandle⟩ : Moment _ S U)).handleState handle =
        c.handleState handle := by
      change ((c.handles.push .fresh)[handle.number]?).getD .fresh = _
      rw [Array.getElem?_push_lt hlt, Core.handleState, Array.getElem?_eq_getElem hlt]
    rw [hstate]
    refine (h.told handle hlt).snoc (hopens _) (fun scope _ => ?_) fun _ _ => id
    have hremoves : ¬ Moment.Removes (⟨c, .newHandle⟩ : Moment _ S U) scope :=
      fun hremoves => hremoves.2 hremoves.1
    exact ⟨fun hreleases => hremoves hreleases.1, fun _ => hremoves⟩
  · have hnumber : handle.number = c.handles.size := by omega
    have hstate : (Moment.after (⟨c, .newHandle⟩ : Moment _ S U)).handleState handle = .fresh := by
      change ((c.handles.push .fresh)[handle.number]?).getD .fresh = _
      rw [hnumber, Array.getElem?_push_size]
      rfl
    rw [hstate]
    exact .fresh (forall_mem_snoc (h.toSerial.not_opens (hnumber ▸ Nat.le_refl _)) (hopens _))

/-- A scope that is opened concerns no handle but the one for which it is opened. -/
theorem told_of_opens {scope : ScopeHandle} (hnew : m.core.scopes.Opens scope m.after.scopes)
    {handle : HandleId} (hmade : handle.number < m.core.handles.size)
    (hopens : ∀ other, ¬ m.Opens (some handle) other) :
    Told (past ++ [m]) m.after.scopes.opened handle (m.core.handleState handle) := by
  obtain ⟨hid, htally⟩ := hnew
  have hopened : m.after.scopes.opened = scope :: m.core.scopes.opened := congrArg Prod.fst htally
  have hremoves : ∀ other, ¬ m.Removes other := by
    rintro other ⟨hopen, hgone⟩
    exact hgone (hopened ▸ List.mem_cons_of_mem _ hopen)
  refine (h.told handle hmade).snoc hopens (fun other _ => ?_) fun other he hgone => ?_
  · exact ⟨fun hreleases => hremoves other hreleases.1, fun _ => hremoves other⟩
  · rw [hopened, List.mem_cons]
    rintro (rfl | hopen)
    · have := h.toSerial.entered_le he
      omega
    · exact hgone hopen

theorem opens {scope : ScopeHandle} (hopens : m.Opens none scope)
    (hnew : m.core.scopes.Opens scope m.after.scopes)
    (hhandles : m.after.handles = m.core.handles) : Ledger (past ++ [m]) m.after := by
  refine ⟨h.toSerial.push hnew (hhandles ▸ Nat.le_refl _) fun owner x hx =>
    (hx.unique hopens).2, fun handle hmade => ?_⟩
  rw [Core.handleState_congr hhandles]
  exact h.told_of_opens hnew (hhandles ▸ hmade) fun other hother =>
    nomatch (hother.unique hopens).1

theorem enters {handle : HandleId} {scope : ScopeHandle} (haction : m.action = .enterHandle handle)
    (hfresh : m.core.handleState handle = .fresh) (hok : (m.core.enterHandle handle).1 = .ok ())
    (hnew : m.core.scopes.Opens scope m.after.scopes)
    (hhandles : m.after.handles = m.core.handles.setIfInBounds handle.number (.entered scope)) :
    Ledger (past ++ [m]) m.after := by
  have hsize : m.after.handles.size = m.core.handles.size := by
    rw [hhandles, Array.size_setIfInBounds]
  have hopened : m.after.scopes.opened = scope :: m.core.scopes.opened :=
    congrArg Prod.fst hnew.tally
  have hcurrent : m.after.scopes.current? = some scope := by
    rw [ScopeStack.current?, ← List.head?_map]
    exact congrArg List.head? hopened
  have honly : ∀ owner x, m.Opens owner x → owner = some handle ∧ x = scope := by
    intro owner x hx
    cases owner with
    | none => cases haction.symm.trans hx.1
    | some other =>
      obtain ⟨hother, -, -, hx⟩ := hx
      exact ⟨congrArg some (Action.enterHandle.inj (hother.symm.trans haction)),
        Option.some.inj (hx.symm.trans hcurrent)⟩
  refine ⟨h.toSerial.push hnew (hsize ▸ Nat.le_refl _) fun owner x hx => (honly owner x hx).2,
    fun other hmade => ?_⟩
  rw [hsize] at hmade
  by_cases hother : other = handle
  · -- nothing can have been done to a scope that was not there
    have hlt : scope.id = m.core.scopes.issued + 1 := hnew.id
    have hnever : ∀ m' ∈ past ++ [m], ¬ m'.Removes scope := by
      refine forall_mem_snoc (fun m' hm' hremoves => ?_) fun hremoves => ?_
      · have := (h.earlier m' hm').2 scope hremoves.1
        omega
      · have := h.bounded scope hremoves.1
        omega
    subst hother
    rw [Core.handleState_set hhandles hmade]
    have htold := h.told other hmade
    rw [hfresh] at htold
    cases htold with
    | fresh hbefore =>
      refine .entered ⟨⟨m, List.mem_append_right _ (List.mem_singleton_self m), haction, hmade, hok,
        hcurrent⟩, ?_⟩ (fun m' hm' hreleases => hnever m' hm' hreleases.1)
        fun m' hm' _ => hnever m' hm'
      exact forall_mem_snoc (fun m' hm' x hx => absurd hx (hbefore m' hm' x))
        fun x hx => (honly _ x hx).2
  · rw [Core.handleState_set_of_ne hhandles hother]
    exact h.told_of_opens hnew hmade fun x hx =>
      hother (Option.some.inj (honly _ x hx).1)

/-- The bridge ends scopes of bodies, and whatever is inside them. -/
theorem ends (hresolves : ∀ handle, ¬ m.Resolves handle)
    (hopened : m.after.scopes.opened <:+ m.core.scopes.opened)
    (hissued : m.after.scopes.issued = m.core.scopes.issued)
    (hhandles : m.after.handles = m.core.handles)
    (hbody : ∀ scope, m.Releases scope → ∃ first ∈ past, first.Opens none scope)
    (hopens : ∀ owner scope, ¬ m.Opens owner scope) : Ledger (past ++ [m]) m.after := by
  refine ⟨h.toSerial.keep hopened hissued (hhandles ▸ Nat.le_refl _) hopens,
    fun handle hmade => ?_⟩
  rw [Core.handleState_congr hhandles]
  refine (h.told handle (hhandles ▸ hmade)).snoc (hopens _) (fun scope he => ?_)
    fun scope _ hgone hopen => hgone (hopened.subset hopen)
  refine ⟨fun hreleases => ?_, fun hr => absurd hr (hresolves handle)⟩
  obtain ⟨first, hfirst, hopensFirst⟩ := hbody scope hreleases
  obtain ⟨⟨m', hm', hopens'⟩, -⟩ := he
  exact nomatch h.single first hfirst m' hm' _ _ scope hopensFirst hopens'

theorem resolves {handle : HandleId} {scope : ScopeHandle} {outer : List ScopeHandle}
    {state : HandleState} (hresolves : m.Resolves handle)
    (hstate : m.core.handleState handle = .entered scope)
    (hopen : m.core.scopes.opened = scope :: outer)
    (htally : m.after.tally = (outer, m.core.scopes.issued))
    (hhandles : m.after.handles = m.core.handles.setIfInBounds handle.number state)
    (hend : (state = .committed ∧ ∃ x ∈ m.core.scopes.scopes, x.handle = scope ∧
        ScopeStack.Released x.subxact m.core.host m.after.host) ∨
      (state = .aborted ∧ ∀ scope, ¬ m.Releases scope)) : Ledger (past ++ [m]) m.after := by
  obtain ⟨hopened, hissued⟩ := Prod.mk.inj htally
  have hsize : m.after.handles.size = m.core.handles.size := by
    rw [hhandles, Array.size_setIfInBounds]
  have hsuffix : m.after.scopes.opened <:+ m.core.scopes.opened := by
    rw [hopened, hopen]
    exact List.suffix_cons _ _
  have hopens : ∀ owner scope, ¬ m.Opens owner scope := by
    obtain ⟨resolution, haction⟩ := hresolves
    exact Moment.not_opens_of_action (haction ▸ nofun) (haction ▸ nofun)
  have hremoves : ∀ {other}, m.Removes other ↔ other = scope :=
    h.toSerial.removes_iff hopen hopened
  -- the scope is that of the handle, and of no other one
  have hmade : handle.number < m.core.handles.size := by
    by_contra hlt
    rw [Core.handleState, Array.getElem?_eq_none (Nat.le_of_not_lt hlt)] at hstate
    cases hstate
  have htold := h.told handle hmade
  rw [hstate] at htold
  obtain ⟨he, hreleased, hremoved⟩ : Entered past handle scope ∧
      (∀ m ∈ past, ¬ m.Releases scope) ∧ ∀ m ∈ past, m.Resolves handle → ¬ m.Removes scope := by
    cases htold with
    | entered he hreleased hremoved => exact ⟨he, hreleased, hremoved⟩
  refine ⟨h.toSerial.keep hsuffix hissued (hsize ▸ Nat.le_refl _) hopens, fun other hother => ?_⟩
  rw [hsize] at hother
  by_cases hne : other = handle
  · subst hne
    rw [Core.handleState_set hhandles hother]
    have hgone : scope ∉ m.after.scopes.opened := (hremoves.mpr rfl).2
    have hm : m ∈ past ++ [m] := List.mem_append_right _ (List.mem_singleton_self m)
    obtain ⟨rfl, x, hx, hhandle, hrelease⟩ | ⟨rfl, hnone⟩ := hend
    · have hreleases : m.Releases scope := ⟨hremoves.mpr rfl, x, hx, hhandle, hrelease⟩
      exact .committed (he.snoc (hopens _)) hgone ⟨m, hm, hresolves, hreleases⟩
        (forall_mem_snoc (fun m' hm' hr hremoves' => absurd hremoves' (hremoved m' hm' hr))
          fun _ _ => hreleases)
    · exact .aborted (he.snoc (hopens _)) hgone ⟨m, hm, hresolves, hremoves.mpr rfl⟩
        (forall_mem_snoc hreleased (hnone scope))
  · rw [Core.handleState_set_of_ne hhandles hne]
    refine (h.told other hother).snoc (hopens _) (fun scope' he' => ?_)
      fun scope' _ hgone hopen' => hgone (hsuffix.subset hopen')
    have hdistinct : scope' ≠ scope := by
      rintro rfl
      obtain ⟨⟨m₁, hm₁, hopens₁⟩, -⟩ := he
      obtain ⟨⟨m₂, hm₂, hopens₂⟩, -⟩ := he'
      exact hne (Option.some.inj (h.single m₂ hm₂ m₁ hm₁ _ _ scope' hopens₂ hopens₁))
    have hstays : ¬ m.Removes scope' := fun hr => hdistinct (hremoves.mp hr)
    exact ⟨fun hreleases => hstays hreleases.1, fun _ => hstays⟩

/-- The step lemma: every action keeps the ledger, if the scopes that are resolved for bodies have
been opened for bodies. -/
theorem step (hbody : ∀ scope resolution, m.action = .resolveScope scope resolution →
    ∃ first ∈ past, first.Opens none scope) : Ledger (past ++ [m]) m.after := by
  cases m.deals with
  | calm htally hhandles hopens => exact h.calm htally hhandles hopens
  | made haction => exact h.made haction
  | opened scope hopens hnew hhandles => exact h.opens hopens hnew hhandles
  | entered handle scope haction hfresh hok hnew hhandles =>
    exact h.enters haction hfresh hok hnew hhandles
  | ended hresolves hopened hissued hhandles hreleases hopens =>
    refine h.ends hresolves hopened hissued hhandles (fun scope hr => ?_) hopens
    obtain ⟨resolution, haction⟩ := hreleases scope hr
    exact hbody scope resolution haction
  | resolved handle scope outer state hresolves hstate hopen htally hhandles hend =>
    exact h.resolves hresolves hstate hopen htally hhandles hend

end Ledger

end Moments

/-! ## Runs -/

namespace Task

/-- The property of what has been done and of the core holds at every point of the run, and in the
end. -/
def RecordsFrom (P : List (Moment σ S U) → Core σ U → Prop) (t : Task S U α)
    (past : List (Moment σ S U)) (c : Core σ U) : Prop :=
  P (past ++ t.trace c) (t.run c).2 ∧
    ∀ before m after, t.trace c = before ++ m :: after → P (past ++ before) m.core

/-- Every run of the task keeps the property. -/
def Records (P : List (Moment σ S U) → Core σ U → Prop) (t : Task S U α) : Prop :=
  ∀ past c, P past c → t.RecordsFrom P past c

variable {P : List (Moment σ S U) → Core σ U → Prop} {past : List (Moment σ S U)} {c : Core σ U}

theorem recordsFrom_pure {a : α} (hc : P past c) :
    (Task.pure a : Task S U α).RecordsFrom P past c :=
  ⟨(List.append_nil past).symm ▸ hc, fun before m after h => by cases before <;> cases h⟩

theorem recordsFrom_act {action : Action S U} {next : action.Answer → Task S U α} (hc : P past c)
    (h : (next (c.perform action).1).RecordsFrom P (past ++ [⟨c, action⟩])
      (Moment.after ⟨c, action⟩)) : (Task.act action next).RecordsFrom P past c := by
  obtain ⟨hend, hpoint⟩ := h
  rw [List.append_assoc] at hend
  refine ⟨hend, fun before m after htrace => ?_⟩
  cases before with
  | nil =>
    cases htrace
    exact (List.append_nil past).symm ▸ hc
  | cons first before =>
    obtain ⟨rfl, hrest⟩ := List.cons.inj htrace
    have hm := hpoint before m after hrest
    rwa [List.append_assoc] at hm

theorem RecordsFrom.bind {β : Type} {t : Task S U α} {k : α → Task S U β}
    (ht : t.RecordsFrom P past c) (hk : ∀ a, (k a).Records P) :
    (t >>= k).RecordsFrom P past c := by
  obtain ⟨hend, hpoint⟩ := ht
  obtain ⟨hend', hpoint'⟩ := hk (t.run c).1 _ _ hend
  rw [RecordsFrom, trace_bind, run_bind, ← List.append_assoc]
  refine ⟨hend', fun before m after htrace => ?_⟩
  -- the moment belongs to the second part, or to the first
  obtain ⟨since, rfl, hrest⟩ | ⟨since, hfirst, hrest⟩ := List.append_eq_append_iff.mp htrace
  · rw [← List.append_assoc]
    exact hpoint' since m after hrest
  · cases since with
    | nil =>
      have hm := hpoint' [] m after hrest.symm
      rwa [List.append_nil, hfirst, List.append_nil] at hm
    | cons m' since =>
      obtain ⟨rfl, -⟩ := List.cons.inj hrest
      exact hpoint before m since hfirst

theorem records_composes : Composes fun _ (t : Task S U _) => t.Records P where
  pure _ _ _ hc := recordsFrom_pure hc
  bind ht hk past c hc := (ht past c hc).bind hk

theorem records_perform {action : Action S U}
    (hstep : ∀ past c, P past c → P (past ++ [⟨c, action⟩]) (Moment.after ⟨c, action⟩)) :
    (perform action).Records P :=
  fun past c hc => recordsFrom_act hc (recordsFrom_pure (hstep past c hc))

/-- What has been done stays done. -/
theorem Records.since {t : Task S U α} (ht : t.Records P) {R : List (Moment σ S U) → Prop}
    (hR : ∀ past later, R past → R (past ++ later)) :
    t.Records fun past c => P past c ∧ R past := by
  rintro past c ⟨hc, hpast⟩
  obtain ⟨hend, hpoint⟩ := ht past c hc
  exact ⟨⟨hend, hR _ _ hpast⟩, fun before m after h => ⟨hpoint before m after h, hR _ _ hpast⟩⟩

theorem RecordsFrom.mono {Q : List (Moment σ S U) → Core σ U → Prop} {t : Task S U α}
    (ht : t.RecordsFrom P past c) (h : ∀ past c, P past c → Q past c) : t.RecordsFrom Q past c :=
  ⟨h _ _ ht.1, fun before m after htrace => h _ _ (ht.2 before m after htrace)⟩

end Task

section Ledgers

/-- The action resolves the scope of a body. -/
def Action.resolvesScope : Action S U → Bool
  | .resolveScope .. => true
  | _ => false

theorem records_ledger {action : Action S U} (haction : action.resolvesScope = false) :
    (Task.perform action).Records (Ledger (σ := σ)) := by
  refine Task.records_perform fun past c hc => hc.step ?_
  rintro scope resolution rfl
  cases haction

/-- The scope of a body is resolved after it has been opened. -/
theorem records_ledger_inScope {V : Type} (state : S) {body : Task S U (Outcome S V)}
    (hbody : body.Records (Ledger (σ := σ))) :
    (Task.inScope state body).Records (Ledger (σ := σ)) := by
  intro past c hc
  have hafter := hc.step (m := ⟨c, .enterScope⟩) nofun
  refine Task.recordsFrom_act hc ?_
  generalize hanswer : (c.perform .enterScope).1 = answer
  cases answer with
  | error f => exact Task.recordsFrom_pure hafter
  | ok scope =>
    let Opened (past : List (Moment (Recorded σ) S U)) : Prop :=
      ∃ first ∈ past, first.Opens none scope
    let P past (c : Core (Recorded σ) U) : Prop := Ledger past c ∧ Opened past
    have hC := Task.records_composes (P := P)
    have hlater : ∀ past later, Opened past → Opened (past ++ later) := by
      rintro past later ⟨first, hfirst, hopens⟩
      exact ⟨first, List.mem_append_left _ hfirst, hopens⟩
    have hcommit : (Task.perform (.resolveScope scope .commit)).Records P := by
      refine Task.records_perform fun past c ⟨hc, hopened⟩ => ⟨hc.step ?_, hlater _ _ hopened⟩
      intro other resolution h
      obtain ⟨rfl, -⟩ := Action.resolveScope.inj h
      exact hopened
    have habort : (Task.perform (.abortThrough scope)).Records P :=
      Task.Records.since (records_ledger rfl) hlater
    have hrest : (body >>= fun o => Task.leaveScope scope o.result >>= fun result =>
        .pure (⟨result, o.state⟩ : Outcome S V)).Records P :=
      hC.bind (hbody.since hlater) fun o =>
        hC.bind (hC.leaveScope scope hcommit habort o.result) fun _ => hC.pure _
    refine (hrest _ _ ⟨hafter, ⟨c, .enterScope⟩, ?_, rfl, hanswer⟩).mono fun _ _ h => h.1
    exact List.mem_append_right _ (List.mem_singleton_self _)

/-- The run lemma: whatever scripts do keeps the ledger. -/
theorem Compiler.carries_ledger (compiler : Compiler S U) :
    compiler.Carries fun _ t => t.Records (Ledger (σ := σ)) := by
  have hC := Task.records_composes (P := Ledger (σ := σ) (S := S) (U := U))
  refine .of_units hC (fun action _ hplain => records_ledger ?_) records_ledger_inScope
    (fun _ => hC.handling (records_ledger rfl) (records_ledger rfl))
    fun action ha _ => records_ledger ?_
  · cases action <;> first | rfl | cases hplain
  · cases action <;> first | rfl | cases ha

end Ledgers

end ProcedureBridge
