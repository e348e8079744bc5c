import ProcedureBridge.Proofs.Bridge.Action

/-! # What actions leave alone

A safepoint, a message, and an error that is raised can change the host, what is requested and what
is fatal; they may mark the innermost scope, and take time. Whatever else there is they leave as it
is. -/

namespace ProcedureBridge

variable {σ U S β : Type}

namespace Core

/-- What the function tells of a core depends on nothing that a safepoint can change. -/
structure Steady (f : Core σ U → β) : Prop where
  marked : ∀ c, f c.markFailed = f c
  same : ∀ (c : Core σ U) host monitor fatal now sinceSafepoint callWatchdog standingWatchdog,
    f { c with host, monitor, fatal, now, sinceSafepoint, callWatchdog, standingWatchdog } = f c

/-- Nor on the scopes. -/
def Unscoped (f : Core σ U → β) : Prop := ∀ (c : Core σ U) scopes, f { c with scopes } = f c

/-- Nor on the units and the cache. -/
def Detached (f : Core σ U → β) : Prop :=
  ∀ (c : Core σ U) units cache, f { c with units, cache } = f c

/-- Nor on the handles. -/
def Handleless (f : Core σ U → β) : Prop := ∀ (c : Core σ U) handles, f { c with handles } = f c

namespace Steady

variable {f : Core σ U → β} {c c' : Core σ U}

theorem host (hf : Steady f) (c : Core σ U) (host : σ) : f { c with host } = f c :=
  hf.same c _ _ _ _ _ _ _

theorem recordFatal (hf : Steady f) (c : Core σ U) (e : Exception) : f (c.recordFatal e) = f c := by
  rw [Core.recordFatal]
  split
  · exact hf.same c _ _ _ _ _ _ _
  · rfl

theorem raise (hf : Steady f) (c : Core σ U) (report : Report) : f (c.raise report).2 = f c := by
  simp only [Core.raise]
  split
  · exact (hf.marked _).trans (hf.recordFatal c _)
  · exact hf.marked c

variable [Host σ]

theorem poll (hf : Steady f) (c : Core σ U) : f c.poll = f c := by
  rw [Core.poll]
  dsimp only
  split <;> exact hf.same c _ _ _ _ _ _ _

theorem safepoint (hf : Steady f) (c : Core σ U) : f c.safepoint.2 = f c := by
  cases hfatal : c.fatal with
  | some e =>
    rw [safepoint_of_fatal hfatal]
    exact hf.marked c
  | none =>
    cases hheld : c.poll.monitor.held with
    | some kind =>
      rw [safepoint_of_held hfatal hheld]
      exact (hf.marked _).trans ((hf.same c.poll _ _ _ _ _ _ _).trans (hf.poll c))
    | none =>
      rw [safepoint_of_clear hfatal hheld]
      exact hf.poll c

theorem of_safepoint (hf : Steady f) {r : Except Failure Unit} (h : c.safepoint = (r, c')) :
    f c' = f c := by
  rw [← hf.safepoint c, h]

theorem deliver (hf : Steady f) (c : Core σ U) (report : Report) : f (c.deliver report) = f c := by
  rw [Core.deliver]
  dsimp only
  rw [foldl_signal]
  exact hf.same c _ _ _ _ _ _ _

theorem report (hf : Steady f) (c : Core σ U) (report : Report) : f (c.report report).2 = f c := by
  simp only [Core.report]
  rcases h : c.safepoint with ⟨_ | _, c'⟩
  · exact hf.of_safepoint h
  · dsimp only
    split
    · exact (hf.raise c' report).trans (hf.of_safepoint h)
    · exact (hf.deliver c' report).trans (hf.of_safepoint h)

theorem reportFromScript (hf : Steady f) (c : Core σ U) (severity : Severity) (message : String)
    (options : ReportOptions) : f (c.reportFromScript severity message options).2 = f c := by
  simp only [Core.reportFromScript]
  split
  · rfl
  · exact hf.report c _

theorem tick (hf : Steady f) (c : Core σ U) (instructions : Nat) :
    f (c.tick instructions).2 = f c := by
  unfold Core.tick
  dsimp only
  split
  · exact (hf.safepoint _).trans (hf.same c _ _ _ _ _ _ _)
  · exact hf.same c _ _ _ _ _ _ _

theorem listProcedures (hf : Steady f) (c : Core σ U) (schema : String) :
    f (c.listProcedures schema).2 = f c := by
  simp only [Core.listProcedures]
  split
  · exact hf.host c _
  · exact (hf.raise _ _).trans (hf.host c _)

theorem enterScope (hf : Steady f) (hs : Unscoped f) (c : Core σ U) : f c.enterScope.2 = f c := by
  simp only [Core.enterScope]
  rcases h : c.safepoint with ⟨_ | _, c'⟩
  · exact hf.of_safepoint h
  · exact (hs { c' with host := _ } _).trans ((hf.host c' _).trans (hf.of_safepoint h))

theorem resolveScope (hf : Steady f) (hs : Unscoped f) (c : Core σ U) (handle : ScopeHandle)
    (resolution : Resolution) : f (c.resolveScope handle resolution).2 = f c :=
  (hs { c with host := _ } _).trans (hf.host c _)

theorem abortThrough (hf : Steady f) (hs : Unscoped f) (c : Core σ U) (handle : ScopeHandle) :
    f (c.abortThrough handle) = f c := (hs { c with host := _ } _).trans (hf.host c _)

theorem enterHandle (hf : Steady f) (hs : Unscoped f) (hh : Handleless f) (c : Core σ U)
    (handle : HandleId) : f (c.enterHandle handle).2 = f c := by
  have henter := hf.enterScope hs c
  simp only [Core.enterHandle]
  split
  · split
    · rename_i h
      rwa [h] at henter
    · rename_i h
      rw [h] at henter
      exact (hh _ _).trans henter
  · rfl

theorem resolveHandle (hf : Steady f) (hs : Unscoped f) (hh : Handleless f) (c : Core σ U)
    (handle : HandleId) (resolution : Resolution) :
    f (c.resolveHandle handle resolution).2 = f c := by
  simp only [Core.resolveHandle]
  split
  · rename_i scope _
    have hresolve := hf.resolveScope hs c scope resolution
    split
    · rename_i h
      rwa [h] at hresolve
    all_goals
      rename_i h
      rw [h] at hresolve
      exact (hh _ _).trans hresolve
  · rfl
  · rfl

theorem of_fetch (hf : Steady f) (hd : Detached f) {id : ProcedureId}
    {compile : ProcedureSource → Except Failure (ExecutionUnit U × S)}
    {r : Except Failure (UnitRef × S)} (h : c.fetch id compile = (r, c')) : f c' = f c := by
  simp only [Core.fetch] at h
  split at h
  · cases h
    exact (hf.raise _ _).trans (hf.host c _)
  · split at h <;> cases h
    · exact hf.host c _
    · exact (hd { c with host := _ } _ _).trans (hf.host c _)

theorem obtain (hf : Steady f) (hd : Detached f) (c : Core σ U) (id : ProcedureId)
    (compile : ProcedureSource → Except Failure (ExecutionUnit U × S)) :
    f (c.obtain id compile).2 = f c := by
  have hcases := c.obtain_cases id compile
  generalize c.obtain id compile = r at hcases ⊢
  cases hcases with
  | stopped hs => exact hf.of_safepoint hs
  | hit hs => exact (hd _ _ _).trans (hf.of_safepoint hs)
  | failed hs _ hfetch | made hs _ hfetch =>
    exact (hd _ _ _).trans ((hf.of_fetch hd hfetch).trans (hf.of_safepoint hs))

omit [Host σ] in
theorem beginLoad (hd : Detached f) (c : Core σ U) (ref : UnitRef) :
    f (c.beginLoad ref).2 = f c := by
  simp only [Core.beginLoad]
  split
  · rfl
  · split
    · exact hd c _ _
    · rfl

end Steady

end Core

/-! ## Step lemmas -/

/-- The action changes no more than a safepoint does. -/
def Action.passing : Action S U → Bool
  | .tick _ | .interrupt _ | .safepoint | .report .. | .handleStatus _ | .listProcedures _
  | .unit _ => true
  | _ => false

/-- The action opens or ends a scope, and does nothing else but what a safepoint does. -/
def Action.scoping : Action S U → Bool
  | .enterScope | .resolveScope .. | .abortThrough _ => true
  | _ => false

/-- The action deals with units or the cache. -/
def Action.handlesUnits : Action S U → Bool
  | .obtain .. | .addUnit _ | .beginLoad _ | .endLoad .. | .invalidate _ | .clearCache => true
  | _ => false

namespace Moment

variable [Host σ] {f : Core σ U → β} {m : Moment σ S U}

theorem after_of_passing (hf : Core.Steady f) (hm : m.action.passing = true) :
    f m.after = f m.core := by
  obtain ⟨c, action⟩ := m
  cases action with
  | tick n => exact hf.tick c n
  | interrupt kind => exact hf.same c _ _ _ _ _ _ _
  | safepoint => exact hf.safepoint c
  | report severity message options => exact hf.reportFromScript c severity message options
  | listProcedures schema => exact hf.listProcedures c schema
  | handleStatus | unit => rfl
  | _ => cases hm

theorem after_of_scoping (hf : Core.Steady f) (hs : Core.Unscoped f)
    (hm : m.action.scoping = true) : f m.after = f m.core := by
  obtain ⟨c, action⟩ := m
  cases action with
  | enterScope => exact hf.enterScope hs c
  | resolveScope handle resolution => exact hf.resolveScope hs c handle resolution
  | abortThrough handle => exact hf.abortThrough hs c handle
  | _ => cases hm

theorem after_of_handlesUnits (hf : Core.Steady f) (hd : Core.Detached f)
    (hm : m.action.handlesUnits = true) : f m.after = f m.core := by
  obtain ⟨c, action⟩ := m
  cases action with
  | obtain id compile => exact hf.obtain hd c id compile
  | beginLoad ref => exact Core.Steady.beginLoad hd c ref
  | addUnit | endLoad | invalidate | clearCache => exact hd c _ _
  | _ => cases hm

end Moment

end ProcedureBridge
