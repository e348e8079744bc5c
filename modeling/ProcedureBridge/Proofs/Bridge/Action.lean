import ProcedureBridge.Proofs.Bridge.Task
import ProcedureBridge.Proofs.Cache.Lists
import ProcedureBridge.Proofs.Scope.Stack

/-! # What actions keep

Of an action's many effects, few concern scopes, the host or the fatal condition: a mark, a scope
opened or ended, and the questions to the host. All but the ends of scopes and the listing of a
schema have a safepoint before them, so that they need be considered only while nothing fatal is
recorded. -/

namespace ProcedureBridge

variable {σ U S : Type}

/-- The property holds of the fatal condition, the scopes and the host. -/
def Core.Has (c : Core σ U) (P : Option Exception → ScopeStack × σ → Prop) : Prop :=
  P c.fatal (c.scopes, c.host)

@[simp] theorem Core.markFailed_scopes (c : Core σ U) :
    c.markFailed.scopes = c.scopes.markFailed := rfl

theorem Core.foldl_signal (kinds : List Interrupt) (c : Core σ U) :
    kinds.foldl Core.signal c = { c with monitor := kinds.foldl Monitor.signal c.monitor } := by
  induction kinds generalizing c with
  | nil => rfl
  | cons kind kinds ih =>
    rw [List.foldl_cons, ih]
    rfl

variable [Host σ]

/-- The property is kept by whatever an action can do. -/
structure Lasting (P : Option Exception → ScopeStack × σ → Prop) : Prop where
  mark : ∀ {f s h}, P f (s, h) → P f (s.markFailed, h)
  rollback : ∀ {f}, ScopeStack.RollbackKeeps (P f)
  release : ∀ {f}, ScopeStack.ReleaseKeeps (P f)
  list : ∀ {f s h} (schema : String), P f (s, h) → P f (s, (Host.procedures schema h).2)
  poll : ∀ {s h}, P none (s, h) → P none (s, (Host.takeInterrupt h).2)
  enter : ∀ {s : ScopeStack} {h : σ}, P none (s, h) → P none (s.enter h).2
  deliver : ∀ {s h} (report : Report), P none (s, h) → P none (s, (Host.deliver report h).2)
  lookup : ∀ {s h} (id : ProcedureId), P none (s, h) → P none (s, (Host.lookup id h).2)
  condemn : ∀ {s h} (e : Exception), P none (s, h) → P (some e) (s, h)

namespace Core

variable {c c' : Core σ U}

/-! ## Safepoints -/

@[simp] theorem poll_scopes (c : Core σ U) : c.poll.scopes = c.scopes := by
  rw [poll]
  dsimp only
  split <;> rfl

@[simp] theorem poll_fatal (c : Core σ U) : c.poll.fatal = c.fatal := by
  rw [poll]
  dsimp only
  split <;> rfl

@[simp] theorem poll_handling (c : Core σ U) : c.poll.handling = c.handling := by
  rw [poll]
  dsimp only
  split <;> rfl

@[simp] theorem poll_terminated (c : Core σ U) : c.poll.terminated = c.terminated := by
  rw [poll]
  dsimp only
  split <;> rfl

@[simp] theorem poll_host (c : Core σ U) : c.poll.host = (Host.takeInterrupt c.host).2 := by
  rw [poll]
  dsimp only
  split <;> rfl

/-- What is fatal is raised again without a question to the host. -/
theorem safepoint_of_fatal {e : Exception} (hf : c.fatal = some e) :
    c.safepoint = (.error (.exception e), c.markFailed) := by
  rw [safepoint, hf]

/-- A request that is held is raised, and a termination recorded. -/
theorem safepoint_of_held {kind : Interrupt} (hf : c.fatal = none)
    (hk : c.poll.monitor.held = some kind) :
    c.safepoint = (.error (.exception kind.toException),
      { c.poll with
        monitor := c.poll.monitor.check.2
        fatal := if kind = Interrupt.terminate then some kind.toException else none }.markFailed) := by
  have hcheck : c.poll.monitor.check = (some kind, c.poll.monitor.check.2) := by
    simp [Monitor.check, hk]
  rw [safepoint, hf]
  dsimp only
  rw [hcheck]
  cases kind <;> simp [recordFatal, hf]

theorem safepoint_of_clear (hf : c.fatal = none) (hk : c.poll.monitor.held = none) :
    c.safepoint = (.ok (), c.poll) := by
  have hcheck : c.poll.monitor.check = (none, c.poll.monitor) := by
    simp [Monitor.check, hk]
  rw [safepoint, hf]
  dsimp only
  rw [hcheck]

/-- A safepoint lets pass only if nothing is fatal and nothing requested. -/
theorem safepoint_ok {u : Unit} (h : c.safepoint = (.ok u, c')) :
    c.fatal = none ∧ c.poll.monitor.held = none ∧ c' = c.poll := by
  cases hf : c.fatal with
  | some e =>
    rw [safepoint_of_fatal hf] at h
    cases h
  | none =>
    cases hk : c.poll.monitor.held with
    | some kind =>
      rw [safepoint_of_held hf hk] at h
      cases h
    | none =>
      rw [safepoint_of_clear hf hk] at h
      cases h
      exact ⟨rfl, rfl, rfl⟩

/-- A safepoint that raises marks the innermost scope. -/
theorem safepoint_error {f : Failure} (h : c.safepoint = (.error f, c')) :
    c'.scopes = c.scopes.markFailed := by
  cases hf : c.fatal with
  | some e =>
    rw [safepoint_of_fatal hf] at h
    cases h
    rfl
  | none =>
    cases hk : c.poll.monitor.held with
    | some kind =>
      rw [safepoint_of_held hf hk] at h
      cases h
      simp
    | none =>
      rw [safepoint_of_clear hf hk] at h
      cases h

/-! ## Parts of actions -/

section Obtaining

variable {c'' : Core σ U} {id : ProcedureId} {ref : UnitRef} {f : Failure}
  {compile : ProcedureSource → Except Failure (ExecutionUnit U × S)}

theorem obtain_of_error (hs : c.safepoint = (.error f, c')) (id : ProcedureId)
    (compile : ProcedureSource → Except Failure (ExecutionUnit U × S)) :
    c.obtain id compile = (.error f, c') := by
  rw [obtain, hs]

theorem obtain_of_hit (hs : c.safepoint = (.ok (), c')) (hit : c'.cache.peek id = some ref)
    (compile : ProcedureSource → Except Failure (ExecutionUnit U × S)) :
    c.obtain id compile = (.ok (ref, none), { c' with cache := (c'.cache.get id).2 }) := by
  simp only [obtain, CodeCache.getOrCompile, CodeCache.get]
  rw [hs]
  simp only [hit]
  rfl

theorem obtain_of_failed (hs : c.safepoint = (.ok (), c')) (hm : c'.cache.peek id = none)
    (hfetch : c'.fetch id compile = (.error f, c'')) :
    c.obtain id compile = (.error f,
      { c'' with cache := { c'.cache with stats := c'.cache.stats.miss.failure } }) := by
  simp only [obtain, hs, CodeCache.getOrCompile_of_miss hm, CodeCache.get_of_miss hm]
  simp only [bind, StateT.bind, hfetch]
  rfl

/-- A unit that was missing and could be made is put into the cache. -/
theorem obtain_of_made (hs : c.safepoint = (.ok (), c')) (hm : c'.cache.peek id = none)
    {state : S} (hfetch : c'.fetch id compile = (.ok (ref, state), c'')) :
    c.obtain id compile = (.ok (ref, some state),
      { c'' with cache := ({ c'.cache with stats := c'.cache.stats.miss }.insert id ref).2 }) := by
  simp only [obtain, hs, CodeCache.getOrCompile_of_miss hm, CodeCache.get_of_miss hm]
  simp only [bind, StateT.bind, hfetch]
  rfl

/-- The ways in which obtaining the unit of a procedure goes. -/
inductive Obtaining (c : Core σ U) (id : ProcedureId)
    (compile : ProcedureSource → Except Failure (ExecutionUnit U × S)) :
    Except Failure (UnitRef × Option S) × Core σ U → Prop
  | stopped {f : Failure} {c' : Core σ U} : c.safepoint = (.error f, c') →
      Obtaining c id compile (.error f, c')
  | hit {ref : UnitRef} {c' : Core σ U} : c.safepoint = (.ok (), c') →
      c'.cache.peek id = some ref →
      Obtaining c id compile (.ok (ref, none), { c' with cache := (c'.cache.get id).2 })
  | failed {f : Failure} {c' c'' : Core σ U} : c.safepoint = (.ok (), c') →
      c'.cache.peek id = none → c'.fetch id compile = (.error f, c'') →
      Obtaining c id compile (.error f,
        { c'' with cache := { c'.cache with stats := c'.cache.stats.miss.failure } })
  | made {ref : UnitRef} {state : S} {c' c'' : Core σ U} : c.safepoint = (.ok (), c') →
      c'.cache.peek id = none → c'.fetch id compile = (.ok (ref, state), c'') →
      Obtaining c id compile (.ok (ref, some state),
        { c'' with cache := ({ c'.cache with stats := c'.cache.stats.miss }.insert id ref).2 })

theorem obtain_cases (c : Core σ U) (id : ProcedureId)
    (compile : ProcedureSource → Except Failure (ExecutionUnit U × S)) :
    c.Obtaining id compile (c.obtain id compile) := by
  rcases hs : c.safepoint with ⟨f | ⟨⟨⟩⟩, c'⟩
  · rw [obtain_of_error hs]
    exact .stopped hs
  · cases hit : c'.cache.peek id with
    | some ref =>
      rw [obtain_of_hit hs hit]
      exact .hit hs hit
    | none =>
      rcases hfetch : c'.fetch id compile with ⟨f | ⟨ref, state⟩, c''⟩
      · rw [obtain_of_failed hs hit hfetch]
        exact .failed hs hit hfetch
      · rw [obtain_of_made hs hit hfetch]
        exact .made hs hit hfetch

/-- Whatever a fetch leaves is left, but for the cache. -/
theorem obtain_of_miss (hs : c.safepoint = (.ok (), c')) (hm : c'.cache.peek id = none)
    (compile : ProcedureSource → Except Failure (ExecutionUnit U × S)) :
    ∃ cache, (c.obtain id compile).2 = { (c'.fetch id compile).2 with cache } := by
  rcases hfetch : c'.fetch id compile with ⟨f | ⟨ref, state⟩, c''⟩
  · exact ⟨_, congrArg Prod.snd (obtain_of_failed hs hm hfetch)⟩
  · exact ⟨_, congrArg Prod.snd (obtain_of_made hs hm hfetch)⟩

end Obtaining

end Core

/-! ## Lasting properties -/

namespace Lasting

variable {P : Option Exception → ScopeStack × σ → Prop} {c c' : Core σ U}

theorem markFailed (hP : Lasting P) (hc : c.Has P) : c.markFailed.Has P := hP.mark hc

theorem poll_has (hP : Lasting P) (hf : c.fatal = none) (hc : c.Has P) : c.poll.Has P := by
  simp only [Core.Has] at hc ⊢
  rw [Core.poll_fatal, Core.poll_scopes, Core.poll_host, hf]
  rw [hf] at hc
  exact hP.poll hc

theorem safepoint (hP : Lasting P) (hc : c.Has P) : c.safepoint.2.Has P := by
  cases hf : c.fatal with
  | some e =>
    rw [Core.safepoint_of_fatal hf]
    exact hP.mark hc
  | none =>
    have hpoll := hP.poll_has hf hc
    cases hk : c.poll.monitor.held with
    | none =>
      rw [Core.safepoint_of_clear hf hk]
      exact hpoll
    | some kind =>
      rw [Core.safepoint_of_held hf hk]
      rw [Core.Has, Core.poll_fatal, hf] at hpoll
      cases kind with
      | cancel => exact hP.mark hpoll
      | terminate => exact hP.mark (hP.condemn _ hpoll)

/-- Behind a safepoint nothing is fatal. -/
theorem passed (hP : Lasting P) (hc : c.Has P) {u : Unit} (h : c.safepoint = (.ok u, c')) :
    c'.fatal = none ∧ P none (c'.scopes, c'.host) := by
  obtain ⟨hf, -, rfl⟩ := Core.safepoint_ok h
  have hpoll := hP.poll_has hf hc
  have hf' : c.poll.fatal = none := by rw [Core.poll_fatal, hf]
  rw [Core.Has, hf'] at hpoll
  exact ⟨hf', hpoll⟩

theorem recordFatal (hP : Lasting P) (hc : c.Has P) (e : Exception) : (c.recordFatal e).Has P := by
  simp only [Core.recordFatal]
  split
  · rename_i hf
    rw [Option.isNone_iff_eq_none] at hf
    rw [Core.Has, hf] at hc
    exact hP.condemn e hc
  · exact hc

theorem raise (hP : Lasting P) (hc : c.Has P) (report : Report) : (c.raise report).2.Has P := by
  refine hP.markFailed ?_
  split
  · exact hP.recordFatal hc _
  · exact hc

theorem report (hP : Lasting P) (hc : c.Has P) (report : Report) : (c.report report).2.Has P := by
  have hs := hP.safepoint hc
  simp only [Core.report]
  match h : c.safepoint with
  | (.error f, c') =>
    rw [h] at hs
    exact hs
  | (.ok u, c') =>
    obtain ⟨hf, hc'⟩ := hP.passed hc h
    dsimp only
    split
    · refine hP.raise ?_ report
      rw [Core.Has, hf]
      exact hc'
    · rw [Core.deliver, Core.Has]
      dsimp only
      rw [Core.foldl_signal]
      dsimp only
      rw [hf]
      exact hP.deliver report hc'

theorem reportFromScript (hP : Lasting P) (hc : c.Has P) (severity : Severity) (message : String)
    (options : ReportOptions) : (c.reportFromScript severity message options).2.Has P := by
  simp only [Core.reportFromScript]
  split
  · exact hc
  · exact hP.report hc _

theorem enterScope (hP : Lasting P) (hc : c.Has P) : c.enterScope.2.Has P := by
  have hs := hP.safepoint hc
  simp only [Core.enterScope]
  match h : c.safepoint with
  | (.error f, c') =>
    rw [h] at hs
    exact hs
  | (.ok u, c') =>
    obtain ⟨hf, hc'⟩ := hP.passed hc h
    rw [Core.Has]
    dsimp only
    rw [hf]
    exact hP.enter hc'

theorem resolveScope (hP : Lasting P) (hc : c.Has P) (handle : ScopeHandle)
    (resolution : Resolution) : (c.resolveScope handle resolution).2.Has P :=
  ScopeStack.resolve_keeps (P := P c.fatal) hP.rollback hP.release handle resolution hc

theorem abortThrough (hP : Lasting P) (hc : c.Has P) (handle : ScopeHandle) :
    (c.abortThrough handle).Has P :=
  ScopeStack.abortThrough_keeps (P := P c.fatal) hP.rollback handle hc

theorem unwindTo (hP : Lasting P) (hc : c.Has P) (depth : Nat) : (c.unwindTo depth).2.Has P :=
  ScopeStack.unwindTo_keeps (P := P c.fatal) hP.rollback depth hc

theorem enterHandle (hP : Lasting P) (hc : c.Has P) (handle : HandleId) :
    (c.enterHandle handle).2.Has P := by
  have hs := hP.enterScope hc
  simp only [Core.enterHandle]
  split
  · split
    all_goals
      rename_i h
      rw [h] at hs
      exact hs
  · exact hc

theorem resolveHandle (hP : Lasting P) (hc : c.Has P) (handle : HandleId)
    (resolution : Resolution) : (c.resolveHandle handle resolution).2.Has P := by
  simp only [Core.resolveHandle]
  split
  · rename_i scope _
    have hs := hP.resolveScope hc scope resolution
    split
    all_goals
      rename_i h
      rw [h] at hs
      exact hs
  all_goals exact hc

theorem tick (hP : Lasting P) (hc : c.Has P) (instructions : Nat) :
    (c.tick instructions).2.Has P := by
  unfold Core.tick
  dsimp only
  split
  · exact hP.safepoint hc
  · exact hc

theorem listProcedures (hP : Lasting P) (hc : c.Has P) (schema : String) :
    (c.listProcedures schema).2.Has P := by
  have hl : ({ c with host := (Host.procedures schema c.host).2 } : Core σ U).Has P :=
    hP.list schema hc
  simp only [Core.listProcedures]
  match h : Host.procedures schema c.host with
  | (.ok ids, host) =>
    rw [h] at hl
    exact hl
  | (.error report, host) =>
    rw [h] at hl
    exact hP.raise hl report

theorem fetch (hP : Lasting P) (hf : c.fatal = none) (hc : c.Has P) (id : ProcedureId)
    (compile : ProcedureSource → Except Failure (ExecutionUnit U × S)) :
    (c.fetch id compile).2.Has P := by
  rw [Core.Has, hf] at hc
  have hl : ({ c with host := (Host.lookup id c.host).2 } : Core σ U).Has P := by
    rw [Core.Has, hf]
    exact hP.lookup id hc
  simp only [Core.fetch]
  match h : Host.lookup id c.host with
  | (.error report, host) =>
    rw [h] at hl
    exact hP.raise hl report
  | (.ok source, host) =>
    rw [h] at hl
    dsimp only
    split <;> exact hl

theorem obtain (hP : Lasting P) (hc : c.Has P) (id : ProcedureId)
    (compile : ProcedureSource → Except Failure (ExecutionUnit U × S)) :
    (c.obtain id compile).2.Has P := by
  have hs := hP.safepoint hc
  have hcases := c.obtain_cases id compile
  generalize c.obtain id compile = r at hcases ⊢
  cases hcases with
  | stopped h =>
    rw [h] at hs
    exact hs
  | hit h =>
    rw [h] at hs
    exact hs
  | failed h _ hfetch | made h _ hfetch =>
    rw [h] at hs
    have hfetched := hP.fetch (hP.passed hc h).1 hs id compile
    rw [hfetch] at hfetched
    exact hfetched

/-- The step lemma: whatever the action, the property lasts. -/
theorem after (hP : Lasting P) (m : Moment σ S U) (hm : m.core.Has P) : m.after.Has P := by
  obtain ⟨c, action⟩ := m
  cases action with
  | tick n => exact hP.tick hm n
  | safepoint => exact hP.safepoint hm
  | report severity message options => exact hP.reportFromScript hm severity message options
  | enterScope => exact hP.enterScope hm
  | resolveScope handle resolution => exact hP.resolveScope hm handle resolution
  | abortThrough handle => exact hP.abortThrough hm handle
  | enterHandle handle => exact hP.enterHandle hm handle
  | resolveHandle handle resolution => exact hP.resolveHandle hm handle resolution
  | listProcedures schema => exact hP.listProcedures hm schema
  | obtain id compile => exact hP.obtain hm id compile
  | beginHandling e =>
    change (c.beginHandling e).Has P
    unfold Core.beginHandling
    dsimp only
    split <;> exact hm
  | beginLoad ref =>
    change (c.beginLoad ref).2.Has P
    simp only [Core.beginLoad]
    split
    · exact hm
    · split <;> exact hm
  | interrupt | endHandling | newHandle | handleStatus | addUnit | endLoad | unit | invalidate
  | clearCache | countInline => exact hm

theorem run {α : Type} (hP : Lasting P) (t : Task S U α) (hc : c.Has P) : (t.run c).2.Has P :=
  t.run_keeps (P := fun c => c.Has P) hP.after hc

theorem trace {α : Type} (hP : Lasting P) (t : Task S U α) (hc : c.Has P) :
    ∀ m ∈ t.trace c, m.core.Has P :=
  t.trace_keeps (P := fun c => c.Has P) hP.after hc

theorem run_of_moment {α : Type} (hP : Lasting P) (t : Task S U α) {m : Moment σ S U}
    (hm : m ∈ t.trace c) (hafter : m.after.Has P) : (t.run c).2.Has P :=
  t.run_of_moment (P := fun c => c.Has P) hP.after hm hafter

end Lasting

end ProcedureBridge
