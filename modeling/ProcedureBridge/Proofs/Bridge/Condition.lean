import ProcedureBridge.Proofs.Bridge.Action

/-! # Moments at which something fails

Which moments of a run raise an error of the host, and which a fatal condition; and what they leave
behind in the core. -/

namespace ProcedureBridge

/-! ## Severities -/

namespace Exception

theorem head_ofReport (r : Report) : (ofReport r).head = r.head := by
  cases r <;> rfl

theorem severity_raised (r : Report) (handled : Option Exception) :
    (raised r handled).severity = r.severity := by
  cases handled with
  | none => exact congrArg Diagnostic.severity (head_ofReport r)
  | some prior => exact congrArg Diagnostic.severity (head_ofReport r)

theorem severity_toReport (e : Exception) : e.toReport.severity = e.severity := by
  obtain ⟨head, causes⟩ := e
  cases causes <;> rfl

end Exception

theorem Core.severity_scriptReport {severity : Severity} {message : String}
    {options : ReportOptions} {r : Report}
    (hr : Core.scriptReport severity message options = .ok r) : r.severity = severity := by
  simp only [Core.scriptReport] at hr
  cases hcode : options.code with
  | none =>
    rw [hcode] at hr
    cases hr
    rfl
  | some text =>
    rw [hcode] at hr
    cases hparse : ErrorCode.parse text with
    | error f =>
      simp only [hparse] at hr
      cases hr
    | ok code =>
      simp only [hparse] at hr
      cases hr
      rfl

variable {σ U S : Type} [Host σ]

/-- The core at the safepoint that an action passes, if it passes one. -/
def Core.checkpoint (c : Core σ U) : Action S U → Option (Core σ U)
  | .tick n =>
    let late := c.elapse n
    if late.options.safepointInterval.toNat ≤ late.sinceSafepoint + n then
      some { late with sinceSafepoint := 0 }
    else none
  | .safepoint | .enterScope | .obtain .. => some c
  | .report severity message options =>
    match scriptReport severity message options with
    | .ok _ => some c
    | .error _ => none
  | .enterHandle handle => if c.handleState handle = .fresh then some c else none
  | _ => none

/-- A fatal condition stays what it is. -/
theorem fatal_lasting (exc : Exception) :
    Lasting fun f (_ : ScopeStack × σ) => f = some exc where
  mark h := h
  rollback _ h := h
  release _ _ h := h
  list _ h := h
  poll h := h
  enter h := h
  deliver _ h := h
  lookup _ h := h
  condemn _ h := by cases h

namespace Moment

variable {m : Moment σ S U} {c c' : Core σ U}

/-- A safepoint that raises ends the action. -/
theorem after_of_raise {f : Failure} (hc : m.core.checkpoint m.action = some c)
    (hs : c.safepoint = (.error f, c')) : m.after = c' := by
  obtain ⟨core, action⟩ := m
  cases action with
  | tick n =>
    change (core.tick n).2 = c'
    simp only [Core.checkpoint] at hc
    unfold Core.tick
    dsimp only
    split at hc
    · rename_i hlate
      cases hc
      rw [if_pos hlate, hs]
    · cases hc
  | safepoint =>
    cases hc
    exact congrArg Prod.snd hs
  | enterScope =>
    cases hc
    change core.enterScope.2 = c'
    rw [Core.enterScope, hs]
  | obtain id compile =>
    cases hc
    exact congrArg Prod.snd (Core.obtain_of_error hs id compile)
  | report severity message options =>
    change (core.reportFromScript severity message options).2 = c'
    simp only [Core.checkpoint] at hc
    simp only [Core.reportFromScript]
    split at hc
    · rename_i r hr
      cases hc
      rw [hr]
      simp only [Core.report]
      rw [hs]
    · cases hc
  | enterHandle handle =>
    change (core.enterHandle handle).2 = c'
    simp only [Core.checkpoint] at hc
    split at hc
    · rename_i hfresh
      cases hc
      rw [Core.enterHandle, Core.enterScope, hfresh, hs]
    · cases hc
  | _ => cases hc

/-- A report made behind a safepoint that lets pass is raised, if it is an error. -/
theorem after_of_error {severity : Severity} {message : String} {options : ReportOptions}
    {r : Report} (ha : m.action = .report severity message options)
    (hr : Core.scriptReport severity message options = .ok r) (hsev : severity.isError = true)
    (hs : m.core.safepoint = (.ok (), c)) : m.after = (c.raise r).2 := by
  obtain ⟨core, action⟩ := m
  cases ha
  change (core.reportFromScript severity message options).2 = _
  rw [Core.reportFromScript, hr]
  simp only [Core.report]
  rw [hs]
  simp only [Core.severity_scriptReport hr, hsev, if_true]

/-! ## Fatal conditions -/

/-- The moment brings about a fatal condition: a script raises a report that is fatal, or a safepoint
takes a termination that was requested. -/
inductive Condemns (m : Moment σ S U) : Exception → Prop
  | raised {severity : Severity} {message : String} {options : ReportOptions} {r : Report} :
      m.action = .report severity message options → severity.isFatal = true →
      Core.scriptReport severity message options = .ok r → m.core.safepoint.1 = .ok () →
      Condemns m (.raised r m.core.handling.head?)
  | terminated {c : Core σ U} :
      m.core.checkpoint m.action = some c → c.fatal = none →
      c.poll.monitor.held = some .terminate → Condemns m Interrupt.terminate.toException

/-- A script reports a fatal error behind a safepoint that lets pass. -/
def raisesFatal (m : Moment σ S U) : Bool :=
  match m.action with
  | .report severity message options =>
    severity.isFatal && (Core.scriptReport severity message options).isOk &&
      m.core.safepoint.1.isOk
  | _ => false

theorem condemns_of_raisesFatal (h : m.raisesFatal = true) : ∃ exc, m.Condemns exc := by
  simp only [raisesFatal] at h
  split at h
  · rename_i severity message options ha
    simp only [Bool.and_eq_true] at h
    obtain ⟨⟨hsev, hr⟩, hs⟩ := h
    cases hreport : Core.scriptReport severity message options with
    | error f =>
      rw [hreport] at hr
      cases hr
    | ok r =>
      cases hsafe : m.core.safepoint.1 with
      | error f =>
        rw [hsafe] at hs
        cases hs
      | ok u => exact ⟨_, .raised ha hsev hreport hsafe⟩
  · cases h

theorem Condemns.isFatal {exc : Exception} (h : m.Condemns exc) : exc.isFatal = true := by
  cases h with
  | raised _ hsev hr _ =>
    rw [Exception.isFatal, Exception.severity_raised, Core.severity_scriptReport hr]
    exact hsev
  | terminated => rfl

/-- The condition is recorded. -/
theorem Condemns.after {exc : Exception} (h : m.Condemns exc) : m.after.fatal = some exc := by
  have hfatal := h.isFatal
  cases h with
  | raised ha hsev hr hok =>
    have hs : m.core.safepoint = (.ok (), m.core.safepoint.2) := Prod.ext hok rfl
    obtain ⟨hf, -, hpoll⟩ := Core.safepoint_ok hs
    rw [after_of_error ha hr (Severity.isError_of_isFatal hsev) hs, hpoll]
    simp [Core.raise, hfatal, Core.recordFatal, hf, Core.markFailed]
  | terminated hc hf hk =>
    rw [after_of_raise hc (Core.safepoint_of_held hf hk)]
    rfl

/-! ## Errors of the host -/

/-- A script reports an error. Options that are not well-formed are an error of its own. -/
def reportsError (m : Moment σ S U) : Bool :=
  match m.action with
  | .report severity message options =>
    severity.isError && (Core.scriptReport severity message options).isOk
  | _ => false

omit [Host σ] in
theorem of_reportsError (h : m.reportsError = true) : ∃ severity message options r,
    m.action = .report severity message options ∧ severity.isError = true ∧
      Core.scriptReport severity message options = .ok r := by
  simp only [reportsError] at h
  split at h
  · rename_i severity message options ha
    obtain ⟨hsev, hok⟩ := Bool.and_eq_true_iff.mp h
    cases hr : Core.scriptReport severity message options with
    | error f =>
      rw [hr] at hok
      cases hok
    | ok r => exact ⟨severity, message, options, r, ha, hsev, hr⟩
  · cases h

/-- The moment raises an error that the host has a part in: a script reports an error, the host
refuses a subtransaction, a text or a list of procedures, or a safepoint raises. -/
inductive Errs (m : Moment σ S U) : Prop
  | reported : m.reportsError = true → Errs m
  | beginRefused {c : Core σ U} {report : Report} :
      m.action = .enterScope ∨
        (∃ handle, m.action = .enterHandle handle ∧ m.core.handleState handle = .fresh) →
      m.core.safepoint = (.ok (), c) → c.scopes.depth < c.scopes.maxDepth →
      (Host.beginSubxact c.host).1 = .error report → Errs m
  | lookupRefused {c : Core σ U} {id : ProcedureId}
      {compile : ProcedureSource → Except Failure (ExecutionUnit U × S)} {report : Report} :
      m.action = .obtain id compile → m.core.safepoint = (.ok (), c) → c.cache.peek id = none →
      (Host.lookup id c.host).1 = .error report → Errs m
  | listingRefused {schema : String} {report : Report} :
      m.action = .listProcedures schema →
      (Host.procedures schema m.core.host).1 = .error report → Errs m
  | interrupted {c : Core σ U} {f : Failure} :
      m.core.checkpoint m.action = some c → c.safepoint.1 = .error f → Errs m

omit [Host σ] in
/-- Only time can have passed before the safepoint of an action. -/
theorem checkpoint_cases (hc : m.core.checkpoint m.action = some c) :
    c = m.core ∨ ∃ n, m.action = .tick n ∧ c = { m.core.elapse n with sinceSafepoint := 0 } := by
  obtain ⟨core, action⟩ := m
  cases action with
  | safepoint | enterScope | obtain =>
    cases hc
    exact .inl rfl
  | tick n =>
    simp only [Core.checkpoint] at hc
    split at hc
    · cases hc
      exact .inr ⟨n, rfl, rfl⟩
    · cases hc
  | report | enterHandle =>
    simp only [Core.checkpoint] at hc
    split at hc
    · cases hc
      exact .inl rfl
    · cases hc
  | _ => cases hc

omit [Host σ] in
theorem checkpoint_core (hc : m.core.checkpoint m.action = some c)
    (ha : ∀ n, m.action ≠ .tick n) : m.core = c := by
  obtain rfl | ⟨n, htick, -⟩ := checkpoint_cases hc
  · rfl
  · exact absurd htick (ha n)

omit [Host σ] in
theorem checkpoint_scopes (hc : m.core.checkpoint m.action = some c) :
    c.scopes = m.core.scopes := by
  obtain rfl | ⟨n, -, rfl⟩ := checkpoint_cases hc
  · rfl
  · rfl

omit [Host σ] in
theorem checkpoint_fatal (hc : m.core.checkpoint m.action = some c) : c.fatal = m.core.fatal := by
  obtain rfl | ⟨n, -, rfl⟩ := checkpoint_cases hc
  · rfl
  · rfl

omit [Host σ] in
theorem raise_scopes (c : Core σ U) (report : Report) :
    (c.raise report).2.scopes = c.scopes.markFailed := by
  simp only [Core.raise, Core.recordFatal, Core.markFailed_scopes]
  split
  · split <;> rfl
  · rfl

/-- A scope that the host refuses is not opened, and the one around it marked. -/
theorem enterScope_refused {report : Report} (hs : c.safepoint = (.ok (), c'))
    (hd : c'.scopes.depth < c'.scopes.maxDepth)
    (hr : (Host.beginSubxact c'.host).1 = .error report) :
    ∃ host, c.enterScope = (.error (.exception (.ofReport report)),
      { c' with scopes := c'.scopes.markFailed, host }) := by
  have hbegin : Host.beginSubxact c'.host = (.error report, (Host.beginSubxact c'.host).2) :=
    Prod.ext hr rfl
  refine ⟨(Host.beginSubxact c'.host).2, ?_⟩
  rw [Core.enterScope, hs]
  simp only [ScopeStack.enter_of_refused hd hbegin]

/-- Such an error marks the innermost scope, or the call if no scope is open. -/
theorem Errs.after (h : m.Errs) : m.after.scopes = m.core.scopes.markFailed := by
  cases h with
  | reported h =>
    obtain ⟨severity, message, options, r, ha, hsev, hr⟩ := of_reportsError h
    match hs : m.core.safepoint with
    | (.error f, c) =>
      have hc : m.core.checkpoint m.action = some m.core := by
        rw [ha]
        simp only [Core.checkpoint, hr]
      rw [after_of_raise hc hs, Core.safepoint_error hs]
    | (.ok u, c) =>
      obtain ⟨-, -, rfl⟩ := Core.safepoint_ok hs
      rw [after_of_error ha hr hsev hs, raise_scopes, Core.poll_scopes]
  | @beginRefused c report ha hs hd hr =>
    obtain ⟨host, henter⟩ := enterScope_refused hs hd hr
    obtain ⟨-, -, rfl⟩ := Core.safepoint_ok hs
    obtain ⟨core, action⟩ := m
    rcases ha with ha | ⟨handle, ha, hfresh⟩
    · cases ha
      change core.enterScope.2.scopes = _
      rw [henter]
      simp
    · cases ha
      change (core.enterHandle handle).2.scopes = _
      rw [Core.enterHandle, hfresh, henter]
      simp
  | @lookupRefused c id compile report ha hs hm hr =>
    obtain ⟨core, action⟩ := m
    cases ha
    obtain ⟨cache, hafter⟩ := Core.obtain_of_miss hs hm compile
    obtain ⟨-, -, rfl⟩ := Core.safepoint_ok hs
    have hlook : Host.lookup id core.poll.host = (.error report, (Host.lookup id core.poll.host).2) :=
      Prod.ext hr rfl
    change (core.obtain id compile).2.scopes = _
    rw [hafter]
    rw [Core.fetch, hlook]
    simp [raise_scopes]
  | @listingRefused schema report ha hr =>
    obtain ⟨core, action⟩ := m
    cases ha
    have hlist : Host.procedures schema core.host =
        (.error report, (Host.procedures schema core.host).2) := Prod.ext hr rfl
    change (core.listProcedures schema).2.scopes = _
    rw [Core.listProcedures, hlist]
    simp [raise_scopes]
  | @interrupted c f hc hs =>
    have hs' : c.safepoint = (.error f, c.safepoint.2) := Prod.ext hs rfl
    rw [after_of_raise hc hs', Core.safepoint_error hs', checkpoint_scopes hc]

theorem Errs.after_of_cons (h : m.Errs) {X : Scope} {outer : List Scope}
    (hX : m.core.scopes.scopes = X :: outer) :
    m.after.scopes.scopes = { X with failed := true } :: outer := by
  rw [h.after, ScopeStack.markFailed_of_cons hX]

end Moment

end ProcedureBridge
