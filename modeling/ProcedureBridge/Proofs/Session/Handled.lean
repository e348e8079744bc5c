import ProcedureBridge.Proofs.Bridge.Handling
import ProcedureBridge.Proofs.Diagnostic.Chain
import ProcedureBridge.Proofs.Session.Uncaught

/-! # Errors raised in handlers

An error that is raised while a handler runs has what is being handled for a cause. That is so
wherever a report becomes an exception of the script, but for one place: the refusal of a
subtransaction is raised with its own causes alone. -/

namespace ProcedureBridge

variable {σ S U : Type}

/-- The failure that an action is answered with, if it is one. -/
def Action.failure? : (action : Action S U) → action.Answer → Option Failure
  | .tick _, answer => Request.failureOf (α := Unit) answer
  | .safepoint, answer => Request.failureOf (α := Unit) answer
  | .report .., answer => Request.failureOf (α := Unit) answer
  | .enterScope, answer => Request.failureOf (α := ScopeHandle) answer
  | .resolveScope .., answer => Request.failureOf (α := ScopeStatus) answer
  | .enterHandle _, answer => Request.failureOf (α := Unit) answer
  | .resolveHandle .., answer => Request.failureOf (α := Unit) answer
  | .listProcedures _, answer => Request.failureOf (α := List ProcedureId) answer
  | .obtain .., answer => Request.failureOf (α := UnitRef × Option S) answer
  | _, _ => none

namespace Core

variable [Host σ] {c c' : Core σ U} {report : Report}

theorem reportFromScript_raises {severity : Severity} {message : String}
    {options : ReportOptions} (hreport : scriptReport severity message options = .ok report)
    (herror : severity.isError = true) (hpass : c.safepoint.1.isOk = true) :
    (c.reportFromScript severity message options).1 =
      .error (.exception (.raised report c.handling.head?)) := by
  rw [reportFromScript, hreport]
  simp only [Core.report]
  rcases hs : c.safepoint with ⟨_ | ⟨⟨⟩⟩, c'⟩
  · rw [hs] at hpass
    cases hpass
  · simp only [severity_scriptReport hreport, herror, if_true]
    rw [← handling_steady.of_safepoint hs]
    rfl

theorem obtain_raises {u : Unit} (hs : c.safepoint = (.ok u, c')) {id : ProcedureId}
    (hmiss : c'.cache.peek id = none) (hrefused : (Host.lookup id c'.host).1 = .error report)
    (compile : ProcedureSource → Except Failure (ExecutionUnit U × S)) :
    (c.obtain id compile).1 = .error (.exception (.raised report c.handling.head?)) := by
  have hlookup : Host.lookup id c'.host = (.error report, (Host.lookup id c'.host).2) :=
    Prod.ext hrefused rfl
  have hfetch : (c'.fetch id compile).1 =
      .error (.exception (.raised report c'.handling.head?)) := by
    rw [fetch, hlookup]
    rfl
  rw [obtain_of_failed hs hmiss (Prod.ext hfetch rfl), handling_steady.of_safepoint hs]

theorem listProcedures_raises {schema : String}
    (hrefused : (Host.procedures schema c.host).1 = .error report) :
    (c.listProcedures schema).1 = .error (.exception (.raised report c.handling.head?)) := by
  have hlist : Host.procedures schema c.host = (.error report, (Host.procedures schema c.host).2) :=
    Prod.ext hrefused rfl
  rw [listProcedures, hlist]
  rfl

end Core

namespace Moment

variable [Host σ] (m : Moment σ S U)

def failure? : Option Failure := m.action.failure? (m.core.perform m.action).1

/-- The report that becomes an error of the script at the moment, if one does: a script reports an
error, or the host refuses a text or the list of a schema's procedures. -/
def raised? : Option Report :=
  match m.action with
  | .report severity message options =>
    match Core.scriptReport severity message options with
    | .ok report => if severity.isError && m.core.safepoint.1.isOk then some report else none
    | .error _ => none
  | .obtain id _ =>
    match m.core.safepoint with
    | (.ok _, c) =>
      match c.cache.peek id, (Host.lookup id c.host).1 with
      | none, .error report => some report
      | _, _ => none
    | (.error _, _) => none
  | .listProcedures schema =>
    match (Host.procedures schema m.core.host).1 with
    | .error report => some report
    | .ok _ => none
  | _ => none

/-- The action opens a scope, if nothing stands in the way. -/
def opensScope : Bool :=
  match m.action with
  | .enterScope => true
  | .enterHandle handle => decide (m.core.handleState handle = .fresh)
  | _ => false

/-- The report by which the host refuses a subtransaction at the moment, if it refuses one. -/
def refusedBegin? : Option Report :=
  match m.opensScope, m.core.safepoint with
  | true, (.ok _, c) =>
    if c.scopes.depth < c.scopes.maxDepth then
      match (Host.beginSubxact c.host).1 with
      | .error report => some report
      | .ok _ => none
    else none
  | _, _ => none

variable {m}

/-- The exception takes what is being handled for a cause. -/
theorem failure?_of_raised {report : Report} (h : m.raised? = some report) :
    m.failure? = some (.exception (.raised report m.core.handling.head?)) := by
  obtain ⟨core, action⟩ := m
  simp only [raised?] at h
  split at h
  · rename_i severity message options
    split at h
    · rename_i hreport
      split at h
      · rename_i hraises
        cases h
        obtain ⟨herror, hpass⟩ := Bool.and_eq_true_iff.mp hraises
        exact congrArg Request.failureOf (Core.reportFromScript_raises hreport herror hpass)
      · cases h
    · cases h
  · rename_i id compile
    split at h
    · rename_i hs
      split at h
      · rename_i hmiss hrefused
        cases h
        exact congrArg Request.failureOf (Core.obtain_raises hs hmiss hrefused compile)
      · cases h
    · cases h
  · split at h
    · rename_i hrefused
      cases h
      exact congrArg Request.failureOf (Core.listProcedures_raises hrefused)
    · cases h
  · cases h

/-- The exception has no causes but those of the report. -/
theorem failure?_of_refusedBegin {report : Report} (h : m.refusedBegin? = some report) :
    m.failure? = some (.exception (.ofReport report)) := by
  obtain ⟨core, action⟩ := m
  simp only [refusedBegin?] at h
  split at h
  · rename_i u c hopens hs
    split at h
    · rename_i hdepth
      split at h
      · rename_i hrefused
        cases h
        obtain ⟨host, henter⟩ := enterScope_refused hs hdepth hrefused
        simp only [opensScope] at hopens
        split at hopens
        · change Request.failureOf core.enterScope.1 = _
          rw [henter]
          rfl
        · rename_i handle
          change Request.failureOf (core.enterHandle handle).1 = _
          rw [Core.enterHandle, of_decide_eq_true hopens, henter]
          rfl
        · cases hopens
      · cases h
    · cases h
  · cases h

end Moment

/-- The chain of an exception, if there is one. -/
def Exception.chain? (handled : Option Exception) : List Diagnostic :=
  handled.elim [] Exception.chain

theorem Exception.chain_raised_option (report : Report) (handled : Option Exception) :
    (raised report handled).chain = report.chain ++ chain? handled := by
  cases handled with
  | none => exact (chain_ofReport report).trans (List.append_nil _).symm
  | some handled => exact chain_raised report handled

/-- At every point of the run it is clear which handler is the innermost one that is running, if any
is: it has begun, and those that have begun since have ended. The exception that a report becomes
has the causes of the report and then all that this handler handles; but the exception for a
subtransaction that is refused has the causes of the report only. -/
def Chained [Host σ] (trace : List (Moment σ S U)) : Prop :=
  Closed trace ∧ ∀ before m after, trace = before ++ m :: after →
    (∃ handled, Running before handled) ∧ ∀ handled, Running before handled →
      (∀ report, m.raised? = some report → ∃ exc, m.failure? = some (.exception exc) ∧
        exc.chain = report.chain ++ Exception.chain? handled) ∧
      ∀ report, m.refusedBegin? = some report → ∃ exc, m.failure? = some (.exception exc) ∧
        exc.chain = report.chain

theorem Task.chained [Host σ] {α : Type} {t : Task S U α} {c : Core σ U}
    (ht : Closed (t.trace c)) (hc : c.handling = []) : Chained (t.trace c) := by
  refine ⟨ht, fun before m after htrace => ⟨ht.exists_running htrace, fun handled hrunning => ?_⟩⟩
  have hhead : m.core.handling.head? = handled := by
    rw [Task.handling_of_trace htrace, hc]
    exact hrunning.head?_handledAfter
  constructor
  · intro report hraised
    refine ⟨_, Moment.failure?_of_raised hraised, ?_⟩
    rw [hhead]
    exact Exception.chain_raised_option report handled
  · intro report hrefused
    exact ⟨_, Moment.failure?_of_refusedBegin hrefused, Exception.chain_ofReport report⟩

namespace Session

variable {e : Engine} [Host σ]

/-- However handlers are nested, and however they end, in every operation and in the initialization:
an error that is raised while a handler runs has what the innermost handler handles for a cause, and
an error that is raised outside of all handlers has none but its own. Only the refusal of a
subtransaction drops what is being handled. -/
theorem handled_causes_kept :
    (∀ s : Session e σ, s.Reachable (fun _ => True) (fun _ _ => True) →
      ∀ o, Chained (s.trace o)) ∧
    ∀ (initial : e.State) (host : σ) options origin text,
      Chained (Task.trace (initialization e origin text initial)
        (armCall (.new host options) : Core σ e.Code)) := by
  have hclosed := e.compiler.carries_closed (σ := σ)
  constructor
  · intro s hs o
    cases ht : s.isTerminated with
    | true =>
      have hnil : s.trace o = [] := by rw [trace, if_pos ht]
      refine hnil ▸ ⟨.nil, fun before m after h => ?_⟩
      cases before <;> cases h
    | false =>
      rw [trace_of_open ht]
      exact Task.chained (hclosed.routine _ o s.state _) hs.settled.handling
  · intro initial host options origin text
    exact Task.chained (initialization_all hclosed origin text initial _) rfl

/-- A session with a script that fails, and fails once more when that is handled. -/
def relapsing (again : Script Unit Unit Unit) (host : MemoryHost) :
    Session (Engine.scripted (.guarded "*" ()
      (fun _ => .report .error "first" {} fun r => .done ⟨r, ()⟩) (fun _ _ => again) .done))
      MemoryHost :=
  fresh _ () host

/-- What the handler handles then. -/
def firstError : Exception := .plain .error Severity.error.defaultCode "first"

/-- In a handler that is the innermost one at the moment. -/
theorem running_of_moment {again : Script Unit Unit Unit} {host : MemoryHost}
    {before after : List (Moment MemoryHost Unit Unit)} {m : Moment MemoryHost Unit Unit}
    (htrace : (relapsing again host).trace (.executeInline "") = before ++ m :: after)
    (hm : m.core.handling.head? = some firstError) : Running before (some firstError) := by
  rw [trace_of_open rfl] at htrace
  have hclosed := ((Engine.scripted _).compiler.carries_closed (σ := MemoryHost)).routine
    (relapsing again host).options.entryPoint (.executeInline "") ()
    (armCall (relapsing again host).core)
  obtain ⟨handled, hrunning⟩ := hclosed.exists_running htrace
  have hhead := hrunning.head?_handledAfter
  rw [Task.handling_of_trace htrace] at hm
  rwa [hm.symm.trans hhead]

theorem handled_causes_kept_relapsing :
    ∃ m ∈ (relapsing (.report .error "second" {} fun r => .done ⟨r, ()⟩) {}).trace
        (.executeInline ""), ∃ report exc, m.raised? = some report ∧
      m.failure? = some (.exception exc) ∧ exc.chain = report.chain ++ firstError.chain := by
  have hs : (relapsing (.report .error "second" {} fun r => .done ⟨r, ()⟩) {}).Reachable
      (fun _ => True) fun _ _ => True := fresh_reachable _ _ _ trivial
  have hrun : ((relapsing (.report .error "second" {} fun r => .done ⟨r, ()⟩) {}).trace
      (.executeInline "")).any (fun m => m.raised?.isSome &&
        decide (m.core.handling.head? = some firstError)) = true := by decide +kernel
  obtain ⟨m, hm, hmoment⟩ := List.any_eq_true.mp hrun
  obtain ⟨hraised, hhead⟩ := Bool.and_eq_true_iff.mp hmoment
  obtain ⟨report, hreport⟩ := Option.isSome_iff_exists.mp hraised
  obtain ⟨before, after, htrace⟩ := List.append_of_mem hm
  have hrunning := running_of_moment htrace (of_decide_eq_true hhead)
  obtain ⟨exc, hfails, hchain⟩ :=
    (((handled_causes_kept.1 _ hs _).2 before m after htrace).2 _ hrunning).1 report hreport
  exact ⟨m, hm, report, exc, hreport, hfails, hchain⟩

/-- The host has no more subtransactions. -/
def noSubxact : Report :=
  .plain { severity := .error, code := .savepointException, message := "no more" }

/-- A handler asks for a subtransaction and is refused: the exception says nothing of the error that
was being handled. -/
theorem refused_begin_forgets :
    ∃ before m after, (relapsing (.scope () (fun _ => .done ⟨.ok (), ()⟩) .done)
        { refusal := some noSubxact }).trace (.executeInline "") = before ++ m :: after ∧
      Running before (some firstError) ∧ m.refusedBegin? = some noSubxact ∧
      m.failure? = some (.exception (.ofReport noSubxact)) ∧
      (Exception.ofReport noSubxact).chain ≠ noSubxact.chain ++ firstError.chain := by
  have hrun : ((relapsing (.scope () (fun _ => .done ⟨.ok (), ()⟩) .done)
      { refusal := some noSubxact }).trace (.executeInline "")).any (fun m =>
        decide (m.refusedBegin? = some noSubxact) &&
        decide (m.core.handling.head? = some firstError)) = true := by decide +kernel
  obtain ⟨m, hm, hmoment⟩ := List.any_eq_true.mp hrun
  obtain ⟨hrefused, hhead⟩ := Bool.and_eq_true_iff.mp hmoment
  obtain ⟨before, after, htrace⟩ := List.append_of_mem hm
  exact ⟨before, m, after, htrace, running_of_moment htrace (of_decide_eq_true hhead),
    of_decide_eq_true hrefused, Moment.failure?_of_refusedBegin (of_decide_eq_true hrefused),
    by decide⟩

end Session

end ProcedureBridge
