import ProcedureBridge.Lua.Engine
import ProcedureBridge.Proofs.Bridge.Restarts
import ProcedureBridge.Proofs.Diagnostic.Layers
import ProcedureBridge.Proofs.Session.CachedUnits
import ProcedureBridge.Proofs.Session.Pending
import ProcedureBridge.Proofs.Session.Triggers

/-! # Validation

A validation looks the text of a procedure up and compiles it, as the first call of the procedure
does, so both come to the same failure. It does this once, whatever is cached or requested, and runs
nothing. -/

namespace ProcedureBridge

/-- A text that cannot be read gives a plain error, which carries neither an exception nor a signal. -/
def Engine.ReadsPlainly (e : Engine) : Prop :=
  ∀ name text err, e.parse name text = .error err → err.carried = none

theorem Lua.engine_readsPlainly : Lua.engine.ReadsPlainly := by
  intro name text err h
  change Lua.Engine.parse name text = .error err at h
  unfold Lua.Engine.parse at h
  split at h
  · cases h
    rfl
  · split at h
    · cases h
      rfl
    · split at h
      · cases h
      · cases h
        rfl
      · cases h
        rfl

/-- The engine that reads texts in the same way, and runs other scripts. -/
def Engine.withScripts (e : Engine) (topLevel : e.Code → e.State → Script e.State e.Value e.Code)
    (member : e.Code → String → e.State → Script e.State e.Value e.Code)
    (invoke : e.Value → List Datum → e.State → Script e.State e.Value e.Code)
    (publish : e.Code → e.State → Script e.State e.Value e.Code) : Engine :=
  { e with topLevel, member, invoke, publish }

/-- The failure does not end the session, and does not say that it is over. -/
structure Failure.Mild (f : Failure) : Prop where
  ongoing : f ≠ .terminated
  severity : f.boundaryReport.severity.isFatal = false

theorem Failure.mild_exception {exc : Exception} (h : exc.isFatal = false) :
    (Failure.exception exc).Mild := by
  refine ⟨nofun, ?_⟩
  exact (congrArg Severity.isFatal (Exception.severity_toReport _)).trans h

theorem Failure.mild_script {err : ScriptError} (h : err.carried = none) :
    (Failure.script err).Mild := by
  refine ⟨nofun, ?_⟩
  have hreport : (script err).boundaryReport = err.toException.toReport := by
    simp only [boundaryReport, disposition, h]
  have hseverity : err.toException.severity = .error := by
    simp only [ScriptError.toException, h, Exception.withContext_eq]
    rfl
  rw [hreport, Exception.severity_toReport, hseverity]
  rfl

theorem Engine.mild_of_compiler {e : Engine} (he : e.ReadsPlainly) {id : UnitId}
    {name text : String} {state : e.State} {f : Failure}
    (h : e.compiler id name text state = .error f) : f.Mild := by
  simp only [Engine.compiler] at h
  cases hparse : e.parse ("[" ++ name ++ "]") text with
  | ok chunk =>
    rw [hparse] at h
    cases h
  | error err =>
    have hplain := he _ _ _ hparse
    rw [hparse] at h
    obtain rfl : compileFailure id err = f := by
      cases h
      rfl
    cases err with
    | malformed message => exact Failure.mild_exception rfl
    | _ => exact Failure.mild_script hplain

namespace Session

variable {e : Engine} {σ : Type} [Host σ] {s : Session e σ} {id : ProcedureId} {f : Failure}

/-- What the text of a procedure is made into, or why there is no unit for it. -/
def made (s : Session e σ) (id : ProcedureId) : Except Failure (ExecutionUnit e.Code × e.State) :=
  match (Host.lookup id s.host).1 with
  | .error report => .error (.exception (.ofReport report))
  | .ok source => e.compiler (.procedure id) source.qualifiedName source.text s.state

theorem id_of_made {unit : ExecutionUnit e.Code} {state : e.State}
    (hmade : s.made id = .ok (unit, state)) : unit.id = .procedure id := by
  rw [made] at hmade
  split at hmade
  · cases hmade
  · exact e.compiler_keepsIds _ _ _ _ _ _ hmade

theorem reportFailure_of_mild (hf : f.Mild) (c : Core σ e.Code) :
    reportFailure c f = (.reported f.boundaryReport, c) := by
  have hreport : reportFailure c f = (.reported f.boundaryReport,
      if f.boundaryReport.severity.isFatal then terminate c else c) := by
    cases f with
    | terminated => exact absurd rfl hf.ongoing
    | _ => rfl
  rw [hreport, hf.severity]
  rfl

/-- A validation is what becomes of the text, at the call boundary. -/
theorem validate_eq_boundary (s : Session e σ) (id : ProcedureId) :
    s.validate id = s.boundary fun w =>
      let core := { w.core with host := (Host.lookup id w.core.host).2 }
      match made ⟨w.core, w.state⟩ id with
      | .error f => (.error f, { w with core })
      | .ok (unit, state) => (.ok ⟨⟩, { state, core := { core with units := core.units.push unit } }) := by
  rw [validate]
  congr 1
  funext w
  rw [made, host]
  rcases hlookup : Host.lookup id w.core.host with ⟨report | source, host⟩
  · simp only [bind, ExceptT.bind, ExceptT.mk, StateT.bind, Bridge.onCore, hlookup]
    rfl
  · simp only [bind, ExceptT.bind, ExceptT.mk, StateT.bind, Bridge.onCore, hlookup,
      ExceptT.bindCont, Engine.compile, Bridge.ofRoutine, Routine.compile_apply]
    cases hmade : e.compiler (.procedure id) source.qualifiedName source.text w.state with
    | error f => rfl
    | ok r => rfl

/-- A call of the procedure gets past looking its text up and compiling it: what it does next is to
load the unit. -/
def ComesToLoad (s : Session e σ) (id : ProcedureId) (args : List Datum) : Prop :=
  ∃ obtained load rest ref, s.trace (.call id args) = obtained :: load :: rest ∧
    load.action = .beginLoad ref ∧ load.core.unitId? ref = some (.procedure id)

/-! ## Fetching -/

section Fetching

variable {c : Core σ e.Code} {state : e.State}

omit [Host σ] in
/-- Raised outside of every handler, a report is the exception that it is on its own. -/
theorem raise_of_mild {report : Report} (hf : (Failure.exception (.ofReport report)).Mild)
    (hhandling : c.handling = []) :
    c.raise report = (.exception (.ofReport report), c.markFailed) := by
  have hmild : (Exception.ofReport report).isFatal = false :=
    (congrArg Severity.isFatal (Exception.severity_toReport _)).symm.trans hf.severity
  rw [Core.raise, hhandling]
  change (_, Core.markFailed (if (Exception.ofReport report).isFatal then _ else c)) = _
  rw [hmild]
  rfl

/-- A fetch makes of the text what a validation makes of it, or fails as it does. -/
theorem fetch_of_failed (hmade : made ⟨c, state⟩ id = .error f) (hf : f.Mild)
    (hhandling : c.handling = []) :
    ∃ c', c.fetch id (Routine.compiling e.compiler id state) = (.error f, c') ∧
      c'.fatal = c.fatal := by
  rw [made, host] at hmade
  rw [Core.fetch]
  rcases hlookup : Host.lookup id c.host with ⟨report | source, host⟩ <;>
    rw [hlookup] at hmade <;> dsimp only at hmade ⊢
  · cases hmade
    have hraise := raise_of_mild (c := { c with host }) hf hhandling
    rw [hraise]
    exact ⟨_, rfl, rfl⟩
  · rw [Routine.compiling, hmade]
    exact ⟨_, rfl, rfl⟩

theorem fetch_of_made {unit : ExecutionUnit e.Code} {state' : e.State}
    (hmade : made ⟨c, state⟩ id = .ok (unit, state')) :
    c.fetch id (Routine.compiling e.compiler id state) =
      (.ok (⟨c.units.size⟩, state'),
        { c with host := (Host.lookup id c.host).2, units := c.units.push unit }) := by
  rw [made, host] at hmade
  rw [Core.fetch]
  rcases hlookup : Host.lookup id c.host with ⟨report | source, host⟩ <;>
    rw [hlookup] at hmade <;> dsimp only at hmade ⊢
  · cases hmade
  · rw [Routine.compiling, hmade]
    rfl

end Fetching

omit [Host σ] in
theorem settleCall_of_none {c : Core σ e.Code} (h : c.callWatchdog = none) : settleCall c = c := by
  rw [settleCall, h]

/-- Between requests, and without a limit to the running time. -/
structure Quiet (s : Session e σ) : Prop where
  ongoing : s.isTerminated = false
  settled : Settled s.core
  unobserved : s.core.monitor.acknowledge = s.core.monitor
  unlimited : s.options.statementTimeout = none

theorem Reachable.quiet {kind : σ → Prop} {others : σ → σ → Prop} (hs : s.Reachable kind others)
    (ht : s.isTerminated = false) (hunlimited : s.options.statementTimeout = none) : s.Quiet := by
  refine ⟨ht, hs.settled, ?_, hunlimited⟩
  rcases hs.settled.monitor.cases with hidle | ⟨kind, hsignaled⟩
  · obtain ⟨state, hstate⟩ := hs.canonical
    rw [hstate, Monitor.state_ofState] at hidle
    rw [hstate, hidle]
    rfl
  · exact Monitor.acknowledge_of_signaled hsignaled

namespace Quiet

variable (hq : s.Quiet)
include hq

omit [Host σ] in
theorem armCall_eq : armCall s.core = { s.core with callWatchdog := none } := by
  have hunlimited : s.core.options.statementTimeout = none := hq.unlimited
  rw [armCall, hunlimited]
  rfl

omit [Host σ] in
/-- At the end of a body that has changed no more than the host and the units, nothing is left to
clean up. -/
theorem settled_with (host : σ) (units : Array (ExecutionUnit e.Code)) :
    Settled { s.core with host, units, callWatchdog := none } :=
  ⟨hq.settled.scopes, hq.settled.root, hq.settled.fatal, hq.settled.handling, hq.settled.monitor⟩

/-- A text that is made into a unit leaves the unit, and nothing else. -/
theorem validate_of_made {unit : ExecutionUnit e.Code} {state : e.State}
    (hmade : s.made id = .ok (unit, state)) :
    s.validate id = (.ok ⟨⟩,
      { core := { s.core with
          host := (Host.lookup id s.host).2
          units := s.core.units.push unit
          callWatchdog := none }
        state }) := by
  have hmade' : made ⟨armCall s.core, s.state⟩ id = .ok (unit, state) := hmade
  rw [validate_eq_boundary, boundary_of_open hq.ongoing hq.settled, bodyEnd]
  dsimp only
  rw [hmade', hq.armCall_eq]
  dsimp only
  rw [settleCall_of_none rfl, finish_of_settled (hq.settled_with _ _) hq.unobserved]
  rfl

/-- A text that cannot be made into a unit leaves nothing at all. -/
theorem validate_of_failed (hmade : s.made id = .error f) (hf : f.Mild) :
    s.validate id = (.error (.reported f.boundaryReport),
      { core := { s.core with host := (Host.lookup id s.host).2, callWatchdog := none }
        state := s.state }) := by
  have hmade' : made ⟨armCall s.core, s.state⟩ id = .error f := hmade
  rw [validate_eq_boundary, boundary_of_open hq.ongoing hq.settled, bodyEnd]
  dsimp only
  rw [hmade', hq.armCall_eq]
  dsimp only
  rw [settleCall_of_none rfl,
    finish_of_settled_error (hq.settled_with _ s.core.units) hq.unobserved,
    reportFailure_of_mild hf]
  rfl

/-! ### The call -/

variable (hpending : s.isPending = false) (hcalm : Host.takeInterrupt s.host = (false, s.host))
include hpending hcalm

theorem safepoint_armCall : (armCall s.core).safepoint = (.ok (), armCall s.core) := by
  have hpoll : (armCall s.core).poll = armCall s.core := by
    have hcalm' : Host.takeInterrupt (armCall s.core).host = (false, (armCall s.core).host) := hcalm
    rw [Core.poll, hcalm']
    rfl
  have hidle : s.core.monitor.state = .idle := by
    rcases hq.settled.monitor.cases with hidle | ⟨kind, hsignaled⟩
    · exact hidle
    · rw [isPending, Monitor.isPending, hsignaled] at hpending
      cases hpending
  have hfatal : (armCall s.core).fatal = none := hq.settled.fatal
  have hclear : (armCall s.core).poll.monitor.held = none := by
    rw [hpoll]
    exact Monitor.state_eq_idle.mp hidle
  rw [Core.safepoint_of_clear hfatal hclear, hpoll]

variable (hmiss : s.core.cache.peek id = none)
include hmiss

/-- A call that finds no unit and cannot make one fails as it is, and has done nothing but try. -/
theorem call_of_failed (hmade : s.made id = .error f) (hf : f.Mild) (args : List Datum) :
    (s.call id args).1 = .error (.reported f.boundaryReport) ∧
      ∃ m, s.trace (.call id args) = [m] := by
  obtain ⟨c, hfetch, hfatal⟩ := fetch_of_failed (c := armCall s.core) hmade hf hq.settled.handling
  have hobtain := Core.obtain_of_failed (hq.safepoint_armCall hpending hcalm) hmiss hfetch
  obtain ⟨hload, hloadTrace⟩ := Routine.loadProcedure_of_failed
    (fun code => e.runScript (e.topLevel code)) hobtain
  obtain ⟨hrun, htrace⟩ := Operation.calling_of_failed s.options.entryPoint args hload
  have hseen := recorded_of_run hq.settled (Operation.calling e s.options.entryPoint id args s.state)
  rw [hrun] at hseen
  constructor
  · rw [call, operate_of_open hq.ongoing hq.settled]
    change (finish 0 (Task.run (Operation.calling e _ id args s.state) _).1.1
      (settleCall (Task.run (Operation.calling e _ id args s.state) _).2)).1 = _
    rw [hrun]
    -- Nothing fatal was recorded, so that the call is answered with what the load has failed with.
    exact finish_of_failure hseen (hfatal.trans hq.settled.fatal) hf.ongoing
  · rw [trace_of_open hq.ongoing]
    exact ⟨_, htrace.trans hloadTrace⟩

/-- A call that can make the unit puts it into the cache, and goes on to load it. -/
theorem call_of_made {unit : ExecutionUnit e.Code} {state : e.State}
    (hmade : s.made id = .ok (unit, state)) (args : List Datum) : s.ComesToLoad id args := by
  obtain ⟨c, hobtain, hunits⟩ : ∃ c, (armCall s.core).obtain id
      (Routine.compiling e.compiler id s.state) = (.ok (⟨s.core.units.size⟩, some state), c) ∧
        c.units = s.core.units.push unit :=
    ⟨_, Core.obtain_of_made (hq.safepoint_armCall hpending hcalm) hmiss
      (fetch_of_made (c := armCall s.core) hmade), rfl⟩
  obtain ⟨more, hload⟩ := Routine.loadProcedure_of_obtained
    (fun code => e.runScript (e.topLevel code)) hobtain
  obtain ⟨rest, hcall⟩ := Operation.exists_trace_calling e s.options.entryPoint id args s.state
    (armCall s.core)
  refine ⟨⟨armCall s.core, .obtain id (Routine.compiling e.compiler id s.state)⟩,
    ⟨c, .beginLoad ⟨s.core.units.size⟩⟩, more ++ rest, ⟨s.core.units.size⟩, ?_, rfl, ?_⟩
  · rw [trace_of_open hq.ongoing]
    exact hcall.trans (congrArg (· ++ rest) hload)
  · have hunit : c.unit? ⟨s.core.units.size⟩ = some unit := by
      rw [Core.unit?, hunits]
      exact Array.getElem?_push_size
    rw [Core.unitId?, hunit, ← id_of_made hmade]
    rfl

end Quiet

/-! ## On the host in memory -/

variable {s : Session e MemoryHost}

theorem mild_of_made (he : e.ReadsPlainly) (hmade : s.made id = .error f) : f.Mild := by
  simp only [made, Host.lookup, MemoryHost.lookup] at hmade
  cases hfind : s.host.find? id with
  | none =>
    rw [hfind] at hmade
    cases hmade
    exact Failure.mild_exception rfl
  | some source =>
    rw [hfind] at hmade
    exact Engine.mild_of_compiler he hmade

/-- What is left when a session was asked to validate a procedure: the host was asked once for the
text, and there is at most one more unit, which is not in the cache. The cache with its order and its
statistics, the scopes and what is requested are as they were. -/
structure Footprint (s t : Session e MemoryHost) (id : ProcedureId) : Prop where
  core : ∃ made : Array (ExecutionUnit e.Code), made.size ≤ 1 ∧ t.core = { s.core with
    host := s.host.record (.lookedUp id)
    units := s.core.units ++ made
    callWatchdog := none }
  cached : ∀ x, t.cachedUnit? x = s.cachedUnit? x

theorem Footprint.of_core {t : Session e MemoryHost} (hs : s.core.CacheLoaded)
    (made : Array (ExecutionUnit e.Code)) (hmade : made.size ≤ 1)
    (hcore : t.core = { s.core with
      host := s.host.record (.lookedUp id)
      units := s.core.units ++ made
      callWatchdog := none }) : s.Footprint t id := by
  refine ⟨⟨made, hmade, hcore⟩, fun x => ?_⟩
  rw [cachedUnit?, cachedUnit?, Core.cachedUnit?, Core.cachedUnit?, hcore]
  dsimp only
  cases hpeek : s.core.cache.peek x with
  | none => rfl
  -- A cached unit was there before, and new units come after those.
  | some ref => exact Array.getElem?_append_left (Core.lt_of_stage? (hs x ref hpeek))

theorem Quiet.validate_footprint (hq : s.Quiet) (he : e.ReadsPlainly) (hs : s.core.CacheLoaded)
    (id : ProcedureId) : s.Footprint (s.validate id).2 id := by
  cases hmade : s.made id with
  | ok r =>
    refine .of_core hs #[r.1] (Nat.le_refl 1) ?_
    rw [hq.validate_of_made hmade, ← Array.push_eq_append]
    rfl
  | error f =>
    refine .of_core hs #[] (Nat.zero_le 1) ?_
    rw [hq.validate_of_failed hmade (mild_of_made he hmade), Array.append_empty]
    rfl

section Scripts

variable (hq : s.Quiet) (topLevel : e.Code → e.State → Script e.State e.Value e.Code)
  (member : e.Code → String → e.State → Script e.State e.Value e.Code)
  (invoke : e.Value → List Datum → e.State → Script e.State e.Value e.Code)
  (publish : e.Code → e.State → Script e.State e.Value e.Code)
include hq

theorem Quiet.withScripts :
    (⟨s.core, s.state⟩ :
      Session (e.withScripts topLevel member invoke publish) MemoryHost).Quiet := by
  obtain ⟨hscopes, hroot, hfatal, hhandling, hmonitor⟩ := hq.settled
  exact ⟨hq.ongoing, ⟨hscopes, hroot, hfatal, hhandling, hmonitor⟩, hq.unobserved, hq.unlimited⟩

/-- Whatever the scripts are, a validation comes to the same. -/
theorem Quiet.validate_withScripts (he : e.ReadsPlainly) (id : ProcedureId) :
    (⟨s.core, s.state⟩ : Session (e.withScripts topLevel member invoke publish) MemoryHost).validate
      id = ((s.validate id).1, ⟨(s.validate id).2.core, (s.validate id).2.state⟩) := by
  have hother := hq.withScripts topLevel member invoke publish
  cases hmade : s.made id with
  | ok r =>
    rw [hq.validate_of_made hmade]
    exact hother.validate_of_made hmade
  | error f =>
    have hf := mild_of_made he hmade
    rw [hq.validate_of_failed hmade hf]
    exact hother.validate_of_failed hmade hf

end Scripts

/-- A validation foretells the first call. With nothing cached for the procedure and nothing
requested, it succeeds if and only if a call comes to loading the unit, and otherwise both answer with
the same report. Whatever is cached or requested, it looks the text up once and leaves nothing else
behind that a later request could tell; and it comes to the same whatever the scripts are, so that it
runs none of them. -/
theorem validate_foretells_call (he : e.ReadsPlainly)
    (hs : s.Reachable (fun _ => True) fun _ _ => True) (ht : s.isTerminated = false)
    (hunlimited : s.options.statementTimeout = none) (id : ProcedureId) :
    (s.cachedUnit? id = none → s.isPending = false → s.host.interrupted = false → ∀ args,
      ((s.validate id).1 = .ok ⟨⟩ ↔ s.ComesToLoad id args) ∧
      ((s.validate id).1 ≠ .ok ⟨⟩ → ∃ report, (s.validate id).1 = .error (.reported report) ∧
        (s.call id args).1 = .error (.reported report))) ∧
    s.Footprint (s.validate id).2 id ∧
    ∀ topLevel member invoke publish,
      (⟨s.core, s.state⟩ : Session (e.withScripts topLevel member invoke publish) MemoryHost).validate
        id = ((s.validate id).1, ⟨(s.validate id).2.core, (s.validate id).2.state⟩) := by
  have hq := hs.quiet ht hunlimited
  refine ⟨fun hmiss hpending hcalm args => ?_, hq.validate_footprint he hs.cacheLoaded id,
    fun _ _ _ _ => hq.validate_withScripts _ _ _ _ he id⟩
  -- Nothing is taken from a host that has nothing to tell.
  have hcalm' : Host.takeInterrupt s.host = (false, s.host) := by
    change (s.host.interrupted, { s.host with interrupted := false }) = _
    rw [← hcalm]
  have hmiss' := hs.cacheLoaded.peek_eq_none hmiss
  cases hmade : s.made id with
  | ok r =>
    have hload := hq.call_of_made hpending hcalm' hmiss' hmade args
    rw [hq.validate_of_made hmade]
    exact ⟨iff_of_true rfl hload, fun h => absurd rfl h⟩
  | error f =>
    obtain ⟨hcall, m, htrace⟩ := hq.call_of_failed hpending hcalm' hmiss' hmade
      (mild_of_made he hmade) args
    rw [hq.validate_of_failed hmade (mild_of_made he hmade)]
    refine ⟨iff_of_false nofun ?_, fun _ => ⟨_, rfl, hcall⟩⟩
    rintro ⟨obtained, load, rest, ref, hload, -⟩
    rw [htrace] at hload
    cases hload

theorem fresh_cachedUnit? (e : Engine) (initial : e.State) (host : MemoryHost) (id : ProcedureId) :
    (fresh e initial host).cachedUnit? id = none := by
  rw [cachedUnit?, Core.cachedUnit?]
  exact congrArg (Option.bind · _) (CodeCache.peek_empty _ id)

/-- A session on a catalog of one procedure. -/
def greeting : Session Lua.engine MemoryHost :=
  fresh _ (Lua.Machine.initial false)
    { catalog := [⟨⟨16384⟩, "app", "greet", "function main() return 'hello' end"⟩] }

theorem greeting_reachable : greeting.Reachable (fun _ => True) fun _ _ => True :=
  fresh_reachable _ _ _ trivial

/-- The procedure that is not there fails both, and one that is there goes through both. -/
theorem validate_foretells_call_unknown :
    (greeting.isTerminated = false ∧ greeting.options.statementTimeout = none ∧
      greeting.cachedUnit? ⟨7⟩ = none ∧ greeting.isPending = false ∧
      greeting.host.interrupted = false ∧ ¬ greeting.ComesToLoad ⟨7⟩ [] ∧
      (∃ report, (greeting.validate ⟨7⟩).1 = .error (.reported report) ∧
        (greeting.call ⟨7⟩ []).1 = .error (.reported report)) ∧
      greeting.Footprint (greeting.validate ⟨7⟩).2 ⟨7⟩) ∧
    (stored.validate ⟨16384⟩).1 = .ok ⟨⟩ ∧ stored.ComesToLoad ⟨16384⟩ [] := by
  have hmiss : greeting.cachedUnit? ⟨7⟩ = none := fresh_cachedUnit? _ _ _ _
  have hfails : (greeting.validate ⟨7⟩).1 ≠ .ok ⟨⟩ := by
    have hmade : greeting.made ⟨7⟩ = .error _ := rfl
    rw [(greeting_reachable.quiet rfl rfl).validate_of_failed hmade (Failure.mild_exception rfl)]
    intro h
    cases h
  obtain ⟨hagrees, hfootprint, -⟩ :=
    validate_foretells_call Lua.engine_readsPlainly greeting_reachable rfl rfl ⟨7⟩
  obtain ⟨hloads, hreport⟩ := hagrees hmiss rfl rfl []
  refine ⟨⟨rfl, rfl, hmiss, rfl, rfl, fun h => hfails (hloads.mpr h), hreport hfails, hfootprint⟩,
    ?_⟩
  have hreads : (Engine.scripted (.done ⟨.ok (), ()⟩)).ReadsPlainly := by
    intro name text err h
    cases h
  have hreachable : stored.Reachable (fun _ => True) fun _ _ => True := fresh_reachable _ _ _ trivial
  have hpasses : (stored.validate ⟨16384⟩).1 = .ok ⟨⟩ := by
    have hmade : stored.made ⟨16384⟩ = .ok _ := rfl
    rw [(hreachable.quiet rfl rfl).validate_of_made hmade]
  obtain ⟨hagrees, -⟩ := validate_foretells_call hreads hreachable rfl rfl ⟨16384⟩
  exact ⟨hpasses, (hagrees (fresh_cachedUnit? _ _ _ _) rfl rfl []).1.mp hpasses⟩

end Session

end ProcedureBridge
