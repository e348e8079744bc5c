import ProcedureBridge.Proofs.Bridge.Signal
import ProcedureBridge.Proofs.Session.Blocks
import ProcedureBridge.Proofs.Session.HostError
import ProcedureBridge.Proofs.Session.Reported
import ProcedureBridge.Proofs.Session.Termination

/-! # What becomes of the row

A trigger procedure says what is to become of the row by what it returns, or by the signal that skips
the row. The call boundary has the last word: what has failed in the call, or was left open, lets no
trigger succeed. Outside of triggers the signal is an error. -/

namespace ProcedureBridge

/-- The report of a script that broke the calling convention. -/
def violation (message : String) : Report :=
  (Failure.protocolViolation message).toException.toReport

/-- The signal where no row can be skipped. -/
def strayStop : Report := violation "pl.stop_event() may only be called from a BEFORE trigger"

/-- The report that a failure becomes at the boundary. -/
def Failure.boundaryReport (f : Failure) : Report :=
  match f.disposition with
  | .report report => report
  | .suppress _ => strayStop

theorem Failure.boundaryReport_of_isSuppress {err : ScriptError} (h : err.isSuppress = true) :
    (Failure.script err).boundaryReport = strayStop := by
  unfold ScriptError.isSuppress at h
  split at h
  · rename_i reason hcarried
    simp [boundaryReport, disposition, hcarried]
  · cases h

namespace TriggerEvent

variable {e : Engine}

/-- What the event comes to, if the run of the trigger procedure has ended in the given way and
nothing else has happened. -/
inductive Yields (e : Engine) (event : TriggerEvent) (o : Outcome e.State e.Value) :
    Except Failure TriggerOutcome → Prop
  | suppressed : event.timing = .before → o.Signals → Yields e event o (.ok .suppress)
  /-- What has happened cannot be skipped. -/
  | unsuppressed : event.timing = .after → o.Signals → Yields e event o (.error (.reported
      (violation ("AFTER trigger " ++ event.name ++ " cannot suppress the triggering event"))))
  | proceeds {v : e.Value} : o.result = .ok v → e.isNil v = true → Yields e event o (.ok .proceed)
  | replaced {v : e.Value} {row : Datum} : event.timing = .before → event.operation ≠ .delete →
      o.result = .ok v → e.isNil v = false → e.toDatum v o.state = .ok row →
      Yields e event o (.ok (.replace row))
  /-- The value is no row. -/
  | unconverted {v : e.Value} {err : ScriptError} : event.timing = .before →
      event.operation ≠ .delete → o.result = .ok v → e.isNil v = false →
      e.toDatum v o.state = .error err →
      Yields e event o (.error (.reported (Failure.script err).boundaryReport))
  /-- There is no row to replace. -/
  | deleted {v : e.Value} : event.timing = .before → event.operation = .delete →
      o.result = .ok v → e.isNil v = false → Yields e event o (.error (.reported
        (violation ("BEFORE DELETE trigger " ++ event.name ++ " cannot return a replacement row"))))
  | ignored {v : e.Value} : event.timing = .after → o.result = .ok v → e.isNil v = false →
      Yields e event o (.error (.reported
        (violation ("AFTER trigger " ++ event.name ++ " returned a value; it must return nil"))))
  | failed {err : ScriptError} : o.result = .error err → err.isSuppress = false →
      Yields e event o (.error (.reported (Failure.script err).boundaryReport))

/-- How the trigger judges the end of its procedure. -/
def judge (e : Engine) (event : TriggerEvent) (o : Outcome e.State e.Value) :
    Except Failure TriggerOutcome :=
  match o.result with
  | .error err => event.outcomeOfError err
  | .ok v => event.outcomeOfValue e.isNil (fun v => (e.toDatum v o.state).mapError .script) v

theorem yields_outcomeOfError (event : TriggerEvent) {o : Outcome e.State e.Value}
    {err : ScriptError} (h : o.result = .error err) :
    event.Yields e o ((event.outcomeOfError err).mapError fun f => .reported f.boundaryReport) := by
  unfold outcomeOfError
  split
  · rename_i hsuppress
    split
    · rename_i htiming
      exact .suppressed htiming ⟨err, h, hsuppress⟩
    · rename_i htiming
      exact .unsuppressed htiming ⟨err, h, hsuppress⟩
  · rename_i hsuppress
    exact .failed h (Bool.eq_false_iff.mpr hsuppress)

theorem yields_outcomeOfValue (event : TriggerEvent) {o : Outcome e.State e.Value} {v : e.Value}
    (h : o.result = .ok v) :
    event.Yields e o ((event.outcomeOfValue e.isNil
      (fun v => (e.toDatum v o.state).mapError Failure.script) v).mapError
        fun f => .reported f.boundaryReport) := by
  unfold outcomeOfValue
  split
  · rename_i hnil
    exact .proceeds h hnil
  · rename_i hnil
    have hvalue : e.isNil v = false := Bool.eq_false_iff.mpr hnil
    split
    · rename_i htiming
      exact .ignored htiming h hvalue
    · rename_i htiming hoperation
      exact .deleted htiming hoperation h hvalue
    · rename_i htiming hoperation
      dsimp only
      cases hdatum : e.toDatum v o.state with
      | ok row => exact .replaced htiming hoperation h hvalue hdatum
      | error err => exact .unconverted htiming hoperation h hvalue hdatum

theorem yields_judge (event : TriggerEvent) (o : Outcome e.State e.Value) :
    event.Yields e o ((event.judge e o).mapError fun f => .reported f.boundaryReport) := by
  cases hresult : o.result with
  | error err =>
    have hjudge : event.judge e o = event.outcomeOfError err := by rw [judge, hresult]
    rw [hjudge]
    exact event.yields_outcomeOfError hresult
  | ok v =>
    have hjudge : event.judge e o = event.outcomeOfValue e.isNil
        (fun v => (e.toDatum v o.state).mapError .script) v := by rw [judge, hresult]
    rw [hjudge]
    exact event.yields_outcomeOfValue hresult

theorem Yields.eq_judge {event : TriggerEvent} {o : Outcome e.State e.Value}
    {answer : Except Failure TriggerOutcome} (h : event.Yields e o answer) :
    answer = (event.judge e o).mapError fun f => .reported f.boundaryReport := by
  cases h with
  | suppressed htiming ho | unsuppressed htiming ho =>
    obtain ⟨err, hresult, hsuppress⟩ := ho
    simp only [judge, hresult, outcomeOfError, hsuppress, htiming]
    rfl
  | failed hresult hsuppress =>
    simp only [judge, hresult, outcomeOfError, hsuppress]
    rfl
  | proceeds hresult hnil =>
    simp only [judge, hresult, outcomeOfValue, hnil]
    rfl
  | replaced htiming hoperation hresult hnil hdatum
  | unconverted htiming hoperation hresult hnil hdatum =>
    simp only [judge, hresult, outcomeOfValue, hnil, hdatum, htiming]
    rfl
  | deleted htiming hoperation hresult hnil =>
    simp only [judge, hresult, outcomeOfValue, hnil, htiming, hoperation]
    rfl
  | ignored htiming hresult hnil =>
    simp only [judge, hresult, outcomeOfValue, hnil, htiming]
    rfl

/-- The event comes to one thing only. -/
theorem Yields.unique {event : TriggerEvent} {o : Outcome e.State e.Value}
    {answer answer' : Except Failure TriggerOutcome} (h : event.Yields e o answer)
    (h' : event.Yields e o answer') : answer = answer' :=
  h.eq_judge.trans h'.eq_judge.symm

end TriggerEvent

namespace Operation

variable {e : Engine} {σ : Type} [Host σ] {entryPoint : String} {id : ProcedureId}
  {state state' : e.State} {c c' : Core σ e.Code} {procedure : e.Value}

/-- A trigger whose procedure is loaded runs it, judges how that ended, and does nothing else. -/
theorem run_firing (event : TriggerEvent)
    (hmain : Task.run (main e entryPoint id state) c = ((.ok procedure, state'), c')) :
    let ended := Task.run ((e.invoke procedure event.arguments state').task e.compiler) c'
    Task.run (firing e entryPoint id event state) c =
      ((event.judge e ended.1, ended.1.state), ended.2) := by
  intro ended
  have hscript : Task.run (e.runScript (e.invoke procedure event.arguments) state') c' =
      ((ended.1.result.mapError Failure.script, ended.1.state), ended.2) :=
    (Engine.run_runScript _ _ _).1
  rw [firing, (Routine.run_bind_of_ok hmain).1, Routine.bind_apply, Routine.attempt_apply,
    Task.run_bind, Task.run_bind, hscript, TriggerEvent.judge]
  cases ended.1.result with
  | error err => rfl
  | ok v => rfl

end Operation

namespace Session

/-- Nothing is left of the call that would make it fail. -/
structure Intact {σ U : Type} (c : Core σ U) : Prop where
  fatal : c.fatal = none
  scopes : c.scopes.scopes = []
  root : c.scopes.rootFailed = false

variable {e : Engine} {σ α : Type} [Host σ]

theorem reportFailure_eq {f : Failure} (hf : f ≠ .terminated) (c : Core σ e.Code) :
    (reportFailure c f).1 = .reported f.boundaryReport := by
  cases f with
  | terminated => exact absurd rfl hf
  | _ => rfl

section

variable {c : Core σ e.Code} (hseen : c.monitor.state = .consumed .terminate → c.fatal ≠ none)
include hseen

/-- With nothing fatal recorded, a body that fails is answered with its own failure. -/
theorem finish_of_failure (hfatal : c.fatal = none) {f : Failure} (hf : f ≠ .terminated) :
    (finish 0 (.error f : Except Failure α) (settleCall c)).1 =
      .error (.reported f.boundaryReport) := by
  rw [finish_eq, takeFatal_settleCall hseen, hfatal]
  exact congrArg Except.error (reportFailure_eq hf _)

theorem finish_of_stop (hfatal : c.fatal = none) {err : ScriptError} (herr : err.isSuppress = true) :
    (finish 0 (.error (.script err) : Except Failure α) (settleCall c)).1 =
      .error (.reported strayStop) := by
  have hf : Failure.script err ≠ .terminated := nofun
  rw [finish_of_failure hseen hfatal hf, Failure.boundaryReport_of_isSuppress herr]

theorem finish_of_intact (hc : Intact c) {result : Except Failure α}
    (hresult : Reportable result) :
    (finish 0 result (settleCall c)).1 = result.mapError fun f => .reported f.boundaryReport := by
  cases result with
  | error f => exact finish_of_failure hseen hc.fatal (reportable_error_iff.mp hresult)
  | ok a =>
    obtain ⟨monitor, callWatchdog, hsettle, -⟩ := settleCall_cases c
    have hunwind : (settleCall c).unwindTo 0 = (0, settleCall c) := by
      rw [hsettle, Core.unwindTo, ScopeStack.unwindTo_of_nil hc.scopes]
    have hroot : (settleCall c).scopes.rootFailed = false := by
      rw [hsettle]
      exact hc.root
    rw [finish_eq, takeFatal_settleCall hseen, hc.fatal, hunwind, hroot]
    rfl

/-- Whatever the body came to, what was left of the call makes it fail. -/
theorem finish_of_broken (hc : ¬ Intact c) (result : Except Failure α) :
    ∃ f, (finish 0 result (settleCall c)).1 = .error f := by
  cases result with
  | error f => exact finish_of_error 0 f _
  | ok a =>
    have hscopes : (settleCall c).scopes = c.scopes := by
      obtain ⟨monitor, callWatchdog, hsettle, -⟩ := settleCall_cases c
      rw [hsettle]
    by_cases hroot : c.scopes.rootFailed = true
    · exact finish_of_rootFailed (by rw [hscopes, hroot]) 0 _
    · rw [finish_eq, takeFatal_settleCall hseen]
      cases hfatal : c.fatal with
      | some exc => exact ⟨_, rfl⟩
      | none =>
        have hopen : 0 < ((settleCall c).unwindTo 0).1 := by
          change 0 < (settleCall c).scopes.depth - 0
          rw [hscopes]
          refine Nat.pos_of_ne_zero fun h => hc ⟨hfatal, ?_, by simpa using hroot⟩
          exact List.length_eq_zero_iff.mp h
        rw [verdict, if_pos hopen]
        exact ⟨_, rfl⟩

end

variable {s : Session e σ} {id : ProcedureId} {event : TriggerEvent}

theorem fireTrigger_of_broken (hs : Settled s.core) (ht : s.isTerminated = false)
    (hend : ¬ Intact
      (Task.run (Operation.firing e s.options.entryPoint id event s.state) (armCall s.core)).2) :
    ∃ f, (s.fireTrigger id event).1 = .error f := by
  obtain ⟨f, hf⟩ := finish_of_broken (recorded_of_run hs _) hend
    (Task.run (Operation.firing e s.options.entryPoint id event s.state) (armCall s.core)).1.1
  refine ⟨f, ?_⟩
  rw [fireTrigger, operate_of_open ht hs]
  exact hf

theorem fireTrigger_yields (hs : Settled s.core) (ht : s.isTerminated = false) {procedure : e.Value}
    {state : e.State} {c : Core σ e.Code}
    (hmain : Task.run (Operation.main e s.options.entryPoint id s.state) (armCall s.core) =
      ((.ok procedure, state), c))
    (hend : Intact
      (Task.run ((e.invoke procedure event.arguments state).task e.compiler) c).2) :
    event.Yields e (Task.run ((e.invoke procedure event.arguments state).task e.compiler) c).1
      (s.fireTrigger id event).1 := by
  have hrun := Operation.run_firing event hmain
  have hseen := recorded_of_run hs (Operation.firing e s.options.entryPoint id event s.state)
  have hresult := Operation.routine_reportable e s.options.entryPoint (.fireTrigger id event) s.state
    (armCall s.core)
  change Reportable (Task.run (Operation.firing e _ id event s.state) _).1.1 at hresult
  rw [hrun] at hseen hresult
  rw [fireTrigger, operate_of_open ht hs]
  change TriggerEvent.Yields e event _
    (finish 0 (Task.run (Operation.firing e _ id event s.state) _).1.1
      (settleCall (Task.run (Operation.firing e _ id event s.state) _).2)).1
  rw [hrun, finish_of_intact hseen hend hresult]
  exact event.yields_judge _

/-- An operation out of which the signal comes. -/
theorem operate_of_stop (hs : Settled s.core) (ht : s.isTerminated = false) {o : Operation}
    {script : Script e.State e.Value e.Code} {c : Core σ e.Code}
    (hruns : Routine.Runs e (o.routine e s.options.entryPoint) s.state (armCall s.core) script c)
    (hsignals : (Task.run (script.task e.compiler) c).1.Signals)
    (hfatal : (Task.run (o.routine e s.options.entryPoint s.state) (armCall s.core)).2.fatal = none) :
    (s.operate o).1 = .error (.reported strayStop) := by
  obtain ⟨err, herr, hsuppress⟩ := hsignals
  rw [operate_of_open ht hs]
  dsimp only
  rw [hruns.failed herr, finish_of_stop (recorded_of_run hs _) hfatal hsuppress]

/-- An initialization unit out of which the signal comes. -/
theorem start_of_stop {initial : e.State} {files : String → FileContent} {host : σ}
    {options : Options} {origin text : String} (hvalid : options.validate = .ok ())
    (hsource : initSource options files = .ok (some (origin, text)))
    {script : Script e.State e.Value e.Code} {c : Core σ e.Code}
    (hruns : Routine.Runs e (initialization e origin text) initial (armCall (.new host options))
      script c)
    (hsignals : (Task.run (script.task e.compiler) c).1.Signals)
    (hfatal : (Task.run (initialization e origin text initial) (armCall (.new host options))).2.fatal =
      none) :
    ∃ host', start e initial files host options = .error (.reported strayStop, host') := by
  obtain ⟨err, herr, hsuppress⟩ := hsignals
  have hs : Settled (Core.new host options : Core σ e.Code) := new_settled host options
  have hseen := recorded_of_run hs (initialization e origin text initial)
  have hfailed := hruns.failed herr
  rcases hrun : Task.run (initialization e origin text initial) (armCall (.new host options)) with
    ⟨⟨result, state⟩, c'⟩
  rw [hrun] at hfailed hfatal hseen
  obtain rfl : result = .error (.script err) := hfailed
  have hbody : runInit files ⟨initial, armCall (.new host options)⟩ =
      (.error (.script err), ⟨state, c'⟩) := runInit_of_error hsource hrun
  refine ⟨_, start_of_boundary hvalid ?_⟩
  rw [boundary_of_open rfl hs, bodyEnd]
  dsimp only
  rw [hbody]
  dsimp only
  exact finish_of_stop hseen hfatal hsuppress

/-- What becomes of the row. A trigger whose procedure is loaded may do anything, and unless the call
has met a fatal condition, left a scope open or failed outside of every scope, the event comes to what
the end of the procedure says; and otherwise to a failure. The signal that skips the row can be raised
in any nesting of scopes, handlers and other layers: it comes out of all of them as the signal, and
from where it is raised on no handler begins to run, and the scopes that it crosses are rolled back.
Where it comes out of another operation, or of the initialization unit, or of the loading of the
trigger, it is an error. -/
theorem trigger_outcomes (e : Engine) :
    (∀ (σ : Type) [Host σ] (s : Session e (Recorded σ)),
      s.Reachable (fun _ => True) (fun _ _ => True) → s.isTerminated = false →
        (∀ id event,
          (¬ Intact (Task.run (Operation.firing e s.options.entryPoint id event s.state)
              (armCall s.core)).2 → ∃ f, (s.fireTrigger id event).1 = .error f) ∧
          ∀ procedure state c,
            Task.run (Operation.main e s.options.entryPoint id s.state) (armCall s.core) =
              ((.ok procedure, state), c) →
            let script := e.invoke procedure event.arguments state
            let ended := Task.run (script.task e.compiler) c
            (Task.run (Operation.firing e s.options.entryPoint id event s.state)
              (armCall s.core)).2 = ended.2 ∧
            (Intact ended.2 → event.Yields e ended.1 (s.fireTrigger id event).1) ∧
            ∀ crossed r, script.Stops e.compiler c crossed r →
              (script.task e.compiler).Stops c crossed r) ∧
        ∀ o script c,
          Routine.Runs e (o.routine e s.options.entryPoint) s.state (armCall s.core) script c →
          (∀ crossed r, script.Stops e.compiler c crossed r →
            (script.task e.compiler).Stops c crossed r) ∧
          ((Task.run (script.task e.compiler) c).1.Signals →
            (Task.run (o.routine e s.options.entryPoint s.state) (armCall s.core)).2.fatal = none →
            (s.operate o).1 = .error (.reported strayStop))) ∧
    (∀ (σ : Type) [Host σ] (initial : e.State) files (host : Recorded σ) options origin text script c,
      options.validate = .ok () → initSource options files = .ok (some (origin, text)) →
      Routine.Runs e (initialization e origin text) initial (armCall (.new host options)) script c →
      (∀ crossed r, script.Stops e.compiler c crossed r →
        (script.task e.compiler).Stops c crossed r) ∧
      ((Task.run (script.task e.compiler) c).1.Signals →
        (Task.run (initialization e origin text initial)
          (armCall (.new host options))).2.fatal = none →
        ∃ host', start e initial files host options = .error (.reported strayStop, host'))) := by
  constructor
  · intro σ _ s hs ht
    obtain ⟨past, hlived⟩ := hs.lived
    have hbegin : InOrder (armCall s.core) :=
      (inOrder_throughout.resting past).arm (inOrder_throughout.lived hlived)
    refine ⟨fun id event => ⟨fireTrigger_of_broken hs.settled ht, ?_⟩, ?_⟩
    · intro procedure state c hmain
      have hc : InOrder c := Task.keeps_of_run (fun _ => InOrder.after) hmain hbegin
      exact ⟨congrArg Prod.snd (Operation.run_firing _ hmain), fireTrigger_yields hs.settled ht hmain,
        fun crossed r hstops => hstops.run hc⟩
    · intro o script c hruns
      exact ⟨fun crossed r hstops => hstops.run (hruns.keeps (fun _ => InOrder.after) hbegin),
        operate_of_stop hs.settled ht hruns⟩
  · intro σ _ initial files host options origin text script c hvalid hsource hruns
    have hbegin : InOrder (armCall (.new host options) : Core (Recorded σ) e.Code) :=
      (inOrder_throughout.resting []).arm (inOrder_throughout.new host options)
    exact ⟨fun crossed r hstops => hstops.run (hruns.keeps (fun _ => InOrder.after) hbegin),
      start_of_stop hvalid hsource hruns⟩

end Session

/-- The end of a script that asks to skip the row. -/
def stopped : Outcome Unit Unit :=
  ⟨.error (.callback "[C]: in function 'stop_event'" (.suppress none)), ()⟩

/-- A script that asks so under a handler of all errors, in a scope. -/
def skipping : Script Unit Unit Unit :=
  .scope () (fun _ => .guarded "*" () (fun _ => .done stopped) (fun _ _ => .done ⟨.ok (), ()⟩) .done)
    .done

theorem stops_skipping {σ : Type} [Host σ] {compiler : Compiler Unit Unit} {c c' : Core σ Unit}
    {handle : ScopeHandle} (henter : c.enterScope = (.ok handle, c')) :
    skipping.Stops compiler c [handle] c' := by
  have hsignals : stopped.Signals := ⟨_, rfl, rfl⟩
  have hparse : CatchPattern.parse "*" = .ok .any := rfl
  have hbody : Script.Stops compiler (.guarded "*" () (fun _ => .done stopped)
      (fun _ _ => .done ⟨.ok (), ()⟩) .done) c' [] c' :=
    .guarded hparse (.raised hsignals) rfl hsignals
  have hran : (Task.run (Script.task compiler (.guarded "*" () (fun _ => .done stopped)
      (fun _ _ => .done ⟨.ok (), ()⟩) .done)) c').1 = stopped := by
    rw [Script.task, hparse]
    rfl
  change skipping.Stops compiler c ([] ++ [handle]) c'
  refine .scope henter hbody ?_ hsignals
  exact congrArg Script.done hran

/-- The language in which every text defines a procedure that is this script. -/
def Engine.skipping : Engine :=
  { Engine.scripted (.done ⟨.ok (), ()⟩) with invoke := fun _ _ _ => ProcedureBridge.skipping }

namespace Session.Skipping

def procedure : ProcedureSource := ⟨⟨16384⟩, "public", "skip", ""⟩

/-- A session on whose host is the procedure. -/
def session : Session Engine.skipping (Recorded MemoryHost) :=
  fresh _ () ⟨{ catalog := [procedure] }, []⟩

/-- The procedure has been obtained. -/
def obtained (state : LoadState) : Core (Recorded MemoryHost) Engine.skipping.Code :=
  { armCall session.core with
    host := ⟨{ catalog := [procedure], events := #[.lookedUp procedure.id] },
      [.polled, .lookedUp procedure.id]⟩
    units := #[
      { id := .procedure procedure.id
        name := procedure.qualifiedName
        checksum := Text.checksum procedure.text
        code := ()
        state }]
    cache := ({ session.core.cache with
      stats := session.core.cache.stats.miss }.insert procedure.id ⟨0⟩).2 }

theorem main_obtained :
    Task.run (Operation.main Engine.skipping session.options.entryPoint procedure.id ())
      (armCall session.core) = ((.ok (), ()), obtained .loaded) := by
  have hfetch : (armCall session.core).poll.fetch procedure.id
      (Routine.compiling Engine.skipping.compiler procedure.id ()) =
        (.ok (⟨0⟩, ()), { obtained .fresh with cache := session.core.cache }) := rfl
  have hobtain : (armCall session.core).obtain procedure.id
      (Routine.compiling Engine.skipping.compiler procedure.id ()) =
        (.ok (⟨0⟩, some ()), obtained .fresh) :=
    Core.obtain_of_made (Core.safepoint_of_clear rfl rfl) (CodeCache.peek_empty _ _) hfetch
  have hbegin : (obtained .fresh).beginLoad ⟨0⟩ = (some (), obtained .loading) := rfl
  have htop : Task.run (Engine.skipping.runScript (Engine.skipping.topLevel ()) ())
      (obtained .loading) = ((.ok (), ()), obtained .loading) := rfl
  have hload : Task.run (Engine.skipping.loadProcedure procedure.id ()) (armCall session.core) =
      ((.ok ⟨0⟩, ()), (obtained .loading).endLoad ⟨0⟩ true) :=
    Routine.run_loadProcedure_of_made hobtain hbegin htop
  rw [Operation.main, (Routine.run_bind_of_ok hload).1]
  rfl

/-- Before the row is written the event is skipped, whatever the operation is. The same script, as an
anonymous block, fails. -/
theorem trigger_outcomes_skipping :
    (∃ handle r, (skipping.task Engine.skipping.compiler).Stops (obtained .loaded) [handle] r) ∧
    (∀ event : TriggerEvent, event.timing = .before →
      (session.fireTrigger procedure.id event).1 = .ok .suppress) ∧
    ((recordedSession skipping).operate (.executeInline "")).1 = .error (.reported strayStop) := by
  have hs : session.Reachable (fun _ => True) (fun _ _ => True) := fresh_reachable _ _ _ trivial
  have hentry event := (((trigger_outcomes Engine.skipping).1 _ _ hs rfl).1 procedure.id event).2
    _ _ _ main_obtained
  rcases henter : (obtained .loaded).enterScope with ⟨f | handle, r⟩
  · cases (congrArg Prod.fst henter : (obtained .loaded).enterScope.1 = .error f)
  have hstops : skipping.Stops Engine.skipping.compiler _ _ _ := stops_skipping henter
  have hthrough event := (hentry event).2.2 _ _ hstops
  refine ⟨⟨handle, r, hthrough ⟨"", "", .before, .insert, none, none⟩⟩, ?_, ?_⟩
  · intro event htiming
    have hend : Intact
        (Task.run (skipping.task Engine.skipping.compiler) (obtained .loaded)).2 :=
      ⟨by decide +kernel, by decide +kernel, by decide +kernel⟩
    exact ((hentry event).2.1 hend).unique (.suppressed htiming (hthrough event).signals)
  · have hs : (recordedSession skipping).Reachable (fun _ => True) (fun _ _ => True) :=
      fresh_reachable _ _ _ trivial
    have hpass : (armCall (recordedSession skipping).core).safepoint =
        (.ok (), (armCall (recordedSession skipping).core).poll) :=
      Core.safepoint_of_clear rfl rfl
    obtain ⟨c, hruns, hok⟩ : ∃ c, Routine.Runs (Engine.scripted skipping)
        (Operation.executing (Engine.scripted skipping) "") ()
        (armCall (recordedSession skipping).core) skipping c ∧ c.enterScope.1.isOk = true :=
      ⟨_, Operation.runs_executing hpass rfl rfl rfl, by decide +kernel⟩
    obtain ⟨hthrough, hanswer⟩ :=
      ((trigger_outcomes (Engine.scripted skipping)).1 _ _ hs rfl).2 (.executeInline "") _ _ hruns
    rcases henter : c.enterScope with ⟨f | handle, r⟩
    · rw [henter] at hok
      cases hok
    · exact hanswer (hthrough _ _ (stops_skipping henter)).signals (by decide +kernel)

end Session.Skipping

end ProcedureBridge
