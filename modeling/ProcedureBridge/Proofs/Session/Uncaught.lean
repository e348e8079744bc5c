import ProcedureBridge.Proofs.Bridge.Condition
import ProcedureBridge.Proofs.Bridge.Unwinding
import ProcedureBridge.Proofs.Session.Boundary

/-! # Errors that nobody catches

An error that leaves a call crosses every open scope, however these were opened. The scopes that
scripts run bodies in abort themselves, with whatever is open inside; the call boundary aborts the
rest. Together they roll back what was open when the error was raised, from the innermost scope to
the outermost one, and the host notices nothing else. -/

namespace ProcedureBridge

/-- The rollbacks of scopes, as a host in memory tells them. -/
def rollbacks (scopes : List Scope) : Array HostEvent :=
  (scopes.map fun x => .rolledBack x.subxact).toArray

/-- Some of the scopes that were opened, the innermost ones, have been rolled back one after the
other, and nothing else has happened since the given events. -/
def RolledBack (opened : List Scope) (events : Array HostEvent) (_ : Option Exception)
    (t : ScopeStack × MemoryHost) : Prop :=
  t.1.Backed t.2 ∧ ∃ gone, opened = gone ++ t.1.scopes ∧ t.2.events = events ++ rollbacks gone

theorem rolledBack_keeps (opened : List Scope) (events : Array HostEvent) (f : Option Exception) :
    ScopeStack.RollbackKeeps (RolledBack opened events f) := by
  rintro s h top outer hc ⟨hb, gone, hopened, hevents⟩
  have hevents : h.events = events ++ rollbacks gone := hevents
  rw [ScopeStack.rollback_of_backed hb hc]
  refine ⟨rfl, gone ++ [top], ?_, ?_⟩
  · rw [hopened, hc, List.append_assoc]
    rfl
  · simp [MemoryHost.record, rollbacks, hevents, ← Array.append_singleton, Array.append_assoc]

/-- In the end no scope is left, and so all have been rolled back. -/
theorem RolledBack.all {opened : List Scope} {events : Array HostEvent} {f : Option Exception}
    {s : ScopeStack} {h : MemoryHost} (hr : RolledBack opened events f (s, h))
    (hnil : s.scopes = []) : h.events = events ++ rollbacks opened := by
  obtain ⟨-, gone, hopened, hevents⟩ := hr
  rw [hopened, show (s, h).1.scopes = [] from hnil, List.append_nil]
  exact hevents

namespace Bridge

variable {S σ U α β : Type} [Host σ]

theorem ofRoutine_apply (x : Routine S U α) (w : World S σ U) :
    ofRoutine x w = ((Task.run (x w.state) w.core).1.1,
      ⟨(Task.run (x w.state) w.core).1.2, (Task.run (x w.state) w.core).2⟩) := rfl

theorem ofRoutine_bind (x : Routine S U α) (f : α → Routine S U β) :
    (ofRoutine (x >>= f) : Bridge S σ U β) = ofRoutine x >>= fun a => ofRoutine (f a) := by
  funext w
  have hx := ofRoutine_apply x w
  rw [ofRoutine_apply, Routine.bind_apply, Task.run_bind]
  match hr : Task.run (x w.state) w.core with
  | ((.ok a, state), c) =>
    rw [hr] at hx
    rw [bind_of_ok hx]
    rfl
  | ((.error failure, state), c) =>
    rw [hr] at hx
    rw [bind_of_error hx]
    rfl

end Bridge

namespace Session

/-- What is done to run an initialization unit; it answers if there is anything to tell. -/
def initialization (e : Engine) (origin text : String) : Routine e.State e.Code Bool := do
  let ref ← Routine.compile e.compiler .init origin text
  e.loadUnit ref
  match ← Routine.perform (.unit ref) with
  | none => pure false
  | some unit =>
    let _ ← e.runScript (e.publish unit.code)
    pure true

/-- What every script and operation has, the initialization has. -/
theorem initialization_all {e : Engine} {N : (α : Type) → Task e.State e.Code α → Prop}
    (hN : e.compiler.Carries N) (origin text : String) :
    Routine.All N (initialization e origin text) := by
  have hC := hN.toComposes
  refine (hN.compile .init origin text).bind hC fun ref => (hN.loadUnit ref).bind hC fun _ => ?_
  refine (Routine.all_perform hC (hN.plain (.unit ref) rfl rfl)).bind hC fun unit? => ?_
  cases unit? with
  | none => exact Routine.all_pure hC _
  | some unit => exact (hN.runScript _).bind hC fun _ => Routine.all_pure hC _

section Initialization

variable {e : Engine} {σ : Type} [Host σ]

/-- The code of the initialization unit raises the error. -/
theorem initialization_raises {origin text : String} {state state' : e.State}
    {unit : ExecutionUnit e.Code} {c r : Core σ e.Code}
    (hcompile : e.compiler .init origin text state = .ok (unit, state'))
    (hunit : unit.state = .fresh)
    (h : Raises (e.runScript (e.topLevel unit.code) state')
      ((c.addUnit unit).2.setLoadState (c.addUnit unit).1 .loading) r) :
    Raises (initialization e origin text state) c r :=
  .bind_of_ok (Routine.run_compile hcompile c) (.bind (.load (c.beginLoad_addUnit hunit) h) _)

theorem runInit_of_source {files : String → FileContent} {w : World e.State σ e.Code}
    {origin text : String} (hsource : initSource w.core.options files = .ok (some (origin, text))) :
    runInit files w = (Bridge.ofRoutine (initialization e origin text) >>= fun
      | false => pure ⟨⟩
      | true => Bridge.modifyCore fun c => c.deliver <| .plain
        { severity := .log
          code := .successfulCompletion
          message := "loaded initialization unit (" ++ origin ++ ")" }) w := by
  have hget : (get : Bridge e.State σ e.Code _) w = (.ok w, w) := rfl
  have hread : (Bridge.ofExcept (initSource w.core.options files) : Bridge e.State σ e.Code _) w =
      (.ok (some (origin, text)), w) := by
    rw [hsource]
    rfl
  rw [runInit, Bridge.bind_of_ok hget, Bridge.bind_of_ok hread]
  simp only [initialization, Bridge.ofRoutine_bind, bind_assoc]
  refine congrArg (fun k => (e.compile .init origin text >>= k) w) ?_
  funext ref
  refine congrArg (fun k => e.load ref >>= k) ?_
  funext _ w
  have hget : (get : Bridge e.State σ e.Code _) w = (.ok w, w) := rfl
  have hunit : (Bridge.ofRoutine (Routine.perform (.unit ref)) : Bridge e.State σ e.Code _) w =
      (.ok (w.core.unit? ref), w) := rfl
  rw [Bridge.bind_of_ok hget, Bridge.bind_of_ok hunit]
  cases w.core.unit? ref with
  | none => rfl
  | some unit =>
    dsimp only
    rw [Bridge.ofRoutine_bind, bind_assoc]
    rfl

theorem runInit_of_error {files : String → FileContent} {w : World e.State σ e.Code}
    {origin text : String} (hsource : initSource w.core.options files = .ok (some (origin, text)))
    {f : Failure} {state : e.State} {c : Core σ e.Code}
    (hrun : Task.run (initialization e origin text w.state) w.core = ((.error f, state), c)) :
    runInit files w = (.error f, ⟨state, c⟩) := by
  rw [runInit_of_source hsource]
  refine Bridge.bind_of_error ?_ _
  rw [Bridge.ofRoutine_apply, hrun]

theorem finish_of_error {α : Type} (base : Nat) (f : Failure) (c : Core σ e.Code) :
    ∃ f', (finish base (.error f : Except Failure α) c).1 = .error f' := by
  rw [finish_eq]
  unfold verdict
  cases c.takeFatal.1 with
  | none => exact ⟨_, rfl⟩
  | some exc => exact ⟨_, rfl⟩

/-- A session cannot be opened if the boundary fails, and gives the host back as the boundary has
left it. -/
theorem start_of_boundary {initial : e.State} {files : String → FileContent} {host : σ}
    {options : Options} (hvalid : options.validate = .ok ()) {f : Failure}
    (hfails : (boundary ⟨.new host options, initial⟩ (runInit (e := e) files)).1 = .error f) :
    start e initial files host options =
      .error (f, (boundary ⟨.new host options, initial⟩ (runInit (e := e) files)).2.host) := by
  rw [start, hvalid]
  dsimp only
  split
  · rename_i h
    rw [h] at hfails
    cases hfails
  · rename_i h
    rw [h] at hfails ⊢
    cases hfails
    rfl

/-- If the initialization unit fails so does the boundary. -/
theorem start_of_error {initial : e.State} {files : String → FileContent} {host : σ}
    {options : Options} (hvalid : options.validate = .ok ()) {f : Failure}
    {w : World e.State σ e.Code}
    (hbody : runInit files ⟨initial, armCall (.new host options)⟩ = (.error f, w)) :
    ∃ f', start e initial files host options =
      .error (f', (boundary ⟨.new host options, initial⟩ (runInit (e := e) files)).2.host) := by
  obtain ⟨f', hf⟩ := finish_of_error (α := PUnit) 0 f (settleCall w.core)
  have hfails : (boundary ⟨.new host options, initial⟩ (runInit (e := e) files)).1 = .error f' := by
    rw [boundary_of_open rfl (new_settled host options), bodyEnd]
    dsimp only
    rw [hbody]
    exact hf
  exact ⟨f', start_of_boundary hvalid hfails⟩

end Initialization

section Boundary

variable {e : Engine} {s : Session e MemoryHost}

/-- What the boundary makes of a body in which an error has been raised. -/
theorem boundary_rolls_back {α : Type} (ht : s.isTerminated = false) (hs : Settled s.core)
    {body : Bridge e.State MemoryHost e.Code α} {r : Core MemoryHost e.Code}
    (hbody : (body ⟨s.state, armCall s.core⟩).2.core.Has
      (RolledBack r.scopes.scopes r.host.events)) :
    (s.boundary body).2.host.events = r.host.events ++ rollbacks r.scopes.scopes := by
  obtain ⟨_, _, hnil, hend⟩ := boundary_unwound (rolledBack_keeps _ _) ht hs body hbody
  exact hend.all hnil

theorem rolledBack_of_driven {r : Core MemoryHost e.Code} (hd : r.Has Driven) :
    r.Has (RolledBack r.scopes.scopes r.host.events) :=
  ⟨hd.1, [], rfl, by simp [rollbacks]⟩

theorem operate_rolls_back (hs : s.Reachable MemoryHost.Fresh MemoryHost.LeftAlone)
    (ht : s.isTerminated = false) {o : Operation} {r : Core MemoryHost e.Code}
    (h : o.Raises e s.options.entryPoint s.state (armCall s.core) r) :
    (r = armCall s.core ∨ ∃ m ∈ s.trace o, r = m.after) ∧
      r.host.openStack = r.scopes.scopes.map Scope.subxact ∧
      (s.operate o).2.host.events = r.host.events ++ rollbacks r.scopes.scopes := by
  have hd : s.core.Has Driven :=
    hs.has driven_standing driven_of_fresh fun _ hl hd => hd.leftAlone hl
  have hr : r.Has Driven := h.has driven_standing.toLasting hd
  refine ⟨?_, hr.1, boundary_rolls_back ht hs.settled ?_⟩
  · rw [trace_of_open ht]
    exact h.core
  · exact h.keeps (P := fun c => c.Has (RolledBack r.scopes.scopes r.host.events))
      (fun _ => Moment.unwinds_has (rolledBack_keeps _ _)) (rolledBack_of_driven hr)

/-- A session whose initialization unit raises an error cannot be opened. -/
theorem start_rolls_back {initial : e.State} {files : String → FileContent} {host : MemoryHost}
    {options : Options} (hvalid : options.validate = .ok ()) (hh : host.Fresh)
    {origin text : String} (hsource : initSource options files = .ok (some (origin, text)))
    {r : Core MemoryHost e.Code}
    (h : Raises (initialization e origin text initial) (armCall (.new host options)) r) :
    ∃ f host', start e initial files host options = .error (f, host') ∧
      host'.events = r.host.events ++ rollbacks r.scopes.scopes := by
  have hs : Settled (Core.new host options : Core MemoryHost e.Code) := new_settled host options
  have hr : r.Has Driven := h.has driven_standing.toLasting (driven_of_fresh hs.scopes hh)
  have hend := h.keeps (P := fun c => c.Has (RolledBack r.scopes.scopes r.host.events))
    (fun _ => Moment.unwinds_has (rolledBack_keeps _ _)) (rolledBack_of_driven hr)
  obtain ⟨f, hf⟩ := h.failed
  match hrun : Task.run (initialization e origin text initial) (armCall (.new host options)) with
  | ((result, state), c) =>
    rw [hrun] at hf hend
    obtain rfl : result = .error f := hf
    have hbody : runInit files ⟨initial, armCall (.new host options)⟩ = (.error f, ⟨state, c⟩) :=
      runInit_of_error hsource hrun
    obtain ⟨f', hstart⟩ := start_of_error hvalid hbody
    refine ⟨f', _, hstart, boundary_rolls_back rfl hs ?_⟩
    rw [hbody]
    exact hend

end Boundary

/-- Where an error is raised, or has been raised before, that nothing intercepts from there on, all
that is left for the operation is to roll back the scopes that are open, from the innermost one to
the outermost one. A host in memory notices nothing else. The same holds of the initialization unit,
when a session is opened. -/
theorem uncaught_errors_roll_back (e : Engine) :
    (∀ s : Session e MemoryHost, s.Reachable MemoryHost.Fresh MemoryHost.LeftAlone →
      s.isTerminated = false → ∀ o r,
        o.Raises e s.options.entryPoint s.state (armCall s.core) r →
          (r = armCall s.core ∨ ∃ m ∈ s.trace o, r = m.after) ∧
          r.host.openStack = r.scopes.scopes.map Scope.subxact ∧
          (s.operate o).2.host.events = r.host.events ++ rollbacks r.scopes.scopes) ∧
    (∀ (initial : e.State) files (host : MemoryHost) options origin text r,
      options.validate = .ok () → host.Fresh →
        initSource options files = .ok (some (origin, text)) →
        Raises (initialization e origin text initial) (armCall (.new host options)) r →
          ∃ f host', start e initial files host options = .error (f, host') ∧
            host'.events = r.host.events ++ rollbacks r.scopes.scopes) := by
  constructor
  · intro s hs ht o r h
    exact operate_rolls_back hs ht h
  · intro initial files host options origin text r hvalid hh hsource h
    exact start_rolls_back hvalid hh hsource h

/-- A script that opens a scope, and in it another one by hand, and fails there. -/
def failing : Script Unit Unit Unit :=
  .scope () (fun _ => .newHandle fun handle => .enter handle fun _ =>
    .done ⟨.error (.runtime "no"), ()⟩) .done

theorem raises_failing {c : Core MemoryHost Unit} (henter : c.enterScope.1.isOk = true) :
    Raises (failing.task (Engine.scripted failing).compiler) c
      (c.enterScope.2.newHandle.2.enterHandle c.enterScope.2.newHandle.1).2 := by
  match h : c.enterScope with
  | (.ok handle, c') =>
    exact .scope h (.later (.later (.here ⟨_, rfl⟩))) fun err state => ⟨err, state, rfl⟩
  | (.error f, c') =>
    rw [h] at henter
    cases henter

def failingSession : Session (Engine.scripted failing) MemoryHost := fresh _ () {}

theorem uncaught_errors_roll_back_failing :
    (∃ r, Operation.Raises (Engine.scripted failing) failingSession.options.entryPoint
        failingSession.state (armCall failingSession.core) (.executeInline "") r ∧
      rollbacks r.scopes.scopes = #[.rolledBack ⟨2⟩, .rolledBack ⟨1⟩] ∧
      (failingSession.operate (.executeInline "")).2.host.events =
        r.host.events ++ rollbacks r.scopes.scopes) ∧
    (∃ r, Raises (initialization (Engine.scripted failing) "init" "" ())
        (armCall (.new ({} : MemoryHost) { initSource := some "" })) r ∧
      rollbacks r.scopes.scopes = #[.rolledBack ⟨2⟩, .rolledBack ⟨1⟩] ∧
      ∃ f, ∃ host' : MemoryHost, start (Engine.scripted failing) () (fun _ => .missing) {}
          { initSource := some "" } = .error (f, host') ∧
        host'.events = r.host.events ++ rollbacks r.scopes.scopes) := by
  constructor
  · have hs : failingSession.Reachable MemoryHost.Fresh MemoryHost.LeftAlone :=
      fresh_reachable _ _ _ MemoryHost.fresh_empty
    have hpass : (armCall failingSession.core).safepoint =
        (.ok (), (armCall failingSession.core).poll) :=
      Core.safepoint_of_clear rfl (by decide)
    obtain ⟨r, hraises, hopen⟩ : ∃ r, Operation.Raises (Engine.scripted failing)
        failingSession.options.entryPoint failingSession.state (armCall failingSession.core)
        (.executeInline "") r ∧ rollbacks r.scopes.scopes = #[.rolledBack ⟨2⟩, .rolledBack ⟨1⟩] :=
      ⟨_, .block hpass rfl rfl rfl (Engine.raises_runScript (raises_failing (by decide +kernel))),
        by decide +kernel⟩
    exact ⟨r, hraises, hopen, ((uncaught_errors_roll_back _).1 _ hs rfl _ _ hraises).2.2⟩
  · obtain ⟨r, hraises, hopen⟩ : ∃ r, Raises (initialization (Engine.scripted failing) "init" "" ())
        (armCall (.new ({} : MemoryHost) { initSource := some "" })) r ∧
        rollbacks r.scopes.scopes = #[.rolledBack ⟨2⟩, .rolledBack ⟨1⟩] :=
      ⟨_, initialization_raises rfl rfl
        (Engine.raises_runScript (raises_failing (by decide +kernel))), by decide +kernel⟩
    exact ⟨r, hraises, hopen, (uncaught_errors_roll_back (Engine.scripted failing)).2 () _ {}
      { initSource := some "" } "init" "" r (by decide) MemoryHost.fresh_empty rfl hraises⟩

/-- A script that reports an error in a scope, then something else, and lets the error go on. -/
def lingering : Session (Engine.scripted (.scope ()
    (fun _ => .report .error "no" {} fun r => .report .notice "late" {} fun _ => .done ⟨r, ()⟩)
    .done)) MemoryHost :=
  fresh _ () {}

def lateReport : Report :=
  .plain { severity := .notice, code := Severity.notice.defaultCode, message := "late" }

/-- Nothing intercepts the error, which is what the operation is answered with; but the host has
noticed more than the rollback. -/
theorem lingering_reports :
    ∃ m ∈ lingering.trace (.executeInline ""), m.reportsError = true ∧
      rollbacks m.after.scopes.scopes = #[.rolledBack ⟨1⟩] ∧
      ((lingering.executeInline "").1 : Except Failure PUnit) = .error (.reported
        (.plain { severity := .error, code := Severity.error.defaultCode, message := "no" })) ∧
      (lingering.operate (.executeInline "")).2.host.events =
        m.after.host.events ++ #[.reported lateReport, .rolledBack ⟨1⟩] := by
  have hrun : (lingering.trace (.executeInline "")).any (fun m => m.reportsError &&
      decide (rollbacks m.after.scopes.scopes = #[.rolledBack ⟨1⟩]) &&
      decide ((lingering.operate (.executeInline "")).2.host.events =
        m.after.host.events ++ #[.reported lateReport, .rolledBack ⟨1⟩])) = true := by
    decide +kernel
  obtain ⟨m, hm, hmoment⟩ := List.any_eq_true.mp hrun
  simp only [Bool.and_eq_true, decide_eq_true_eq] at hmoment
  obtain ⟨⟨herror, hopen⟩, hevents⟩ := hmoment
  exact ⟨m, hm, herror, hopen, by decide +kernel, hevents⟩

end Session

end ProcedureBridge
