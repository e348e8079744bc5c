import ProcedureBridge.Proofs.Bridge.Action
import ProcedureBridge.Proofs.Session.History

/-! # The call boundary

When an operation is over nothing is left of it: no scope is open, no failure and no fatal condition
is remembered, no exception is being handled, and no request that a safepoint has seen is still
held. This needs nothing from the host, and nothing from what has run inside the boundary. -/

namespace ProcedureBridge

namespace Monitor

/-- No request is held that a safepoint has seen. -/
def Unseen (m : Monitor) : Prop := ∀ kind, m.state ≠ .consumed kind

theorem idle_unseen : idle.Unseen := by
  intro kind
  cases kind <;> decide

theorem acknowledge_idle : idle.acknowledge = idle := rfl

theorem acknowledge_unseen (m : Monitor) : m.acknowledge.Unseen := by
  simp only [acknowledge]
  split
  · exact idle_unseen
  · rename_i h
    intro kind
    simp only [state]
    cases m.held <;> simp [h]

theorem signal_unseen {m : Monitor} (hm : m.Unseen) (kind : Interrupt) : (m.signal kind).Unseen := by
  unfold signal
  dsimp only
  split
  · exact hm
  · intro seen
    cases kind <;> cases seen <;> decide

theorem Unseen.cases {m : Monitor} (hm : m.Unseen) :
    m.state = .idle ∨ ∃ kind, m.state = .signaled kind := by
  cases hs : m.state with
  | idle => exact .inl rfl
  | signaled kind => exact .inr ⟨kind, rfl⟩
  | consumed kind => exact absurd hs (hm kind)

end Monitor

namespace Session

/-- Nothing is left of a call. -/
structure Settled {σ U : Type} (c : Core σ U) : Prop where
  scopes : c.scopes.scopes = []
  root : c.scopes.rootFailed = false
  fatal : c.fatal = none
  handling : c.handling = []
  monitor : c.monitor.Unseen

variable {e : Engine} {σ α : Type} [Host σ]

/-- The core of a call that has been cleaned up, before its failure is reported. -/
def cleaned (base : Nat) (c : Core σ e.Code) : Core σ e.Code :=
  let u := (c.unwindTo base).2
  { u with
    scopes := u.scopes.takeRootFailed.2
    fatal := none
    monitor := c.monitor.acknowledge
    handling := [] }

theorem cleaned_settled (c : Core σ e.Code) : Settled (cleaned 0 c) :=
  ⟨c.scopes.unwindTo_zero c.host, rfl, rfl, rfl, c.monitor.acknowledge_unseen⟩

/-- What a call comes to, and what is left to report it. -/
theorem finish_eq (base : Nat) (result : Except Failure α) (c : Core σ e.Code) :
    finish base result c =
      match verdict c.takeFatal.1 (c.unwindTo base).1 (c.unwindTo base).2.scopes.rootFailed
        result with
      | .ok a => (.ok a, cleaned base c)
      | .error f =>
        let r := reportFailure (cleaned base c) f
        (.error r.1, r.2) := rfl

theorem reportFailure_cases (c : Core σ e.Code) (f : Failure) :
    reportFailure c f = (.terminated, c) ∨ ∃ report : Report,
      reportFailure c f = (.reported report, if report.severity.isFatal then terminate c else c) := by
  simp only [reportFailure]
  split
  · exact .inl rfl
  · exact .inr ⟨_, rfl⟩

theorem finish_core (base : Nat) (result : Except Failure α) (c : Core σ e.Code) :
    (finish base result c).2 = cleaned base c ∨
      (finish base result c).2 = terminate (cleaned base c) := by
  rw [finish_eq]
  split
  · exact .inl rfl
  · rename_i f _
    obtain hf | ⟨report, hf⟩ := reportFailure_cases (cleaned base c) f
    · exact .inl (congrArg Prod.snd hf)
    · simp only [hf]
      split
      · exact .inr rfl
      · exact .inl rfl

theorem terminate_of_nil {c : Core σ e.Code} (hs : c.scopes.scopes = []) :
    terminate c = { c with cache := c.cache.invalidateAll.2, terminated := true } := by
  simp [terminate, Core.unwindTo, ScopeStack.unwindTo_of_nil hs, Core.clearCache]

theorem Settled.terminate {c : Core σ e.Code} (hc : Settled c) : Settled (terminate c) := by
  rw [terminate_of_nil hc.scopes]
  exact ⟨hc.scopes, hc.root, hc.fatal, hc.handling, hc.monitor⟩

theorem finish_settled (result : Except Failure α) (c : Core σ e.Code) :
    Settled (finish 0 result c).2 := by
  rcases finish_core 0 result c with h | h
  · rw [h]
    exact cleaned_settled c
  · rw [h]
    exact (cleaned_settled c).terminate

namespace Settled

variable {c : Core σ e.Code} (hc : Settled c)
include hc

theorem unwindTo_eq : c.unwindTo 0 = (0, c) := by
  rw [Core.unwindTo, ScopeStack.unwindTo_of_nil hc.scopes]

omit [Host σ] in
theorem takeFatal_eq : c.takeFatal.1 = none := by
  simp only [Core.takeFatal]
  split
  · exact absurd ‹_› (hc.monitor _)
  · simp [hc.fatal]

theorem cleaned_eq (hm : c.monitor.acknowledge = c.monitor) : cleaned 0 c = c := by
  have hstack : c.scopes.takeRootFailed.2 = c.scopes := by
    rw [ScopeStack.takeRootFailed, ← hc.root]
  rw [cleaned, hc.unwindTo_eq, hm]
  dsimp only
  rw [hstack, ← hc.fatal, ← hc.handling]

end Settled

/-- A call that leaves nothing behind comes to what its body came to. -/
theorem finish_of_settled {c : Core σ e.Code} (hc : Settled c)
    (hm : c.monitor.acknowledge = c.monitor) (a : α) : finish 0 (.ok a) c = (.ok a, c) := by
  rw [finish_eq, hc.takeFatal_eq, hc.unwindTo_eq, hc.root, hc.cleaned_eq hm]
  rfl

/-- Or to the report of its failure. -/
theorem finish_of_settled_error {c : Core σ e.Code} (hc : Settled c)
    (hm : c.monitor.acknowledge = c.monitor) (f : Failure) :
    finish 0 (.error f : Except Failure α) c =
      (.error (reportFailure c f).1, (reportFailure c f).2) := by
  rw [finish_eq, hc.takeFatal_eq, hc.unwindTo_eq, hc.root, hc.cleaned_eq hm]
  rfl

/-- The host is the one that unwinding has left. -/
theorem finish_host (result : Except Failure α) (c : Core σ e.Code) :
    (finish 0 result c).2.host = (c.unwindTo 0).2.host := by
  rcases finish_core 0 result c with h | h
  · rw [h]
    rfl
  · rw [h, terminate_of_nil (cleaned_settled c).scopes]
    rfl

variable {s : Session e σ}

theorem boundary_of_terminated (ht : s.isTerminated = true) (body : Bridge e.State σ e.Code α) :
    s.boundary body = (.error .terminated, s) := by
  rw [boundary, if_pos ht]

/-- The core at the end of a body. -/
def bodyEnd (s : Session e σ) (body : Bridge e.State σ e.Code α) : Core σ e.Code :=
  settleCall (body ⟨s.state, armCall s.core⟩).2.core

theorem boundary_of_open (ht : s.isTerminated = false) (hs : Settled s.core)
    (body : Bridge e.State σ e.Code α) :
    s.boundary body =
      let r := body ⟨s.state, armCall s.core⟩
      let t := finish 0 r.1 (s.bodyEnd body)
      (t.1, { core := t.2, state := r.2.state }) := by
  have hbase : s.scopeDepth = 0 := by simp [scopeDepth, ScopeStack.depth, hs.scopes]
  rw [boundary, ht, hbase]
  rfl

theorem boundary_settled (hs : Settled s.core) (body : Bridge e.State σ e.Code α) :
    Settled (s.boundary body).2.core := by
  cases ht : s.isTerminated with
  | true =>
    rw [boundary_of_terminated ht]
    exact hs
  | false =>
    rw [boundary_of_open ht hs]
    exact finish_settled _ _

omit [Host σ] in
theorem settleCall_has {P : Option Exception → ScopeStack × σ → Prop} {c : Core σ e.Code}
    (hc : c.Has P) : (settleCall c).Has P := by
  simp only [settleCall]
  split <;> exact hc

/-- What holds when the body is over, and is kept by unwinding, holds of the host in the end,
together with a stack that has no scopes. -/
theorem boundary_unwound {P : Option Exception → ScopeStack × σ → Prop}
    (hP : ∀ f, ScopeStack.RollbackKeeps (P f)) (ht : s.isTerminated = false) (hs : Settled s.core)
    (body : Bridge e.State σ e.Code α) (hbody : (body ⟨s.state, armCall s.core⟩).2.core.Has P) :
    ∃ fatal stack, stack.scopes = [] ∧ P fatal (stack, (s.boundary body).2.host) := by
  have hend : (s.bodyEnd body).Has P := settleCall_has hbody
  refine ⟨(s.bodyEnd body).fatal, ((s.bodyEnd body).unwindTo 0).2.scopes,
    (s.bodyEnd body).scopes.unwindTo_zero _, ?_⟩
  rw [boundary_of_open ht hs]
  change P _ (_, (finish 0 _ (s.bodyEnd body)).2.host)
  rw [finish_host]
  exact ScopeStack.unwindTo_keeps (P := P (s.bodyEnd body).fatal) (hP _) 0 hend

/-- What lasts until the body is over holds of the host in the end. -/
theorem boundary_host {P : Option Exception → ScopeStack × σ → Prop} (hP : Lasting P)
    (ht : s.isTerminated = false) (hs : Settled s.core) (body : Bridge e.State σ e.Code α)
    (hbody : (body ⟨s.state, armCall s.core⟩).2.core.Has P) :
    ∃ fatal stack, stack.scopes = [] ∧ P fatal (stack, (s.boundary body).2.host) :=
  boundary_unwound (fun _ => hP.rollback) ht hs body hbody

/-! ## Operations -/

/-- The run of an operation, until its body is over. -/
theorem operate_of_open (ht : s.isTerminated = false) (hs : Settled s.core) (o : Operation) :
    let r := Task.run (o.routine e s.options.entryPoint s.state) (armCall s.core)
    let t := finish 0 r.1.1 (settleCall r.2)
    s.operate o = (t.1, { core := t.2, state := r.1.2 }) :=
  boundary_of_open ht hs _

theorem trace_of_open (ht : s.isTerminated = false) (o : Operation) :
    s.trace o = Task.trace (o.routine e s.options.entryPoint s.state) (armCall s.core) := by
  rw [trace, ht]
  rfl

theorem open_of_mem_trace {o : Operation} {m : Moment σ e.State e.Code} (hm : m ∈ s.trace o) :
    s.isTerminated = false := by
  simp only [trace] at hm
  split at hm
  · cases hm
  · simpa using ‹¬ s.isTerminated = true›

section

variable {o : Operation} {before after : List (Moment σ e.State e.Code)}
  {m : Moment σ e.State e.Code}

theorem mem_of_trace (htrace : s.trace o = before ++ m :: after) : m ∈ s.trace o := by
  rw [htrace]
  exact List.mem_append_right _ List.mem_cons_self

theorem task_trace (htrace : s.trace o = before ++ m :: after) :
    Task.trace (o.routine e s.options.entryPoint s.state) (armCall s.core) =
      before ++ m :: after := by
  rw [← trace_of_open (open_of_mem_trace (mem_of_trace htrace)), htrace]

end

/-- What lasts holds at every moment of an operation. -/
theorem trace_has {P : Option Exception → ScopeStack × σ → Prop} (hP : Lasting P)
    (hc : s.core.Has P) {o : Operation} {m : Moment σ e.State e.Code} (hm : m ∈ s.trace o) :
    m.core.Has P := by
  rw [trace_of_open (open_of_mem_trace hm)] at hm
  exact hP.trace _ (c := armCall s.core) hc m hm

/-- What a moment has brought about, and lasts, holds of the host when the operation is over. -/
theorem host_of_moment {P : Option Exception → ScopeStack × σ → Prop} (hP : Lasting P)
    (hs : Settled s.core) {o : Operation} {m : Moment σ e.State e.Code} (hm : m ∈ s.trace o)
    (hafter : m.after.Has P) :
    ∃ fatal stack, stack.scopes = [] ∧ P fatal (stack, (s.operate o).2.host) := by
  have ht := open_of_mem_trace hm
  rw [trace_of_open ht] at hm
  exact boundary_host hP ht hs _ (hP.run_of_moment _ hm hafter)

/-! ## Histories -/

theorem refresh_core (s : Session e σ) (id : ProcedureId) :
    ∃ cache host, (s.refresh id).2.core = { s.core with cache, host } ∧
      (host = s.host ∨ host = (Host.lookup id s.host).2) := by
  rw [refresh]
  split
  · exact ⟨s.core.cache, s.host, rfl, .inl rfl⟩
  · split
    · exact ⟨s.core.cache, s.host, rfl, .inl rfl⟩
    · dsimp only
      split
      · exact ⟨s.core.cache, _, rfl, .inr rfl⟩
      · split
        · exact ⟨s.core.cache, _, rfl, .inr rfl⟩
        · exact ⟨_, _, rfl, .inr rfl⟩

theorem respond_settled (hs : Settled s.core) (r : Request) : Settled (s.respond r).2.core := by
  cases r with
  | operate o => exact boundary_settled hs _
  | validate id => exact boundary_settled hs _
  | refresh id =>
    obtain ⟨cache, host, hcore, -⟩ := s.refresh_core id
    change Settled (s.refresh id).2.core
    rw [hcore]
    exact ⟨hs.scopes, hs.root, hs.fatal, hs.handling, hs.monitor⟩
  | interrupt kind =>
    exact ⟨hs.scopes, hs.root, hs.fatal, hs.handling, Monitor.signal_unseen hs.monitor kind⟩
  | invalidate | clearCache | watch | disarm =>
    exact ⟨hs.scopes, hs.root, hs.fatal, hs.handling, hs.monitor⟩

omit [Host σ] in
theorem new_settled (host : σ) (options : Options) :
    Settled (Core.new host options : Core σ e.Code) :=
  ⟨rfl, rfl, rfl, rfl, Monitor.idle_unseen⟩

/-- Opening a session fails at once, or runs the initialization unit in a new session. -/
theorem start_cases (initial : e.State) (files : String → FileContent) (host : σ)
    (options : Options) :
    (∃ f, start e initial files host options = .error (f, host)) ∨
      ∃ fresh : Session e σ, fresh.core = .new host options ∧ fresh.isTerminated = false ∧
        (start e initial files host options = .ok (fresh.boundary (runInit files)).2 ∨
          ∃ f, start e initial files host options =
            .error (f, (fresh.boundary (runInit files)).2.host)) := by
  cases hv : options.validate with
  | error f => exact .inl ⟨f, by simp only [start, hv]⟩
  | ok _ =>
    refine .inr ⟨⟨.new host options, initial⟩, rfl, rfl, ?_⟩
    simp only [start, hv]
    split
    · rename_i h
      rw [h]
      exact .inl rfl
    · rename_i f t h
      rw [h]
      exact .inr ⟨f, rfl⟩

/-- A session on which nothing has run yet. -/
def fresh (e : Engine) (initial : e.State) (host : σ) : Session e σ := ⟨.new host {}, initial⟩

/-- Opening a session with no initialization unit runs nothing. -/
theorem new_opened (e : Engine) (initial : e.State) {kind : σ → Prop} {host : σ} (hh : kind host)
    {options : Options} (hv : options.validate = .ok ()) (hpath : options.initPath = none)
    (hsource : options.initSource = none) :
    (⟨.new host options, initial⟩ : Session e σ).Opened kind := by
  refine ⟨initial, fun _ => .missing, host, options, hh, ?_⟩
  have hbody : (runInit fun _ => .missing) ⟨initial, armCall (.new host options)⟩ =
      (.ok ⟨⟩, (⟨initial, armCall (.new host options)⟩ : World e.State σ e.Code)) := by
    obtain ⟨depth, interval, capacity, entry, path, source, timeout, redirect⟩ := options
    cases hpath
    cases hsource
    rfl
  have hsettle : settleCall (armCall (.new host options)) =
      (.new host options : Core σ e.Code) := by
    simp only [settleCall, armCall, Core.new]
    cases options.statementTimeout with
    | none => rfl
    | some timeout => rfl
  have hfinish : finish 0 (.ok PUnit.unit) (.new host options : Core σ e.Code) =
      (.ok PUnit.unit, .new host options) :=
    finish_of_settled (new_settled host options) Monitor.acknowledge_idle _
  have hb : (⟨.new host options, initial⟩ : Session e σ).boundary (runInit fun _ => .missing) =
      (.ok ⟨⟩, ⟨.new host options, initial⟩) := by
    rw [boundary_of_open rfl (new_settled host options)]
    simp only [bodyEnd, hbody, hsettle, hfinish]
  rw [start, hv]
  dsimp only
  rw [hb]

theorem fresh_opened (e : Engine) (initial : e.State) {kind : σ → Prop} {host : σ}
    (hh : kind host) : (fresh e initial host).Opened kind :=
  new_opened e initial hh (by decide) rfl rfl

theorem fresh_reachable (e : Engine) (initial : e.State) {kind : σ → Prop} (others : σ → σ → Prop)
    {host : σ} (hh : kind host) : (fresh e initial host).Reachable kind others :=
  ⟨_, fresh_opened e initial hh, .refl⟩

theorem Opened.settled {kind : σ → Prop} (hs : s.Opened kind) : Settled s.core := by
  obtain ⟨initial, files, host, options, -, hstart⟩ := hs
  obtain ⟨f, hf⟩ | ⟨fresh, hcore, -, hf | ⟨f, hf⟩⟩ := start_cases initial files host options
  · rw [hf] at hstart
    cases hstart
  · rw [hf] at hstart
    cases hstart
    exact boundary_settled (hcore ▸ new_settled host options) (runInit files)
  · rw [hf] at hstart
    cases hstart

theorem Later.settled {others : σ → σ → Prop} {t : Session e σ} (hl : s.Later others t)
    (hs : Settled s.core) : Settled t.core := by
  induction hl with
  | refl => exact hs
  | request r _ ih => exact respond_settled ih r
  | outside _ _ ih => exact ⟨ih.scopes, ih.root, ih.fatal, ih.handling, ih.monitor⟩

theorem Reachable.settled {kind : σ → Prop} {others : σ → σ → Prop}
    (hs : s.Reachable kind others) : Settled s.core := by
  obtain ⟨opened, hopened, hlater⟩ := hs
  exact hlater.settled hopened.settled

end Session

end ProcedureBridge
