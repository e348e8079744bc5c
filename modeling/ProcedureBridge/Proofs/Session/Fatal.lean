import ProcedureBridge.Proofs.Bridge.Condition
import ProcedureBridge.Proofs.Host.Recorded
import ProcedureBridge.Host.Memory
import ProcedureBridge.Proofs.Session.Settled

/-! # Fatal conditions are final

Once a fatal condition is recorded, no safepoint lets anything pass any more, so that the host is
asked for nothing new. The first condition decides what the operation answers, and the session is
over for good. -/

namespace ProcedureBridge

namespace CodeCache

variable {υ : Type}

theorem invalidateAll_isEmpty (c : CodeCache υ) : c.invalidateAll.2.isEmpty = true := by
  simp [isEmpty, size, invalidateAll]

theorem invalidate_of_isEmpty {c : CodeCache υ} (hc : c.isEmpty = true) (id : ProcedureId) :
    c.invalidate id = (false, c) := by
  have hsize : c.units.isEmpty = true := by
    rw [Std.HashMap.isEmpty_eq_size_eq_zero]
    simpa [isEmpty, size] using of_decide_eq_true hc
  rw [invalidate, Std.HashMap.contains_of_isEmpty hsize]
  rfl

end CodeCache

/-- A fatal condition is recorded, and since `past` the host was only told how subtransactions end
and asked to list schemas. -/
def Condemned (exc : Exception) (past : List HostExchange) (f : Option Exception) (_ : ScopeStack)
    (log : List HostExchange) : Prop :=
  f = some exc ∧ ∃ later, log = past ++ later ∧ ∀ x ∈ later, x.isEnd = true ∨ x.isListing = true

theorem Condemned.add {exc : Exception} {past log : List HostExchange} {f : Option Exception}
    {s s' : ScopeStack} {x : HostExchange} (hx : x.isEnd = true ∨ x.isListing = true)
    (h : Condemned exc past f s log) : Condemned exc past f s' (log ++ [x]) := by
  obtain ⟨hf, later, rfl, hlater⟩ := h
  refine ⟨hf, later ++ [x], List.append_assoc _ _ _, ?_⟩
  intro y hy
  rcases List.mem_append.mp hy with hy | hy
  · exact hlater y hy
  · rw [List.mem_singleton.mp hy]
    exact hx

theorem condemned_logged (exc : Exception) (past : List HostExchange) :
    Logged (Condemned exc past) where
  mark h := h
  rollback _ _ h := h.add (.inl rfl)
  release _ _ _ h := h.add (.inl rfl)
  list _ h := h.add (.inr rfl)
  push _ h := by cases h.1
  ask _ _ h := by cases h.1
  condemn _ h := by cases h.1

namespace Session

variable {e : Engine} {σ : Type} [Host σ]

/-- A fatal condition decides what a call comes to, and ends the session. -/
theorem finish_of_fatal {α : Type} {c : Core σ e.Code} {exc : Exception} (hf : c.fatal = some exc)
    (hexc : exc.isFatal = true) (base : Nat) (result : Except Failure α) :
    finish base result c = (.error (.reported exc.toReport), terminate (cleaned base c)) := by
  have htake : c.takeFatal.1 = some exc := by simp [Core.takeFatal, hf]
  have hsev : exc.toReport.severity.isFatal = true := by
    rw [Exception.severity_toReport]
    exact hexc
  have hreport : ∀ c' : Core σ e.Code,
      reportFailure c' (.exception exc) = (.reported exc.toReport, terminate c') := by
    intro c'
    simp only [reportFailure, Failure.disposition, Failure.toException, hsev, if_true]
  rw [finish_eq, htake]
  simp only [verdict, hreport]

variable {s t : Session e σ}

/-- Nothing will come of this session any more. -/
structure Over (s : Session e σ) : Prop where
  terminated : s.isTerminated = true
  scopes : s.core.scopes.scopes = []
  cache : s.core.cache.isEmpty = true

theorem Over.operate (hs : s.Over) (o : Operation) : s.operate o = (.error .terminated, s) :=
  boundary_of_terminated hs.terminated _

theorem Over.validate (hs : s.Over) (id : ProcedureId) : s.validate id = (.error .terminated, s) :=
  boundary_of_terminated hs.terminated _

theorem Over.refresh (hs : s.Over) (id : ProcedureId) : s.refresh id = (.error .terminated, s) := by
  rw [Session.refresh, if_pos hs.terminated]

theorem Over.respond (hs : s.Over) (r : Request) : (s.respond r).2.Over := by
  cases r with
  | operate o =>
    simp only [Session.respond, hs.operate]
    exact hs
  | validate id =>
    simp only [Session.respond, hs.validate]
    exact hs
  | refresh id =>
    simp only [Session.respond, hs.refresh]
    exact hs
  | invalidate id =>
    refine ⟨hs.terminated, hs.scopes, ?_⟩
    change (s.core.cache.invalidate id).2.isEmpty = true
    rw [CodeCache.invalidate_of_isEmpty hs.cache]
    exact hs.cache
  | clearCache => exact ⟨hs.terminated, hs.scopes, CodeCache.invalidateAll_isEmpty _⟩
  | interrupt | watch | disarm => exact ⟨hs.terminated, hs.scopes, hs.cache⟩

theorem Over.later (hs : s.Over) {others : σ → σ → Prop} (hl : s.Later others t) : t.Over := by
  induction hl with
  | refl => exact hs
  | request r _ ih => exact ih.respond r
  | outside _ _ ih => exact ⟨ih.terminated, ih.scopes, ih.cache⟩

end Session

namespace Session

variable {e : Engine} {σ : Type} [Host σ] {s : Session e (Recorded σ)}

/-- A fatal condition is the last word of an operation: the answer is the report of the exception
with all its causes, whatever the script made of it. From then on the host only learns how
subtransactions end and lists schemas. The session has ended, and every later request for something
to be run, compiled or looked up is refused without a word to the host. -/
theorem fatal_is_final (hs : s.Reachable (fun _ => True) (fun _ _ => True)) (o : Operation)
    {m : Moment (Recorded σ) e.State e.Code} (hm : m ∈ s.trace o) {exc : Exception}
    (hexc : m.Condemns exc) :
    (s.operate o).1 = .error (.reported exc.toReport) ∧
    (∃ later, (s.operate o).2.host.log = m.after.host.log ++ later ∧
      ∀ x ∈ later, x.isEnd = true ∨ x.isListing = true) ∧
    (∀ t, (s.operate o).2.Later (fun _ _ => True) t →
      t.isTerminated = true ∧ t.scopeDepth = 0 ∧ t.core.cache.isEmpty = true ∧
        (∀ o, t.operate o = (.error .terminated, t)) ∧
        (∀ id, t.validate id = (.error .terminated, t)) ∧
        ∀ id, t.refresh id = (.error .terminated, t)) := by
  have hsettled := hs.settled
  have hlasting := (condemned_logged exc m.after.host.log).lasting (σ := σ)
  have hafter : m.after.Has fun f t => Condemned exc m.after.host.log f t.1 t.2.log :=
    ⟨hexc.after, [], by simp⟩
  obtain ⟨_, _, -, -, hlog⟩ := host_of_moment hlasting hsettled hm hafter
  have ht := open_of_mem_trace hm
  rw [trace_of_open ht] at hm
  have hend := settleCall_has (hlasting.run_of_moment _ hm hafter)
  have hop := operate_of_open ht hsettled o
  simp only [finish_of_fatal hend.1 hexc.isFatal,
    terminate_of_nil (cleaned_settled (e := e) _).scopes] at hop
  refine ⟨by rw [hop], hlog, ?_⟩
  rw [hop]
  intro t hlater
  have hover : t.Over :=
    Over.later ⟨rfl, (cleaned_settled _).scopes, CodeCache.invalidateAll_isEmpty _⟩ hlater
  exact ⟨hover.terminated, by simp [scopeDepth, ScopeStack.depth, hover.scopes], hover.cache,
    hover.operate, hover.validate, hover.refresh⟩

/-- A script that reports a fatal error and goes on as if nothing had happened. -/
def heedless : Session (Engine.scripted (.report .fatal "stop" {} fun _ => .done ⟨.ok (), ()⟩))
    (Recorded MemoryHost) :=
  fresh _ () { host := {} }

theorem fatal_is_final_heedless :
    ∃ m ∈ heedless.trace (.executeInline ""), ∃ exc, m.Condemns exc ∧
      (heedless.operate (.executeInline "")).1 = .error (.reported exc.toReport) := by
  have hs : heedless.Reachable (fun _ => True) (fun _ _ => True) :=
    ⟨heedless, fresh_opened _ _ trivial, .refl⟩
  suffices h : ∃ m ∈ heedless.trace (.executeInline ""), ∃ exc, m.Condemns exc by
    obtain ⟨m, hm, exc, hexc⟩ := h
    exact ⟨m, hm, exc, hexc, (fatal_is_final hs _ hm hexc).1⟩
  -- before the report come a safepoint, the number of the block, its unit and the start of its load
  refine ⟨_, .tail _ (.tail _ (.tail _ (.tail _ (.head _)))), _, .raised rfl rfl rfl ?_⟩
  exact congrArg Prod.fst (Core.safepoint_of_clear rfl (by decide))

end Session

end ProcedureBridge
