import ProcedureBridge.Proofs.Bridge.Ledger
import ProcedureBridge.Proofs.Session.Resting
import ProcedureBridge.Proofs.Session.Uncaught

/-! # The truth of transaction handles

Scripts may keep a handle from one operation to the next, so that what it tells has to be compared
with all that has been done since the session was opened. A handle always knows whether it has been
entered, and how it was resolved. But it does not learn that its scope was ended by a surrounding
block or by the call boundary. -/

namespace ProcedureBridge.Session

variable {e : Engine} {σ : Type} [Host σ]

/-! ## What has been done since a session was opened -/

/-- Every action of the initialization unit. -/
def openingTrace (e : Engine) (initial : e.State) (files : String → FileContent) (host : σ)
    (options : Options) : List (Moment σ e.State e.Code) :=
  match initSource options files with
  | .ok (some (origin, text)) =>
    Task.trace (initialization e origin text initial) (armCall (.new host options))
  | _ => []

/-- Every action with which scripts have to do. -/
def requestTrace (s : Session e σ) : Request → List (Moment σ e.State e.Code)
  | .operate o => s.trace o
  | _ => []

/-- The session, and all that has been done in it. -/
inductive Lived : List (Moment σ e.State e.Code) → Session e σ → Prop
  | opened {initial : e.State} {files : String → FileContent} {host : σ} {options : Options}
      {s : Session e σ} : start e initial files host options = .ok s →
      Lived (openingTrace e initial files host options) s
  | request {past : List (Moment σ e.State e.Code)} {s : Session e σ} (r : Request) :
      Lived past s → Lived (past ++ s.requestTrace r) (s.respond r).2
  | outside {past : List (Moment σ e.State e.Code)} {s : Session e σ} (host : σ) :
      Lived past s → Lived past (s.withHost host)

/-- A point in the run of a script: all that has been done by then, and the core. -/
inductive Point : List (Moment σ e.State e.Code) → Core σ e.Code → Prop
  | opening {initial : e.State} {files : String → FileContent} {host : σ} {options : Options}
      {before after : List (Moment σ e.State e.Code)} {m : Moment σ e.State e.Code} :
      openingTrace e initial files host options = before ++ m :: after → Point before m.core
  | operating {past before after : List (Moment σ e.State e.Code)} {m : Moment σ e.State e.Code}
      {s : Session e σ} {o : Operation} : Lived past s → s.trace o = before ++ m :: after →
      Point (past ++ before) m.core

theorem Opened.lived {s : Session e σ} {kind : σ → Prop} (hs : s.Opened kind) :
    ∃ past, Lived past s := by
  obtain ⟨initial, files, host, options, -, hstart⟩ := hs
  exact ⟨_, .opened hstart⟩

theorem Reachable.lived {s : Session e σ} {kind : σ → Prop} {others : σ → σ → Prop}
    (hs : s.Reachable kind others) : ∃ past, Lived past s := by
  obtain ⟨opened, hopened, hlater⟩ := hs
  induction hlater with
  | refl => exact hopened.lived
  | request r _ ih =>
    obtain ⟨past, ih⟩ := ih
    exact ⟨_, ih.request r⟩
  | outside _ _ ih =>
    obtain ⟨past, ih⟩ := ih
    exact ⟨past, ih.outside _⟩

theorem eq_of_start {initial : e.State} {files : String → FileContent} {host : σ}
    {options : Options} {s : Session e σ} (h : start e initial files host options = .ok s) :
    s = ((⟨.new host options, initial⟩ : Session e σ).boundary (runInit files)).2 := by
  simp only [start] at h
  split at h
  · cases h
  · split at h
    · rename_i hb
      cases h
      rw [hb]
    · cases h

theorem runInit_of_none {files : String → FileContent} {w : World e.State σ e.Code}
    (hnone : ∀ given, initSource w.core.options files ≠ .ok (some given)) :
    (runInit (e := e) files w).2 = w := by
  have hget : (get : Bridge e.State σ e.Code _) w = (.ok w, w) := rfl
  rw [runInit, Bridge.bind_of_ok hget]
  rcases h : initSource w.core.options files with _ | _ | given
  · rfl
  · rfl
  · exact absurd h (hnone given)

/-! ## What holds at all times -/

/-- The property of what has been done and of the core holds of a new core, is kept between runs, and
is kept by runs. -/
structure Throughout (P : List (Moment σ e.State e.Code) → Core σ e.Code → Prop) : Prop where
  new : ∀ host options, P [] (.new host options)
  resting : ∀ past, Resting (P past)
  records : e.compiler.Carries fun _ t => t.Records P

namespace Throughout

variable {P : List (Moment σ e.State e.Code) → Core σ e.Code → Prop}
  {past : List (Moment σ e.State e.Code)} {s : Session e σ}

theorem runInit (hP : Throughout P) (initial : e.State) (files : String → FileContent) (host : σ)
    (options : Options) : P (openingTrace e initial files host options)
      (Session.runInit files ⟨initial, armCall (.new host options)⟩).2.core := by
  have hnew : P [] (armCall (.new host options)) := (hP.resting _).arm (hP.new host options)
  by_cases hgiven : ∃ given, initSource options files = .ok (some given)
  · obtain ⟨⟨origin, text⟩, hsource⟩ := hgiven
    rw [runInit_of_source hsource]
    have hrun := initialization_all hP.records origin text initial [] _ hnew
    have htrace : openingTrace e initial files host options =
        Task.trace (initialization e origin text initial) (armCall (.new host options)) := by
      rw [openingTrace, hsource]
    rw [htrace]
    refine Bridge.holds_bind hrun.1 fun tell => ?_
    cases tell with
    | false => exact Bridge.preserves_pure _
    | true => exact Bridge.preserves_modifyCore fun c hc => (hP.resting _).deliver hc _
  · have hnone : ∀ given, initSource options files ≠ .ok (some given) :=
      fun given hgiven' => hgiven ⟨given, hgiven'⟩
    rw [runInit_of_none hnone]
    have htrace : openingTrace e initial files host options = [] := by
      rw [openingTrace]
      split
      · exact absurd ‹_› (hnone _)
      · rfl
    rw [htrace]
    exact hnew

theorem operate (hP : Throughout P) (hs : P past s.core) (o : Operation) :
    Task.RecordsFrom P (o.routine e s.options.entryPoint s.state) past (armCall s.core) :=
  hP.records.routine s.options.entryPoint o s.state past _ ((hP.resting past).arm hs)

/-- It holds between requests, of everything that has been done. -/
theorem lived (hP : Throughout P) (hs : Lived past s) : P past s.core := by
  induction hs with
  | @opened initial files host options s hstart =>
    rw [eq_of_start hstart]
    exact (hP.resting _).boundary_of_open rfl (hP.runInit initial files host options)
  | @request past s r _ ih =>
    by_cases hr : ∃ o, r = .operate o
    · obtain ⟨o, rfl⟩ := hr
      change P (past ++ s.trace o) (s.operate o).2.core
      cases ht : s.isTerminated with
      | true =>
        rw [trace, Session.operate, boundary_of_terminated ht, if_pos ht, List.append_nil]
        exact ih
      | false =>
        rw [trace_of_open ht]
        exact (hP.resting _).boundary_of_open ht (hP.operate ih o).1
    · have hrest := (hP.resting past).respond ih fun o ho => hr ⟨o, ho⟩
      cases r with
      | operate o => exact absurd ⟨o, rfl⟩ hr
      | _ => exact (List.append_nil past).symm ▸ hrest
  | outside host _ ih => exact (hP.resting _).withHost ih host

/-- It holds at every point of every script. -/
theorem point (hP : Throughout P) {c : Core σ e.Code} (h : Point past c) : P past c := by
  cases h with
  | @opening initial files host options before after m htrace =>
    simp only [openingTrace] at htrace
    split at htrace
    · have hnew : P [] (armCall (.new host options)) := (hP.resting _).arm (hP.new host options)
      exact (initialization_all hP.records _ _ initial [] _ hnew).2 _ _ _ htrace
    · cases past <;> cases htrace
  | @operating past before after m s o hs htrace =>
    exact (hP.operate (hP.lived hs) o).2 _ _ _ (task_trace htrace)

end Throughout

/-! ## The ledger of a session -/

theorem ledger_resting (past : List (Moment (Recorded σ) e.State e.Code)) :
    Resting (e := e) (Ledger past) where
  forget hc _ _ _ _ _ _ _ _ := hc.shrink List.suffix_rfl rfl rfl
  unwind {c} hc base := by
    have hdropped := c.scopes.unwindTo_dropped base c.host
    exact hc.shrink hdropped.opened hdropped.issued rfl
  invalidate hc _ := hc.shrink List.suffix_rfl rfl rfl
  clearCache hc := hc.shrink List.suffix_rfl rfl rfl
  addUnit hc _ := hc.shrink List.suffix_rfl rfl rfl

theorem ledger_new (host : Recorded σ) (options : Options) :
    Ledger ([] : List (Moment (Recorded σ) e.State e.Code)) (.new host options) where
  falling := .nil
  bounded _ hx := absurd hx List.not_mem_nil
  earlier _ hm := absurd hm List.not_mem_nil
  known _ hm := absurd hm List.not_mem_nil
  single _ hm := absurd hm List.not_mem_nil
  told _ hmade := absurd hmade (Nat.not_lt_zero _)

theorem ledger_throughout : Throughout (e := e) (σ := Recorded σ) Ledger :=
  ⟨ledger_new, ledger_resting, e.compiler.carries_ledger⟩

variable {past : List (Moment (Recorded σ) e.State e.Code)}

theorem Point.ledger {c : Core (Recorded σ) e.Code} (h : Point past c) : Ledger past c :=
  ledger_throughout.point h

/-! ## What handles say -/

/-- At every point of every script, for every handle: it says that it is new if and only if it has
not been entered, and it enters one scope at most. For a handle that has been entered: it says that
its scope was committed if and only if the host has released the subtransaction; that it was
aborted, if and only if a resolution of the handle has ended the scope in another way; and that it
is open, if and only if no resolution of the handle has ended it. So it does as long as the scope is
open, and also if the scope was ended in a way that the handle was not told of. -/
theorem handle_status_told {c : Core (Recorded σ) e.Code} (h : Point past c) {handle : HandleId}
    (hmade : handle.number < c.handles.size) :
    ((c.handleState handle).status = .fresh ↔
      ∀ m ∈ past, ∀ scope, ¬ m.Opens (some handle) scope) ∧
    ∀ scope, (∃ m ∈ past, m.Opens (some handle) scope) →
      (∀ m ∈ past, ∀ other, m.Opens (some handle) other → other = scope) ∧
      ((c.handleState handle).status = .committed ↔ ∃ m ∈ past, m.Releases scope) ∧
      ((c.handleState handle).status = .aborted ↔
        ∃ m ∈ past, m.Resolves handle ∧ m.Removes scope ∧ ¬ m.Releases scope) ∧
      ((c.handleState handle).status = .open ↔
        ∀ m ∈ past, m.Resolves handle → ¬ m.Removes scope) ∧
      (scope ∈ c.scopes.opened → (c.handleState handle).status = .open) := by
  have htold := h.ledger.told handle hmade
  exact ⟨htold.fresh_iff, fun scope hentered => ⟨(htold.of_entered hentered).1.2,
    htold.committed_iff hentered, htold.aborted_iff hentered, htold.open_iff hentered,
    htold.open_of_mem hentered⟩⟩

/-- A session with one script, on a host of which everything is recorded. -/
def recordedSession (script : Script Unit Unit Unit) :
    Session (Engine.scripted script) (Recorded MemoryHost) := fresh _ () ⟨{}, []⟩

theorem point_of_any (script : Script Unit Unit Unit)
    (p : Core (Recorded MemoryHost) (Engine.scripted script).Code → Bool)
    (h : ((recordedSession script).trace (.executeInline "")).any (fun m => p m.core) = true) :
    ∃ past c, Point (e := Engine.scripted script) past c ∧ p c = true := by
  obtain ⟨m, hm, hp⟩ := List.any_eq_true.mp h
  obtain ⟨before, after, htrace⟩ := List.append_of_mem hm
  have hopened : (recordedSession script).Opened fun _ => True := fresh_opened _ _ trivial
  obtain ⟨past, hlived⟩ := hopened.lived
  exact ⟨_, _, .operating hlived htrace, hp⟩

/-- A script that commits by hand, and asks what the handle says of it. -/
def committing : Script Unit Unit Unit :=
  .newHandle fun handle => .enter handle fun _ => .resolve handle .commit fun _ =>
    .status handle fun _ => .done ⟨.ok (), ()⟩

theorem handle_status_told_committing :
    ∃ past c, Point (e := Engine.scripted committing) (σ := Recorded MemoryHost) past c ∧
      (c.handleState ⟨0⟩).status = .committed ∧ ∃ scope, ∃ m ∈ past, m.Releases scope := by
  obtain ⟨past, c, hpoint, hc⟩ := point_of_any committing
    (fun c => decide (0 < c.handles.size) && decide ((c.handleState ⟨0⟩).status = .committed))
    (by decide +kernel)
  obtain ⟨hmade, hstatus⟩ := Bool.and_eq_true_iff.mp hc
  have hstatus := of_decide_eq_true hstatus
  obtain ⟨hfresh, htold⟩ := handle_status_told hpoint (of_decide_eq_true hmade)
  obtain ⟨m, hm, scope, hopens⟩ : ∃ m ∈ past, ∃ scope, m.Opens (some ⟨0⟩) scope := by
    by_contra hnever
    push Not at hnever
    exact nomatch (hfresh.mpr hnever).symm.trans hstatus
  exact ⟨past, c, hpoint, hstatus, scope, (htold scope ⟨m, hm, hopens⟩).2.1.mp hstatus⟩

/-- A script that enters a handle in a scope that fails, and goes on. -/
def outliving : Script Unit Unit Unit :=
  .newHandle fun handle =>
    .scope () (fun _ => .enter handle fun _ => .done ⟨.error (.runtime "no"), ()⟩) fun _ =>
      .status handle fun _ => .done ⟨.ok (), ()⟩

/-- The scope that the handle has entered was aborted with the one around it, and the handle still
says that it is open. -/
theorem outliving_says_open :
    ∃ past c scope, Point (e := Engine.scripted outliving) (σ := Recorded MemoryHost) past c ∧
      (∃ m ∈ past, m.Opens (some ⟨0⟩) scope) ∧ scope ∉ c.scopes.opened ∧
      (c.handleState ⟨0⟩).status = .open := by
  obtain ⟨past, c, hpoint, hc⟩ := point_of_any outliving
    (fun c => decide (0 < c.handles.size) &&
      decide (c.handleState ⟨0⟩ = .entered ⟨2, 2⟩ ∧ c.scopes.opened = [])) (by decide +kernel)
  obtain ⟨hmade, hstate⟩ := Bool.and_eq_true_iff.mp hc
  obtain ⟨hstate, hopened⟩ := of_decide_eq_true hstate
  have htold := hpoint.ledger.told ⟨0⟩ (of_decide_eq_true hmade)
  rw [hstate] at htold
  cases htold with
  | entered he =>
    refine ⟨past, c, ⟨2, 2⟩, hpoint, he.1, ?_, by rw [hstate]; rfl⟩
    rw [hopened]
    exact List.not_mem_nil

end ProcedureBridge.Session
