import ProcedureBridge.Proofs.Bridge.Enclosed
import ProcedureBridge.Proofs.Bridge.Unwinding

/-! # The signal that skips a row

A trigger asks to skip its row by a signal that leaves the script as an error does. It crosses
whatever is open: scopes, which roll back, and handlers, which take every other error but not this
one. In the end nothing is left of them, and the signal is still the signal. -/

namespace ProcedureBridge

variable {σ S U V α β : Type}

/-- The run has ended with the signal, whatever layers it carries. -/
def Outcome.Signals (o : Outcome S V) : Prop := ∃ err, o.result = .error err ∧ err.isSuppress = true

theorem CatchPattern.caught?_of_isSuppress (p : CatchPattern) {err : ScriptError}
    (h : err.isSuppress = true) : p.caught? err = none := by
  rw [caught?, if_pos h]

/-! ## Leaving -/

/-- The action ends a handler, or aborts one of the scopes. -/
def Action.Leaves (crossed : List ScopeHandle) : Action S U → Prop
  | .abortThrough handle => handle ∈ crossed
  | .endHandling => True
  | _ => False

theorem Action.Leaves.mono {crossed crossed' : List ScopeHandle} {action : Action S U}
    (h : action.Leaves crossed) (hsub : crossed ⊆ crossed') : action.Leaves crossed' := by
  cases action with
  | abortThrough handle => exact hsub h
  | endHandling => trivial
  | _ => exact h

namespace Task

section

variable [Host σ]

/-- The run does nothing but leave the given scopes, innermost first: they have been rolled back
with whatever was open inside, and the host has been asked for nothing else. -/
structure Leaves (t : Task S U α) (c : Core (Recorded σ) U) (crossed : List ScopeHandle) : Prop where
  actions : ∀ m ∈ t.trace c, m.action.Leaves crossed
  scopes : ∃ closed, c.scopes.places = closed ++ (t.run c).2.scopes.places ∧
    crossed.Sublist (closed.map Prod.fst) ∧
    ScopeStack.Closed (closed.map Prod.snd) (t.run c).2.scopes.places c.host
      ((t.run c).2.scopes, (t.run c).2.host)

/-- The run comes to the core `r`, and from there on does nothing but leave the given scopes. -/
def Exits (t : Task S U α) (c : Core (Recorded σ) U) (crossed : List ScopeHandle)
    (r : Core (Recorded σ) U) : Prop :=
  ∃ before, ∃ rest : Task S U α,
    t.trace c = before ++ rest.trace r ∧ t.run c = rest.run r ∧ rest.Leaves r crossed

variable {t : Task S U α} {k : α → Task S U β} {c r : Core (Recorded σ) U}
  {crossed crossed' : List ScopeHandle}

/-- Something that changes neither the scopes nor the host. -/
theorem leaves_of_same (hactions : ∀ m ∈ t.trace c, m.action.Leaves [])
    (hscopes : (t.run c).2.scopes = c.scopes) (hhost : (t.run c).2.host = c.host) :
    t.Leaves c [] := by
  refine ⟨hactions, [], ?_, .refl _, ?_, [], ?_, .nil⟩
  · rw [hscopes]
    rfl
  · rw [hscopes]
  · rw [hhost, List.append_nil]

theorem leaves_pure (a : α) (c : Core (Recorded σ) U) : (Task.pure a : Task S U α).Leaves c [] :=
  leaves_of_same (fun _ hm => absurd hm List.not_mem_nil) rfl rfl

theorem leaves_endHandling (c : Core (Recorded σ) U) :
    (perform .endHandling : Task S U _).Leaves c [] := by
  refine leaves_of_same (fun m hm => ?_) rfl rfl
  obtain rfl := List.mem_singleton.mp hm
  trivial

theorem leaves_abortThrough {n : Nat} (hn : ScopeStack.Nested n c.scopes.scopes)
    {handle : ScopeHandle} {id : SubxactId} {inner outer : List (ScopeHandle × SubxactId)}
    (hs : c.scopes.places = inner ++ (handle, id) :: outer) :
    (perform (.abortThrough handle) : Task S U _).Leaves c [handle] := by
  have hclosed := ScopeStack.closed_abortThrough hn hs c.host
  have hplaces : (c.abortThrough handle).scopes.places = outer := hclosed.places
  refine ⟨fun m hm => ?_, inner ++ [(handle, id)], ?_, ?_, ?_⟩
  · obtain rfl := List.mem_singleton.mp hm
    exact List.mem_singleton_self handle
  · change c.scopes.places = _ ++ (c.abortThrough handle).scopes.places
    rw [hs, hplaces, List.append_assoc]
    rfl
  · simp
  · change ScopeStack.Closed _ (c.abortThrough handle).scopes.places _ _
    rw [hplaces, List.map_append]
    exact hclosed

namespace Leaves

theorem bind (h : t.Leaves c crossed) (hk : (k (t.run c).1).Leaves (t.run c).2 crossed') :
    (t >>= k).Leaves c (crossed ++ crossed') := by
  obtain ⟨closed, hplaces, hcrossed, hclosed⟩ := h.scopes
  obtain ⟨closed', hplaces', hcrossed', hclosed'⟩ := hk.scopes
  refine ⟨fun m hm => ?_, closed ++ closed', ?_⟩
  · rw [trace_bind] at hm
    rcases List.mem_append.mp hm with hm | hm
    · exact (h.actions m hm).mono (List.subset_append_left _ _)
    · exact (hk.actions m hm).mono (List.subset_append_right _ _)
  · rw [run_bind, List.map_append, List.map_append]
    refine ⟨?_, hcrossed.append hcrossed', hclosed.trans hclosed'⟩
    rw [hplaces, hplaces', List.append_assoc]

/-- Nothing is done after the task. -/
theorem bind_pure {b : β} (h : t.Leaves c crossed) (hk : k (t.run c).1 = .pure b) :
    (t >>= k).Leaves c crossed := by
  have hboth := h.bind (hk ▸ leaves_pure b _)
  rwa [List.append_nil] at hboth

end Leaves

namespace Exits

/-- The part before does not matter. -/
theorem after {a : α} {c' : Core (Recorded σ) U} (ht : t.run c = (a, c'))
    (h : (k a).Exits c' crossed r) : (t >>= k).Exits c crossed r := by
  obtain ⟨before, rest, htrace, hrun, hleaves⟩ := h
  refine ⟨t.trace c ++ before, rest, ?_, ?_, hleaves⟩
  · rw [trace_bind, ht, htrace, List.append_assoc]
  · rw [run_bind, ht, hrun]

theorem bind (h : t.Exits c crossed r) (hk : (k (t.run c).1).Leaves (t.run c).2 crossed') :
    (t >>= k).Exits c (crossed ++ crossed') r := by
  obtain ⟨before, rest, htrace, hrun, hleaves⟩ := h
  rw [hrun] at hk
  refine ⟨before, rest >>= k, ?_, ?_, hleaves.bind hk⟩
  · rw [trace_bind, trace_bind, htrace, hrun, List.append_assoc]
  · rw [run_bind, run_bind, hrun]

end Exits

/-- The run ends with the signal, and from the core `r` on does nothing but leave the scopes. -/
structure Stops (t : Task S U (Outcome S V)) (c : Core (Recorded σ) U) (crossed : List ScopeHandle)
    (r : Core (Recorded σ) U) : Prop where
  signals : (t.run c).1.Signals
  exits : t.Exits c crossed r

namespace Stops

theorem after {k : α → Task S U (Outcome S V)} {a : α} {c' : Core (Recorded σ) U}
    (ht : t.run c = (a, c')) (h : (k a).Stops c' crossed r) : (t >>= k).Stops c crossed r := by
  refine ⟨?_, h.exits.after ht⟩
  rw [run_bind, ht]
  exact h.signals

variable {t : Task S U (Outcome S V)} {k : Outcome S V → Task S U (Outcome S V)}

theorem bind (h : t.Stops c crossed r) (hleaves : (k (t.run c).1).Leaves (t.run c).2 crossed')
    (hsignals : ((k (t.run c).1).run (t.run c).2).1.Signals) :
    (t >>= k).Stops c (crossed ++ crossed') r := by
  refine ⟨?_, h.exits.bind hleaves⟩
  rw [run_bind]
  exact hsignals

end Stops

end

end Task

/-! ## Scripts that stop -/

namespace Script

variable [Host σ]

/-- The script does something, and goes on as the other script. -/
def Leads (compiler : Compiler S U) (s : Script S V U) (c : Core σ U) (s' : Script S V U)
    (c' : Core σ U) : Prop :=
  ∃ (γ : Type) (t : Task S U γ) (f : γ → Script S V U),
    s.task compiler = (t >>= fun a => (f a).task compiler) ∧ s' = f (t.run c).1 ∧ c' = (t.run c).2

/-- The script, run from the first core, raises the signal at the last one, and lets it through the
scopes of the given handles, innermost first. It may have done anything before, and the signal may
be raised in any nesting of scopes and handlers, for whatever patterns these are. A frame lets the
signal through if it ends with the signal itself, in further layers perhaps. -/
inductive Stops (compiler : Compiler S U) :
    Script S V U → Core σ U → List ScopeHandle → Core σ U → Prop
  | raised {o : Outcome S V} {c : Core σ U} : o.Signals → Stops compiler (.done o) c [] c
  | later {s s' : Script S V U} {c c' r : Core σ U} {crossed : List ScopeHandle} :
      s.Leads compiler c s' c' → Stops compiler s' c' crossed r → Stops compiler s c crossed r
  | scope {state : S} {body : S → Script S V U} {next : Outcome S V → Script S V U}
      {o : Outcome S V} {c c' r : Core σ U} {handle : ScopeHandle} {crossed : List ScopeHandle} :
      c.enterScope = (.ok handle, c') → Stops compiler (body state) c' crossed r →
      next (((body state).task compiler).run c').1 = .done o → o.Signals →
      Stops compiler (.scope state body next) c (crossed ++ [handle]) r
  /-- In the body of a handler. -/
  | guarded {pattern : String} {p : CatchPattern} {state : S} {body : S → Script S V U}
      {handler : Exception → S → Script S V U} {next : Outcome S V → Script S V U}
      {o : Outcome S V} {c r : Core σ U} {crossed : List ScopeHandle} :
      CatchPattern.parse pattern = .ok p → Stops compiler (body state) c crossed r →
      next (((body state).task compiler).run c).1 = .done o → o.Signals →
      Stops compiler (.guarded pattern state body handler next) c crossed r
  /-- In a handler, which runs because of another error. -/
  | handling {pattern : String} {p : CatchPattern} {state : S} {body : S → Script S V U}
      {handler : Exception → S → Script S V U} {next : Outcome S V → Script S V U}
      {err : ScriptError} {exc : Exception} {o o' : Outcome S V} {c c' r : Core σ U}
      {crossed : List ScopeHandle} :
      CatchPattern.parse pattern = .ok p → ((body state).task compiler).run c = (o', c') →
      o'.result = .error err → p.caught? err = some exc →
      Stops compiler (handler exc o'.state) (c'.beginHandling exc) crossed r →
      next (((handler exc o'.state).task compiler).run (c'.beginHandling exc)).1 = .done o →
      o.Signals → Stops compiler (.guarded pattern state body handler next) c crossed r

variable {compiler : Compiler S U} {s : Script S V U} {c r : Core (Recorded σ) U}
  {crossed : List ScopeHandle}

theorem task_of_done {o : Outcome S V} (h : s = .done o) : s.task compiler = .pure o := by
  rw [h, task]

/-- A block that has entered its scope. -/
theorem exists_task_scope (compiler : Compiler S U) (state : S) (body : S → Script S V U)
    (next : Outcome S V → Script S V U) (handle : ScopeHandle) :
    ∃ k : Except Failure ScopeHandle → Task S U (Outcome S V),
      (scope state body next).task compiler = (Task.perform .enterScope >>= k) ∧
      k (.ok handle) = ((body state).task compiler >>= fun o =>
        Task.leaveScope handle o.result >>= fun result => (next ⟨result, o.state⟩).task compiler) :=
  ⟨_, by rw [task]; rfl, rfl⟩

/-- A handler passes on what it does not take. -/
theorem exists_task_guarded (compiler : Compiler S U) {pattern : String} {p : CatchPattern}
    (hparse : CatchPattern.parse pattern = .ok p) (state : S) (body : S → Script S V U)
    (handler : Exception → S → Script S V U) (next : Outcome S V → Script S V U) :
    ∃ k : Outcome S V → Task S U (Outcome S V),
      (guarded pattern state body handler next).task compiler = ((body state).task compiler >>= k) ∧
      ∀ o err, o.result = .error err →
        (p.caught? err = none → k o = (next o).task compiler) ∧
        ∀ exc, p.caught? err = some exc → k o = (Task.perform (.beginHandling exc) >>= fun _ =>
          (handler exc o.state).task compiler >>= fun o' =>
            Task.perform .endHandling >>= fun _ => (next o').task compiler) := by
  refine ⟨_, by rw [task, hparse], ?_⟩
  rintro ⟨result, state'⟩ err rfl
  constructor
  · intro hcaught
    simp only [hcaught]
  · intro exc hcaught
    simp only [hcaught]
    rfl

/-- What the body of a block has signaled is passed on when the block is left. -/
theorem leaves_scope (compiler : Compiler S U) {n : Nat}
    (hn : ScopeStack.Nested n c.scopes.scopes) {handle : ScopeHandle}
    {id : SubxactId} {inner outer : List (ScopeHandle × SubxactId)}
    (hs : c.scopes.places = inner ++ (handle, id) :: outer) {o o' : Outcome S V} (ho : o.Signals)
    {next : Outcome S V → Script S V U} (hnext : next o = .done o') :
    (Task.leaveScope handle o.result >>= fun result =>
      (next ⟨result, o.state⟩).task compiler).Leaves c [handle] ∧
    ((Task.leaveScope handle o.result >>= fun result =>
      (next ⟨result, o.state⟩).task compiler).run c).1 = o' := by
  obtain ⟨result, state⟩ := o
  obtain ⟨err, rfl, -⟩ := ho
  have hdone : (next ⟨.error err, state⟩).task compiler = .pure o' := task_of_done hnext
  constructor
  · have habort := (Task.leaves_abortThrough (S := S) hn hs).bind_pure
      (k := fun _ => (.pure (.error err) : Task S U (Except ScriptError V))) rfl
    exact habort.bind_pure hdone
  · rw [Task.run_bind, Task.run_leaveScope_error, hdone]
    rfl

/-- The signal leaves the script as it is. From where it is raised on no handler begins to run, and
the scopes that it crosses are rolled back. -/
theorem Stops.run (h : s.Stops compiler c crossed r) (hc : InOrder c) :
    (s.task compiler).Stops c crossed r := by
  induction h with
  | raised ho =>
    rw [task_of_done rfl]
    exact ⟨ho, [], _, rfl, rfl, Task.leaves_pure _ _⟩
  | @later s s' c c' r crossed hleads _ ih =>
    obtain ⟨γ, t, f, htask, rfl, rfl⟩ := hleads
    rw [htask]
    exact .after rfl (ih (t.run_keeps (fun _ => InOrder.after) hc))
  | @scope state body next o c c' r handle crossed henter _ hnext ho ih =>
    obtain ⟨k, htask, hk⟩ := exists_task_scope compiler state body next handle
    have hperform : (Task.perform .enterScope : Task S U _).run c = (.ok handle, c') := henter
    have hentered : InOrder c' := Task.keeps_of_run (fun _ => InOrder.after) hperform hc
    have hbody := ih hentered
    obtain ⟨id, inner, -, hnested, hplaces, -⟩ :=
      Task.run_body hc henter ((compiler.carries_guards handle).script (body state))
    obtain ⟨hleaves, hend⟩ := leaves_scope compiler hnested hplaces hbody.signals hnext
    rw [htask]
    refine .after hperform ?_
    rw [hk]
    exact hbody.bind hleaves (hend ▸ ho)
  | @guarded pattern p state body handler next o c r crossed hparse _ hnext ho ih =>
    obtain ⟨k, htask, hk⟩ := exists_task_guarded compiler hparse state body handler next
    have hbody := ih hc
    obtain ⟨err, herr, hsuppress⟩ := hbody.signals
    have hpass := ((hk _ err herr).1 (p.caught?_of_isSuppress hsuppress)).trans (task_of_done hnext)
    rw [htask, ← List.append_nil crossed]
    refine hbody.bind ?_ ?_
    · rw [hpass]
      exact Task.leaves_pure o _
    · rw [hpass]
      exact ho
  | @handling pattern p state body handler next err exc o o' c c' r crossed hparse hran herr hcaught
      _ hnext ho ih =>
    obtain ⟨k, htask, hk⟩ := exists_task_guarded compiler hparse state body handler next
    have hbegun : (Task.perform (.beginHandling exc) : Task S U _).run c' =
        ((), c'.beginHandling exc) := rfl
    have hc' : InOrder c' := Task.keeps_of_run (fun _ => InOrder.after) hran hc
    have hhandler := ih (hc'.after (m := (⟨c', .beginHandling exc⟩ : Moment _ S U)))
    rw [htask]
    refine .after hran ?_
    rw [(hk o' err herr).2 exc hcaught]
    refine .after hbegun ?_
    have hend : (next (((handler exc o'.state).task compiler).run (c'.beginHandling exc)).1).task
        compiler = .pure o := task_of_done hnext
    rw [← List.append_nil crossed]
    refine hhandler.bind ((Task.leaves_endHandling _).bind_pure hend) ?_
    rw [Task.run_bind, hend]
    exact ho

end Script

/-! ## Routines that fail with their scripts -/

namespace Routine

section

variable [Host σ] {e : Engine}

/-- The routine comes to run the script, and when that fails nothing is left to do but to put right
what a load has begun. -/
inductive Runs (e : Engine) : {α : Type} → Routine e.State e.Code α → e.State → Core σ e.Code →
    Script e.State e.Value e.Code → Core σ e.Code → Prop
  | script {f : e.State → Script e.State e.Value e.Code} {state : e.State} {c : Core σ e.Code} :
      Runs e (e.runScript f) state c (f state) c
  | first {α β : Type} {x : Routine e.State e.Code α} {f : α → Routine e.State e.Code β}
      {state : e.State} {c c' : Core σ e.Code} {s : Script e.State e.Value e.Code} :
      Runs e x state c s c' → Runs e (x >>= f) state c s c'
  | later {α β : Type} {x : Routine e.State e.Code α} {f : α → Routine e.State e.Code β} {a : α}
      {state state' : e.State} {c c' c'' : Core σ e.Code} {s : Script e.State e.Value e.Code} :
      Task.run (x state) c = ((.ok a, state'), c') → Runs e (f a) state' c' s c'' →
      Runs e (x >>= f) state c s c''
  | cleaning {α : Type} {x : Routine e.State e.Code α} {action : Action e.State e.Code}
      {state : e.State} {c c' : Core σ e.Code} {s : Script e.State e.Value e.Code} :
      Runs e x state c s c' →
      Runs e (tryCatch x fun f => perform action >>= fun _ => throw f) state c s c'

namespace Runs

variable {x : Routine e.State e.Code α} {state : e.State} {c c' : Core σ e.Code}
  {s : Script e.State e.Value e.Code}

theorem failed (h : Runs e x state c s c') {err : ScriptError}
    (hs : ((s.task e.compiler).run c').1.result = .error err) :
    (Task.run (x state) c).1.1 = .error (.script err) := by
  induction h with
  | script =>
    rw [(Engine.run_runScript _ _ _).1]
    dsimp only
    rw [hs]
    rfl
  | @first α β x f state c c' s _ ih =>
    have hx := ih hs
    rw [bind_apply, Task.run_bind]
    rcases hr : Task.run (x state) c with ⟨⟨result, state'⟩, c''⟩
    rw [hr] at hx
    obtain rfl : result = .error (.script err) := hx
    rfl
  | later hx _ ih =>
    rw [(run_bind_of_ok hx).1]
    exact ih hs
  | @cleaning α x action state c c' s _ ih =>
    have hx := ih hs
    rw [tryCatch_apply, Task.run_bind]
    rcases hr : Task.run (x state) c with ⟨⟨result, state'⟩, c''⟩
    rw [hr] at hx
    obtain rfl : result = .error (.script err) := hx
    rfl

/-- What every action keeps holds where the script begins. -/
theorem keeps (h : Runs e x state c s c') {P : Core σ e.Code → Prop}
    (hP : ∀ m : Moment σ e.State e.Code, P m.core → P m.after) (hc : P c) : P c' := by
  induction h with
  | script => exact hc
  | first _ ih | cleaning _ ih => exact ih hc
  | later hx _ ih => exact ih (Task.keeps_of_run hP hx hc)

/-- The top-level code of a unit. -/
theorem load {ref : UnitRef} {code : e.Code} (hcode : c.beginLoad ref = (some code, c')) :
    Runs e (e.loadUnit ref) state c (e.topLevel code state) c' := by
  have hbegin : Task.run (perform (.beginLoad ref) state) c = ((.ok (some code), state), c') := by
    rw [run_perform, show c.perform (.beginLoad ref) = (some code, c') from hcode]
  exact .later hbegin (.cleaning (.first .script))

end Runs

end

end Routine

/-- An anonymous block runs the code of its text. -/
theorem Operation.runs_executing [Host σ] {e : Engine} {text : String} {n : Nat}
    {unit : ExecutionUnit e.Code} {state state' : e.State} {c c₁ c₂ : Core σ e.Code}
    (hpass : c.safepoint = (.ok (), c₁)) (hcount : c₁.countInline = (n, c₂))
    (hcompile : e.compiler (.inline n) ("inline " ++ toString n) text state = .ok (unit, state'))
    (hunit : unit.state = .fresh) :
    Routine.Runs e (executing e text) state c (e.topLevel unit.code state')
      ((c₂.addUnit unit).2.setLoadState (c₂.addUnit unit).1 .loading) := by
  have hsafe : Task.run (Routine.safepoint (S := e.State) state) c = ((.ok (), state), c₁) := by
    change ((c.safepoint.1, state), c.safepoint.2) = _
    rw [hpass]
  have hnumber : Task.run (Routine.perform (.countInline) state) c₁ = ((.ok n, state), c₂) := by
    rw [Routine.run_perform,
      show c₁.perform (.countInline : Action e.State e.Code) = (n, c₂) from hcount]
  exact .later hsafe (.later hnumber (.later (Routine.run_compile hcompile c₂)
    (.load (c₂.beginLoad_addUnit hunit))))

end ProcedureBridge
