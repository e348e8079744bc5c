import ProcedureBridge.Proofs.Bridge.Handler
import ProcedureBridge.Proofs.Session.Settled

/-! # What a session keeps

A property of the scopes and the host that lasts within an operation, and that between operations
depends on the host alone, holds of a session at all times. -/

namespace ProcedureBridge

namespace Bridge

variable {S σ U α β : Type} {P : Option Exception → ScopeStack × σ → Prop}

section Preserves

variable {Q : Core σ U → Prop}

/-- The property of the core holds after the step if it held before. -/
def Preserves (Q : Core σ U → Prop) (x : Bridge S σ U α) : Prop :=
  ∀ w : World S σ U, Q w.core → Q (x w).2.core

theorem preserves_pure (a : α) : Preserves Q (pure a : Bridge S σ U α) := fun _ hw => hw

theorem preserves_get : Preserves Q (get : Bridge S σ U (World S σ U)) := fun _ hw => hw

theorem preserves_ofExcept (r : Except Failure α) : Preserves Q (ofExcept r : Bridge S σ U α) :=
  fun _ hw => hw

theorem preserves_modifyCore {f : Core σ U → Core σ U} (hf : ∀ c, Q c → Q (f c)) :
    Preserves Q (modifyCore f : Bridge S σ U PUnit) := fun w hw => hf w.core hw

theorem preserves_onCore {f : Core σ U → Except Failure α × Core σ U}
    (hf : ∀ c, Q c → Q (f c).2) : Preserves Q (onCore f : Bridge S σ U α) :=
  fun w hw => hf w.core hw

end Preserves

/-- The property holds after the step if it held before. -/
def Keeps (P : Option Exception → ScopeStack × σ → Prop) (x : Bridge S σ U α) : Prop :=
  ∀ w : World S σ U, w.core.Has P → (x w).2.core.Has P

theorem bind_of_ok {x : Bridge S σ U α} {a : α} {w w' : World S σ U} (hx : x w = (.ok a, w'))
    (f : α → Bridge S σ U β) : (x >>= f) w = f a w' := by
  change (StateT.bind x (ExceptT.bindCont f)) w = _
  simp only [StateT.bind, hx]
  rfl

theorem bind_of_error {x : Bridge S σ U α} {failure : Failure} {w w' : World S σ U}
    (hx : x w = (.error failure, w')) (f : α → Bridge S σ U β) :
    (x >>= f) w = (.error failure, w') := by
  change (StateT.bind x (ExceptT.bindCont f)) w = _
  simp only [StateT.bind, hx]
  rfl

/-- What holds when the first step is over, and the second one preserves, holds in the end. -/
theorem holds_bind {Q : Core σ U → Prop} {x : Bridge S σ U α} {f : α → Bridge S σ U β}
    {w : World S σ U} (hx : Q (x w).2.core) (hf : ∀ a, Preserves Q (f a)) :
    Q ((x >>= f) w).2.core := by
  match hr : x w with
  | (.ok a, w') =>
    rw [bind_of_ok hr]
    rw [hr] at hx
    exact hf a w' hx
  | (.error failure, w') =>
    rw [bind_of_error hr]
    rw [hr] at hx
    exact hx

theorem Preserves.bind {Q : Core σ U → Prop} {x : Bridge S σ U α} {f : α → Bridge S σ U β}
    (hx : Preserves Q x) (hf : ∀ a, Preserves Q (f a)) : Preserves Q (x >>= f) :=
  fun w hw => holds_bind (hx w hw) hf

theorem preserves_ofRoutine [Host σ] {Q : Core σ U → Prop}
    (hQ : ∀ m : Moment σ S U, Q m.core → Q m.after) (x : Routine S U α) :
    Preserves Q (ofRoutine x : Bridge S σ U α) := fun w hw => (x w.state).run_keeps hQ hw

/-- What the actions of a routine keep, the routine keeps. -/
theorem preserves_ofRoutine_every [Host σ] {Q : Core σ U → Prop} {A : Action S U → Prop}
    {x : Routine S U α} (hx : Routine.Every A x)
    (hQ : ∀ m : Moment σ S U, A m.action → Q m.core → Q m.after) :
    Preserves Q (ofRoutine x : Bridge S σ U α) :=
  fun w hw => Task.every_run_keeps (hx w.state) hQ hw

theorem keeps_ofRoutine [Host σ] (hP : Lasting P) (x : Routine S U α) :
    Keeps P (ofRoutine x : Bridge S σ U α) :=
  preserves_ofRoutine (Q := fun c => c.Has P) hP.after x

end Bridge

namespace Session

variable {e : Engine} {σ : Type} [Host σ] {P : Option Exception → ScopeStack × σ → Prop}

/-- The property lasts, also outside of operations. -/
structure Standing (P : Option Exception → ScopeStack × σ → Prop) : Prop extends Lasting P where
  find : ∀ {f s h} (id : ProcedureId), P f (s, h) → P f (s, (Host.lookup id h).2)
  tell : ∀ {f s h} (report : Report), P f (s, h) → P f (s, (Host.deliver report h).2)
  /-- With no scope open only the host matters. -/
  idle : ∀ {f f' s s' h}, P f (s, h) → s.scopes = [] → s'.scopes = [] → P f' (s', h)

variable {s : Session e σ}

theorem boundary_has {α : Type} (hP : Standing P) (hs : Settled s.core) (hc : s.core.Has P)
    {body : Bridge e.State σ e.Code α} (hbody : Bridge.Keeps P body) :
    (s.boundary body).2.core.Has P := by
  cases ht : s.isTerminated with
  | true =>
    rw [boundary_of_terminated ht]
    exact hc
  | false =>
    obtain ⟨fatal, stack, hnil, hend⟩ :=
      boundary_host hP.toLasting ht hs body (hbody ⟨s.state, armCall s.core⟩ hc)
    exact hP.idle hend hnil (boundary_settled hs body).scopes

/-- What the steps of the initialization and messages to the host keep, the initialization keeps. -/
theorem runInit_steps {Q : Core σ e.Code → Prop}
    (hcompile : ∀ id name text, Bridge.Preserves Q (e.compile id name text : Bridge _ σ _ _))
    (hload : ∀ ref, Bridge.Preserves Q (e.load ref : Bridge _ σ _ _))
    (hrun : ∀ script, Bridge.Preserves Q (e.run script : Bridge _ σ _ _))
    (hdeliver : ∀ c report, Q c → Q (c.deliver report)) (files : String → FileContent) :
    Bridge.Preserves Q (runInit (e := e) (σ := σ) files) := by
  simp only [runInit]
  refine Bridge.preserves_get.bind fun w => (Bridge.preserves_ofExcept _).bind fun source => ?_
  cases source with
  | none => exact Bridge.preserves_pure _
  | some given =>
    refine (hcompile _ _ _).bind fun ref => (hload ref).bind fun _ =>
      Bridge.preserves_get.bind fun w => ?_
    split
    · exact Bridge.preserves_pure _
    · exact (hrun _).bind fun _ => Bridge.preserves_modifyCore fun c hc => hdeliver c _ hc

/-- What every action and every message to the host keep, the initialization unit keeps. -/
theorem runInit_preserves {Q : Core σ e.Code → Prop}
    (hQ : ∀ m : Moment σ e.State e.Code, Q m.core → Q m.after)
    (hdeliver : ∀ c report, Q c → Q (c.deliver report)) (files : String → FileContent) :
    Bridge.Preserves Q (runInit (e := e) (σ := σ) files) :=
  runInit_steps (fun _ _ _ => Bridge.preserves_ofRoutine hQ _)
    (fun _ => Bridge.preserves_ofRoutine hQ _) (fun _ => Bridge.preserves_ofRoutine hQ _) hdeliver
    files

theorem runInit_keeps (hP : Standing P)
    (files : String → FileContent) : Bridge.Keeps P (runInit (e := e) (σ := σ) files) := by
  refine runInit_preserves (Q := fun c => c.Has P) hP.after (fun c report hc => ?_) files
  rw [Core.deliver]
  dsimp only
  rw [Core.foldl_signal]
  exact hP.tell _ hc

/-- A validation asks for the text and may add a unit. -/
theorem validate_eq (s : Session e σ) (id : ProcedureId) :
    ∃ body : Bridge e.State σ e.Code PUnit, s.validate id = s.boundary body ∧
      ∀ {Q : Core σ e.Code → Prop},
        (∀ c, Q c → Q { c with host := (Host.lookup id c.host).2 }) →
        (∀ c unit, Q c → Q (c.addUnit unit).2) → Bridge.Preserves Q body := by
  refine ⟨_, rfl, ?_⟩
  intro Q hlookup hadd
  refine (Bridge.preserves_onCore fun c hc => ?_).bind fun source =>
    Bridge.Preserves.bind ?_ fun _ => Bridge.preserves_pure _
  · have hfind := hlookup c hc
    split
    all_goals
      rename_i h
      rw [h] at hfind
      exact hfind
  · refine Bridge.preserves_ofRoutine_every (A := fun a => ∃ unit, a = .addUnit unit)
      (Routine.compile_every (fun unit => ⟨unit, rfl⟩) _ _ _) ?_
    rintro ⟨core, action⟩ ⟨unit, rfl⟩ hc
    exact hadd core unit hc

theorem respond_has (hP : Standing P) (hs : Settled s.core) (hc : s.core.Has P) (r : Request) :
    (s.respond r).2.core.Has P := by
  cases r with
  | operate o => exact boundary_has hP hs hc (Bridge.keeps_ofRoutine hP.toLasting _)
  | validate id =>
    obtain ⟨body, hbody, hkeeps⟩ := s.validate_eq id
    change (s.validate id).2.core.Has P
    rw [hbody]
    exact boundary_has hP hs hc
      (hkeeps (Q := fun c => c.Has P) (fun c hc => hP.find id hc) fun c unit hc => hc)
  | refresh id =>
    obtain ⟨cache, host, hcore, hhost⟩ := s.refresh_core id
    simp only [respond, hcore]
    rcases hhost with rfl | rfl
    · exact hc
    · exact hP.find id hc
  | interrupt | invalidate | clearCache | watch | disarm => exact hc

/-- Also a session that could not be opened leaves a host with the property. -/
theorem runInit_has (hP : Standing P) {host : σ} {options : Options} {fresh : Session e σ}
    (hcore : fresh.core = .new host options) (hh : P none (fresh.core.scopes, host))
    (files : String → FileContent) : (fresh.boundary (runInit files)).2.core.Has P := by
  refine boundary_has hP (hcore ▸ new_settled host options) ?_ (runInit_keeps hP files)
  simp only [Core.Has]
  rw [hcore] at hh ⊢
  exact hh

theorem Reachable.has (hP : Standing P) {kind : σ → Prop} {others : σ → σ → Prop}
    (hkind : ∀ {s h}, s.scopes = [] → kind h → P none (s, h))
    (hothers : ∀ {f s h h'}, s.scopes = [] → others h h' → P f (s, h) → P f (s, h'))
    (hs : s.Reachable kind others) : s.core.Has P := by
  obtain ⟨opened, hopened, hlater⟩ := hs
  induction hlater with
  | refl =>
    obtain ⟨initial, files, host, options, hh, hstart⟩ := hopened
    obtain ⟨f, hf⟩ | ⟨fresh, hcore, ht, hf | ⟨f, hf⟩⟩ := start_cases initial files host options
    · rw [hf] at hstart
      cases hstart
    · rw [hf] at hstart
      cases hstart
      exact runInit_has hP hcore (hkind (by rw [hcore]; rfl) hh) files
    · rw [hf] at hstart
      cases hstart
  | request r hl ih => exact respond_has hP (hl.settled hopened.settled) ih r
  | outside hl ho ih => exact hothers (hl.settled hopened.settled).scopes ho ih

end Session

end ProcedureBridge
