import ProcedureBridge.Proofs.Bridge.Action
import ProcedureBridge.Proofs.Bridge.Composition

/-! # Errors on their way out

An error that nothing intercepts crosses every frame that is open: scopes, handlers, the loading of
units and the sequences in which they stand. What the bridge does there is to end scopes and to put
right what the error has left; the script does nothing. -/

namespace ProcedureBridge

/-- The action ends scopes, or puts right what an error has left. -/
def Action.unwinds {S U : Type} : Action S U → Bool
  | abortThrough _ | endHandling | endLoad .. | invalidate _ => true
  | _ => false

/-- Of the scopes and the host, only the ends of scopes change anything. -/
theorem Moment.unwinds_has {σ S U : Type} [Host σ] {P : Option Exception → ScopeStack × σ → Prop}
    (hP : ∀ f, ScopeStack.RollbackKeeps (P f)) {m : Moment σ S U} (hm : m.action.unwinds = true)
    (h : m.core.Has P) : m.after.Has P := by
  obtain ⟨c, action⟩ := m
  cases action with
  | abortThrough handle =>
    exact ScopeStack.abortThrough_keeps (P := P c.fatal) (hP c.fatal) handle h
  | endHandling | endLoad | invalidate => exact h
  | _ => cases hm

/-- What a run may come to, if that can be an error. -/
class Fallible (α : Type) where
  failed : α → Prop

instance {S V : Type} : Fallible (Outcome S V) := ⟨fun o => ∃ err, o.result = .error err⟩

instance {S α : Type} : Fallible (Except Failure α × S) := ⟨fun r => ∃ f, r.1 = .error f⟩

open Fallible

variable {S U : Type}

/-- A frame lets an error through: to each kind of frame belongs the code that runs when what is
inside it is over, and what that came to. The script does nothing then but end with an error. -/
inductive Crosses : {α β : Type} → [Fallible α] → [Fallible β] → (α → Task S U β) → α → Prop
  /-- A frame that only passes the error on. -/
  | passed {α β : Type} [Fallible α] [Fallible β] {k : α → Task S U β} {a : α} {b : β} :
      failed a → k a = .pure b → failed b → Crosses k a
  /-- A scope. -/
  | scope {V : Type} {compiler : Compiler S U} {handle : ScopeHandle}
      {next : Outcome S V → Script S V U} {err err' : ScriptError} {state state' : S} :
      next ⟨.error err, state⟩ = .done ⟨.error err', state'⟩ →
      Crosses (fun o : Outcome S V => do
        let result ← Task.leaveScope handle o.result
        (next ⟨result, o.state⟩).task compiler) ⟨.error err, state⟩
  /-- A handler in which another error is raised. -/
  | handler {V : Type} {compiler : Compiler S U} {next : Outcome S V → Script S V U}
      {err err' : ScriptError} {state state' : S} :
      next ⟨.error err, state⟩ = .done ⟨.error err', state'⟩ →
      Crosses (fun o : Outcome S V => do
        Task.perform .endHandling
        (next o).task compiler) ⟨.error err, state⟩
  /-- The loading of a unit. -/
  | load {ref : UnitRef} {f : Failure} {state : S} :
      Crosses (Routine.catching (S := S) (α := PUnit) fun f => do
        Routine.perform (.endLoad ref false)
        throw f) (.error f, state)
  /-- The loading of a procedure, which is dropped from the cache. -/
  | procedure {id : ProcedureId} {f : Failure} {state : S} :
      Crosses (Routine.catching (S := S) (α := PUnit) fun f => do
        Routine.perform (.invalidate id)
        throw f) (.error f, state)

namespace Crosses

variable {α β σ : Type} [Fallible α] [Fallible β] {k : α → Task S U β} {a : α}

/-- A frame that lets an error through only unwinds. -/
theorem every (h : Crosses k a) : (k a).Every fun action => action.unwinds = true := by
  cases h with
  | passed _ hk _ =>
    rw [hk]
    trivial
  | scope hnext =>
    refine ⟨rfl, fun _ => ?_⟩
    change Task.Every _ (Script.task _ (_ : Script S _ U))
    rw [hnext]
    trivial
  | handler hnext =>
    refine ⟨rfl, fun _ => ?_⟩
    change Task.Every _ (Script.task _ (_ : Script S _ U))
    rw [hnext]
    trivial
  | load => exact ⟨rfl, fun _ => trivial⟩
  | procedure => exact ⟨rfl, fun _ => trivial⟩

variable [Host σ]

/-- And the error goes on. -/
theorem failed (h : Crosses k a) (c : Core σ U) : failed ((k a).run c).1 := by
  cases h with
  | passed _ hk hb =>
    rw [hk]
    exact hb
  | @scope _ compiler _ next _ _ _ _ hnext =>
    change Fallible.failed (((next _).task compiler).run _).1
    rw [hnext]
    exact ⟨_, rfl⟩
  | @handler _ compiler next _ _ _ _ hnext =>
    change Fallible.failed (((next _).task compiler).run _).1
    rw [hnext]
    exact ⟨_, rfl⟩
  | load => exact ⟨_, rfl⟩
  | procedure => exact ⟨_, rfl⟩

end Crosses

/-- In the run of the task from the first core, an error is raised at the second core, or has been
raised before, that nothing intercepts from there on. -/
inductive Raises {σ : Type} [Host σ] :
    {α : Type} → [Fallible α] → Task S U α → Core σ U → Core σ U → Prop
  | here {α : Type} [Fallible α] {a : α} {c : Core σ U} : failed a → Raises (.pure a) c c
  /-- A scope cannot be committed because scopes are open inside it. -/
  | unresolved {V : Type} {compiler : Compiler S U} {handle : ScopeHandle}
      {next : Outcome S V → Script S V U} {err err' : ScriptError} {state state' : S}
      {c : Core σ U} : next ⟨.error err, state⟩ = .done ⟨.error err', state'⟩ →
      Raises (do
        let result ← Task.leaveScope handle (.error err)
        (next ⟨result, state⟩).task compiler) c c
  | later {α : Type} [Fallible α] {action : Action S U} {next : action.Answer → Task S U α}
      {c r : Core σ U} : Raises (next (c.perform action).1) (Moment.after ⟨c, action⟩) r →
      Raises (.act action next) c r
  | crossing {α β : Type} [Fallible α] [Fallible β] {t : Task S U α} {k : α → Task S U β}
      {c r : Core σ U} : Raises t c r → Crosses k (t.run c).1 → Raises (t >>= k) c r

namespace Raises

section Tasks

variable {α σ : Type} [Host σ] [Fallible α] {t : Task S U α} {c r : Core σ U}

theorem failed (h : Raises t c r) : failed (t.run c).1 := by
  induction h with
  | here ha => exact ha
  | unresolved hnext =>
    exact (Crosses.scope hnext).failed _
  | later _ ih => exact ih
  | @crossing _ _ _ _ t k c _ _ hk _ =>
    rw [Task.run_bind]
    exact hk.failed _

/-- The error is raised at a core of the run. -/
theorem core (h : Raises t c r) : r = c ∨ ∃ m ∈ t.trace c, r = m.after := by
  induction h with
  | here | unresolved => exact .inl rfl
  | @later _ _ action next c r _ ih =>
    right
    rw [Task.trace_act]
    rcases ih with rfl | ⟨m, hm, rfl⟩
    · exact ⟨_, .head _, rfl⟩
    · exact ⟨m, .tail _ hm, rfl⟩
  | @crossing _ _ _ _ t k c _ _ _ ih =>
    rw [Task.trace_bind]
    rcases ih with rfl | ⟨m, hm, rfl⟩
    · exact .inl rfl
    · exact .inr ⟨m, List.mem_append_left _ hm, rfl⟩

/-- What unwinding keeps holds at the end of the run, if it held when the error was raised. -/
theorem keeps {P : Core σ U → Prop}
    (hP : ∀ m : Moment σ S U, m.action.unwinds = true → P m.core → P m.after) (h : Raises t c r)
    (hr : P r) : P (t.run c).2 := by
  induction h with
  | here => exact hr
  | unresolved hnext => exact Task.every_run_keeps (Crosses.scope hnext).every hP hr
  | later _ ih => exact ih hr
  | crossing _ hk ih =>
    rw [Task.run_bind]
    exact Task.every_run_keeps hk.every hP (ih hr)

theorem has {P : Option Exception → ScopeStack × σ → Prop} (hP : Lasting P) (h : Raises t c r)
    (hc : c.Has P) : r.Has P := by
  rcases h.core with rfl | ⟨m, hm, rfl⟩
  · exact hc
  · exact hP.after m (hP.trace t hc m hm)

/-- The part before the error has come to an end. -/
theorem after {β : Type} {t : Task S U β} {k : β → Task S U α}
    (h : Raises (k (t.run c).1) (t.run c).2 r) : Raises (t >>= k) c r := by
  induction t generalizing c with
  | pure b => exact h
  | act action next ih => exact .later (ih _ h)

end Tasks

section Frames

variable {α β V σ : Type} [Host σ] {c c' r : Core σ U} {state state' : S}

theorem crossing_failure [Fallible β] {t : Task S U (Except Failure α × S)}
    {k : Except Failure α × S → Task S U β} (h : Raises t c r)
    (hk : ∀ f state, Crosses k (.error f, state)) : Raises (t >>= k) c r := by
  refine .crossing h ?_
  obtain ⟨f, hf⟩ := h.failed
  have hend : (t.run c).1 = (.error f, (t.run c).1.2) := Prod.ext hf rfl
  rw [hend]
  exact hk _ _

theorem crossing_error [Fallible β] {t : Task S U (Outcome S V)} {k : Outcome S V → Task S U β}
    (h : Raises t c r) (hk : ∀ err state, Crosses k ⟨.error err, state⟩) : Raises (t >>= k) c r := by
  refine .crossing h ?_
  obtain ⟨err, herr⟩ := h.failed
  have hend : (t.run c).1 = ⟨.error err, (t.run c).1.state⟩ := by rw [← herr]
  rw [hend]
  exact hk _ _

theorem bind {x : Routine S U α} (h : Raises (x state) c r) (f : α → Routine S U β) :
    Raises ((x >>= f) state) c r := by
  rw [Routine.bind_apply]
  exact h.crossing_failure fun failure _ => .passed ⟨failure, rfl⟩ rfl ⟨failure, rfl⟩

theorem bind_of_ok {x : Routine S U α} {a : α}
    (hx : Task.run (x state) c = ((.ok a, state'), c')) {f : α → Routine S U β}
    (h : Raises (f a state') c' r) : Raises ((x >>= f) state) c r := by
  rw [Routine.bind_apply]
  refine after ?_
  rw [hx]
  exact h

/-- The top-level code of a unit raises the error. -/
theorem load {runTop : U → Routine S U V} {ref : UnitRef} {code : U}
    (hcode : c.beginLoad ref = (some code, c')) (h : Raises (runTop code state) c' r) :
    Raises (Routine.load runTop ref state) c r := by
  have hbegin : Task.run (Routine.perform (.beginLoad ref) state) c =
      ((.ok (some code), state), c') := by
    rw [Routine.run_perform, show c.perform (.beginLoad ref) = (some code, c') from hcode]
  refine bind_of_ok hbegin ?_
  change Raises ((tryCatch (runTop code >>= fun _ => Routine.perform (.endLoad ref true))
    fun failure => do
      Routine.perform (.endLoad ref false)
      throw failure : Routine S U PUnit) state) c' r
  rw [Routine.tryCatch_apply]
  exact (h.bind _).crossing_failure fun _ _ => .load

/-- The body of a scope raises the error, and the script leaves it alone. -/
theorem scope {compiler : Compiler S U} {body : S → Script S V U}
    {next : Outcome S V → Script S V U} {handle : ScopeHandle}
    (henter : c.enterScope = (.ok handle, c')) (h : Raises ((body state).task compiler) c' r)
    (hnext : ∀ err state, ∃ err' state', next ⟨.error err, state⟩ = .done ⟨.error err', state'⟩) :
    Raises ((Script.scope state body next).task compiler) c r := by
  rw [Script.task]
  refine .later ?_
  rw [show c.perform (.enterScope : Action S U) = (.ok handle, c') from henter,
    show Moment.after ⟨c, (.enterScope : Action S U)⟩ = c' from congrArg Prod.snd henter]
  refine h.crossing_error fun err state => ?_
  obtain ⟨_, _, hdone⟩ := hnext err state
  exact .scope hdone

end Frames

end Raises

theorem Engine.raises_runScript {σ : Type} [Host σ] {e : Engine} {state : e.State}
    {script : e.State → Script e.State e.Value e.Code} {c r : Core σ e.Code}
    (h : Raises ((script state).task e.compiler) c r) : Raises (e.runScript script state) c r :=
  h.crossing_error fun err _ => .passed ⟨err, rfl⟩ rfl ⟨.script err, rfl⟩

/-- The code of a unit that was just made is there to be run. -/
theorem Core.beginLoad_addUnit {σ : Type} (c : Core σ U) {unit : ExecutionUnit U}
    (hunit : unit.state = .fresh) :
    (c.addUnit unit).2.beginLoad (c.addUnit unit).1 =
      (some unit.code, (c.addUnit unit).2.setLoadState (c.addUnit unit).1 .loading) := by
  simp [Core.beginLoad, Core.unit?, Core.addUnit, hunit]

namespace Operation

/-- An error is raised in an operation, and nothing intercepts it. What leaves the procedure of a
trigger is judged by the trigger, which asks for nothing. -/
inductive Raises {σ : Type} [Host σ] (e : Engine) (entryPoint : String) (state : e.State)
    (c : Core σ e.Code) : Operation → Core σ e.Code → Prop
  | routine {o : Operation} {r : Core σ e.Code} :
      ProcedureBridge.Raises (o.routine e entryPoint state) c r → Raises e entryPoint state c o r
  | trigger {id : ProcedureId} {event : TriggerEvent} {procedure : e.Value} {state' : e.State}
      {c' r : Core σ e.Code} :
      Task.run (main e entryPoint id state) c = ((.ok procedure, state'), c') →
      ProcedureBridge.Raises (e.runScript (e.invoke procedure event.arguments) state') c' r →
      Raises e entryPoint state c (.fireTrigger id event) r

namespace Raises

variable {σ : Type} [Host σ] {e : Engine} {entryPoint : String} {state : e.State}
  {c r : Core σ e.Code} {o : Operation}

/-- A trigger whose procedure fails does nothing after that. -/
theorem firing_of_error {id : ProcedureId} {event : TriggerEvent} {procedure : e.Value}
    {state' : e.State} {c' : Core σ e.Code}
    (hmain : Task.run (main e entryPoint id state) c = ((.ok procedure, state'), c'))
    (hfail : failed (Task.run (e.runScript (e.invoke procedure event.arguments) state') c').1) :
    (Task.run (firing e entryPoint id event state) c).2 =
        (Task.run (e.runScript (e.invoke procedure event.arguments) state') c').2 ∧
      Task.trace (firing e entryPoint id event state) c =
        Task.trace (main e entryPoint id state) c ++
          Task.trace (e.runScript (e.invoke procedure event.arguments) state') c' := by
  simp only [firing, Routine.bind_apply, Task.run_bind, Task.trace_bind, hmain, Routine.sequel,
    Routine.attempt_apply]
  generalize Task.run (e.runScript (e.invoke procedure event.arguments) state') c' = w at hfail ⊢
  obtain ⟨⟨result, state''⟩, c''⟩ := w
  obtain ⟨f, rfl⟩ : ∃ f, result = .error f := hfail
  cases f <;> exact ⟨rfl, congrArg _ ((List.append_nil _).trans (List.append_nil _))⟩

/-- The code of an anonymous block raises the error. -/
theorem block {text : String} {n : Nat} {unit : ExecutionUnit e.Code} {state' : e.State}
    {c₁ c₂ : Core σ e.Code} (hpass : c.safepoint = (.ok (), c₁)) (hcount : c₁.countInline = (n, c₂))
    (hcompile : e.compiler (.inline n) ("inline " ++ toString n) text state = .ok (unit, state'))
    (hunit : unit.state = .fresh)
    (h : ProcedureBridge.Raises (e.runScript (e.topLevel unit.code) state')
      ((c₂.addUnit unit).2.setLoadState (c₂.addUnit unit).1 .loading) r) :
    Raises e entryPoint state c (.executeInline text) r := by
  have hsafe : Task.run (Routine.safepoint (S := e.State) state) c = ((.ok (), state), c₁) := by
    change ((c.safepoint.1, state), c.safepoint.2) = _
    rw [hpass]
  have hnumber : Task.run (Routine.perform (.countInline) state) c₁ = ((.ok n, state), c₂) := by
    rw [Routine.run_perform,
      show c₁.perform (.countInline : Action e.State e.Code) = (n, c₂) from hcount]
  refine .routine ?_
  refine .bind_of_ok hsafe (.bind_of_ok hnumber (.bind_of_ok (Routine.run_compile hcompile c₂) ?_))
  exact .load (c₂.beginLoad_addUnit hunit) h

/-- The error is raised at a core of the run. -/
theorem core (h : Raises e entryPoint state c o r) :
    r = c ∨ ∃ m ∈ Task.trace (o.routine e entryPoint state) c, r = m.after := by
  cases h with
  | routine h => exact h.core
  | @trigger id event procedure state' c' _ hmain h =>
    change r = c ∨ ∃ m ∈ Task.trace (firing e entryPoint id event state) c, r = m.after
    rw [(firing_of_error hmain h.failed).2]
    rcases h.core with rfl | ⟨m, hm, rfl⟩
    · -- the procedure raised it before it did anything
      have hend := Task.run_core (main e entryPoint id state) c
      rw [hmain] at hend
      rcases hend with hend | ⟨m, hm, hend⟩
      · exact .inl hend
      · exact .inr ⟨m, List.mem_append_left _ hm, hend⟩
    · exact .inr ⟨m, List.mem_append_right _ hm, rfl⟩

/-- What unwinding keeps holds at the end of the run, if it held when the error was raised. -/
theorem keeps {P : Core σ e.Code → Prop}
    (hP : ∀ m : Moment σ e.State e.Code, m.action.unwinds = true → P m.core → P m.after)
    (h : Raises e entryPoint state c o r) (hr : P r) :
    P (Task.run (o.routine e entryPoint state) c).2 := by
  cases h with
  | routine h => exact h.keeps hP hr
  | trigger hmain h =>
    change P (Task.run (firing e entryPoint _ _ state) c).2
    rw [(firing_of_error hmain h.failed).1]
    exact h.keeps hP hr

theorem has {P : Option Exception → ScopeStack × σ → Prop} (hP : Lasting P)
    (h : Raises e entryPoint state c o r) (hc : c.Has P) : r.Has P := by
  rcases h.core with rfl | ⟨m, hm, rfl⟩
  · exact hc
  · exact hP.after m (hP.trace _ hc m hm)

end Raises

end Operation

end ProcedureBridge
