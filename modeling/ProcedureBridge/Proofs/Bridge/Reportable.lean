import ProcedureBridge.Proofs.Bridge.Unwinding

/-! # What routines fail with

A session that has ended refuses whatever it is asked for. Nothing that runs inside the call
boundary fails in that way, so that every failure of a body can be reported. -/

namespace ProcedureBridge

variable {σ S U V α β : Type}

/-- The result is not the refusal of a session that has ended. -/
def Reportable (r : Except Failure α) : Prop := r ≠ .error .terminated

theorem reportable_ok (a : α) : Reportable (.ok a) := nofun

theorem reportable_error_iff {f : Failure} :
    Reportable (.error f : Except Failure α) ↔ f ≠ .terminated := by simp [Reportable]

theorem reportable_exception (e : Exception) :
    Reportable (.error (.exception e) : Except Failure α) :=
  nofun

theorem reportable_script {r : Except Failure α} (h : ∀ f, r = .error f → ∃ err, f = .script err) :
    Reportable r := by
  intro hr
  obtain ⟨err, herr⟩ := h _ hr
  cases herr

theorem reportable_mapError_script (r : Except ScriptError α) :
    Reportable (r.mapError Failure.script) := by cases r <;> nofun

theorem Reportable.map {r : Except Failure α} (h : Reportable r) (g : α → β) :
    Reportable (r.map g) := by
  cases r with
  | ok a => exact reportable_ok _
  | error f => exact reportable_error_iff.mpr (reportable_error_iff.mp h)

namespace Core

variable [Host σ] (c : Core σ U)

theorem safepoint_reportable : Reportable c.safepoint.1 := by
  cases hf : c.fatal with
  | some e =>
    rw [safepoint_of_fatal hf]
    exact reportable_exception _
  | none =>
    cases hk : c.poll.monitor.held with
    | some kind =>
      rw [safepoint_of_held hf hk]
      exact reportable_exception _
    | none =>
      rw [safepoint_of_clear hf hk]
      exact reportable_ok _

theorem listProcedures_reportable (schema : String) : Reportable (c.listProcedures schema).1 := by
  simp only [listProcedures]
  split
  · exact reportable_ok _
  · exact reportable_exception _

theorem fetch_reportable (id : ProcedureId)
    {compile : ProcedureSource → Except Failure (ExecutionUnit U × S)}
    (hcompile : ∀ source, Reportable (compile source)) : Reportable (c.fetch id compile).1 := by
  simp only [fetch]
  split
  · exact reportable_exception _
  · rename_i source _ _
    split
    · rename_i f hf
      exact reportable_error_iff.mpr (reportable_error_iff.mp (hf ▸ hcompile source))
    · exact reportable_ok _

theorem obtain_reportable (id : ProcedureId)
    {compile : ProcedureSource → Except Failure (ExecutionUnit U × S)}
    (hcompile : ∀ source, Reportable (compile source)) : Reportable (c.obtain id compile).1 := by
  have hcases := c.obtain_cases id compile
  generalize c.obtain id compile = r at hcases ⊢
  cases hcases with
  | stopped hs =>
    have hsafe := c.safepoint_reportable
    rw [hs] at hsafe
    exact reportable_error_iff.mpr (reportable_error_iff.mp hsafe)
  | @failed _ c' _ hs hm hfetch =>
    have hrefused := c'.fetch_reportable id hcompile
    rw [hfetch] at hrefused
    exact reportable_error_iff.mpr (reportable_error_iff.mp hrefused)
  | hit | made => exact reportable_ok _

end Core

namespace Routine

/-- Whatever state and core the routine begins with, what it comes to has the property. -/
def Comes (σ : Type) [Host σ] (R : Except Failure α → Prop) (x : Routine S U α) : Prop :=
  ∀ state (c : Core σ U), R (Task.run (x state) c).1.1

variable [Host σ] {R : Except Failure α → Prop} {R' : Except Failure β → Prop} {x : Routine S U α}

theorem comes_ofExcept {r : Except Failure α} (h : R r) :
    Comes σ R (ofExcept r : Routine S U α) := fun _ _ => h

theorem comes_pure {a : α} (h : R (.ok a)) : Comes σ R (pure a : Routine S U α) := fun _ _ => h

theorem comes_throw {f : Failure} (h : R (.error f)) : Comes σ R (throw f : Routine S U α) :=
  fun _ _ => h

theorem comes_get : Comes σ Reportable (get : Routine S U S) := fun _ _ => reportable_ok _

theorem comes_perform {action : Action S U} {A : action.Answer → Prop}
    (h : ∀ c : Core σ U, A (c.perform action).1) :
    Comes σ (fun r => ∃ answer, r = .ok answer ∧ A answer) (perform action) :=
  fun _ c => ⟨_, rfl, h c⟩

theorem comes_set (state : S) : Comes σ Reportable (set state : Routine S U PUnit) :=
  fun _ _ => reportable_ok _

theorem comes_performed {action : Action S U} : Comes σ Reportable (perform action) :=
  fun _ _ => reportable_ok _

theorem Comes.bind {f : α → Routine S U β} (hx : Comes σ R x)
    (hok : ∀ a, R (.ok a) → Comes σ R' (f a)) (herror : ∀ e, R (.error e) → R' (.error e)) :
    Comes σ R' (x >>= f) := by
  intro state c
  have hr := hx state c
  rw [bind_apply, Task.run_bind]
  generalize Task.run (x state) c = w at hr
  obtain ⟨⟨result, state'⟩, c'⟩ := w
  cases result with
  | ok a => exact hok a hr state' c'
  | error e => exact herror e hr

/-- A sequence is reportable if its parts are. -/
theorem Comes.next {f : α → Routine S U β} (hx : Comes σ Reportable x)
    (hf : ∀ a, Comes σ Reportable (f a)) : Comes σ Reportable (x >>= f) :=
  hx.bind (fun a _ => hf a) fun _ he => reportable_error_iff.mpr (reportable_error_iff.mp he)

/-- An answer that is a result decides what comes of it. -/
theorem comes_answer {action : Action S U} {f : action.Answer → Routine S U β}
    {A : action.Answer → Prop} (h : ∀ c : Core σ U, A (c.perform action).1)
    (hf : ∀ answer, A answer → Comes σ R' (f answer)) : Comes σ R' (perform action >>= f) := by
  refine (comes_perform h).bind ?_ ?_
  · rintro answer ⟨_, hsame, hanswer⟩
    cases hsame
    exact hf answer hanswer
  · rintro e ⟨_, hsame, -⟩
    cases hsame

theorem Comes.tryCatch {handler : Failure → Routine S U α} (hx : Comes σ Reportable x)
    (hhandler : ∀ e, Reportable (.error e : Except Failure α) → Comes σ Reportable (handler e)) :
    Comes σ Reportable (tryCatch x handler) := by
  intro state c
  have hr := hx state c
  rw [tryCatch_apply, Task.run_bind]
  generalize Task.run (x state) c = w at hr
  obtain ⟨⟨result, state'⟩, c'⟩ := w
  cases result with
  | ok a => exact reportable_ok a
  | error e => exact hhandler e hr state' c'

theorem Comes.attempt (hx : Comes σ R x) :
    Comes σ (fun r => ∃ r', r = .ok r' ∧ R r') (attempt x) := by
  intro state c
  rw [attempt_apply, Task.run_bind]
  exact ⟨_, rfl, hx state c⟩

theorem comes_foldlM {f : β → α → Routine S U β} (hf : ∀ b a, Comes σ Reportable (f b a))
    (l : List α) (b : β) : Comes σ Reportable (l.foldlM f b) := by
  induction l generalizing b with
  | nil => exact comes_pure (reportable_ok b)
  | cons a l ih =>
    rw [List.foldlM_cons]
    exact (hf b a).next ih

variable {compiler : Compiler S U} {runTop : U → Routine S U V}

theorem safepoint_reportable : Comes σ Reportable (safepoint : Routine S U Unit) :=
  comes_answer (A := Reportable) (fun c => c.safepoint_reportable) fun _ h => comes_ofExcept h

theorem compile_reportable
    (hcompiler : ∀ id name text state, Reportable (compiler id name text state))
    (id : UnitId) (name text : String) : Comes σ Reportable (compile compiler id name text) :=
  comes_get.next fun _ => (comes_ofExcept (hcompiler _ _ _ _)).next fun r =>
    (comes_set r.2).next fun _ => comes_performed

theorem load_reportable (hrun : ∀ code, Comes σ Reportable (runTop code)) (ref : UnitRef) :
    Comes σ Reportable (load runTop ref) := by
  refine comes_performed.next fun code? => ?_
  cases code? with
  | none => exact comes_pure (reportable_ok _)
  | some code =>
    exact ((hrun code).next fun _ => comes_performed).tryCatch fun f hf =>
      comes_performed.next fun _ => comes_throw hf

theorem obtain_reportable
    (hcompiler : ∀ id name text state, Reportable (compiler id name text state))
    (id : ProcedureId) : Comes σ Reportable (obtain compiler id) := by
  refine comes_get.next fun state =>
    comes_answer (A := Reportable) (fun c => c.obtain_reportable id fun _ => hcompiler _ _ _ _) ?_
  intro answer hanswer
  refine (comes_ofExcept hanswer).next fun r => ?_
  obtain ⟨ref, state?⟩ := r
  cases state? with
  | none => exact comes_pure (reportable_ok _)
  | some state => exact (comes_set state).next fun _ => comes_pure (reportable_ok _)

theorem loadProcedure_reportable
    (hcompiler : ∀ id name text state, Reportable (compiler id name text state))
    (hrun : ∀ code, Comes σ Reportable (runTop code)) (id : ProcedureId) :
    Comes σ Reportable (loadProcedure compiler runTop id) := by
  refine (obtain_reportable hcompiler id).next fun ref => ?_
  exact ((load_reportable hrun ref).tryCatch fun f hf =>
    comes_performed.next fun _ => comes_throw hf).next fun _ => comes_pure (reportable_ok _)

theorem preload_reportable
    (hcompiler : ∀ id name text state, Reportable (compiler id name text state))
    (hrun : ∀ code, Comes σ Reportable (runTop code)) (schemas : List String) :
    Comes σ Reportable (preload compiler runTop schemas) := by
  refine comes_foldlM (fun count schema => ?_) schemas 0
  refine comes_answer (A := Reportable) (fun c => c.listProcedures_reportable schema) ?_
  intro answer hanswer
  refine (comes_ofExcept hanswer).next fun ids => comes_foldlM (fun count id => ?_) ids count
  exact (loadProcedure_reportable hcompiler hrun id).next fun _ => comes_pure (reportable_ok _)

end Routine

theorem compileFailure_reportable (id : UnitId) (r : Except ScriptError α) :
    Reportable (r.mapError (compileFailure id)) := by
  cases r with
  | ok a => exact reportable_ok a
  | error err => cases err <;> nofun

namespace Engine

variable [Host σ] (e : Engine)

theorem compiler_reportable (id : UnitId) (name text : String) (state : e.State) :
    Reportable (e.compiler id name text state) := by
  have hparse := compileFailure_reportable id (e.parse ("[" ++ name ++ "]") text)
  simp only [compiler]
  generalize (e.parse ("[" ++ name ++ "]") text).mapError (compileFailure id) = r at hparse
  cases r with
  | ok chunk => exact reportable_ok _
  | error f => exact reportable_error_iff.mpr (reportable_error_iff.mp hparse)

/-- A script that fails fails with an error of its own. -/
theorem runScript_comes (script : e.State → Script e.State e.Value e.Code) :
    Routine.Comes σ (fun r => ∀ f, r = .error f → ∃ err, f = .script err) (e.runScript script) := by
  intro state c f hf
  rw [(run_runScript script state c).1] at hf
  dsimp only at hf
  generalize (Task.run ((script state).task e.compiler) c).1 = o at hf
  obtain ⟨result, state'⟩ := o
  cases result with
  | ok value => cases hf
  | error err =>
    cases hf
    exact ⟨err, rfl⟩

theorem runScript_reportable (script : e.State → Script e.State e.Value e.Code) :
    Routine.Comes σ Reportable (e.runScript script) :=
  fun state c => reportable_script (e.runScript_comes script state c)

theorem loadUnit_reportable (ref : UnitRef) : Routine.Comes σ Reportable (e.loadUnit ref) :=
  Routine.load_reportable (fun _ => e.runScript_reportable _) ref

theorem function_reportable (ref : UnitRef) (name : String) :
    Routine.Comes σ Reportable (e.function ref name) := by
  refine (e.loadUnit_reportable ref).next fun _ => Routine.comes_performed.next fun unit? => ?_
  cases unit? with
  | none => exact Routine.comes_throw nofun
  | some unit =>
    refine (e.runScript_reportable _).next fun value => ?_
    split
    · exact Routine.comes_pure (reportable_ok _)
    · exact Routine.comes_throw (reportable_exception _)

end Engine

theorem TriggerEvent.outcomeOfError_reportable (t : TriggerEvent) (err : ScriptError) :
    Reportable (t.outcomeOfError err) := by
  simp only [outcomeOfError]
  split
  · split
    · exact reportable_ok _
    · exact reportable_exception _
  · nofun

theorem TriggerEvent.outcomeOfValue_reportable (t : TriggerEvent) (isNil : V → Bool)
    {datum : V → Except Failure Datum} (hdatum : ∀ v, Reportable (datum v)) (value : V) :
    Reportable (t.outcomeOfValue isNil datum value) := by
  simp only [outcomeOfValue]
  split
  · exact reportable_ok _
  · split
    · exact reportable_exception _
    · exact reportable_exception _
    · exact (hdatum value).map _

namespace Operation

variable [Host σ] (e : Engine)

theorem main_reportable (entryPoint : String) (id : ProcedureId) :
    Routine.Comes σ Reportable (main e entryPoint id) :=
  (Routine.loadProcedure_reportable e.compiler_reportable
    (fun _ => e.runScript_reportable _) id).next fun ref => e.function_reportable ref entryPoint

/-- Whatever an operation fails with inside the call boundary can be reported. -/
theorem routine_reportable (entryPoint : String) (o : Operation) :
    Routine.Comes σ Reportable (o.routine e entryPoint) := by
  cases o with
  | call id args =>
    exact (main_reportable e entryPoint id).next fun main =>
      (e.runScript_reportable _).next fun value => Routine.comes_get.next fun state =>
        Routine.comes_ofExcept (reportable_mapError_script _)
  | fireTrigger id event =>
    refine (main_reportable e entryPoint id).next fun main => ?_
    refine (e.runScript_comes _).attempt.bind ?_ ?_
    · rintro result ⟨_, hsame, hresult⟩
      cases hsame
      split
      · exact Routine.comes_ofExcept (event.outcomeOfError_reportable _)
      · rename_i f _
        obtain ⟨err, rfl⟩ := hresult f rfl
        exact Routine.comes_throw nofun
      · exact Routine.comes_get.next fun state => Routine.comes_ofExcept
          (event.outcomeOfValue_reportable _ (fun _ => reportable_mapError_script _) _)
    · rintro f ⟨_, hsame, -⟩
      cases hsame
  | executeInline text =>
    exact Routine.safepoint_reportable.next fun _ => Routine.comes_performed.next fun n =>
      (Routine.compile_reportable e.compiler_reportable _ _ _).next fun ref =>
        e.loadUnit_reportable ref
  | preload schemas =>
    exact Routine.preload_reportable e.compiler_reportable
      (fun _ => e.runScript_reportable _) schemas

end Operation

end ProcedureBridge
