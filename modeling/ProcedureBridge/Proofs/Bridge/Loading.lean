import ProcedureBridge.Proofs.Bridge.CachedUnits

/-! # Loads inside loads

Top-level code may load other units, load its own procedure again, drop units from the cache, and
fail. Loads are nested all the same: what a script begins to load has ended when the script has
ended. So a script leaves the same units in the middle of a load that it has found there, and no
unit in the cache whose top-level code has yet to begin. -/

namespace ProcedureBridge

variable {σ S U V α β : Type}

namespace Core

variable {c c' : Core σ U} {ref : UnitRef} {but : Option UnitRef}

/-! ## How far a load has come -/

def stage? (c : Core σ U) (ref : UnitRef) : Option LoadState :=
  (c.unit? ref).map ExecutionUnit.state

theorem stage?_of_units (h : c'.units = c.units) (ref : UnitRef) :
    c'.stage? ref = c.stage? ref := by
  rw [stage?, stage?, unit?, unit?, h]

theorem stage?_of_push {unit : ExecutionUnit U} (h : c'.units = c.units.push unit) (ref : UnitRef) :
    c'.stage? ref = if ref.index = c.units.size then some unit.state else c.stage? ref := by
  rw [stage?, unit?, h, Array.getElem?_push]
  split <;> rfl

theorem stage?_setLoadState (c : Core σ U) (ref x : UnitRef) (state : LoadState) :
    (c.setLoadState ref state).stage? x =
      if x = ref then (c.stage? x).map fun _ => state else c.stage? x := by
  rw [stage?, unit?, setLoadState, Array.getElem?_modify]
  by_cases hx : x = ref
  · subst hx
    simp [stage?, unit?, Function.comp_def]
  · have hindex : ref.index ≠ x.index := fun h => hx (congrArg UnitRef.mk h.symm)
    simp [hindex, hx, stage?, unit?]

theorem lt_of_stage? {state : LoadState} (h : c.stage? ref = some state) :
    ref.index < c.units.size := by
  obtain ⟨unit, hunit, -⟩ := Option.map_eq_some_iff.mp h
  exact (Array.getElem?_eq_some_iff.mp hunit).1

theorem beginLoad_of_fresh (h : c.stage? ref = some .fresh) :
    ∃ code, c.beginLoad ref = (some code, c.setLoadState ref .loading) := by
  obtain ⟨unit, hunit, hstate⟩ := Option.map_eq_some_iff.mp h
  exact ⟨unit.code, by simp only [beginLoad, hunit, hstate]⟩

theorem beginLoad_of_not_fresh (h : c.stage? ref ≠ some .fresh) : c.beginLoad ref = (none, c) := by
  simp only [beginLoad]
  split
  · rfl
  · rename_i unit hunit
    split
    · rename_i hstate
      exact absurd (by rw [stage?, hunit, Option.map_some, hstate]) h
    · rfl

/-- The top-level code of the unit is running, or has run to its end. -/
def Begun (c : Core σ U) (ref : UnitRef) : Prop :=
  c.stage? ref = some .loading ∨ c.stage? ref = some .loaded

theorem Begun.not_fresh (h : c.Begun ref) : c.stage? ref ≠ some .fresh := by
  rcases h with h | h <;> simp [h]

theorem Begun.lt (h : c.Begun ref) : ref.index < c.units.size := h.elim lt_of_stage? lt_of_stage?

/-- The cached units have begun to load, but for one at most. -/
def Sound (but : Option UnitRef) (c : Core σ U) : Prop :=
  ∀ id ref, c.cache.peek id = some ref → some ref = but ∨ c.Begun ref

theorem Sound.weaken (h : c.Sound none) (but : Option UnitRef) : c.Sound but :=
  fun id ref hid => .inr ((h id ref hid).resolve_left nofun)

theorem Sound.begun (h : c.Sound none) {id : ProcedureId} (hid : c.cache.peek id = some ref) :
    c.Begun ref := (h id ref hid).resolve_left nofun

theorem Sound.drop (h : c.Sound but) (hunits : c'.units = c.units)
    (hcache : c'.cache.Within c.cache) : c'.Sound but := by
  intro id ref hid
  simp only [Begun, stage?_of_units hunits]
  exact h id ref (hcache id ref hid)

theorem loading_begin (hfresh : c.stage? ref = some .fresh) (x : UnitRef) :
    (c.setLoadState ref .loading).stage? x = some .loading ↔
      x = ref ∨ c.stage? x = some .loading := by
  rw [stage?_setLoadState]
  by_cases hx : x = ref
  · simp [hx, hfresh]
  · simp [hx]

theorem stage?_endLoad (hloading : c.stage? ref = some .loading) (completed : Bool) (x : UnitRef) :
    (c.endLoad ref completed).stage? x =
      if x = ref then some (if completed then .loaded else .fresh) else c.stage? x := by
  rw [endLoad, stage?_setLoadState]
  by_cases hx : x = ref
  · simp [hx, hloading]
  · simp [hx]

theorem Sound.loadBegun (h : c.Sound (some ref)) (hfresh : c.stage? ref = some .fresh) :
    (c.setLoadState ref .loading).Sound none := by
  intro id x hid
  right
  simp only [Begun, stage?_setLoadState]
  by_cases hx : x = ref
  · simp [hx, hfresh]
  · have hne : some x ≠ some ref := fun heq => hx (Option.some.inj heq)
    simpa [hx, Begun] using (h id x hid).resolve_left hne

/-- A load that fails may leave its unit in the cache. -/
theorem Sound.loadEnded (h : c.Sound none) (hloading : c.stage? ref = some .loading)
    (completed : Bool) :
    (c.endLoad ref completed).Sound (if completed then none else some ref) := by
  intro id x hid
  by_cases hx : x = ref
  · subst hx
    cases completed with
    | true => exact .inr (.inr (by simp [stage?_endLoad hloading]))
    | false => exact .inl rfl
  · have hbegun := h.begun hid
    exact .inr (by simpa [Begun, stage?_endLoad hloading, hx] using hbegun)

/-- A new unit is in the cache at most where it is said to be. -/
theorem Sound.push (h : c.Sound none) {unit : ExecutionUnit U}
    (hunits : c'.units = c.units.push unit)
    (hcache : ∀ id ref, c'.cache.peek id = some ref → some ref = but ∨ c.cache.peek id = some ref) :
    c'.Sound but := by
  intro id ref hid
  refine (hcache id ref hid).imp_right fun hold => ?_
  have hbegun := h.begun hold
  simpa [Begun, stage?_of_push hunits, Nat.ne_of_lt hbegun.lt] using hbegun

theorem loading_of_push {unit : ExecutionUnit U} (hunits : c'.units = c.units.push unit)
    (hfresh : unit.state = .fresh) (ref : UnitRef) :
    c'.stage? ref = some .loading ↔ c.stage? ref = some .loading := by
  rw [stage?_of_push hunits]
  split
  · rename_i hnew
    refine ⟨fun h => ?_, fun h => ?_⟩
    · simp [hfresh] at h
    · exact absurd hnew (Nat.ne_of_lt (lt_of_stage? h))
  · rfl

/-- A unit that has not begun to load is not in the cache. -/
theorem Sound.dropped (h : c.Sound none) (hfresh : c.stage? ref = some .fresh) : c.Dropped ref :=
  ⟨lt_of_stage? hfresh, fun _ hid => (h.begun hid).not_fresh hfresh⟩

end Core

/-! ## Orderly stretches -/

/-- The action ends a load whose top-level code has failed. -/
def Action.failsLoad : Action S U → Bool
  | .endLoad _ completed => !completed
  | _ => false

/-- A stretch of a run is orderly if it ends with cached units that have begun to load, but for one
at most, and with the same units in the middle of a load as it began with. A unit whose top-level
code has failed is not in the cache then, but for that one. -/
structure Orderly (but : Option UnitRef) (c : Core σ U) (trace : List (Moment σ S U))
    (c' : Core σ U) : Prop where
  grows : c.Extends c'
  sound : c'.Sound but
  loading : ∀ ref, c'.stage? ref = some .loading ↔ c.stage? ref = some .loading
  failed : ∀ m ∈ trace, ∀ ref, m.action = .endLoad ref false → some ref = but ∨ c'.Dropped ref

namespace Orderly

variable {c c' c'' : Core σ U} {ref : UnitRef} {but : Option UnitRef}
  {but' : Option UnitRef} {trace trace' : List (Moment σ S U)} {m : Moment σ S U}

theorem nil (hc : c.Sound but) : Orderly but c ([] : List (Moment σ S U)) c where
  grows := .refl c
  sound := hc
  loading _ := .rfl
  failed m hm := by cases hm

theorem append (h : Orderly but c trace c') (h' : Orderly but' c' trace' c'')
    (hbut : ∀ ref, some ref = but → some ref = but') : Orderly but' c (trace ++ trace') c'' where
  grows := h.grows.trans h'.grows
  sound := h'.sound
  loading ref := (h'.loading ref).trans (h.loading ref)
  failed m hm ref href := by
    rcases List.mem_append.mp hm with hm | hm
    · exact (h.failed m hm ref href).imp (hbut ref) fun hd => hd.later h'.grows
    · exact h'.failed m hm ref href

/-- Once the unit is out of the cache there is no exception. -/
theorem close (h : Orderly (some ref) c trace c') (hd : c'.Dropped ref) :
    Orderly none c trace c' where
  grows := h.grows
  sound id x hid := by
    obtain hx | hx := h.sound id x hid
    · cases hx
      exact absurd hid (hd.2 id)
    · exact .inr hx
  loading := h.loading
  failed m hm x hx := by
    obtain heq | hdropped := h.failed m hm x hx
    · cases heq
      exact .inr hd
    · exact .inr hdropped

/-- The load of a unit around what its top-level code does. If the code fails, the unit is as new,
and may be in the cache. -/
theorem around (hfresh : c.stage? ref = some .fresh)
    (h : Orderly none (c.setLoadState ref .loading) trace c') (completed : Bool) :
    Orderly (if completed then none else some ref) c
      (⟨c, .beginLoad ref⟩ :: (trace ++ [⟨c', .endLoad ref completed⟩]))
      (c'.endLoad ref completed) := by
  have hbegan := Core.loading_begin hfresh
  have hloading : c'.stage? ref = some .loading := (h.loading ref).mpr ((hbegan ref).mpr (.inl rfl))
  have hgrows : c'.Extends (c'.endLoad ref completed) := .setLoadState c' ref _
  refine ⟨(Core.Extends.setLoadState c ref .loading).trans (h.grows.trans hgrows),
    h.sound.loadEnded hloading completed, fun x => ?_, fun m hm x hx => ?_⟩
  · rw [Core.stage?_endLoad hloading]
    by_cases hx : x = ref
    · subst hx
      cases completed <;> simp [hfresh]
    · rw [if_neg hx, h.loading, hbegan]
      simp [hx]
  · rcases List.mem_cons.mp hm with rfl | hm
    · cases hx
    · rcases List.mem_append.mp hm with hm | hm
      · exact .inr (((h.failed m hm x hx).resolve_left nofun).later hgrows)
      · cases List.mem_singleton.mp hm
        cases hx
        exact .inl rfl

variable [Host σ]

theorem cons (hm : m.action.failsLoad = false)
    (hloading : ∀ ref, m.after.stage? ref = some .loading ↔ m.core.stage? ref = some .loading)
    (h : Orderly but m.after trace c') : Orderly but m.core (m :: trace) c' where
  grows := m.extends.trans h.grows
  sound := h.sound
  loading ref := (h.loading ref).trans (hloading ref)
  failed m' hm' ref href := by
    rcases List.mem_cons.mp hm' with rfl | hm'
    · rw [href] at hm
      cases hm
    · exact h.failed m' hm' ref href

/-- What drops units from the cache at most, and begins and ends no load, is orderly. -/
theorem drop (hm : m.action.failsLoad = false) (hunits : m.after.units = m.core.units)
    (hcache : m.after.cache.Within m.core.cache) (hc : m.core.Sound but) :
    Orderly but m.core [m] m.after :=
  .cons hm (fun ref => by rw [Core.stage?_of_units hunits]) (.nil (hc.drop hunits hcache))

theorem plain (hm : m.action.handlesUnits = false) (hc : m.core.Sound but) :
    Orderly but m.core [m] m.after := by
  obtain ⟨hunits, hcache⟩ := Core.stock_eq.mp (m.after_stock hm)
  have hfails : m.action.failsLoad = false := by
    obtain ⟨c, action⟩ := m
    cases action <;> first | rfl | cases hm
  exact .drop hfails hunits (hcache ▸ .refl _) hc

theorem idle (hafter : m.after = m.core) (hm : m.action.failsLoad = false)
    (hc : m.core.Sound but) : Orderly but m.core [m] m.core := by
  have h := Orderly.drop hm (by rw [hafter]) (by rw [hafter]; exact .refl _) hc
  rwa [hafter] at h

end Orderly

variable [Host σ]

/-- Whatever happens around it, the task is orderly. -/
def Task.Nested (σ : Type) [Host σ] (t : Task S U α) : Prop :=
  ∀ c : Core σ U, c.Sound none → Orderly none c (t.trace c) (t.run c).2

theorem Orderly.bind {t : Task S U α} {k : α → Task S U β} {c : Core σ U}
    (h : Orderly none c (t.trace c) (t.run c).2) (hk : ∀ a, (k a).Nested σ) :
    Orderly none c ((t >>= k).trace c) ((t >>= k).run c).2 := by
  rw [Task.trace_bind, Task.run_bind]
  exact h.append (hk _ _ h.sound) fun _ => id

theorem Task.nested_composes : Task.Composes fun α (t : Task S U α) => t.Nested σ where
  pure _ _ hc := .nil hc
  bind ht hk c hc := (ht c hc).bind hk

/-- The compiler makes units whose code has not run. -/
def Compiler.MakesFresh (compiler : Compiler S U) : Prop :=
  ∀ id name text state unit state', compiler id name text state = .ok (unit, state') →
    unit.state = .fresh

namespace Routine

variable {compiler : Compiler S U} {runTop : U → Routine S U V} {c c' c'' : Core σ U}
  {ref : UnitRef} {state state' : S}

def endLoad (ref : UnitRef) (completed : Bool) : Routine S U PUnit :=
  perform (.endLoad ref completed)

/-- Runs top-level code as the load of its unit. -/
def runLoading (runTop : U → Routine S U V) (ref : UnitRef) (code : U) : Routine S U PUnit :=
  tryCatch (runTop code >>= fun _ => endLoad ref true) fun f =>
    endLoad ref false >>= fun _ => throw f

theorem run_runLoading (ref : UnitRef) {code : U} {result : Except Failure V}
    (htop : Task.run (runTop code state) c = ((result, state'), c')) :
    Task.run (runLoading runTop ref code state) c =
        ((result.map fun _ => ⟨⟩, state'), c'.endLoad ref result.isOk) ∧
      Task.trace (runLoading runTop ref code state) c =
        Task.trace (runTop code state) c ++ [⟨c', .endLoad ref result.isOk⟩] := by
  simp only [runLoading, tryCatch_apply, bind_apply, Task.run_bind, Task.trace_bind, htop]
  cases result with
  | ok v => exact ⟨rfl, List.append_nil _⟩
  | error f => exact ⟨rfl, congrArg (· ++ _) (List.append_nil _)⟩

/-- The run of a load that has top-level code to run. -/
theorem run_load_of_fresh {code : U} {result : Except Failure V}
    (hbegin : c.beginLoad ref = (some code, c'))
    (htop : Task.run (runTop code state) c' = ((result, state'), c'')) :
    Task.run (load runTop ref state) c =
        ((result.map fun _ => ⟨⟩, state'), c''.endLoad ref result.isOk) ∧
      Task.trace (load runTop ref state) c =
        ⟨c, .beginLoad ref⟩ ::
          (Task.trace (runTop code state) c' ++ [⟨c'', .endLoad ref result.isOk⟩]) := by
  have hanswer : c.perform (.beginLoad ref : Action S U) = (some code, c') := hbegin
  obtain ⟨hrun, htrace⟩ := run_runLoading ref htop
  simp only [load, bind_apply, Task.run_bind, Task.trace_bind, run_perform, sequel, hanswer]
  exact ⟨hrun, congrArg _ htrace⟩

theorem run_load_of_not_fresh (runTop : U → Routine S U V) (state : S)
    (hbegin : c.beginLoad ref = (none, c)) :
    Task.run (load runTop ref state) c = ((.ok ⟨⟩, state), c) ∧
      Task.trace (load runTop ref state) c = [⟨c, .beginLoad ref⟩] := by
  have hanswer : c.perform (.beginLoad ref : Action S U) = (none, c) := hbegin
  simp only [load, bind_apply, Task.run_bind, Task.trace_bind, run_perform, sequel, hanswer]
  exact ⟨rfl, rfl⟩

/-- A load that has to be run ends with at most its own unit in the cache with no load begun, and
with no such unit if it has not failed. -/
theorem load_orderly (hrun : ∀ code, All (fun _ t => t.Nested σ) (runTop code))
    (hc : c.Sound (some ref)) (hfresh : c.stage? ref = some .fresh) (state : S) :
    Orderly (if (Task.run (load runTop ref state) c).1.1.isOk then none else some ref) c
      (Task.trace (load runTop ref state) c) (Task.run (load runTop ref state) c).2 := by
  obtain ⟨code, hbegin⟩ := Core.beginLoad_of_fresh hfresh
  have htop := hrun code state _ (hc.loadBegun hfresh)
  rcases h : Task.run (runTop code state) (c.setLoadState ref .loading) with ⟨⟨result, state'⟩, c'⟩
  obtain ⟨hload, htrace⟩ := run_load_of_fresh hbegin h
  rw [h] at htop
  have haround := Orderly.around hfresh htop result.isOk
  rw [hload, htrace]
  cases result <;> exact haround

theorem load_idle (runTop : U → Routine S U V) (hfresh : c.stage? ref ≠ some .fresh)
    (hc : c.Sound none) (state : S) :
    Orderly none c (Task.trace (load runTop ref state) c)
      (Task.run (load runTop ref state) c).2 := by
  have hbegin := Core.beginLoad_of_not_fresh hfresh
  obtain ⟨hload, htrace⟩ := run_load_of_not_fresh runTop state hbegin
  rw [hload, htrace]
  exact .idle (m := ⟨c, .beginLoad ref⟩) (congrArg Prod.snd hbegin) rfl hc

theorem load_nested (hrun : ∀ code, All (fun _ t => t.Nested σ) (runTop code)) (ref : UnitRef) :
    All (fun _ t => t.Nested σ) (load runTop ref) := by
  intro state c hc
  by_cases hfresh : c.stage? ref = some .fresh
  · have h := load_orderly hrun (hc.weaken _) hfresh state
    split at h
    · exact h
    · exact h.close ((hc.dropped hfresh).later h.grows)
  · exact load_idle runTop hfresh hc state

/-! ### Units of procedures -/

/-- The engine's state after a unit was obtained. -/
def stateAfter (state : S) : Except Failure (UnitRef × Option S) → S
  | .ok (_, some state') => state'
  | _ => state

theorem obtain_apply (compiler : Compiler S U) (id : ProcedureId) (state : S) :
    obtain compiler id state = Task.act (.obtain id (compiling compiler id state)) fun answer =>
      .pure (Except.map Prod.fst answer, stateAfter state answer) := by
  refine congrArg (Task.act _) ?_
  funext answer
  rcases answer with f | ⟨ref, _ | state'⟩ <;> rfl

theorem compile_apply (compiler : Compiler S U) (id : UnitId) (name text : String) (state : S) :
    compile compiler id name text state =
      match compiler id name text state with
      | .error f => .pure (.error f, state)
      | .ok (unit, state') => .act (.addUnit unit) fun ref => .pure (.ok ref, state') := by
  change (ofExcept (compiler id name text state) >>= fun made => do
    set made.2
    perform (.addUnit made.1) : Routine S U UnitRef) state = _
  cases compiler id name text state <;> rfl

theorem compile_nested (hcompiler : compiler.MakesFresh) (id : UnitId) (name text : String) :
    All (fun _ t => t.Nested σ) (compile compiler id name text) := by
  intro state c hc
  rw [compile_apply]
  split
  · exact .nil hc
  · rename_i unit state' hmade
    have hsound : (c.addUnit unit).2.Sound none := hc.push rfl fun _ _ h => .inr h
    exact .cons (m := ⟨c, .addUnit unit⟩) rfl
      (Core.loading_of_push rfl (hcompiler _ _ _ _ _ _ hmade)) (.nil hsound)

def drop (id : ProcedureId) : Routine S U PUnit := perform (.invalidate id)

/-- Loads a unit, and drops it from the cache if that fails. -/
def loadOrDrop (runTop : U → Routine S U V) (id : ProcedureId) (ref : UnitRef) :
    Routine S U PUnit :=
  tryCatch (load runTop ref) fun f => drop id >>= fun _ => throw f

theorem run_loadOrDrop_of_loaded (id : ProcedureId)
    (hload : Task.run (load runTop ref state) c = ((.ok ⟨⟩, state'), c')) :
    Task.run (loadOrDrop runTop id ref state) c = ((.ok ⟨⟩, state'), c') ∧
      Task.trace (loadOrDrop runTop id ref state) c = Task.trace (load runTop ref state) c := by
  rw [loadOrDrop, tryCatch_apply, Task.trace_bind, Task.run_bind, hload]
  exact ⟨rfl, List.append_nil _⟩

theorem run_loadOrDrop_of_failed (id : ProcedureId) {f : Failure}
    (hload : Task.run (load runTop ref state) c = ((.error f, state'), c')) :
    Task.run (loadOrDrop runTop id ref state) c = ((.error f, state'), (c'.invalidate id).2) ∧
      Task.trace (loadOrDrop runTop id ref state) c =
        Task.trace (load runTop ref state) c ++ [⟨c', .invalidate id⟩] := by
  rw [loadOrDrop, tryCatch_apply, Task.trace_bind, Task.run_bind, hload]
  exact ⟨rfl, rfl⟩

/-- What is done once the unit of a procedure was obtained, or was not. -/
def afterObtain (runTop : U → Routine S U V) (id : ProcedureId) (state : S)
    (answer : Except Failure (UnitRef × Option S)) : Task S U (Except Failure UnitRef × S) :=
  sequel (fun ref => loadOrDrop runTop id ref >>= fun _ => pure ref)
    (answer.map Prod.fst, stateAfter state answer)

theorem loadProcedure_apply (compiler : Compiler S U) (runTop : U → Routine S U V)
    (id : ProcedureId) (state : S) :
    loadProcedure compiler runTop id state =
      Task.act (.obtain id (compiling compiler id state)) (afterObtain runTop id state) := by
  change (obtain compiler id >>= fun ref =>
    loadOrDrop runTop id ref >>= fun _ => pure ref) state = _
  rw [bind_apply, obtain_apply]
  rfl

variable {id : ProcedureId}

theorem run_loadProcedure (state : S) (c : Core σ U) :
    Task.run (loadProcedure compiler runTop id state) c =
        Task.run (afterObtain runTop id state (c.obtain id (compiling compiler id state)).1)
          (c.obtain id (compiling compiler id state)).2 ∧
      Task.trace (loadProcedure compiler runTop id state) c =
        ⟨c, .obtain id (compiling compiler id state)⟩ ::
          Task.trace (afterObtain runTop id state (c.obtain id (compiling compiler id state)).1)
            (c.obtain id (compiling compiler id state)).2 := by
  rw [loadProcedure_apply]
  exact ⟨rfl, rfl⟩

/-- What cannot be obtained is not loaded. -/
theorem loadProcedure_of_failed (runTop : U → Routine S U V) {f : Failure}
    (hobtain : c.obtain id (compiling compiler id state) = (.error f, c')) :
    Task.run (loadProcedure compiler runTop id state) c = ((.error f, state), c') ∧
      Task.trace (loadProcedure compiler runTop id state) c =
        [⟨c, .obtain id (compiling compiler id state)⟩] := by
  rw [(run_loadProcedure state c).1, (run_loadProcedure state c).2, hobtain]
  exact ⟨rfl, rfl⟩

/-- What was obtained is loaded next. -/
theorem loadProcedure_of_obtained (runTop : U → Routine S U V) {state? : Option S}
    (hobtain : c.obtain id (compiling compiler id state) = (.ok (ref, state?), c')) :
    ∃ rest, Task.trace (loadProcedure compiler runTop id state) c =
      ⟨c, .obtain id (compiling compiler id state)⟩ :: ⟨c', .beginLoad ref⟩ :: rest := by
  rw [(run_loadProcedure state c).2, hobtain]
  exact ⟨_, rfl⟩

/-- A procedure that is compiled now is loaded now. If its code fails, so does the load. -/
theorem failed_mem_loadProcedure {code : U} {f : Failure} {state'' : S} {c₁ c₂ : Core σ U}
    (hobtain : c.obtain id (compiling compiler id state) = (.ok (ref, some state'), c'))
    (hbegin : c'.beginLoad ref = (some code, c₁))
    (htop : Task.run (runTop code state') c₁ = ((.error f, state''), c₂)) :
    ⟨c₂, .endLoad ref false⟩ ∈ Task.trace (loadProcedure compiler runTop id state) c := by
  obtain ⟨-, htrace⟩ := run_load_of_fresh hbegin htop
  rw [(run_loadProcedure state c).2, hobtain]
  refine List.mem_cons_of_mem _ (mem_trace_bind (mem_trace_tryCatch ?_ _) _)
  change _ ∈ Task.trace (load runTop ref state') c'
  rw [htrace]
  exact List.mem_cons_of_mem _ (List.mem_append_right _ List.mem_cons_self)

/-- If its top-level code returns, the procedure is loaded. -/
theorem run_loadProcedure_of_made {code : U} {v : V} {state'' : S} {c₁ c₂ : Core σ U}
    (hobtain : c.obtain id (compiling compiler id state) = (.ok (ref, some state'), c'))
    (hbegin : c'.beginLoad ref = (some code, c₁))
    (htop : Task.run (runTop code state') c₁ = ((.ok v, state''), c₂)) :
    Task.run (loadProcedure compiler runTop id state) c =
      ((.ok ref, state''), c₂.endLoad ref true) := by
  rw [(run_loadProcedure state c).1, hobtain]
  change Task.run ((loadOrDrop runTop id ref >>= fun _ => pure ref) state') c' = _
  rw [bind_apply, Task.run_bind, (run_loadOrDrop_of_loaded id (run_load_of_fresh hbegin htop).1).1]
  rfl

/-- What was in the cache already has begun to load, so that nothing is left to do. -/
theorem run_loadOrDrop_of_begun (runTop : U → Routine S U V) (id : ProcedureId)
    (href : c.Begun ref) (state : S) :
    Task.run (loadOrDrop runTop id ref state) c = ((.ok ⟨⟩, state), c) ∧
      Task.trace (loadOrDrop runTop id ref state) c = [⟨c, .beginLoad ref⟩] := by
  have hbegin := Core.beginLoad_of_not_fresh href.not_fresh
  obtain ⟨hload, htrace⟩ := run_load_of_not_fresh runTop state hbegin
  rw [← htrace]
  exact run_loadOrDrop_of_loaded id hload

theorem loadOrDrop_of_begun (hc : c.Sound none) (href : c.Begun ref) (state : S) :
    Orderly none c (Task.trace (loadOrDrop runTop id ref state) c)
      (Task.run (loadOrDrop runTop id ref state) c).2 := by
  have hbegin := Core.beginLoad_of_not_fresh href.not_fresh
  obtain ⟨hrun, htrace⟩ := run_loadOrDrop_of_begun runTop id href state
  rw [hrun, htrace]
  exact .idle (m := ⟨c, .beginLoad ref⟩) (congrArg Prod.snd hbegin) rfl hc

/-- What was made now is loaded, or dropped from the cache again. -/
theorem loadOrDrop_of_fresh (hrun : ∀ code, All (fun _ t => t.Nested σ) (runTop code))
    (hc : c.Sound (some ref)) (hfresh : c.stage? ref = some .fresh)
    (hid : ∀ x, c.cache.peek x = some ref → x = id) (state : S) :
    Orderly none c (Task.trace (loadOrDrop runTop id ref state) c)
      (Task.run (loadOrDrop runTop id ref state) c).2 := by
  have h := load_orderly hrun hc hfresh state
  rcases hload : Task.run (load runTop ref state) c with ⟨⟨f | ⟨⟩, state'⟩, c'⟩
  · obtain ⟨hfailed, htrace⟩ := run_loadOrDrop_of_failed id hload
    rw [hload] at h
    rw [hfailed, htrace]
    have hdrop := Orderly.drop (m := ⟨c', (.invalidate id : Action S U)⟩) rfl rfl
      (c'.cache.invalidate_within id) h.sound
    have hlt := Core.lt_of_stage? hfresh
    refine (h.append hdrop fun _ h => h).close (Core.dropped_invalidate ?_ fun x hx => ?_)
    · exact Nat.lt_of_lt_of_le hlt h.grows.size
    · exact hid x (h.grows.cached hx hlt)
  · obtain ⟨hdone, htrace⟩ := run_loadOrDrop_of_loaded id hload
    rw [hload] at h
    rwa [hdone, htrace]

/-- A unit that was obtained is loaded, or dropped. -/
theorem run_afterObtain (state? : Option S) {r : Except Failure PUnit}
    (h : Task.run (loadOrDrop runTop id ref (stateAfter state (.ok (ref, state?)))) c =
      ((r, state'), c')) :
    Task.run (afterObtain runTop id state (.ok (ref, state?))) c =
        ((r.map fun _ => ref, state'), c') ∧
      Task.trace (afterObtain runTop id state (.ok (ref, state?))) c =
        Task.trace (loadOrDrop runTop id ref (stateAfter state (.ok (ref, state?)))) c := by
  change Task.run ((loadOrDrop runTop id ref >>= fun _ => pure ref) _) c = _ ∧
    Task.trace ((loadOrDrop runTop id ref >>= fun _ => pure ref) _) c = _
  rw [bind_apply, Task.run_bind, Task.trace_bind, h]
  cases r <;> exact ⟨rfl, List.append_nil _⟩

theorem orderly_afterObtain (state? : Option S)
    (h : Orderly none c
      (Task.trace (loadOrDrop runTop id ref (stateAfter state (.ok (ref, state?)))) c)
      (Task.run (loadOrDrop runTop id ref (stateAfter state (.ok (ref, state?)))) c).2) :
    Orderly none c (Task.trace (afterObtain runTop id state (.ok (ref, state?))) c)
      (Task.run (afterObtain runTop id state (.ok (ref, state?))) c).2 := by
  rcases hload : Task.run (loadOrDrop runTop id ref (stateAfter state (.ok (ref, state?)))) c with
    ⟨⟨r, state'⟩, c'⟩
  obtain ⟨hrun, htrace⟩ := run_afterObtain state? hload
  rw [hload] at h
  rwa [hrun, htrace]

theorem trace_loadProcedure_of_made {code : U} {v : V} {state'' : S} {c₁ c₂ : Core σ U}
    (hobtain : c.obtain id (compiling compiler id state) = (.ok (ref, some state'), c'))
    (hbegin : c'.beginLoad ref = (some code, c₁))
    (htop : Task.run (runTop code state') c₁ = ((.ok v, state''), c₂)) :
    Task.trace (loadProcedure compiler runTop id state) c =
      ⟨c, .obtain id (compiling compiler id state)⟩ :: ⟨c', .beginLoad ref⟩ ::
        (Task.trace (runTop code state') c₁ ++ [⟨c₂, .endLoad ref true⟩]) := by
  obtain ⟨hload, htrace⟩ := run_load_of_fresh hbegin htop
  obtain ⟨hrun, htrace'⟩ := run_loadOrDrop_of_loaded id hload
  rw [(run_loadProcedure state c).2, hobtain, (run_afterObtain (some state') hrun).2]
  exact congrArg _ (htrace'.trans htrace)

theorem afterObtain_orderly (hcompiler : compiler.MakesFresh)
    (hrun : ∀ code, All (fun _ t => t.Nested σ) (runTop code)) (hc : c.Sound none)
    {r : Except Failure (UnitRef × Option S) × Core σ U}
    (hr : c.Obtained id (compiling compiler id state) r) :
    (∀ ref, r.2.stage? ref = some .loading ↔ c.stage? ref = some .loading) ∧
      Orderly none r.2 (Task.trace (afterObtain runTop id state r.1) r.2)
        (Task.run (afterObtain runTop id state r.1) r.2).2 := by
  cases hr with
  | failed hunits hpeek =>
    exact ⟨fun ref => by rw [Core.stage?_of_units hunits],
      .nil (hc.drop hunits (CodeCache.within_of_peek hpeek))⟩
  | @found ref c' hit hunits hpeek =>
    have hsound := hc.drop hunits (CodeCache.within_of_peek hpeek)
    have hbegun : c'.Begun ref := hsound.begun ((hpeek id).trans hit)
    exact ⟨fun ref => by rw [Core.stage?_of_units hunits],
      orderly_afterObtain none (loadOrDrop_of_begun hsound hbegun state)⟩
  | @made source unit state' c' hmade hunits hpeek =>
    have hfresh := hcompiler _ _ _ _ _ _ hmade
    have hsound : c'.Sound (some ⟨c.units.size⟩) := hc.push hunits fun x ref hx =>
      (hpeek x ref hx).imp_left fun h => congrArg some h.2
    have hstage : c'.stage? ⟨c.units.size⟩ = some .fresh := by
      rw [Core.stage?_of_push hunits, if_pos rfl, hfresh]
    refine ⟨Core.loading_of_push hunits hfresh, ?_⟩
    refine orderly_afterObtain (some state')
      (loadOrDrop_of_fresh hrun hsound hstage (fun x hx => ?_) state')
    obtain hnew | hold := hpeek x _ hx
    · exact hnew.1
    · exact absurd (hc.begun hold).lt (Nat.lt_irrefl _)

/-- If the load of a procedure succeeds, its unit is being loaded or is loaded. -/
theorem loadProcedure_begun (hcompiler : compiler.MakesFresh)
    (hrun : ∀ code, All (fun _ t => t.Nested σ) (runTop code)) (hc : c.Sound none)
    (h : Task.run (loadProcedure compiler runTop id state) c = ((.ok ref, state'), c')) :
    c'.Begun ref := by
  rw [(run_loadProcedure state c).1] at h
  have hobtained := c.obtain_obtained id (compiling compiler id state)
  generalize c.obtain id (compiling compiler id state) = r at hobtained h
  cases hobtained with
  | failed => cases h
  | @found x c₁ hit hunits hpeek =>
    have hbegun : c₁.Begun x :=
      (hc.drop hunits (CodeCache.within_of_peek hpeek)).begun ((hpeek id).trans hit)
    rw [(run_afterObtain none (run_loadOrDrop_of_begun runTop id hbegun state).1).1] at h
    cases h
    exact hbegun
  | @made source unit state₁ c₁ hmade hunits hpeek =>
    have hfresh : c₁.stage? ⟨c.units.size⟩ = some .fresh := by
      rw [Core.stage?_of_push hunits, if_pos rfl, hcompiler _ _ _ _ _ _ hmade]
    have hsound : c₁.Sound (some ⟨c.units.size⟩) := hc.push hunits fun x ref hx =>
      (hpeek x ref hx).imp_left fun h => congrArg some h.2
    obtain ⟨code, hbegin⟩ := Core.beginLoad_of_fresh hfresh
    rcases htop : Task.run (runTop code state₁) (c₁.setLoadState ⟨c.units.size⟩ .loading) with
      ⟨⟨f | v, state₂⟩, c₂⟩
    · have hload := (run_load_of_fresh hbegin htop).1
      rw [(run_afterObtain (some state₁) (run_loadOrDrop_of_failed id hload).1).1] at h
      cases h
    · have hload := (run_load_of_fresh hbegin htop).1
      rw [(run_afterObtain (some state₁) (run_loadOrDrop_of_loaded id hload).1).1] at h
      cases h
      have horderly := hrun code state₁ _ (hsound.loadBegun hfresh)
      rw [htop] at horderly
      have hloading := (horderly.loading _).mpr ((Core.loading_begin hfresh _).mpr (.inl rfl))
      exact .inr (by rw [Core.stage?_endLoad hloading, if_pos rfl]; rfl)

theorem loadProcedure_nested (hcompiler : compiler.MakesFresh)
    (hrun : ∀ code, All (fun _ t => t.Nested σ) (runTop code)) (id : ProcedureId) :
    All (fun _ t => t.Nested σ) (loadProcedure compiler runTop id) := by
  intro state c hc
  rw [loadProcedure_apply]
  obtain ⟨hloading, h⟩ := afterObtain_orderly hcompiler hrun hc
    (c.obtain_obtained id (compiling compiler id state))
  exact .cons (m := ⟨c, .obtain id (compiling compiler id state)⟩) rfl hloading h

end Routine

/-- Whatever scripts do, their loads are nested. -/
theorem Compiler.carries_nested {compiler : Compiler S U} (hcompiler : compiler.MakesFresh) :
    compiler.Carries fun _ t => t.Nested σ where
  toCarriesScripts := .of_perform Task.nested_composes
    (fun action ha _ c hc => .plain (m := ⟨c, action⟩) ha hc)
    (fun c hc => .drop (m := ⟨c, .clearCache⟩) rfl rfl c.cache.invalidateAll_within hc)
    (Routine.loadProcedure_nested hcompiler)
  compile := Routine.compile_nested hcompiler
  load := Routine.load_nested

/-- What the engine compiles is a unit of the id that it was asked for, whose code has not run. -/
theorem Engine.compiler_ok {e : Engine} {id : UnitId} {name text : String} {state state' : e.State}
    {unit : ExecutionUnit e.Code} (h : e.compiler id name text state = .ok (unit, state')) :
    ∃ code, unit = { id, name, checksum := Text.checksum text, code } := by
  simp only [Engine.compiler] at h
  cases hparse : (e.parse ("[" ++ name ++ "]") text).mapError (compileFailure id) with
  | error f =>
    rw [hparse] at h
    cases h
  | ok chunk =>
    rw [hparse] at h
    cases h
    exact ⟨_, rfl⟩

theorem Engine.compiler_makesFresh (e : Engine) : e.compiler.MakesFresh := by
  intro id name text state unit state' h
  obtain ⟨code, rfl⟩ := e.compiler_ok h
  rfl

theorem Engine.carries_nested (e : Engine) : e.compiler.Carries fun _ t => t.Nested σ :=
  Compiler.carries_nested e.compiler_makesFresh

end ProcedureBridge
