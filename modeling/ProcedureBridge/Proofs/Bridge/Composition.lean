import ProcedureBridge.Proofs.Bridge.Frame
import ProcedureBridge.Session.Operation

/-! # What sequences keep

Scripts and operations are put together from a few parts: actions, texts that are compiled, and
units that are loaded. A property of tasks that each of these parts has and every sequence keeps is
one of every script and every operation. -/

namespace ProcedureBridge

variable {S U V α β : Type}

namespace Routine

/-- How a sequence goes on after its first part. -/
def sequel (f : α → Routine S U β) : Except Failure α × S → Task S U (Except Failure β × S)
  | (.ok a, state) => f a state
  | (.error failure, state) => .pure (.error failure, state)

theorem bind_apply (x : Routine S U α) (f : α → Routine S U β) (state : S) :
    (x >>= f) state = (x state >>= sequel f) := by
  refine congrArg (fun k => x state >>= k) ?_
  funext r
  obtain ⟨result, state⟩ := r
  cases result <;> rfl

theorem run_bind_of_ok {σ : Type} [Host σ] {x : Routine S U α} {f : α → Routine S U β}
    {state state' : S} {c c' : Core σ U} {a : α}
    (h : Task.run (x state) c = ((.ok a, state'), c')) :
    Task.run ((x >>= f) state) c = Task.run (f a state') c' ∧
      Task.trace ((x >>= f) state) c = Task.trace (x state) c ++ Task.trace (f a state') c' := by
  rw [bind_apply, Task.run_bind, Task.trace_bind, h]
  exact ⟨rfl, rfl⟩

/-- A sequence begins with what its first part does. -/
theorem mem_trace_bind {σ : Type} [Host σ] {x : Routine S U α} {state : S} {c : Core σ U}
    {m : Moment σ S U} (hm : m ∈ Task.trace (x state) c) (f : α → Routine S U β) :
    m ∈ Task.trace ((x >>= f) state) c := by
  rw [bind_apply, Task.trace_bind]
  exact List.mem_append_left _ hm

/-- What is done after a part whose failures are caught. -/
def catching (handler : Failure → Routine S U α) :
    Except Failure α × S → Task S U (Except Failure α × S)
  | (.ok a, state) => .pure (.ok a, state)
  | (.error failure, state) => handler failure state

theorem tryCatch_apply (x : Routine S U α) (handler : Failure → Routine S U α) (state : S) :
    (tryCatch x handler : Routine S U α) state = (x state >>= catching handler) := by
  refine congrArg (fun k => x state >>= k) ?_
  funext r
  obtain ⟨result, state⟩ := r
  cases result <;> rfl

theorem mem_trace_tryCatch {σ : Type} [Host σ] {x : Routine S U α} {state : S} {c : Core σ U}
    {m : Moment σ S U} (hm : m ∈ Task.trace (x state) c) (handler : Failure → Routine S U α) :
    m ∈ Task.trace ((tryCatch x handler : Routine S U α) state) c := by
  rw [tryCatch_apply, Task.trace_bind]
  exact List.mem_append_left _ hm

theorem attempt_apply (x : Routine S U α) (state : S) :
    Routine.attempt x state = (x state >>= fun r => .pure (.ok r.1, r.2)) := rfl

theorem run_perform {σ : Type} [Host σ] (action : Action S U) (state : S) (c : Core σ U) :
    Task.run (perform action state) c =
      ((.ok (c.perform action).1, state), (c.perform action).2) := rfl

theorem run_compile {σ : Type} [Host σ] {compiler : Compiler S U} {id : UnitId} {name text : String}
    {state state' : S} {unit : ExecutionUnit U}
    (hcompile : compiler id name text state = .ok (unit, state')) (c : Core σ U) :
    Task.run (compile compiler id name text state) c =
      ((.ok (c.addUnit unit).1, state'), (c.addUnit unit).2) := by
  change Task.run ((ofExcept (compiler id name text state) >>= fun made => do
    set made.2
    perform (.addUnit made.1) : Routine S U UnitRef) state) c = _
  rw [hcompile]
  rfl

end Routine

namespace Engine

section

variable {e : Engine} {σ : Type} [Host σ]

theorem run_runScript (script : e.State → Script e.State e.Value e.Code) (state : e.State)
    (c : Core σ e.Code) :
    Task.run (e.runScript script state) c =
        (fun (o, c') => ((o.result.mapError Failure.script, o.state), c'))
          (Task.run ((script state).task e.compiler) c) ∧
      Task.trace (e.runScript script state) c = Task.trace ((script state).task e.compiler) c :=
  ⟨Task.run_bind _ _ c, (Task.trace_bind _ _ c).trans (List.append_nil _)⟩

/-- A script that loads schemas and then returns. -/
theorem run_runScript_preload {script : e.State → Script e.State e.Value e.Code}
    {initial state state' : e.State} {c c' : Core σ e.Code} {schemas : List String} {n : Nat}
    {v : e.Value} {topLevel : e.Code → e.State → Script e.State e.Value e.Code}
    {next : Outcome e.State Nat → Script e.State e.Value e.Code}
    (hscript : script initial = .preload schemas state topLevel next)
    (hrun : Task.run (Routine.preload e.compiler (fun code => e.runScript (topLevel code)) schemas
      state) c = ((.ok n, state'), c'))
    (hnext : next ⟨.ok n, state'⟩ = .done ⟨.ok v, state'⟩) :
    Task.run (e.runScript script initial) c = ((.ok v, state'), c') ∧
      Task.trace (e.runScript script initial) c =
        Task.trace (Routine.preload e.compiler (fun code => e.runScript (topLevel code)) schemas
          state) c := by
  obtain ⟨k, htask, hk⟩ : ∃ k : _ → Task e.State e.Code (Outcome e.State e.Value),
      (script initial).task e.compiler =
        Routine.preload e.compiler (fun code => e.runScript (topLevel code)) schemas state >>= k ∧
      k (.ok n, state') = pure ⟨.ok v, state'⟩ := by
    rw [hscript]
    exact ⟨_, rfl, congrArg (Script.task e.compiler) hnext⟩
  obtain ⟨hscript', htrace⟩ := run_runScript script initial c
  rw [hscript', htrace, htask, Task.run_bind, Task.trace_bind, hrun, hk]
  exact ⟨rfl, List.append_nil _⟩

end

/-- Finds a function in the namespace of a unit that was loaded. -/
def finding (e : Engine) (ref : UnitRef) (name : String) : Routine e.State e.Code e.Value := do
  match ← Routine.perform (.unit ref) with
  | none => throw (.invalidArgument "no such unit")
  | some unit =>
    let value ← e.runScript (e.member unit.code name)
    if e.isFunction value then pure value else throw (missingEntryPoint unit name)

end Engine

namespace Operation

/-- Calls the entry point of a unit that is loaded. -/
def invoking (e : Engine) (entryPoint : String) (args : List Datum) (ref : UnitRef) :
    Routine e.State e.Code Datum := do
  let main ← e.function ref entryPoint
  let value ← e.runScript (e.invoke main args)
  e.datum value

theorem run_calling {σ : Type} [Host σ] {e : Engine} {entryPoint : String} {id : ProcedureId}
    {args : List Datum} {state state' : e.State} {c c' : Core σ e.Code} {ref : UnitRef}
    (hload : Task.run (e.loadProcedure id state) c = ((.ok ref, state'), c')) :
    Task.run (calling e entryPoint id args state) c =
      Task.run (invoking e entryPoint args ref state') c' := by
  simp only [calling, main, invoking, Routine.bind_apply, Task.run_bind, hload, Routine.sequel]

theorem trace_calling {σ : Type} [Host σ] {e : Engine} {entryPoint : String} {id : ProcedureId}
    {args : List Datum} {state state' : e.State} {c c' : Core σ e.Code} {ref : UnitRef}
    (hload : Task.run (e.loadProcedure id state) c = ((.ok ref, state'), c')) :
    Task.trace (calling e entryPoint id args state) c =
      Task.trace (e.loadProcedure id state) c ++
        Task.trace (invoking e entryPoint args ref state') c' := by
  simp only [calling, main, invoking, Routine.bind_apply, Task.run_bind, Task.trace_bind, hload,
    Routine.sequel, List.append_assoc]

/-- A call whose procedure cannot be loaded ends there. -/
theorem calling_of_failed {σ : Type} [Host σ] {e : Engine} (entryPoint : String)
    {id : ProcedureId} (args : List Datum) {state state' : e.State} {c c' : Core σ e.Code}
    {f : Failure} (hload : Task.run (e.loadProcedure id state) c = ((.error f, state'), c')) :
    Task.run (calling e entryPoint id args state) c = ((.error f, state'), c') ∧
      Task.trace (calling e entryPoint id args state) c =
        Task.trace (e.loadProcedure id state) c := by
  simp only [calling, main, Routine.bind_apply, Task.run_bind, Task.trace_bind, hload,
    Routine.sequel]
  exact ⟨rfl, (List.append_nil _).trans (List.append_nil _)⟩

/-- A call begins with loading its procedure. -/
theorem exists_trace_calling {σ : Type} [Host σ] (e : Engine) (entryPoint : String)
    (id : ProcedureId) (args : List Datum) (state : e.State) (c : Core σ e.Code) :
    ∃ rest, Task.trace (calling e entryPoint id args state) c =
      Task.trace (e.loadProcedure id state) c ++ rest := by
  simp only [calling, main, Routine.bind_apply, Task.trace_bind, List.append_assoc]
  exact ⟨_, rfl⟩

end Operation

/-- A handler that begins has a pattern that catches some error as the exception. -/
def Action.Named : Action S U → Prop
  | .beginHandling exc => ∃ pattern p err,
      CatchPattern.parse pattern = .ok p ∧ p.caught? err = some exc
  | _ => True

/-- The action opens or ends the scope of a body, or begins or ends a handler. -/
def Action.encloses : Action S U → Bool
  | .enterScope | .resolveScope .. | .abortThrough _ | .beginHandling _ | .endHandling => true
  | _ => false

/-! ## Sequences -/

/-- A sequence has the property if its parts have it. -/
structure Task.Composes (N : (α : Type) → Task S U α → Prop) : Prop where
  pure : ∀ {α : Type} (a : α), N α (.pure a)
  bind : ∀ {α β : Type} {t : Task S U α} {k : α → Task S U β}, N α t → (∀ a, N β (k a)) →
    N β (t >>= k)

namespace Routine

/-- Whatever the state is in which the routine begins, its task has the property. -/
def All (N : (α : Type) → Task S U α → Prop) (x : Routine S U α) : Prop := ∀ state, N _ (x state)

variable {N : (α : Type) → Task S U α → Prop}

theorem all_pure (hN : Task.Composes N) (a : α) : All N (pure a : Routine S U α) :=
  fun _ => hN.pure _

theorem all_throw (hN : Task.Composes N) (f : Failure) : All N (throw f : Routine S U α) :=
  fun _ => hN.pure _

theorem all_ofExcept (hN : Task.Composes N) (r : Except Failure α) :
    All N (ofExcept r : Routine S U α) := fun _ => hN.pure _

theorem all_get (hN : Task.Composes N) : All N (get : Routine S U S) := fun _ => hN.pure _

theorem all_set (hN : Task.Composes N) (state : S) : All N (set state : Routine S U PUnit) :=
  fun _ => hN.pure _

theorem all_perform (hN : Task.Composes N) {action : Action S U} (h : N _ (Task.perform action)) :
    All N (perform action) := fun _ => hN.bind h fun _ => hN.pure _

theorem All.bind {x : Routine S U α} {f : α → Routine S U β} (hx : All N x)
    (hN : Task.Composes N) (hf : ∀ a, All N (f a)) : All N (x >>= f) := by
  intro state
  rw [bind_apply]
  refine hN.bind (hx state) fun r => ?_
  obtain ⟨result, state⟩ := r
  cases result with
  | ok a => exact hf a state
  | error f => exact hN.pure _

theorem All.tryCatch {x : Routine S U α} {f : Failure → Routine S U α} (hx : All N x)
    (hN : Task.Composes N) (hf : ∀ e, All N (f e)) : All N (tryCatch x f) := by
  intro state
  rw [tryCatch_apply]
  refine hN.bind (hx state) fun r => ?_
  obtain ⟨result, state⟩ := r
  cases result with
  | ok a => exact hN.pure _
  | error e => exact hf e state

theorem All.attempt {x : Routine S U α} (hx : All N x) (hN : Task.Composes N) :
    All N (attempt x) := fun state => hN.bind (hx state) fun _ => hN.pure _

theorem all_foldlM (hN : Task.Composes N) {f : β → α → Routine S U β} (hf : ∀ b a, All N (f b a))
    (l : List α) (b : β) : All N (l.foldlM f b) := by
  induction l generalizing b with
  | nil => exact all_pure hN b
  | cons a l ih =>
    rw [List.foldlM_cons]
    exact (hf b a).bind hN fun b => ih b

end Routine

/-! ## Scopes and handlers -/

namespace Task

theorem bind_assoc {γ : Type} (t : Task S U α) (f : α → Task S U β) (g : β → Task S U γ) :
    (t >>= f) >>= g = t >>= fun a => f a >>= g := by
  induction t with
  | pure a => rfl
  | act action next ih => exact congrArg (Task.act action) (funext fun answer => ih answer)

/-- Runs a body in a scope of its own. -/
def inScope (state : S) (body : Task S U (Outcome S V)) : Task S U (Outcome S V) :=
  .act .enterScope fun
    | .error f => .pure ⟨.error f.toScriptError, state⟩
    | .ok handle =>
      body >>= fun o => leaveScope handle o.result >>= fun result => .pure ⟨result, o.state⟩

/-- Runs a handler of an exception. -/
def handling (exc : Exception) (handler : Task S U (Outcome S V)) : Task S U (Outcome S V) :=
  perform (.beginHandling exc) >>= fun _ =>
    handler >>= fun o => perform .endHandling >>= fun _ => .pure o

theorem handling_bind (exc : Exception) (handler : Task S U (Outcome S V))
    (next : Outcome S V → Task S U β) :
    handling exc handler >>= next = perform (.beginHandling exc) >>= fun _ =>
      handler >>= fun o => perform .endHandling >>= fun _ => next o := by
  simp only [handling, bind_assoc]
  rfl

end Task

theorem Script.task_scope (compiler : Compiler S U) (state : S) (body : S → Script S V U)
    (next : Outcome S V → Script S V U) :
    (Script.scope state body next).task compiler =
      Task.inScope state ((body state).task compiler) >>= fun o => (next o).task compiler := by
  rw [Script.task]
  refine congrArg (Task.act .enterScope) (funext fun answer => ?_)
  cases answer with
  | error f => rfl
  | ok handle =>
    change _ = (_ >>= _) >>= _
    simp only [Task.bind_assoc]
    rfl

namespace Task.Composes

variable {N : (α : Type) → Task S U α → Prop}

theorem act (hN : Composes N) {action : Action S U} {next : action.Answer → Task S U α}
    (ha : N _ (perform action)) (h : ∀ answer, N α (next answer)) : N α (.act action next) :=
  hN.bind ha h

theorem leaveScope (hN : Composes N) (handle : ScopeHandle)
    (hcommit : N _ (perform (.resolveScope handle .commit)))
    (habort : N _ (perform (.abortThrough handle))) (result : Except ScriptError V) :
    N _ (Task.leaveScope handle result) := by
  cases result with
  | error e => exact hN.act habort fun _ => hN.pure _
  | ok v =>
    refine hN.act hcommit fun answer => ?_
    cases answer with
    | ok status => exact hN.pure _
    | error f =>
      cases f with
      | scopeOrder id detail => exact hN.act habort fun _ => hN.pure _
      | _ => exact hN.pure _

/-- What opening and ending scopes has, a body in a scope has. -/
theorem inScope (hN : Composes N) (henter : N _ (perform .enterScope))
    (hcommit : ∀ handle, N _ (perform (.resolveScope handle .commit)))
    (habort : ∀ handle, N _ (perform (.abortThrough handle))) (state : S)
    {body : Task S U (Outcome S V)} (hbody : N _ body) : N _ (Task.inScope state body) := by
  refine hN.act henter fun answer => ?_
  cases answer with
  | error f => exact hN.pure _
  | ok handle =>
    exact hN.bind hbody fun o =>
      hN.bind (hN.leaveScope handle (hcommit handle) (habort handle) o.result) fun _ => hN.pure _

theorem handling (hN : Composes N) {exc : Exception} (hbegin : N _ (perform (.beginHandling exc)))
    (hend : N _ (perform .endHandling)) {handler : Task S U (Outcome S V)}
    (hhandler : N _ handler) : N _ (Task.handling exc handler) :=
  hN.bind hbegin fun _ => hN.bind hhandler fun _ => hN.bind hend fun _ => hN.pure _

end Task.Composes

/-! ## Units -/

/-- How the text of a procedure is compiled. -/
def Routine.compiling (compiler : Compiler S U) (id : ProcedureId) (state : S)
    (source : ProcedureSource) : Except Failure (ExecutionUnit U × S) :=
  compiler (.procedure id) source.qualifiedName source.text state

/-- Whatever the action obtains, it has made with the compiler. -/
def Action.CompiledBy (compiler : Compiler S U) : Action S U → Prop
  | .obtain id compile => ∃ state, compile = Routine.compiling compiler id state
  | _ => True

namespace Routine

variable {N : (α : Type) → Task S U α → Prop} {compiler : Compiler S U}
  {runTop : U → Routine S U V}

/-- To compile a text is to add a unit at most. -/
theorem all_compile (hN : Task.Composes N) (hadd : ∀ unit, N _ (Task.perform (.addUnit unit)))
    (id : UnitId) (name text : String) : All N (compile compiler id name text) :=
  (all_get hN).bind hN fun _ => (all_ofExcept hN _).bind hN fun r =>
    (all_set hN r.2).bind hN fun _ => all_perform hN (hadd r.1)

/-- To load a unit is to begin, to run its top-level code and to end. -/
theorem all_load (hN : Task.Composes N) {ref : UnitRef}
    (hbegin : N _ (Task.perform (.beginLoad ref)))
    (hend : ∀ completed, N _ (Task.perform (.endLoad ref completed)))
    (hrun : ∀ code, All N (runTop code)) : All N (load runTop ref) := by
  refine (all_perform hN hbegin).bind hN fun code? => ?_
  cases code? with
  | none => exact all_pure hN _
  | some code =>
    refine ((hrun code).bind hN fun _ => ?_).tryCatch hN fun f => ?_
    · exact all_perform hN (hend true)
    · exact (all_perform hN (hend false)).bind hN fun _ => all_throw hN f

theorem all_obtain (hN : Task.Composes N)
    (hobtain : ∀ id state, N _ (Task.perform (.obtain id (compiling compiler id state))))
    (id : ProcedureId) : All N (obtain compiler id) := by
  refine (all_get hN).bind hN fun state => ?_
  refine (all_perform hN (hobtain id state)).bind hN fun answer => ?_
  refine (all_ofExcept hN _).bind hN fun r => ?_
  obtain ⟨ref, state?⟩ := r
  cases state? with
  | none => exact all_pure hN _
  | some state => exact (all_set hN state).bind hN fun _ => all_pure hN _

/-- To load a procedure is to obtain its unit and to load that, or to drop it from the cache. -/
theorem all_loadProcedure (hN : Task.Composes N) {id : ProcedureId}
    (hobtain : All N (obtain compiler id)) (hload : ∀ ref, All N (load runTop ref))
    (hdrop : N _ (Task.perform (.invalidate id))) :
    All N (loadProcedure compiler runTop id) :=
  hobtain.bind hN fun ref => ((hload ref).tryCatch hN fun f =>
    (all_perform hN hdrop).bind hN fun _ => all_throw hN f).bind hN fun _ => all_pure hN _

/-- Loads procedures one after the other, and counts them. -/
def loadAll (compiler : Compiler S U) (runTop : U → Routine S U V) (ids : List ProcedureId)
    (count : Nat) : Routine S U Nat :=
  ids.foldlM (fun count id => loadProcedure compiler runTop id >>= fun _ => pure (count + 1)) count

section

variable {σ : Type} [Host σ] {state state' : S} {c c' : Core σ U}

theorem run_loadAll_cons {id : ProcedureId} {ref : UnitRef}
    (h : Task.run (loadProcedure compiler runTop id state) c = ((.ok ref, state'), c'))
    (ids : List ProcedureId) (count : Nat) :
    Task.run (loadAll compiler runTop (id :: ids) count state) c =
        Task.run (loadAll compiler runTop ids (count + 1) state') c' ∧
      Task.trace (loadAll compiler runTop (id :: ids) count state) c =
        Task.trace (loadProcedure compiler runTop id state) c ++
          Task.trace (loadAll compiler runTop ids (count + 1) state') c' := by
  obtain ⟨hfirst, htrace⟩ :=
    run_bind_of_ok (f := fun _ => (pure (count + 1) : Routine S U Nat)) h
  obtain ⟨hrest, htrace'⟩ := run_bind_of_ok (f := loadAll compiler runTop ids) hfirst
  rw [loadAll, List.foldlM_cons]
  refine ⟨hrest, htrace'.trans ?_⟩
  rw [htrace]
  exact congrArg (· ++ _) (List.append_nil _)

theorem run_preload_single {schema : String} {ids : List ProcedureId}
    (h : c.listProcedures schema = (.ok ids, c')) :
    Task.run (preload compiler runTop [schema] state) c =
        Task.run (loadAll compiler runTop ids 0 state) c' ∧
      Task.trace (preload compiler runTop [schema] state) c =
        ⟨c, .listProcedures schema⟩ :: Task.trace (loadAll compiler runTop ids 0 state) c' := by
  have hlist : Task.run (perform (.listProcedures schema) state) c =
      ((.ok (.ok ids), state), c') :=
    congrArg (fun r : _ × Core σ U => ((Except.ok r.1, state), r.2)) h
  obtain ⟨x, hpreload, hrun, htrace⟩ : ∃ x : Routine S U Nat,
      preload compiler runTop [schema] = x >>= pure ∧
        Task.run (x state) c = Task.run (loadAll compiler runTop ids 0 state) c' ∧
        Task.trace (x state) c =
          ⟨c, .listProcedures schema⟩ :: Task.trace (loadAll compiler runTop ids 0 state) c' :=
    ⟨_, rfl, run_bind_of_ok hlist⟩
  rcases hload : Task.run (loadAll compiler runTop ids 0 state) c' with ⟨⟨r, state'⟩, c''⟩
  rw [hpreload, bind_apply, Task.run_bind, Task.trace_bind, hrun.trans hload]
  cases r <;> exact ⟨rfl, (List.append_nil _).trans htrace⟩

end

end Routine

/-! ## Scripts and operations -/

/-- The property is one of the parts of which scripts are made: actions, bodies of scopes, handlers
and loads of procedures. -/
structure Compiler.CarriesScripts (compiler : Compiler S U)
    (N : (α : Type) → Task S U α → Prop) : Prop extends Task.Composes N where
  plain : ∀ action : Action S U, action.handlesUnits = false → action.encloses = false →
    N _ (Task.perform action)
  scope : ∀ {V : Type} (state : S) {body : Task S U (Outcome S V)}, N _ body →
    N _ (Task.inScope state body)
  handler : ∀ {V : Type} {exc : Exception} {handler : Task S U (Outcome S V)},
    (Action.beginHandling exc : Action S U).Named → N _ handler →
    N _ (Task.handling exc handler)
  clearCache : N _ (Task.perform .clearCache)
  loadProcedure : ∀ {V : Type} {runTop : U → Routine S U V}, (∀ code, Routine.All N (runTop code)) →
    ∀ id, Routine.All N (Routine.loadProcedure compiler runTop id)

/-- The property is one of the parts of which scripts and operations are made. -/
structure Compiler.Carries (compiler : Compiler S U) (N : (α : Type) → Task S U α → Prop) : Prop
    extends compiler.CarriesScripts N where
  compile : ∀ (id : UnitId) (name text : String),
    Routine.All N (Routine.compile compiler id name text)
  load : ∀ {V : Type} {runTop : U → Routine S U V}, (∀ code, Routine.All N (runTop code)) →
    ∀ ref, Routine.All N (Routine.load runTop ref)

namespace Compiler

variable {compiler : Compiler S U} {N : (α : Type) → Task S U α → Prop}

namespace CarriesScripts

/-- Scopes and handlers need nothing of their own if all their actions have the property. -/
theorem of_perform (hN : Task.Composes N)
    (hperform : ∀ action : Action S U, action.handlesUnits = false → action.Named →
      N _ (Task.perform action))
    (hclear : N _ (Task.perform .clearCache))
    (hload : ∀ {V : Type} {runTop : U → Routine S U V}, (∀ code, Routine.All N (runTop code)) →
      ∀ id, Routine.All N (Routine.loadProcedure compiler runTop id)) :
    compiler.CarriesScripts N where
  toComposes := hN
  plain action ha hplain := hperform action ha (by cases action <;> trivial)
  scope := hN.inScope (hperform _ rfl trivial) (fun _ => hperform _ rfl trivial)
    fun _ => hperform _ rfl trivial
  handler hnamed := hN.handling (hperform _ rfl hnamed) (hperform _ rfl trivial)
  clearCache := hclear
  loadProcedure := hload

theorem act (hN : compiler.CarriesScripts N) {action : Action S U}
    {next : action.Answer → Task S U α} (ha : action.handlesUnits = false)
    (hplain : action.encloses = false) (h : ∀ answer, N α (next answer)) :
    N α (.act action next) := hN.toComposes.act (hN.plain action ha hplain) h

theorem preload (hN : compiler.CarriesScripts N) {runTop : U → Routine S U V}
    (hrun : ∀ code, Routine.All N (runTop code)) (schemas : List String) :
    Routine.All N (Routine.preload compiler runTop schemas) := by
  have hC := hN.toComposes
  refine Routine.all_foldlM hC (fun count schema => ?_) schemas 0
  refine (Routine.all_perform hC (hN.plain (.listProcedures schema) rfl rfl)).bind hC fun _ => ?_
  refine (Routine.all_ofExcept hC _).bind hC fun ids => ?_
  refine Routine.all_foldlM hC (fun count id => ?_) ids count
  exact (hN.loadProcedure hrun id).bind hC fun _ => Routine.all_pure hC _

/-- Every script has the property. -/
theorem script (hN : compiler.CarriesScripts N) (script : Script S V U) :
    N _ (script.task compiler) := by
  induction script with
  | done outcome => exact hN.pure _
  | tick n next ih => exact hN.act rfl rfl fun r => ih _
  | interrupted kind next ih => exact hN.act rfl rfl fun _ => ih
  | report severity message options next ih => exact hN.act rfl rfl fun r => ih _
  | scope state body next ihbody ih =>
    rw [Script.task_scope]
    exact hN.bind (hN.scope state (ihbody state)) fun o => ih o
  | guarded pattern state body handler next ihbody ihhandler ih =>
    rw [Script.task]
    split
    · exact ih _
    · rename_i p hp
      refine hN.bind (ihbody state) fun o => ?_
      split
      · exact ih _
      · rename_i err _
        split
        · exact ih _
        · rename_i exc hexc
          have hhandler := hN.bind
            (hN.handler ⟨pattern, p, err, hp, hexc⟩ (ihhandler exc o.state)) fun o => ih o
          rwa [Task.handling_bind] at hhandler
  | newHandle next ih => exact hN.act rfl rfl fun handle => ih handle
  | enter handle next ih => exact hN.act rfl rfl fun r => ih _
  | resolve handle resolution next ih => exact hN.act rfl rfl fun r => ih _
  | status handle next ih => exact hN.act rfl rfl fun status => ih status
  | preload schemas state topLevel next ihtop ih =>
    refine hN.bind ?_ fun r => ih _
    refine hN.preload (fun code => ?_) schemas state
    exact fun state => hN.bind (ihtop code state) fun o => hN.pure _
  | clearCache next ih => exact hN.bind hN.clearCache fun count => ih count

variable {e : Engine} {N : (α : Type) → Task e.State e.Code α → Prop}

theorem runScript (hN : e.compiler.CarriesScripts N)
    (script : e.State → Script e.State e.Value e.Code) : Routine.All N (e.runScript script) :=
  fun state => hN.bind (hN.script (script state)) fun _ => hN.pure _

theorem finding (hN : e.compiler.CarriesScripts N) (ref : UnitRef) (name : String) :
    Routine.All N (e.finding ref name) := by
  have hC := hN.toComposes
  have hunit : Routine.All N (Routine.perform (.unit ref)) :=
    Routine.all_perform hC (hN.plain _ rfl rfl)
  refine hunit.bind hC fun unit? => ?_
  cases unit? with
  | none => exact Routine.all_throw hC _
  | some unit =>
    refine (hN.runScript _).bind hC fun value => ?_
    split
    · exact Routine.all_pure hC _
    · exact Routine.all_throw hC _

/-- An operation has the property if the loads have it with which it begins. -/
theorem routine_of_loads (hN : e.compiler.CarriesScripts N) {entryPoint : String}
    (hmain : ∀ id, Routine.All N (Operation.main e entryPoint id))
    (hblock : ∀ n name text, Routine.All N
      (Routine.compile e.compiler (.inline n) name text >>= fun ref => e.loadUnit ref))
    (o : Operation) :
    Routine.All N (o.routine e entryPoint) := by
  have hC := hN.toComposes
  cases o with
  | call id args =>
    exact (hmain id).bind hC fun main => (hN.runScript _).bind hC fun value =>
      (Routine.all_get hC).bind hC fun state => Routine.all_ofExcept hC _
  | fireTrigger id event =>
    refine (hmain id).bind hC fun main => ((hN.runScript _).attempt hC).bind hC fun result => ?_
    split
    · exact Routine.all_ofExcept hC _
    · exact Routine.all_throw hC _
    · exact (Routine.all_get hC).bind hC fun state => Routine.all_ofExcept hC _
  | executeInline text =>
    have hsafe : Routine.All N (Routine.perform (.safepoint)) :=
      Routine.all_perform hC (hN.plain _ rfl rfl)
    have hcount : Routine.All N (Routine.perform (.countInline)) :=
      Routine.all_perform hC (hN.plain _ rfl rfl)
    exact (hsafe.bind hC fun _ => Routine.all_ofExcept hC _).bind hC fun _ =>
      hcount.bind hC fun n => hblock n _ text
  | preload schemas => exact hN.preload (fun _ => hN.runScript _) schemas

end CarriesScripts

namespace Carries

/-- Loads need nothing of their own if all their actions have the property. -/
theorem of_units (hN : Task.Composes N)
    (hplain : ∀ action : Action S U, action.handlesUnits = false → action.encloses = false →
      N _ (Task.perform action))
    (hscope : ∀ {V : Type} (state : S) {body : Task S U (Outcome S V)}, N _ body →
      N _ (Task.inScope state body))
    (hhandler : ∀ {V : Type} {exc : Exception} {handler : Task S U (Outcome S V)},
      (Action.beginHandling exc : Action S U).Named → N _ handler →
      N _ (Task.handling exc handler))
    (hunits : ∀ action : Action S U, action.handlesUnits = true → action.CompiledBy compiler →
      N _ (Task.perform action)) : compiler.Carries N := by
  have hload : ∀ {V : Type} {runTop : U → Routine S U V},
      (∀ code, Routine.All N (runTop code)) → ∀ ref, Routine.All N (Routine.load runTop ref) :=
    fun hrun _ => Routine.all_load hN (hunits _ rfl trivial) (fun _ => hunits _ rfl trivial) hrun
  refine ⟨⟨hN, hplain, hscope, hhandler, hunits _ rfl trivial, ?_⟩, ?_, hload⟩
  · exact fun hrun id => Routine.all_loadProcedure hN
      (Routine.all_obtain hN (fun _ state => hunits _ rfl ⟨state, rfl⟩) id) (hload hrun)
      (hunits _ rfl trivial)
  · exact Routine.all_compile hN fun _ => hunits _ rfl trivial

/-- A property of every action is one of everything that is made of actions. -/
theorem of_perform (hN : Task.Composes N)
    (hperform : ∀ action : Action S U, action.Named → action.CompiledBy compiler →
      N _ (Task.perform action)) : compiler.Carries N := by
  refine .of_units hN (fun action ha hplain => hperform action ?_ ?_) ?_ ?_
    fun action ha hmade => hperform action ?_ hmade
  · cases action <;> trivial
  · cases action <;> trivial
  · exact hN.inScope (hperform _ trivial trivial) (fun _ => hperform _ trivial trivial)
      fun _ => hperform _ trivial trivial
  · exact fun hnamed => hN.handling (hperform _ hnamed trivial) (hperform _ trivial trivial)
  · cases action <;> trivial

variable {e : Engine} {N : (α : Type) → Task e.State e.Code α → Prop}

theorem loadUnit (hN : e.compiler.Carries N) (ref : UnitRef) : Routine.All N (e.loadUnit ref) :=
  hN.load (fun _ => hN.runScript _) ref

theorem function (hN : e.compiler.Carries N) (ref : UnitRef) (name : String) :
    Routine.All N (e.function ref name) :=
  (hN.loadUnit ref).bind hN.toComposes fun _ => hN.finding ref name

theorem main (hN : e.compiler.Carries N) (entryPoint : String) (id : ProcedureId) :
    Routine.All N (Operation.main e entryPoint id) :=
  (hN.loadProcedure (fun _ => hN.runScript _) id).bind hN.toComposes fun ref =>
    hN.function ref entryPoint

/-- Every operation has the property. -/
theorem routine (hN : e.compiler.Carries N) (entryPoint : String) (o : Operation) :
    Routine.All N (o.routine e entryPoint) :=
  hN.routine_of_loads (hN.main entryPoint)
    (fun _ _ _ => (hN.compile _ _ _).bind hN.toComposes fun ref => hN.loadUnit ref) o

end Carries

end Compiler

end ProcedureBridge
