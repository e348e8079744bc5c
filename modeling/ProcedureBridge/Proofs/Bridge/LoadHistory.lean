import Mathlib.Data.List.Induction
import ProcedureBridge.Host.Memory
import ProcedureBridge.Proofs.Bridge.Stock

/-! # The history of a unit's loads

Top-level code may load its own unit again, at any depth, and may fail at any depth. Still its runs
come one after the other: a load that finds the code running leaves it alone, and only the load that
has started it tells how it has ended. So the history of a unit's loads is one of a machine of three
states, and says at each moment which of them the unit is in. -/

namespace ProcedureBridge

variable {σ S U α : Type}

/-- What can happen to a unit that is loaded. -/
inductive LoadEvent
  /-- A load has begun to run the top-level code. -/
  | started
  /-- A load has found nothing to run. -/
  | found
  | completed
  | failed
deriving DecidableEq

/-! ## Histories -/

namespace LoadState

variable {s s' : LoadState} {history before after : List LoadEvent}

/-- What becomes of a unit with an event. Nothing else can happen to it. -/
def next? : LoadState → LoadEvent → Option LoadState
  | fresh, .started => some loading
  | loading, .found => some loading
  | loading, .completed => some loaded
  | loading, .failed => some fresh
  | loaded, .found => some loaded
  | _, _ => none

theorem eq_loaded_of_next? (h : s.next? .completed = some s') : s' = loaded := by
  cases s <;> cases h
  rfl

theorem eq_fresh_of_next? (h : s.next? .failed = some s') : s' = fresh := by
  cases s <;> cases h
  rfl

def replay? (s : LoadState) (history : List LoadEvent) : Option LoadState :=
  history.foldlM next? s

@[simp] theorem replay?_nil (s : LoadState) : s.replay? [] = some s := rfl

@[simp] theorem replay?_cons (s : LoadState) (event : LoadEvent) (history : List LoadEvent) :
    s.replay? (event :: history) = (s.next? event).bind fun s' => s'.replay? history := rfl

@[simp] theorem replay?_append (s : LoadState) (before after : List LoadEvent) :
    s.replay? (before ++ after) = (s.replay? before).bind fun s' => s'.replay? after :=
  List.foldlM_append

/-- At most one run completes, and no more than one run has started and not ended. -/
theorem counts_of_replay? (h : replay? fresh history = some s) :
    history.count .completed = (if s = loaded then 1 else 0) ∧
      history.count .started =
        history.count .completed + history.count .failed + if s = loading then 1 else 0 := by
  induction history using List.reverseRecOn generalizing s with
  | nil =>
    cases h
    exact ⟨rfl, rfl⟩
  | append_singleton history event ih =>
    rw [replay?_append] at h
    obtain ⟨s', hbefore, hnext⟩ := Option.bind_eq_some_iff.mp h
    obtain ⟨hcompleted, hstarted⟩ := ih hbefore
    cases s' <;> cases event <;> simp [next?] at hnext <;> subst hnext <;> simp_all
    all_goals omega

/-- Once a unit is loaded, there is nothing left to run. -/
theorem found_of_loaded (h : replay? loaded history = some s) :
    ∀ event ∈ history, event = .found := by
  induction history with
  | nil => exact nofun
  | cons event history ih =>
    obtain ⟨s', hnext, hrest⟩ := Option.bind_eq_some_iff.mp h
    cases event <;> simp [next?] at hnext
    subst hnext
    exact List.forall_mem_cons.mpr ⟨rfl, ih hrest⟩

theorem found_after_completed (h : replay? s (before ++ .completed :: after) = some s') :
    ∀ event ∈ after, event = .found := by
  simp only [replay?_append, replay?_cons, Option.bind_eq_some_iff] at h
  obtain ⟨s₁, -, s₂, hnext, hafter⟩ := h
  rw [eq_loaded_of_next? hnext] at hafter
  exact found_of_loaded hafter

theorem started_after_failed {event : LoadEvent}
    (h : replay? s (before ++ .failed :: event :: after) = some s') : event = .started := by
  simp only [replay?_append, replay?_cons, Option.bind_eq_some_iff] at h
  obtain ⟨s₁, -, s₂, hnext, s₃, hevent, -⟩ := h
  rw [eq_fresh_of_next? hnext] at hevent
  cases event <;> cases hevent
  rfl

theorem fresh_of_failed (h : replay? s (before ++ [.failed]) = some s') : s' = fresh := by
  simp only [replay?_append, replay?_cons, Option.bind_eq_some_iff] at h
  obtain ⟨s₁, -, s₂, hnext, hafter⟩ := h
  exact (Option.some.inj hafter).symm.trans (eq_fresh_of_next? hnext)

end LoadState

/-- What happens to the unit at a moment. Its load has started if it was given code to run. -/
def Moment.loadEvent? (ref : UnitRef) (m : Moment σ S U) : Option LoadEvent :=
  match m.action with
  | .beginLoad x =>
    if x = ref then
      (m.core.unit? ref).map fun _ =>
        if (m.core.beginLoad ref).1.isSome then .started else .found
    else none
  | .endLoad x completed =>
    if x = ref then
      (m.core.unit? ref).map fun _ => if completed then .completed else .failed
    else none
  | _ => none

def loadHistory (ref : UnitRef) (trace : List (Moment σ S U)) : List LoadEvent :=
  trace.filterMap (Moment.loadEvent? ref)

@[simp] theorem loadHistory_nil (ref : UnitRef) : loadHistory ref ([] : List (Moment σ S U)) = [] :=
  rfl

@[simp] theorem loadHistory_append (ref : UnitRef) (before after : List (Moment σ S U)) :
    loadHistory ref (before ++ after) = loadHistory ref before ++ loadHistory ref after :=
  List.filterMap_append

theorem loadHistory_cons (ref : UnitRef) (m : Moment σ S U) (trace : List (Moment σ S U)) :
    loadHistory ref (m :: trace) = (m.loadEvent? ref).toList ++ loadHistory ref trace := by
  cases h : m.loadEvent? ref <;> simp [loadHistory, h]

/-! ## What a moment does to a unit -/

namespace Core

variable {c c' : Core σ U} {ref : UnitRef}

/-- How far the load of the unit has come. A unit that is yet to be made is as new. -/
def loadState (c : Core σ U) (ref : UnitRef) : LoadState := (c.stage? ref).getD .fresh

theorem loadState_of_units (h : c'.units = c.units) (ref : UnitRef) :
    c'.loadState ref = c.loadState ref := by
  rw [loadState, stage?_of_units h, loadState]

theorem loadState_of_push {unit : ExecutionUnit U} (h : c'.units = c.units.push unit)
    (hfresh : unit.state = .fresh) (ref : UnitRef) : c'.loadState ref = c.loadState ref := by
  rw [loadState, stage?_of_push h, loadState]
  split
  · rename_i hnew
    have hnone : c.stage? ref = none := by simp [stage?, unit?, hnew]
    rw [hnone, hfresh]
    rfl
  · rfl

theorem loadState_setLoadState_of_ne {x : UnitRef} (h : ref ≠ x) (state : LoadState) :
    (c.setLoadState x state).loadState ref = c.loadState ref := by
  rw [loadState, stage?_setLoadState, if_neg h, loadState]

theorem loadState_eq_loading_iff : c.loadState ref = .loading ↔ c.stage? ref = some .loading := by
  rw [loadState]
  cases c.stage? ref <;> simp

theorem loadState_of_stage? {state : LoadState} (h : c.stage? ref = some state) :
    c.loadState ref = state := by
  rw [loadState, h]
  rfl

theorem loadState_of_unit? {unit : ExecutionUnit U} (h : c.unit? ref = some unit) :
    c.loadState ref = unit.state := by
  exact loadState_of_stage? (by rw [stage?, h, Option.map_some])

/-- The unit is there, in whatever state of its load. -/
def Keeps (c : Core σ U) (ref : UnitRef) (unit : ExecutionUnit U) : Prop :=
  ∃ state, c.unit? ref = some { unit with state }

end Core

/-- What the action makes is a unit whose code has not run. -/
def Action.MakesFresh : Action S U → Prop
  | .addUnit new => new.state = .fresh
  | .obtain _ compile =>
    ∀ source new state, compile source = .ok (new, state) → new.state = .fresh
  | _ => True

/-- The action neither begins nor ends a load of the unit. -/
def Action.Elsewhere (ref : UnitRef) : Action S U → Prop
  | .beginLoad x | .endLoad x _ => x ≠ ref
  | _ => True

namespace Moment

variable {m : Moment σ S U} {ref : UnitRef}

theorem loadEvent?_of_elsewhere (h : m.action.Elsewhere ref) : m.loadEvent? ref = none := by
  obtain ⟨c, action⟩ := m
  cases action with
  | beginLoad x => exact if_neg h
  | endLoad x completed => exact if_neg h
  | _ => rfl

theorem loadState_of_elsewhere [Host σ] (hfresh : m.action.MakesFresh)
    (h : m.action.Elsewhere ref) : m.after.loadState ref = m.core.loadState ref := by
  cases hm : m.action.handlesUnits with
  | false => exact Core.loadState_of_units (Core.stock_eq.mp (after_stock hm)).1 ref
  | true =>
    obtain ⟨c, action⟩ := m
    cases action with
    | obtain id compile =>
      have hobtained := c.obtain_obtained id compile
      generalize hr : c.obtain id compile = r at hobtained
      have hafter : (⟨c, .obtain id compile⟩ : Moment σ S U).after = r.2 := congrArg Prod.snd hr
      rw [hafter]
      cases hobtained with
      | failed hunits | found _ hunits => exact Core.loadState_of_units hunits ref
      | made hmade hunits => exact Core.loadState_of_push hunits (hfresh _ _ _ hmade) ref
    | addUnit unit => exact Core.loadState_of_push rfl hfresh ref
    | beginLoad x =>
      by_cases hx : c.stage? x = some .fresh
      · rw [after_beginLoad rfl hx]
        exact Core.loadState_setLoadState_of_ne (Ne.symm h) _
      · have hbegin := Core.beginLoad_of_not_fresh hx
        exact Core.loadState_of_units (congrArg (fun r => r.2.units) hbegin) ref
    | endLoad x completed => exact Core.loadState_setLoadState_of_ne (Ne.symm h) _
    | invalidate | clearCache => rfl
    | _ => cases hm

theorem loadEvent?_beginLoad (c : Core σ U) (ref : UnitRef) :
    (⟨c, .beginLoad ref⟩ : Moment σ S U).loadEvent? ref =
      (c.stage? ref).map fun s => if s = .fresh then .started else .found := by
  refine (if_pos rfl).trans ?_
  rw [Core.stage?]
  cases h : c.unit? ref with
  | none => rfl
  | some unit => cases hs : unit.state <;> simp [Core.beginLoad, h, hs]

theorem loadEvent?_endLoad (c : Core σ U) (ref : UnitRef) (completed : Bool) :
    (⟨c, .endLoad ref completed⟩ : Moment σ S U).loadEvent? ref =
      (c.stage? ref).map fun _ => if completed then .completed else .failed := by
  refine (if_pos rfl).trans ?_
  rw [Core.stage?, Option.map_map]
  rfl

theorem keeps_after [Host σ] {unit : ExecutionUnit U} (h : m.core.Keeps ref unit) :
    m.after.Keeps ref unit := by
  obtain ⟨state, h⟩ := h
  obtain ⟨state', hafter⟩ := unit?_after h
  exact ⟨state', hafter⟩

/-- A load that has nothing to run changes nothing. -/
theorem replay?_beginLoad_of_not_fresh {c : Core σ U} (h : c.stage? ref ≠ some .fresh) :
    (c.loadState ref).replay? (loadHistory ref [(⟨c, .beginLoad ref⟩ : Moment σ S U)]) =
      some (c.loadState ref) := by
  rw [loadHistory_cons, loadEvent?_beginLoad, Core.loadState]
  rcases hstage : c.stage? ref with _ | _ | _ | _
  · rfl
  · exact absurd hstage h
  · rfl
  · rfl

theorem loadState_of_beginLoad [Host σ] {c : Core σ U} {s : LoadState}
    (h : (c.loadState ref).replay? (loadHistory ref [(⟨c, .beginLoad ref⟩ : Moment σ S U)]) =
      some s) : (⟨c, .beginLoad ref⟩ : Moment σ S U).after.loadState ref = s := by
  by_cases hfresh : c.stage? ref = some .fresh
  · have hloading := (Core.loading_begin hfresh ref).mpr (.inl rfl)
    rw [after_beginLoad rfl hfresh, Core.loadState_of_stage? hloading]
    rw [loadHistory_cons, loadEvent?_beginLoad, Core.loadState_of_stage? hfresh, hfresh] at h
    exact Option.some.inj h
  · have hafter : (⟨c, .beginLoad ref⟩ : Moment σ S U).after = c :=
      congrArg Prod.snd (Core.beginLoad_of_not_fresh hfresh)
    rw [hafter]
    exact Option.some.inj ((replay?_beginLoad_of_not_fresh hfresh).symm.trans h)

theorem loadState_of_endLoad {c : Core σ U} {completed : Bool} {s : LoadState}
    (h : (c.loadState ref).replay?
      (loadHistory ref [(⟨c, .endLoad ref completed⟩ : Moment σ S U)]) = some s) :
    (c.endLoad ref completed).loadState ref = s := by
  rw [loadHistory_cons, loadEvent?_endLoad, Core.loadState] at h
  rw [Core.endLoad, Core.loadState, Core.stage?_setLoadState, if_pos rfl]
  cases hstage : c.stage? ref with
  | none =>
    rw [hstage] at h
    exact Option.some.inj h
  | some state =>
    rw [hstage] at h
    cases state <;> cases completed <;> simp_all [LoadState.next?]

/-- A moment leaves the unit as its history says, if the history can go on with it at all. -/
theorem loadState_of_replay? [Host σ] (hfresh : m.action.MakesFresh) {s : LoadState}
    (h : (m.core.loadState ref).replay? (loadHistory ref [m]) = some s) :
    m.after.loadState ref = s := by
  by_cases helsewhere : m.action.Elsewhere ref
  · rw [loadHistory_cons, loadEvent?_of_elsewhere helsewhere] at h
    rw [loadState_of_elsewhere hfresh helsewhere]
    exact Option.some.inj h
  · obtain ⟨c, action⟩ := m
    cases action with
    | beginLoad x =>
      obtain rfl : x = ref := not_not.mp helsewhere
      exact loadState_of_beginLoad h
    | endLoad x completed =>
      obtain rfl : x = ref := not_not.mp helsewhere
      exact loadState_of_endLoad h
    | _ => exact absurd trivial helsewhere

end Moment

/-! ## Tasks that load -/

/-- The task leaves the unit alone, but for whole loads of it, whose top-level code may do the
same. -/
inductive Task.Loads (ref : UnitRef) : {α : Type} → Task S U α → Prop
  | pure {α : Type} (a : α) : Loads ref (.pure a)
  | perform {action : Action S U} :
      action.MakesFresh → action.Elsewhere ref → Loads ref (Task.perform action)
  | bind {α β : Type} {t : Task S U α} {k : α → Task S U β} :
      Loads ref t → (∀ a, Loads ref (k a)) → Loads ref (t >>= k)
  | load {V : Type} {runTop : U → Routine S U V} :
      (∀ code state, Loads ref (runTop code state)) →
        ∀ state, Loads ref (Routine.load runTop ref state)

namespace Task

variable {ref : UnitRef} {t : Task S U α}

theorem loads_composes (ref : UnitRef) : Composes fun α (t : Task S U α) => t.Loads ref :=
  ⟨.pure, .bind⟩

theorem Loads.every (h : t.Loads ref) : t.Every Action.MakesFresh := by
  have hN : Composes fun α (t : Task S U α) => t.Every Action.MakesFresh :=
    ⟨fun _ => trivial, every_bind⟩
  induction h with
  | pure a => trivial
  | perform hfresh => exact every_perform hfresh
  | bind _ _ ih ihk => exact every_bind ih ihk
  | load _ state ih =>
    exact Routine.all_load hN (every_perform trivial) (fun _ => every_perform trivial) ih state

end Task

/-- Whatever scripts do to a unit, they do by loading it. -/
theorem Compiler.carries_loads {compiler : Compiler S U} (hcompiler : compiler.MakesFresh)
    (ref : UnitRef) : compiler.Carries fun _ t => t.Loads ref := by
  have hN := Task.loads_composes (S := S) (U := U) ref
  have hload : ∀ {V : Type} {runTop : U → Routine S U V},
      (∀ code, Routine.All (fun _ t => t.Loads ref) (runTop code)) →
        ∀ x, Routine.All (fun _ t => t.Loads ref) (Routine.load runTop x) := by
    intro V runTop hrun x
    by_cases hx : x = ref
    · subst hx
      exact .load hrun
    · exact Routine.all_load hN (.perform trivial hx) (fun _ => .perform trivial hx) hrun
  refine ⟨.of_perform hN ?_ (.perform trivial trivial) ?_, ?_, hload⟩
  · intro action ha _
    exact .perform (by cases action <;> trivial) (by cases action <;> trivial)
  · intro V runTop hrun id
    refine Routine.all_loadProcedure hN ?_ (hload hrun) (.perform trivial trivial)
    exact Routine.all_obtain hN (fun id state =>
      .perform (fun _ _ _ h => hcompiler _ _ _ _ _ _ h) trivial) id
  · intro id name text state
    rw [Routine.compile_apply]
    split
    · exact .pure _
    · rename_i made state' hmade
      exact hN.act (.perform (hcompiler _ _ _ _ _ _ hmade) trivial) fun _ => .pure _

namespace Task

variable [Host σ] {ref : UnitRef} {t : Task S U α} {c : Core σ U}

/-- A task that loads leaves a unit whose code is running as it is. Its history is one that the unit
can have, and ends where the unit is left. -/
theorem Loads.replay? (h : t.Loads ref) (c : Core σ U) :
    (c.loadState ref).replay? (loadHistory ref (t.trace c)) = some ((t.run c).2.loadState ref) ∧
      ((t.run c).2.loadState ref = .loading ↔ c.loadState ref = .loading) := by
  induction h generalizing c with
  | pure a => exact ⟨rfl, .rfl⟩
  | @perform action hfresh helsewhere =>
    have hstate := Moment.loadState_of_elsewhere (m := ⟨c, action⟩) hfresh helsewhere
    have hevent := Moment.loadEvent?_of_elsewhere (m := ⟨c, action⟩) helsewhere
    change (c.loadState ref).replay? (loadHistory ref [⟨c, action⟩]) =
      some ((Moment.after ⟨c, action⟩).loadState ref) ∧
        ((Moment.after ⟨c, action⟩).loadState ref = .loading ↔ c.loadState ref = .loading)
    rw [hstate, loadHistory_cons, hevent]
    exact ⟨rfl, .rfl⟩
  | bind _ _ ih ihk =>
    rw [trace_bind, run_bind, loadHistory_append, LoadState.replay?_append, (ih c).1]
    exact ⟨(ihk _ _).1, (ihk _ _).2.trans (ih c).2⟩
  | @load V runTop _ state ih =>
    by_cases hfresh : c.stage? ref = some .fresh
    · obtain ⟨code, hbegin⟩ := Core.beginLoad_of_fresh hfresh
      rcases htop : Task.run (runTop code state) (c.setLoadState ref .loading) with
        ⟨⟨result, state'⟩, c'⟩
      obtain ⟨hrun, htrace⟩ := Routine.run_load_of_fresh hbegin htop
      obtain ⟨hreplay, hstays⟩ := ih code state (c.setLoadState ref .loading)
      have hbegan := Core.loadState_of_stage? ((Core.loading_begin hfresh ref).mpr (.inl rfl))
      rw [htop] at hreplay hstays
      have hloading := hstays.mpr hbegan
      have hstage := Core.stage?_endLoad (Core.loadState_eq_loading_iff.mp hloading) result.isOk ref
      rw [if_pos rfl] at hstage
      rw [hrun, htrace, loadHistory_cons, Moment.loadEvent?_beginLoad, loadHistory_append, hfresh,
        Core.loadState_of_stage? hfresh, Core.loadState_of_stage? hstage, loadHistory_cons,
        Moment.loadEvent?_endLoad, Core.loadState_eq_loading_iff.mp hloading]
      rw [hbegan, hloading] at hreplay
      cases result <;> simp [hreplay, LoadState.next?, Except.isOk, Except.toBool]
    · have hbegin := Core.beginLoad_of_not_fresh hfresh
      obtain ⟨hrun, htrace⟩ := Routine.run_load_of_not_fresh runTop state hbegin
      rw [hrun, htrace]
      exact ⟨Moment.replay?_beginLoad_of_not_fresh hfresh, .rfl⟩

/-- At each moment the unit is where the history that lies behind has led it. -/
theorem replay?_of_append {m : Moment σ S U} {before after : List (Moment σ S U)} {s : LoadState}
    (ht : t.Every Action.MakesFresh) (htrace : t.trace c = before ++ m :: after)
    (hreplay : (c.loadState ref).replay? (loadHistory ref (t.trace c)) = some s) :
    (c.loadState ref).replay? (loadHistory ref before) = some (m.core.loadState ref) := by
  induction before generalizing t c with
  | nil => rw [core_of_trace htrace, loadHistory_nil, LoadState.replay?_nil]
  | cons first before ih =>
    cases t with
    | pure a => cases htrace
    | act action next =>
      obtain ⟨rfl, hnext⟩ := List.cons.inj htrace
      rw [trace_act, ← List.singleton_append, loadHistory_append, LoadState.replay?_append,
        Option.bind_eq_some_iff] at hreplay
      obtain ⟨s', hfirst, hrest⟩ := hreplay
      have hafter := Moment.loadState_of_replay? (m := ⟨c, action⟩) ht.1 hfirst
      rw [← List.singleton_append, loadHistory_append, LoadState.replay?_append, hfirst,
        Option.bind_some, ← hafter]
      exact ih (ht.2 _) hnext (hafter ▸ hrest)

/-- Whatever comes after a moment finds the unit as it was then, but for how far its load has
come. -/
theorem keeps_unit_of_append {m m' : Moment σ S U} {before after : List (Moment σ S U)}
    {unit : ExecutionUnit U} (htrace : t.trace c = before ++ m' :: after) (hm : m ∈ before)
    (hunit : m.core.unit? ref = some unit) : m'.core.Keeps ref unit := by
  obtain ⟨first, between, rfl⟩ := List.append_of_mem hm
  rw [List.append_assoc, List.cons_append] at htrace
  obtain ⟨rest, -, hrest⟩ := t.exists_rest_of_append htrace
  have hm' : m' ∈ rest.trace m.after := hrest ▸ List.mem_append_right _ List.mem_cons_self
  exact rest.trace_keeps (P := fun c => c.Keeps ref unit) (fun _ => Moment.keeps_after)
    (Moment.unit?_after hunit) m' hm'

theorem keeps_unit_of_run {m : Moment σ S U} {unit : ExecutionUnit U} (hm : m ∈ t.trace c)
    (hunit : m.core.unit? ref = some unit) : (t.run c).2.Keeps ref unit :=
  t.run_of_moment (P := fun c => c.Keeps ref unit) (fun _ => Moment.keeps_after) hm
    (Moment.unit?_after hunit)

end Task

/-! ## The law -/

/-- What the part of a run that lies behind says of a unit, and of the next load of it. -/
structure LoadLaw [Host σ] (ref : UnitRef) (past : List (Moment σ S U)) (c : Core σ U) : Prop where
  /-- The unit is the one that it was, and its code with its namespace is what it was. -/
  kept : ∀ m ∈ past, ∀ unit, m.core.unit? ref = some unit → c.Keeps ref unit
  loaded : ∀ unit, c.unit? ref = some unit →
    (unit.isLoaded = true ↔ .completed ∈ loadHistory ref past)
  running : c.stage? ref = some .loading ↔
    (loadHistory ref past).count .completed + (loadHistory ref past).count .failed <
      (loadHistory ref past).count .started
  once : (loadHistory ref past).count .completed ≤ 1
  /-- Nothing starts once a run has completed. -/
  last : ∀ before after, loadHistory ref past = before ++ .completed :: after →
    ∀ event ∈ after, event = .found
  unloaded : ∀ before, loadHistory ref past = before ++ [.failed] → c.loadState ref = .fresh
  /-- The first load after a failed run starts another one. -/
  again : ∀ before event after, loadHistory ref past = before ++ .failed :: event :: after →
    event = .started
  /-- A load that finds the code running, or finds that it has run, runs nothing. -/
  idle : c.stage? ref = some .loading ∨ .completed ∈ loadHistory ref past →
    ∀ {V : Type} (runTop : U → Routine S U V) (state : S),
      Task.run (Routine.load runTop ref state) c = ((.ok ⟨⟩, state), c) ∧
        Task.trace (Routine.load runTop ref state) c = [⟨c, .beginLoad ref⟩]
  /-- Any other load runs the code of the unit once, and comes to what this comes to. -/
  runs : ∀ unit, c.unit? ref = some unit → c.stage? ref ≠ some .loading →
    .completed ∉ loadHistory ref past →
    ∀ {V : Type} (runTop : U → Routine S U V) (state : S) (result : Except Failure V) (state' : S)
      (c' : Core σ U),
      Task.run (runTop unit.code state) (c.setLoadState ref .loading) = ((result, state'), c') →
      Task.run (Routine.load runTop ref state) c =
          ((result.map fun _ => ⟨⟩, state'), c'.endLoad ref result.isOk) ∧
        Task.trace (Routine.load runTop ref state) c =
          ⟨c, .beginLoad ref⟩ ::
            (Task.trace (runTop unit.code state) (c.setLoadState ref .loading) ++
              [⟨c', .endLoad ref result.isOk⟩])

theorem loadLaw_of_replay? [Host σ] {ref : UnitRef} {past : List (Moment σ S U)} {c : Core σ U}
    (h : LoadState.replay? .fresh (loadHistory ref past) = some (c.loadState ref))
    (hkept : ∀ m ∈ past, ∀ unit, m.core.unit? ref = some unit → c.Keeps ref unit) :
    LoadLaw ref past c := by
  obtain ⟨hcompleted, hstarted⟩ := LoadState.counts_of_replay? h
  have hloaded : c.loadState ref = .loaded ↔ .completed ∈ loadHistory ref past := by
    rw [← List.count_pos_iff, hcompleted]
    split <;> simp [*]
  refine
    { kept := hkept
      loaded := ?loaded
      running := ?running
      once := ?once
      last := fun _ _ hsplit => LoadState.found_after_completed (hsplit ▸ h)
      unloaded := fun _ hsplit => LoadState.fresh_of_failed (hsplit ▸ h)
      again := fun _ _ _ hsplit => LoadState.started_after_failed (hsplit ▸ h)
      idle := ?idle
      runs := ?runs }
  case loaded =>
    intro unit hunit
    rw [← hloaded, Core.loadState_of_unit? hunit, ExecutionUnit.isLoaded, decide_eq_true_eq]
  case running =>
    rw [← Core.loadState_eq_loading_iff, hstarted]
    split <;> simp [*]
  case once =>
    rw [hcompleted]
    split <;> simp
  case idle =>
    intro hbusy V runTop state
    refine Routine.run_load_of_not_fresh runTop state (Core.beginLoad_of_not_fresh fun hfresh => ?_)
    rw [← hloaded, Core.loadState_of_stage? hfresh, hfresh] at hbusy
    rcases hbusy with h | h <;> cases h
  case runs =>
    intro unit hunit hidle hopen V runTop state result state' c' htop
    rw [← hloaded] at hopen
    rw [ne_eq, ← Core.loadState_eq_loading_iff] at hidle
    have hstate : unit.state = .fresh := by
      rw [Core.loadState_of_unit? hunit] at hopen hidle
      cases hs : unit.state <;> simp_all
    have hbegin : c.beginLoad ref = (some unit.code, c.setLoadState ref .loading) := by
      simp only [Core.beginLoad, hunit, hstate]
    exact Routine.run_load_of_fresh hbegin htop

/-- Engines do nothing to a unit but load it, whether a unit is loaded, its entry point is looked up
or an operation runs. And whatever is done to a unit by loads, from when it is made or before, at
every moment of it the history of its loads says whether the unit is loaded, that it is the one that
it was, and what the next load of it does: it leaves the code alone while this is running or has run
to its end, and otherwise runs it. So one run completes at most, and a failed one is followed by
another. -/
theorem units_follow_their_loads (ref : UnitRef) :
    (∀ (e : Engine) (x : UnitRef) (name : String),
        Routine.All (fun _ t => t.Loads ref) (e.loadUnit x) ∧
          Routine.All (fun _ t => t.Loads ref) (e.function x name)) ∧
      (∀ (e : Engine) (entryPoint : String) (o : Operation),
        Routine.All (fun _ t => t.Loads ref) (o.routine e entryPoint)) ∧
      ∀ {σ S U α : Type} [Host σ] {t : Task S U α} {c : Core σ U},
        t.Loads ref → c.loadState ref = .fresh →
          (∀ before m after, t.trace c = before ++ m :: after → LoadLaw ref before m.core) ∧
            LoadLaw ref (t.trace c) (t.run c).2 ∧ (t.run c).2.stage? ref ≠ some .loading := by
  have hcarries (e : Engine) := Compiler.carries_loads e.compiler_makesFresh ref
  refine ⟨fun e x name => ⟨(hcarries e).loadUnit x, (hcarries e).function x name⟩,
    fun e entryPoint o => (hcarries e).routine entryPoint o, ?_⟩
  intro σ S U α _ t c ht hfresh
  obtain ⟨hreplay, hloading⟩ := ht.replay? c
  refine ⟨fun before m after htrace => ?_, ?_, ?_⟩
  · have hbefore := Task.replay?_of_append ht.every htrace hreplay
    rw [hfresh] at hbefore
    exact loadLaw_of_replay? hbefore fun _ hm _ => Task.keeps_unit_of_append htrace hm
  · rw [hfresh] at hreplay
    exact loadLaw_of_replay? hreplay fun _ hm _ => Task.keeps_unit_of_run hm
  · intro hrunning
    rw [← Core.loadState_eq_loading_iff, hloading, hfresh] at hrunning
    cases hrunning

/-- Top-level code that loads its own unit again. Its first run fails. -/
def reentrant (ref : UnitRef) : Routine Nat PUnit PUnit := do
  Routine.load (fun _ => (pure ⟨⟩ : Routine Nat PUnit PUnit)) ref
  let runs ← get
  set (runs + 1)
  if runs = 0 then throw (.invalidArgument "not yet")

theorem reentrant_loads (ref : UnitRef) :
    Routine.All (fun _ t => t.Loads ref) (reentrant ref) := by
  have hN := Task.loads_composes (S := Nat) (U := PUnit) ref
  have hagain : Routine.All (fun _ t => t.Loads ref)
      (Routine.load (fun _ => (pure ⟨⟩ : Routine Nat PUnit PUnit)) ref) :=
    .load fun _ _ => .pure _
  refine hagain.bind hN fun _ => (Routine.all_get hN).bind hN fun runs =>
    (Routine.all_set hN _).bind hN fun _ => ?_
  split
  · exact Routine.all_throw hN _
  · exact Routine.all_pure hN _

/-- The unit is loaded three times, and the first failure is forgotten. -/
def insistent (ref : UnitRef) : Routine Nat PUnit PUnit := do
  let _ ← Routine.attempt (Routine.load (fun _ => reentrant ref) ref)
  Routine.load (fun _ => reentrant ref) ref
  Routine.load (fun _ => reentrant ref) ref

def compiled : Core MemoryHost PUnit :=
  ((Core.new {} {}).addUnit { id := .init, name := "init", checksum := 0, code := ⟨⟩ }).2

theorem units_follow_their_loads_insistent :
    Task.Loads ⟨0⟩ (insistent ⟨0⟩ 0) ∧ compiled.loadState ⟨0⟩ = .fresh ∧
      loadHistory ⟨0⟩ (Task.trace (insistent ⟨0⟩ 0) compiled) =
        [.started, .found, .failed, .started, .found, .completed, .found] ∧
      ∀ unit, (Task.run (insistent ⟨0⟩ 0) compiled).2.unit? ⟨0⟩ = some unit →
        unit.isLoaded = true := by
  have hN := Task.loads_composes (S := Nat) (U := PUnit) ⟨0⟩
  have hload : Routine.All (fun _ t => t.Loads ⟨0⟩)
      (Routine.load (fun _ => reentrant ⟨0⟩) ⟨0⟩) := .load fun _ => reentrant_loads ⟨0⟩
  have hloads : Routine.All (fun _ t => t.Loads ⟨0⟩) (insistent ⟨0⟩) :=
    (hload.attempt hN).bind hN fun _ => hload.bind hN fun _ => hload
  have hhistory : loadHistory ⟨0⟩ (Task.trace (insistent ⟨0⟩ 0) compiled) =
      [.started, .found, .failed, .started, .found, .completed, .found] := rfl
  obtain ⟨-, -, hlaw⟩ := units_follow_their_loads ⟨0⟩
  obtain ⟨-, hend, -⟩ := hlaw (hloads 0) (c := compiled) rfl
  refine ⟨hloads 0, rfl, hhistory, fun unit hunit => (hend.loaded unit hunit).mpr ?_⟩
  rw [hhistory]
  decide

end ProcedureBridge
