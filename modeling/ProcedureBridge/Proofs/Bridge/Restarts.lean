import ProcedureBridge.Proofs.Bridge.Stock

/-! # Starts of top-level code

The top-level code of a procedure starts when its unit was made for the cache. While the code runs,
nothing drops the unit from there but what drops units of any age: the cache, when it is full, and
those who clear it. Only then a second unit is made for the procedure, and its code starts. -/

namespace ProcedureBridge

variable {σ S U V α β : Type}

def Core.caches (c : Core σ U) (id : ProcedureId) : Bool := (c.cache.peek id).isSome

namespace Moment

/-- Top-level code of the procedure starts. -/
def starts (id : ProcedureId) (m : Moment σ S U) : Bool :=
  match m.action with
  | .beginLoad ref =>
    decide (m.core.stage? ref = some .fresh ∧ m.core.unitId? ref = some (.procedure id))
  | _ => false

/-- Top-level code of the procedure has failed. -/
def fails (id : ProcedureId) (m : Moment σ S U) : Bool :=
  match m.action with
  | .endLoad ref false => decide (m.core.unitId? ref = some (.procedure id))
  | _ => false

variable [Host σ]

/-- A unit is made for the procedure. -/
def makes (id : ProcedureId) (m : Moment σ S U) : Bool :=
  match m.action with
  | .obtain x _ => decide (x = id) && !m.core.caches id && m.after.caches id
  | _ => false

/-- The procedure is cached no longer, although its unit is not what the action drops. -/
def loses (id : ProcedureId) (m : Moment σ S U) : Bool :=
  m.core.caches id && !m.after.caches id && !m.action.drops id

variable {m : Moment σ S U} {id : ProcedureId} {ref : UnitRef} {capacity : Nat}

omit [Host σ] in
theorem starts_iff : m.starts id = true ↔ ∃ ref, m.action = .beginLoad ref ∧
    m.core.stage? ref = some .fresh ∧ m.core.unitId? ref = some (.procedure id) := by
  obtain ⟨c, action⟩ := m
  cases action <;> simp [starts]

/-- What is lost was cleared, or there was no room for it. -/
theorem cleared_or_evicts (h : m.core.cache.IsLru capacity) (hloses : m.loses id = true) :
    m.action = .clearCache ∨ m.Evicts id := by
  simp only [loses, Core.caches, Bool.and_eq_true, Bool.not_eq_true', Option.isSome_iff_exists,
    Option.isSome_eq_false_iff, Option.isNone_iff_eq_none] at hloses
  obtain ⟨⟨⟨ref, hid⟩, hgone⟩, hdrops⟩ := hloses
  obtain hkept | ⟨-, hdropped | hlost⟩ := kept_or_gone h hid
  · exact nomatch hgone.symm.trans hkept
  · exact absurd hdropped (by rw [hdrops]; exact Bool.false_ne_true)
  · exact hlost

theorem makes_iff : m.makes id = true ↔
    (∃ compile, m.action = .obtain id compile) ∧
      m.core.caches id = false ∧ m.after.caches id = true := by
  obtain ⟨c, action⟩ := m
  cases action with
  | obtain x compile =>
    by_cases hx : x = id
    · subst hx
      simp [makes]
    · simp [makes, hx]
  | _ => simp [makes]

theorem makes_le (m : Moment σ S U) (id : ProcedureId) :
    (m.makes id).toNat + (m.core.caches id).toNat ≤
      (m.after.caches id).toNat + (m.loses id).toNat + (m.action.drops id).toNat := by
  cases hmakes : m.makes id with
  | true =>
    obtain ⟨-, hmissed, hcached⟩ := makes_iff.mp hmakes
    simp [hmissed, hcached]
    omega
  | false =>
    rw [loses]
    cases m.core.caches id <;> cases m.after.caches id <;> cases m.action.drops id <;> decide

/-- What starts is cached, and what is dropped is not in the middle of its load. -/
structure Guarded (m : Moment σ S U) : Prop where
  cached : ∀ {id ref}, m.action = .beginLoad ref → m.starts id = true →
    m.core.cache.peek id = some ref
  ended : ∀ {id ref}, m.action.drops id = true → m.core.cache.peek id = some ref →
    m.core.stage? ref ≠ some .loading

/-- The step lemma: in the middle of its load a unit stays where it is, unless it is lost. -/
theorem cached_after (hm : m.Guarded) (h : m.core.cache.IsLru capacity)
    (hid : m.core.cache.peek id = some ref) (hloading : m.core.stage? ref = some .loading)
    (hkeeps : m.loses id = false) : m.after.cache.peek id = some ref := by
  obtain hkept | ⟨hgone, -⟩ := kept_or_gone h hid
  · exact hkept
  · have hdrops : m.action.drops id = true := by
      simpa [loses, Core.caches, hid, hgone] using hkeeps
    exact absurd hloading (hm.ended hdrops hid)

end Moment

/-! ## Runs -/

namespace Task

variable [Host σ] {c : Core σ U} {id : ProcedureId} {capacity : Nat}

theorem run_isLru (t : Task S U α) (h : c.cache.IsLru capacity) :
    (t.run c).2.cache.IsLru capacity :=
  t.run_keeps (P := fun c => c.cache.IsLru capacity) (fun _ => Moment.isLru_after) h

/-- The run lemma: code that starts while it runs was lost in the meantime. -/
theorem lost_between {t : Task S U α} {before between after : List (Moment σ S U)}
    {first again : Moment σ S U} {ref : UnitRef} (h : c.cache.IsLru capacity)
    (ht : ∀ m ∈ t.trace c, m.Guarded)
    (htrace : t.trace c = before ++ first :: between ++ again :: after)
    (hfirst : first.action = .beginLoad ref) (hstarts : first.starts id = true)
    (hruns : ∀ m ∈ between, ∀ completed, m.action ≠ .endLoad ref completed)
    (hagain : again.starts id = true) : ∃ m ∈ between, m.loses id = true := by
  have hguarded : first.Guarded ∧ (∀ m ∈ between, m.Guarded) ∧ again.Guarded := by
    simp only [htrace, List.mem_append, List.mem_cons] at ht
    exact ⟨ht _ (.inl (.inr (.inl rfl))), fun m hm => ht m (.inl (.inr (.inr hm))),
      ht _ (.inr (.inl rfl))⟩
  obtain ⟨hguard, hbetween, hlast⟩ := hguarded
  rw [List.append_assoc, List.cons_append] at htrace
  obtain ⟨rest, -, hrest⟩ := t.exists_rest_of_append htrace
  have hlru : first.core.cache.IsLru capacity :=
    t.trace_keeps (P := fun c => c.cache.IsLru capacity) (fun _ => Moment.isLru_after) h first
      (by simp [htrace])
  -- the invariant of the stretch, as long as nothing is lost
  let I (c : Core σ U) : Prop := c.cache.IsLru capacity ∧ c.cache.peek id = some ref ∧
    c.stage? ref = some .loading
  have hbegan : I first.after := by
    obtain ⟨x, hx, hfresh, -⟩ := Moment.starts_iff.mp hstarts
    obtain rfl : ref = x := Action.beginLoad.inj (hfirst.symm.trans hx)
    have hafter := Moment.after_beginLoad hfirst hfresh
    refine ⟨Moment.isLru_after hlru, ?_, ?_⟩
    · rw [hafter]
      exact hguard.cached hfirst hstarts
    · rw [hafter]
      exact (Core.loading_begin hfresh ref).mpr (.inl rfl)
  by_contra hnever
  push Not at hnever
  obtain ⟨-, _, c', ⟨-, hcached, hloading⟩, hagain', -⟩ :=
    rest.stretch_keeps (I := I) hrest hbegan fun m hm ⟨hlru, hcached, hloading⟩ =>
      ⟨Moment.isLru_after hlru, Moment.cached_after (hbetween m hm) hlru hcached hloading
        (by simpa using hnever m hm), Moment.loading_after hloading (hruns m hm)⟩
  obtain rfl := core_of_trace hagain'
  obtain ⟨x, hx, hfresh, -⟩ := Moment.starts_iff.mp hagain
  obtain rfl : ref = x := Option.some.inj (hcached.symm.trans (hlast.cached hx hagain))
  exact nomatch hfresh.symm.trans hloading

/-- The count lemma: of the units made for a procedure one may be cached, in the end. The others were
lost or dropped, and so was what was cached in the beginning, if any was made. -/
theorem countP_makes_le (t : Task S U α) (c : Core σ U) (id : ProcedureId) :
    (t.trace c).countP (·.makes id) + (c.caches id).toNat ≤
      ((t.run c).2.caches id).toNat + (t.trace c).countP (·.loses id) +
        (t.trace c).countP (·.action.drops id) := by
  induction t generalizing c with
  | pure a => simp [trace, run]
  | act action next ih =>
    have hnext := ih (c.perform action).1 (Moment.after ⟨c, action⟩)
    have hstep := Moment.makes_le ⟨c, action⟩ id
    have hcount : ∀ (p : Moment σ S U → Bool) m rest,
        (m :: rest).countP p = rest.countP p + (p m).toNat := by
      intro p m rest
      rw [List.countP_cons]
      cases p m <;> rfl
    rw [trace_act, run_act, hcount, hcount, hcount]
    dsimp only at hstep ⊢
    omega

end Task

/-! ## Stretches -/

/-- In the stretch the code that starts is that of a unit made in it and cached, and what is dropped
is a unit whose code has failed in it. -/
structure Paced [Host σ] (trace : List (Moment σ S U)) : Prop where
  guarded : ∀ m ∈ trace, m.Guarded
  made : ∀ id : ProcedureId, trace.countP (·.starts id) ≤ trace.countP (·.makes id)
  failed : ∀ id : ProcedureId, trace.countP (·.action.drops id) ≤ trace.countP (·.fails id)

namespace Paced

variable [Host σ] {trace trace' : List (Moment σ S U)} {m m' : Moment σ S U} {id : ProcedureId}

theorem nil : Paced ([] : List (Moment σ S U)) where
  guarded m hm := by cases hm
  made _ := by simp
  failed _ := by simp

theorem append (h : Paced trace) (h' : Paced trace') : Paced (trace ++ trace') where
  guarded m hm := (List.mem_append.mp hm).elim (h.guarded m) (h'.guarded m)
  made id := by
    rw [List.countP_append, List.countP_append]
    exact Nat.add_le_add (h.made id) (h'.made id)
  failed id := by
    rw [List.countP_append, List.countP_append]
    exact Nat.add_le_add (h.failed id) (h'.failed id)

/-- Where nothing starts and nothing is dropped, there is nothing to show. -/
theorem idle (hstarts : ∀ id, m.starts id = false) (hdrops : ∀ id, m.action.drops id = false) :
    Paced [m] where
  guarded x hx := by
    obtain rfl := List.mem_singleton.mp hx
    exact ⟨fun _ h => by simp [hstarts] at h, fun h => by simp [hdrops] at h⟩
  made id := by simp [hstarts]
  failed id := by simp [hdrops]

/-- A unit is made, and its code starts. -/
theorem start {compile : ProcedureSource → Except Failure (ExecutionUnit U × S)} {ref : UnitRef}
    (hobtain : m.action = .obtain id compile) (hmakes : m.makes id = true)
    (hbegin : m'.action = .beginLoad ref) (hid : m'.core.unitId? ref = some (.procedure id))
    (hcached : m'.core.cache.peek id = some ref) : Paced [m, m'] := by
  have hquiet : ∀ x, m.starts x = false := fun x => by simp [Moment.starts, hobtain]
  have hfirst : Paced [m] := .idle hquiet fun x => by simp [Action.drops, hobtain]
  have honly : ∀ x, m'.starts x = true → x = id := by
    intro x hx
    obtain ⟨ref', href, -, hx⟩ := Moment.starts_iff.mp hx
    obtain rfl := Action.beginLoad.inj (hbegin.symm.trans href)
    exact UnitId.procedure.inj (Option.some.inj (hx.symm.trans hid))
  refine ⟨fun x hx => ?_, fun x => ?_, fun x => by simp [Action.drops, hobtain, hbegin]⟩
  · obtain rfl | hx := List.mem_cons.mp hx
    · exact hfirst.guarded x List.mem_cons_self
    · obtain rfl := List.mem_singleton.mp hx
      refine ⟨fun {y ref'} href hy => ?_, fun h => by simp [Action.drops, hbegin] at h⟩
      obtain rfl := Action.beginLoad.inj (hbegin.symm.trans href)
      obtain rfl := honly y hy
      exact hcached
  · cases hx : m'.starts x with
    | false => simp [hquiet, hx]
    | true =>
      obtain rfl := honly x hx
      simp [hquiet, hx, hmakes]

/-- The code of a unit has failed, and the unit is dropped. -/
theorem failure {ref : UnitRef} (hend : m.action = .endLoad ref false)
    (hid : m.core.unitId? ref = some (.procedure id)) (hdrop : m'.action = .invalidate id)
    (hended : ∀ {ref}, m'.core.cache.peek id = some ref → m'.core.stage? ref ≠ some .loading) :
    Paced [m, m'] := by
  refine ⟨fun x hx => ?_, fun x => by simp [Moment.starts, hend, hdrop], fun x => ?_⟩
  · obtain rfl | hx := List.mem_cons.mp hx
    · exact ⟨fun h => absurd (hend.symm.trans h) nofun, fun h => by simp [Action.drops, hend] at h⟩
    · obtain rfl := List.mem_singleton.mp hx
      refine ⟨fun h => absurd (hdrop.symm.trans h) nofun, fun {y ref'} hy => ?_⟩
      obtain rfl : id = y := by simpa [Action.drops, hdrop] using hy
      exact hended
  · by_cases hx : id = x
    · subst hx
      simp [Action.drops, Moment.fails, hend, hdrop, hid]
    · simp [Action.drops, Moment.fails, hend, hdrop, hx]

/-- A load that has begun is not begun again. -/
theorem begun {ref : UnitRef} (hbegin : m.action = .beginLoad ref)
    (hfresh : m.core.stage? ref ≠ some .fresh) : Paced [m] :=
  .idle (fun id => by simp [Moment.starts, hbegin, hfresh]) fun id => by simp [Action.drops, hbegin]

end Paced

/-- Whatever happens around it, the task is nested and paced. -/
def Task.Paces (σ : Type) [Host σ] (t : Task S U α) : Prop :=
  t.Nested σ ∧ ∀ (c : Core σ U) (capacity : Nat), c.Sound none → c.cache.IsLru capacity →
    Paced (t.trace c)

namespace Task

variable [Host σ]

theorem paces_composes : Composes fun α (t : Task S U α) => t.Paces σ where
  pure a := ⟨nested_composes.pure a, fun _ _ _ _ => .nil⟩
  bind {_ _ t k} ht hk := by
    refine ⟨nested_composes.bind ht.1 fun a => (hk a).1, fun c capacity hc hlru => ?_⟩
    rw [trace_bind]
    exact (ht.2 c capacity hc hlru).append
      ((hk _).2 _ capacity (ht.1 c hc).sound (t.run_isLru hlru))

theorem paces_perform {action : Action S U} (hnested : (perform action).Nested σ)
    (hbegin : ∀ ref, action ≠ .beginLoad ref) (hdrops : ∀ id, action.drops id = false) :
    (perform action).Paces σ := by
  refine ⟨hnested, fun c _ _ _ => .idle (m := ⟨c, action⟩) (fun id => ?_) hdrops⟩
  cases action with
  | beginLoad ref => exact absurd rfl (hbegin ref)
  | _ => rfl

end Task

/-- The compiler makes units of the ids that it is asked for. -/
def Compiler.KeepsIds (compiler : Compiler S U) : Prop :=
  ∀ id name text state unit state', compiler id name text state = .ok (unit, state') → unit.id = id

namespace Routine

variable [Host σ] {compiler : Compiler S U} {runTop : U → Routine S U V} {c c' : Core σ U}
  {ref : UnitRef} {state state' : S} {id : ProcedureId} {capacity : Nat}

/-- A unit that is not of a procedure is loaded. -/
theorem load_paced (hrun : ∀ code, All (fun _ t => t.Paces σ) (runTop code)) (hc : c.Sound none)
    (hlru : c.cache.IsLru capacity) (hid : ∀ id, c.unitId? ref ≠ some (.procedure id)) (state : S) :
    Paced (Task.trace (load runTop ref state) c) := by
  by_cases hfresh : c.stage? ref = some .fresh
  · obtain ⟨code, hbegin⟩ := Core.beginLoad_of_fresh hfresh
    rcases htop : Task.run (runTop code state) (c.setLoadState ref .loading) with
      ⟨⟨result, state'⟩, c'⟩
    have hpaced := (hrun code state).2 _ capacity ((hc.weaken _).loadBegun hfresh) hlru
    have hstart : Paced [(⟨c, .beginLoad ref⟩ : Moment σ S U)] :=
      .idle (fun id => by simp [Moment.starts, hid]) fun _ => rfl
    have hend : Paced [(⟨c', .endLoad ref result.isOk⟩ : Moment σ S U)] :=
      .idle (fun _ => rfl) fun _ => rfl
    rw [(run_load_of_fresh hbegin htop).2]
    exact hstart.append (hpaced.append hend)
  · rw [(run_load_of_not_fresh runTop state (Core.beginLoad_of_not_fresh hfresh)).2]
    exact .begun rfl hfresh

/-- The unit of a procedure is made, loaded, and dropped if that fails. -/
theorem loadOrDrop_paced (hrun : ∀ code, All (fun _ t => t.Paces σ) (runTop code))
    (hc : c.Sound (some ref)) (hlru : c.cache.IsLru capacity) (hfresh : c.stage? ref = some .fresh)
    (hid : c.unitId? ref = some (.procedure id)) (hcached : c.cache.peek id = some ref)
    {m : Moment σ S U} {compile : ProcedureSource → Except Failure (ExecutionUnit U × S)}
    (hobtain : m.action = .obtain id compile) (hmakes : m.makes id = true) (state : S) :
    Paced (m :: Task.trace (loadOrDrop runTop id ref state) c) := by
  obtain ⟨code, hbegin⟩ := Core.beginLoad_of_fresh hfresh
  have hnested := (hrun code state).1 _ (hc.loadBegun hfresh)
  have hpaced := (hrun code state).2 _ capacity (hc.loadBegun hfresh) hlru
  have hstart : Paced [m, ⟨c, .beginLoad ref⟩] := .start hobtain hmakes rfl hid hcached
  rcases htop : Task.run (runTop code state) (c.setLoadState ref .loading) with
    ⟨⟨result, state'⟩, c'⟩
  obtain ⟨hload, htrace⟩ := run_load_of_fresh hbegin htop
  cases result with
  | ok v =>
    have hend : Paced [(⟨c', .endLoad ref true⟩ : Moment σ S U)] :=
      .idle (fun _ => rfl) fun _ => rfl
    rw [(run_loadOrDrop_of_loaded id hload).2, htrace]
    exact hstart.append (hpaced.append hend)
  | error f =>
    have hid' : c'.unitId? ref = some (.procedure id) := by
      have hbegan := Moment.unitId?_after (m := ⟨c, (.beginLoad ref : Action S U)⟩) hid
      rw [Moment.after_beginLoad rfl hfresh] at hbegan
      have hkept := Task.run_keeps (P := fun c => c.unitId? ref = some (.procedure id))
        (fun _ => Moment.unitId?_after) (runTop code state) hbegan
      rwa [htop] at hkept
    rw [htop] at hnested
    have haround := Orderly.around hfresh hnested false
    have hended : ∀ {x}, (c'.endLoad ref false).cache.peek id = some x →
        (c'.endLoad ref false).stage? x ≠ some .loading := by
      intro x hx hloading
      -- it was in the middle of its load before, in the place of the unit
      have hbefore := (haround.loading x).mp hloading
      have hold := haround.grows.cached hx (Core.lt_of_stage? hbefore)
      obtain rfl : ref = x := Option.some.inj (hcached.symm.trans hold)
      exact nomatch hfresh.symm.trans hbefore
    have hfail : Paced [(⟨c', .endLoad ref false⟩ : Moment σ S U),
        ⟨c'.endLoad ref false, .invalidate id⟩] := .failure rfl hid' rfl hended
    rw [(run_loadOrDrop_of_failed id hload).2, htrace]
    have h := hstart.append (hpaced.append hfail)
    simp only [List.cons_append, List.nil_append, List.append_assoc] at h ⊢
    exact h

theorem loadProcedure_paces (hcompiler : compiler.MakesFresh) (hids : compiler.KeepsIds)
    (hrun : ∀ code, All (fun _ t => t.Paces σ) (runTop code)) (id : ProcedureId) :
    All (fun _ t => t.Paces σ) (loadProcedure compiler runTop id) := by
  intro state
  refine ⟨loadProcedure_nested hcompiler (fun code state => (hrun code state).1) id state,
    fun c capacity hc hlru => ?_⟩
  have hobtain : Paced [(⟨c, .obtain id (compiling compiler id state)⟩ : Moment σ S U)] :=
    .idle (fun _ => rfl) fun _ => rfl
  have hlru' : (c.obtain id (compiling compiler id state)).2.cache.IsLru capacity :=
    Moment.isLru_after (m := ⟨c, .obtain id (compiling compiler id state)⟩) hlru
  have hobtained := c.obtain_obtained id (compiling compiler id state)
  rw [(run_loadProcedure state c).2]
  generalize hr : c.obtain id (compiling compiler id state) = r at hobtained hlru'
  cases hobtained with
  | failed => exact hobtain
  | @found ref c' hit hunits hpeek =>
    have hbegun : c'.Begun ref :=
      (hc.drop hunits (CodeCache.within_of_peek hpeek)).begun ((hpeek id).trans hit)
    obtain ⟨hrun, htrace⟩ := run_loadOrDrop_of_begun runTop id hbegun state
    rw [(run_afterObtain none hrun).2.trans htrace]
    exact hobtain.append (.begun rfl hbegun.not_fresh)
  | @made source unit state' c' hmade hunits hpeek =>
    obtain ⟨hmissed, hcached⟩ := Core.obtain_stored hlru hr
    have hmakes : Moment.makes id (⟨c, .obtain id (compiling compiler id state)⟩ : Moment σ S U) =
        true := by
      refine Moment.makes_iff.mpr ⟨⟨_, rfl⟩, ?_, ?_⟩
      · rw [Core.caches, hmissed]
        rfl
      · change (c.obtain id (compiling compiler id state)).2.caches id = true
        rw [hr, Core.caches, hcached]
        rfl
    have hunit : c'.unit? ⟨c.units.size⟩ = some unit := by
      rw [Core.unit?, hunits, Array.getElem?_push_size]
    have hfresh : c'.stage? ⟨c.units.size⟩ = some .fresh := by
      rw [Core.stage?, hunit, Option.map_some, hcompiler _ _ _ _ _ _ hmade]
    have hid : c'.unitId? ⟨c.units.size⟩ = some (.procedure id) := by
      rw [Core.unitId?, hunit, Option.map_some, hids _ _ _ _ _ _ hmade]
    have hsound : c'.Sound (some ⟨c.units.size⟩) := hc.push hunits fun x ref hx =>
      (hpeek x ref hx).imp_left fun h => congrArg some h.2
    rcases hload : Task.run (loadOrDrop runTop id ⟨c.units.size⟩ state') c' with ⟨⟨result, _⟩, _⟩
    rw [(run_afterObtain (some state') hload).2]
    exact loadOrDrop_paced hrun hsound hlru' hfresh hid hcached rfl hmakes state'

end Routine

/-- Whatever scripts do is nested and paced. -/
theorem Compiler.carries_paces [Host σ] {compiler : Compiler S U}
    (hcompiler : compiler.MakesFresh) (hids : compiler.KeepsIds) :
    compiler.CarriesScripts fun _ t => t.Paces σ := by
  refine .of_perform Task.paces_composes (fun action ha hnamed => ?_) ?_
    (Routine.loadProcedure_paces hcompiler hids)
  · refine Task.paces_perform (fun c hc => .plain (m := ⟨c, action⟩) ha hc) ?_ fun id => ?_
    · rintro ref rfl
      cases ha
    · cases action <;> first | rfl | cases ha
  · exact Task.paces_perform (Compiler.carries_nested hcompiler).clearCache (fun _ => nofun)
      fun _ => rfl

theorem Engine.compiler_keepsIds (e : Engine) : e.compiler.KeepsIds := by
  intro id name text state unit state' h
  obtain ⟨code, rfl⟩ := e.compiler_ok h
  rfl

theorem Engine.carries_paces [Host σ] (e : Engine) :
    e.compiler.CarriesScripts fun _ t => t.Paces σ :=
  Compiler.carries_paces e.compiler_makesFresh e.compiler_keepsIds

/-! ## Operations -/

namespace Operation

variable [Host σ] (e : Engine)

/-- When the entry point is looked for, the procedure is loaded. -/
theorem main_paces (entryPoint : String) (id : ProcedureId) :
    Routine.All (fun _ t => t.Paces σ) (main e entryPoint id) := by
  intro state
  have hN := e.carries_paces (σ := σ)
  have hload : (e.loadProcedure id state).Paces σ :=
    hN.loadProcedure (fun _ => hN.runScript _) id state
  refine ⟨e.carries_nested.main entryPoint id state, fun c capacity hc hlru => ?_⟩
  change Paced (Task.trace ((e.loadProcedure id >>= fun ref => e.function ref entryPoint) state) c)
  rw [Routine.bind_apply, Task.trace_bind]
  refine (hload.2 c capacity hc hlru).append ?_
  have hsound := (hload.1 c hc).sound
  have hlru' := (e.loadProcedure id state).run_isLru hlru
  rcases hrun : Task.run (e.loadProcedure id state) c with ⟨⟨f | ref, state'⟩, c'⟩
  · exact .nil
  · have hbegun : c'.Begun ref := Routine.loadProcedure_begun e.compiler_makesFresh
      (fun _ => e.carries_nested.runScript _) hc hrun
    rw [hrun] at hsound hlru'
    obtain ⟨hidle, htrace⟩ := Routine.run_load_of_not_fresh
      (fun code => e.runScript (e.topLevel code)) state'
      (Core.beginLoad_of_not_fresh hbegun.not_fresh)
    change Paced (Task.trace ((e.loadUnit ref >>= fun _ => e.finding ref entryPoint) state') c')
    rw [Routine.bind_apply, Task.trace_bind, Engine.loadUnit, hidle, htrace]
    exact (Paced.begun rfl hbegun.not_fresh).append
      ((hN.finding ref entryPoint state').2 c' capacity hsound hlru')

/-- A block is loaded, but is not a procedure. -/
theorem block_paces (n : Nat) (name text : String) :
    Routine.All (fun _ t => t.Paces σ)
      (Routine.compile e.compiler (.inline n) name text >>= fun ref => e.loadUnit ref) := by
  have hnested := e.carries_nested (σ := σ)
  intro state
  refine ⟨(hnested.compile _ _ _).bind hnested.toComposes (fun ref => hnested.loadUnit ref) state,
    fun c capacity hc hlru => ?_⟩
  rw [Routine.bind_apply, Routine.compile_apply]
  cases hmade : e.compiler (.inline n) name text state with
  | error f => exact .nil
  | ok made =>
    obtain ⟨unit, state'⟩ := made
    have hadd : Paced [(⟨c, .addUnit unit⟩ : Moment σ e.State e.Code)] :=
      .idle (fun _ => rfl) fun _ => rfl
    have hsound : (c.addUnit unit).2.Sound none := hc.push rfl fun _ _ h => .inr h
    have hid : ∀ id, (c.addUnit unit).2.unitId? ⟨c.units.size⟩ ≠ some (.procedure id) := by
      intro id
      rw [Core.unitId?, Core.unit?, Core.addUnit, Array.getElem?_push_size, Option.map_some,
        e.compiler_keepsIds _ _ _ _ _ _ hmade]
      intro h
      cases h
    exact hadd.append
      (Routine.load_paced (fun _ => e.carries_paces.runScript _) hsound hlru hid state')

/-- Every operation is nested and paced. -/
theorem routine_paces (entryPoint : String) (o : Operation) :
    Routine.All (fun _ t => t.Paces σ) (o.routine e entryPoint) :=
  e.carries_paces.routine_of_loads (main_paces e entryPoint) (block_paces e) o

end Operation

end ProcedureBridge
