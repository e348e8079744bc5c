import ProcedureBridge.Host.Memory
import ProcedureBridge.Proofs.Bridge.Loading
import ProcedureBridge.Proofs.Bridge.Reportable
import ProcedureBridge.Proofs.Session.Standing

/-! # The form in which failures leave a session

A failure that crosses the call boundary is one report. Operations and validations cross it; a
refresh does not, and hands on what the host answered. -/

namespace ProcedureBridge

/-- A sequence of steps is reportable if its parts are. -/
theorem Bridge.reportable_bind {S σ U α β : Type} {x : Bridge S σ U α} {f : α → Bridge S σ U β}
    (hx : ∀ w, Reportable (x w).1) (hf : ∀ a w, Reportable (f a w).1) (w : World S σ U) :
    Reportable ((x >>= f) w).1 := by
  have hw := hx w
  match hr : x w with
  | (.ok a, w') =>
    rw [bind_of_ok hr]
    exact hf a w'
  | (.error failure, w') =>
    rw [bind_of_error hr]
    rw [hr] at hw
    exact reportable_error_iff.mpr (reportable_error_iff.mp hw)

theorem Bridge.reportable_onCore {S σ U α : Type} {f : Core σ U → Except Failure α × Core σ U}
    (hf : ∀ c, Reportable (f c).1) (w : World S σ U) :
    Reportable ((onCore f : Bridge S σ U α) w).1 :=
  hf w.core

theorem Request.failureOf_eq_some {α : Type} {r : Except Failure α} {f : Failure}
    (h : failureOf r = some f) : r = .error f := by
  cases r with
  | ok a => cases h
  | error g =>
    cases h
    rfl

namespace Session

open Request

variable {e : Engine} {σ α : Type} [Host σ]

theorem reportFailure_reported {f : Failure} (hf : f ≠ .terminated) (c : Core σ e.Code) :
    ∃ report, (reportFailure c f).1 = .reported report := by
  unfold reportFailure
  split
  · exact absurd rfl hf
  · exact ⟨_, rfl⟩

theorem verdict_reportable (fatal : Option Exception) (leftOpen : Nat) (rootFailed : Bool)
    {result : Except Failure α} (h : Reportable result) :
    Reportable (verdict fatal leftOpen rootFailed result) := by
  unfold verdict
  split
  · exact reportable_exception _
  · split
    · exact reportable_exception _
    · split
      · exact reportable_exception _
      · exact reportable_ok _
  · exact h

theorem finish_reported {base : Nat} {result : Except Failure α} {c : Core σ e.Code}
    (h : Reportable result) {f : Failure} (hf : (finish base result c).1 = .error f) :
    ∃ report, f = .reported report := by
  have hverdict := verdict_reportable c.takeFatal.1 (c.unwindTo base).1
    (c.unwindTo base).2.scopes.rootFailed h
  rw [finish_eq] at hf
  generalize verdict c.takeFatal.1 (c.unwindTo base).1 (c.unwindTo base).2.scopes.rootFailed
    result = v at hf hverdict
  cases v with
  | ok a => cases hf
  | error cause =>
    obtain ⟨report, hreport⟩ :=
      reportFailure_reported (reportable_error_iff.mp hverdict) (cleaned base c)
    cases hf
    exact ⟨report, hreport⟩

variable {s : Session e σ}

/-- What fails inside the boundary is reported, and a session that has ended runs nothing. -/
theorem boundary_reported {body : Bridge e.State σ e.Code α} (hbody : ∀ w, Reportable (body w).1)
    {f : Failure} (hf : (s.boundary body).1 = .error f) :
    (s.isTerminated = true ∧ f = .terminated ∧ (s.boundary body).2 = s) ∨
      (s.isTerminated = false ∧ ∃ report, f = .reported report) := by
  cases ht : s.isTerminated with
  | true =>
    rw [boundary_of_terminated ht] at hf ⊢
    cases hf
    exact .inl ⟨rfl, rfl, rfl⟩
  | false =>
    rw [boundary, ht] at hf
    exact .inr ⟨rfl, finish_reported (hbody _) hf⟩

theorem operate_reported {o : Operation} {f : Failure} (hf : (s.operate o).1 = .error f) :
    (s.isTerminated = true ∧ f = .terminated ∧ (s.operate o).2 = s) ∨
      (s.isTerminated = false ∧ ∃ report, f = .reported report) :=
  boundary_reported (fun w => o.routine_reportable e _ w.state w.core) hf

theorem validate_reported {id : ProcedureId} {f : Failure} (hf : (s.validate id).1 = .error f) :
    (s.isTerminated = true ∧ f = .terminated ∧ (s.validate id).2 = s) ∨
      (s.isTerminated = false ∧ ∃ report, f = .reported report) := by
  refine boundary_reported (Bridge.reportable_bind (Bridge.reportable_onCore fun c => ?_)
    fun source => Bridge.reportable_bind ?_ fun _ _ => reportable_ok _) hf
  · split
    · exact reportable_ok _
    · exact reportable_exception _
  · exact fun w => Routine.compile_reportable e.compiler_reportable _ _ _ w.state w.core

/-- A call of a procedure that is loaded and returns. -/
theorem operate_call {id : ProcedureId} {args : List Datum} {ref : UnitRef} {state state' : e.State}
    {c c' : Core σ e.Code} {d : Datum} (ht : s.isTerminated = false) (hs : Settled s.core)
    (hload : Task.run (e.loadProcedure id s.state) (armCall s.core) = ((.ok ref, state), c))
    (hrun : Task.run (Operation.invoking e s.options.entryPoint args ref state) c =
      ((.ok d, state'), c'))
    (hc : Settled (settleCall c'))
    (hm : (settleCall c').monitor.acknowledge = (settleCall c').monitor) :
    (s.operate (.call id args)).2.core = settleCall c' := by
  rw [operate_of_open ht hs]
  change (finish 0 (Task.run (Operation.calling e _ id args s.state) _).1.1
    (settleCall (Task.run (Operation.calling e _ id args s.state) _).2)).2 = _
  rw [Operation.run_calling hload, hrun]
  exact congrArg Prod.snd (finish_of_settled hc hm d)

/-- The unit of a procedure is to be refreshed, and the host refuses the text. -/
def RefusesRefresh (s : Session e σ) (id : ProcedureId) (report : Report) : Prop :=
  (s.cachedUnit? id).isSome ∧ (Host.lookup id s.host).1 = .error report

theorem refresh_of_refused {id : ProcedureId} {report : Report} (ht : s.isTerminated = false)
    (h : s.RefusesRefresh id report) :
    (s.refresh id).1 = .error (.exception (.ofReport report)) := by
  obtain ⟨hunit, hlook⟩ := h
  obtain ⟨unit, hunit⟩ := Option.isSome_iff_exists.mp hunit
  rw [refresh, ht]
  simp [hunit, hlook]

theorem refresh_failed {id : ProcedureId} {f : Failure} (hf : (s.refresh id).1 = .error f) :
    (s.isTerminated = true ∧ f = .terminated ∧ (s.refresh id).2 = s) ∨
      (s.isTerminated = false ∧
        ∃ report, s.RefusesRefresh id report ∧ f = .exception (.ofReport report)) := by
  unfold refresh at hf ⊢
  cases ht : s.isTerminated with
  | true =>
    simp only [ht, if_true] at hf ⊢
    cases hf
    exact .inl ⟨trivial, rfl, trivial⟩
  | false =>
    right
    simp only [ht, Bool.false_eq_true, if_false] at hf
    split at hf
    · cases hf
    · rename_i unit hunit
      split at hf
      · rename_i report hreport
        cases hf
        exact ⟨rfl, report, ⟨by rw [hunit]; rfl, hreport⟩, rfl⟩
      · split at hf <;> cases hf

/-- The form in which requests fail. In a session that has ended, every request that can fail is
refused and changes nothing. In any other, what an operation or a validation fails with is one
report. A refresh alone fails with the host's refusal of the text, as an exception. -/
theorem failures_leave_reported (s : Session e σ) :
    (∀ r f, (s.respond r).1 = some f →
      (s.isTerminated = true ∧ f = .terminated ∧ (s.respond r).2 = s) ∨
      (s.isTerminated = false ∧ ((∃ report, f = .reported report) ∨
        ∃ id report, r = .refresh id ∧ s.RefusesRefresh id report ∧
          f = .exception (.ofReport report)))) ∧
    (∀ id report, s.isTerminated = false → s.RefusesRefresh id report →
      (s.respond (.refresh id)).1 = some (.exception (.ofReport report))) := by
  constructor
  · intro r f hf
    cases r with
    | operate o =>
      obtain hended | ⟨ht, hreport⟩ := operate_reported (failureOf_eq_some hf)
      · exact .inl hended
      · exact .inr ⟨ht, .inl hreport⟩
    | validate id =>
      obtain hended | ⟨ht, hreport⟩ := validate_reported (failureOf_eq_some hf)
      · exact .inl hended
      · exact .inr ⟨ht, .inl hreport⟩
    | refresh id =>
      obtain hended | ⟨ht, report, hrefuses, hexc⟩ := refresh_failed (failureOf_eq_some hf)
      · exact .inl hended
      · exact .inr ⟨ht, .inr ⟨id, report, rfl, hrefuses, hexc⟩⟩
    | interrupt | invalidate | clearCache | watch | disarm => cases hf
  · intro id report ht hrefuses
    exact congrArg failureOf (refresh_of_refused ht hrefuses)

/-- A session on whose host is one procedure, which returns. -/
def stored : Session (Engine.scripted (.done ⟨.ok (), ()⟩)) MemoryHost :=
  fresh _ () { catalog := [⟨⟨16384⟩, "public", "p", ""⟩] }

/-- The procedure was called, and is no longer in the catalog. -/
def forgotten : Session (Engine.scripted (.done ⟨.ok (), ()⟩)) MemoryHost :=
  (stored.respond (.operate (.call ⟨16384⟩ []))).2.withHost {}

theorem forgotten_reachable : forgotten.Reachable (fun _ => True) fun _ _ => True :=
  ⟨stored, fresh_opened _ _ trivial, .outside (.request _ .refl) trivial⟩

def lookupFailed : Report :=
  .plain
    { severity := .error
      code := .internalError
      message := "cache lookup failed for procedure 16384" }

theorem forgotten_refused :
    forgotten.isTerminated = false ∧ forgotten.RefusesRefresh ⟨16384⟩ lookupFailed := by
  have hobtain : (armCall stored.core).obtain ⟨16384⟩
      (Routine.compiling (Engine.scripted (.done ⟨.ok (), ()⟩)).compiler ⟨16384⟩ ()) =
        (.ok (⟨0⟩, some ()), _) :=
    Core.obtain_of_made (Core.safepoint_of_clear rfl rfl) (CodeCache.peek_empty _ _) rfl
  have hload : Task.run ((Engine.scripted (.done ⟨.ok (), ()⟩)).loadProcedure ⟨16384⟩ ())
      (armCall stored.core) = ((.ok ⟨0⟩, ()), _) :=
    Routine.run_loadProcedure_of_made hobtain rfl rfl
  have hcall : (stored.operate (.call ⟨16384⟩ [])).2.core = _ :=
    operate_call rfl (new_settled _ _) hload rfl ⟨rfl, rfl, rfl, rfl, Monitor.idle_unseen⟩ rfl
  have hcore :
      forgotten.core = { (stored.operate (.call ⟨16384⟩ [])).2.core with host := {} } := rfl
  have hcached : forgotten.core.cache.peek ⟨16384⟩ = some ⟨0⟩ := by
    rw [hcore, hcall]
    refine CodeCache.peek_insert_self ?_ ?_ (⟨0⟩ : UnitRef)
    · exact CodeCache.peek_empty 1024 _
    · decide
  refine ⟨?_, ?_, rfl⟩
  · rw [isTerminated, hcore, hcall]
    rfl
  · rw [cachedUnit?, Core.cachedUnit?, hcached, hcore, hcall]
    rfl

theorem failures_leave_reported_forgotten :
    forgotten.isTerminated = false ∧ forgotten.RefusesRefresh ⟨16384⟩ lookupFailed ∧
      (forgotten.respond (.refresh ⟨16384⟩)).1 = some (.exception (.ofReport lookupFailed)) := by
  obtain ⟨ht, hrefuses⟩ := forgotten_refused
  exact ⟨ht, hrefuses, (failures_leave_reported forgotten).2 _ _ ht hrefuses⟩

/-- A refresh of an open session may fail with an error that is no report. -/
theorem forgotten_unreported :
    forgotten.Reachable (fun _ => True) (fun _ _ => True) ∧ forgotten.isTerminated = false ∧
      ∃ f, (forgotten.refresh ⟨16384⟩).1 = .error f ∧ f ≠ .terminated ∧
        ∀ report, f ≠ .reported report := by
  obtain ⟨ht, hrefuses⟩ := forgotten_refused
  exact ⟨forgotten_reachable, ht, _, refresh_of_refused ht hrefuses, nofun, nofun⟩

end Session

end ProcedureBridge
