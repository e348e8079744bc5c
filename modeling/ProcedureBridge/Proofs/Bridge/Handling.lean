import ProcedureBridge.Proofs.Bridge.Composition

/-! # Handlers inside handlers

A handler may catch errors of its own, and may itself fail; it ends all the same before whatever
began it goes on. So the handlers of a run are nested like brackets, and the exceptions that a core
remembers are those of the handlers that have begun and not ended. -/

namespace ProcedureBridge

variable {σ S U α : Type}

/-- The exceptions that are being handled after the action, innermost first. -/
def Action.handled : Action S U → List Exception → List Exception
  | .beginHandling exc, handling => exc :: handling
  | .endHandling, handling => handling.tail
  | _, handling => handling

/-- The action begins or ends a handler. -/
def Action.boundsHandler : Action S U → Bool
  | .beginHandling _ | .endHandling => true
  | _ => false

theorem Action.handled_of_not_bounds {action : Action S U} (h : action.boundsHandler = false)
    (handling : List Exception) : action.handled handling = handling := by
  cases action <;> first | rfl | cases h

/-! ## What a core remembers -/

theorem Core.handling_steady : Core.Steady (Core.handling (σ := σ) (U := U)) :=
  ⟨fun _ => rfl, fun _ _ _ _ _ _ _ _ => rfl⟩

section

variable [Host σ]

/-- The step lemma: only the bounds of handlers change what is being handled. -/
theorem Moment.after_handling (m : Moment σ S U) :
    m.after.handling = m.action.handled m.core.handling := by
  obtain ⟨c, action⟩ := m
  cases action with
  | enterHandle handle =>
    exact Core.handling_steady.enterHandle (fun _ _ => rfl) (fun _ _ => rfl) c handle
  | resolveHandle handle resolution =>
    exact Core.handling_steady.resolveHandle (fun _ _ => rfl) (fun _ _ => rfl) c handle resolution
  | beginHandling exc =>
    change (c.beginHandling exc).handling = exc :: c.handling
    unfold Core.beginHandling
    dsimp only
    split <;> rfl
  | endHandling | newHandle | countInline => rfl
  | enterScope | resolveScope | abortThrough =>
    exact after_of_scoping Core.handling_steady (fun _ _ => rfl) rfl
  | obtain | addUnit | beginLoad | endLoad | invalidate | clearCache =>
    exact after_of_handlesUnits Core.handling_steady (fun _ _ _ => rfl) rfl
  | _ => exact after_of_passing Core.handling_steady rfl

end

/-- The exceptions that are being handled after a stretch of a run. -/
def handledAfter (stretch : List (Moment σ S U)) (handling : List Exception) : List Exception :=
  stretch.foldl (fun handling m => m.action.handled handling) handling

theorem handledAfter_append (l l' : List (Moment σ S U)) (handling : List Exception) :
    handledAfter (l ++ l') handling = handledAfter l' (handledAfter l handling) :=
  List.foldl_append

theorem Task.handling_of_trace [Host σ] {t : Task S U α} {c : Core σ U}
    {before after : List (Moment σ S U)} {m : Moment σ S U} (ht : t.trace c = before ++ m :: after) :
    m.core.handling = handledAfter before c.handling := by
  induction before generalizing t c with
  | nil => rw [Task.core_of_trace ht, handledAfter, List.foldl_nil]
  | cons first before ih =>
    cases t with
    | pure a => cases ht
    | act action next =>
      rw [Task.trace_act] at ht
      obtain ⟨rfl, hrest⟩ := List.cons.inj ht
      rw [ih hrest, Moment.after_handling]
      rfl

/-! ## Brackets -/

/-- Every handler that begins in the stretch ends there, and none ends that has begun before. -/
inductive Closed : List (Moment σ S U) → Prop
  | nil : Closed []
  | other {m : Moment σ S U} {rest : List (Moment σ S U)} : m.action.boundsHandler = false →
      Closed rest → Closed (m :: rest)
  | handler {first last : Moment σ S U} {exc : Exception} {inside rest : List (Moment σ S U)} :
      first.action = .beginHandling exc → Closed inside → last.action = .endHandling →
      Closed rest → Closed (first :: (inside ++ last :: rest))

/-- What the innermost handler handles that is running after the stretch: whatever has begun since
has ended. There is none if all handlers have ended. -/
inductive Running : List (Moment σ S U) → Option Exception → Prop
  | outside {before : List (Moment σ S U)} : Closed before → Running before none
  | within {earlier since : List (Moment σ S U)} {first : Moment σ S U} {exc : Exception} :
      first.action = .beginHandling exc → Closed since →
      Running (earlier ++ first :: since) (some exc)

namespace Closed

variable {l l' : List (Moment σ S U)}

theorem append (h : Closed l) (h' : Closed l') : Closed (l ++ l') := by
  induction h with
  | nil => exact h'
  | other hm _ ih => exact .other hm ih
  | @handler first last exc inside rest hfirst hinside hlast _ _ ih =>
    rw [List.cons_append, List.append_assoc, List.cons_append]
    exact .handler hfirst hinside hlast ih

theorem single {m : Moment σ S U} (hm : m.action.boundsHandler = false) : Closed [m] :=
  .other hm .nil

/-- A closed stretch leaves what is being handled. -/
theorem handledAfter (h : Closed l) (handling : List Exception) :
    handledAfter l handling = handling := by
  induction h generalizing handling with
  | nil => rfl
  | @other m rest hm _ ih =>
    change ProcedureBridge.handledAfter rest (m.action.handled handling) = handling
    rw [Action.handled_of_not_bounds hm, ih]
  | @handler first last exc inside rest hfirst _ hlast _ ihinside ih =>
    change ProcedureBridge.handledAfter (inside ++ last :: rest) (first.action.handled handling) =
      handling
    rw [hfirst, handledAfter_append, ihinside]
    change ProcedureBridge.handledAfter rest (last.action.handled (exc :: handling)) = handling
    rw [hlast]
    exact ih handling

end Closed

namespace Running

variable {before : List (Moment σ S U)} {handled : Option Exception}

theorem cons {m : Moment σ S U} (hm : m.action.boundsHandler = false) (h : Running before handled) :
    Running (m :: before) handled := by
  cases h with
  | outside h => exact .outside (.other hm h)
  | within hfirst hsince =>
    rw [← List.cons_append]
    exact .within hfirst hsince

/-- Inside of a handler something is being handled: what the handler handles, if it is nothing
else. -/
theorem inside {first : Moment σ S U} {exc : Exception} (hfirst : first.action = .beginHandling exc)
    (h : Running before handled) : Running (first :: before) (some (handled.getD exc)) := by
  cases h with
  | outside h =>
    rw [← List.nil_append (first :: before)]
    exact .within hfirst h
  | within hfirst' hsince =>
    rw [← List.cons_append]
    exact .within hfirst' hsince

/-- A handler that has ended plays no part. -/
theorem ended {first last : Moment σ S U} {exc : Exception} {inside : List (Moment σ S U)}
    (hfirst : first.action = .beginHandling exc) (hinside : Closed inside)
    (hlast : last.action = .endHandling) (h : Running before handled) :
    Running (first :: (inside ++ last :: before)) handled := by
  cases h with
  | outside h => exact .outside (.handler hfirst hinside hlast h)
  | @within earlier since first' _ hfirst' hsince =>
    have happend : first :: (inside ++ last :: (earlier ++ first' :: since)) =
        (first :: (inside ++ last :: earlier)) ++ first' :: since := by simp
    rw [happend]
    exact .within hfirst' hsince

/-- The innermost exception that a core remembers. -/
theorem head?_handledAfter (h : Running before handled) :
    (handledAfter before []).head? = handled := by
  cases h with
  | outside h => rw [h.handledAfter, List.head?_nil]
  | @within earlier since first exc hfirst hsince =>
    rw [handledAfter_append]
    change (handledAfter since (first.action.handled _)).head? = _
    rw [hsince.handledAfter, hfirst]
    rfl

end Running

/-- At every point of a closed stretch there is an innermost handler, or there is none. -/
theorem Closed.exists_running {l before after : List (Moment σ S U)} (h : Closed l)
    (hl : l = before ++ after) : ∃ handled, Running before handled := by
  induction h generalizing before after with
  | nil =>
    obtain ⟨rfl, -⟩ := List.append_eq_nil_iff.mp hl.symm
    exact ⟨none, .outside .nil⟩
  | other hm _ ih =>
    cases before with
    | nil => exact ⟨none, .outside .nil⟩
    | cons m before =>
      obtain ⟨rfl, hrest⟩ := List.cons.inj hl
      obtain ⟨handled, hrunning⟩ := ih hrest
      exact ⟨handled, hrunning.cons hm⟩
  | @handler first last exc inside rest hfirst hinside hlast _ ihinside ih =>
    cases before with
    | nil => exact ⟨none, .outside .nil⟩
    | cons m before =>
      obtain ⟨rfl, hrest⟩ := List.cons.inj hl
      -- the point is inside of the handler, or after its end
      obtain ⟨since, rfl, hinner⟩ | ⟨since, rfl, hinner⟩ := List.append_eq_append_iff.mp hrest
      · cases since with
        | nil =>
          obtain ⟨handled, hrunning⟩ := ihinside (List.append_nil _).symm
          rw [List.append_nil]
          exact ⟨_, hrunning.inside hfirst⟩
        | cons m' since =>
          obtain ⟨rfl, hafter⟩ := List.cons.inj hinner
          obtain ⟨handled, hrunning⟩ := ih hafter
          exact ⟨handled, hrunning.ended hfirst hinside hlast⟩
      · obtain ⟨handled, hrunning⟩ := ihinside rfl
        exact ⟨_, hrunning.inside hfirst⟩

/-! ## Runs -/

section Runs

variable [Host σ]

theorem closed_composes :
    Task.Composes fun _ (t : Task S U _) => ∀ c : Core σ U, Closed (t.trace c) where
  pure _ _ := .nil
  bind ht hk c := by
    rw [Task.trace_bind]
    exact (ht c).append (hk _ _)

theorem closed_perform {action : Action S U} (h : action.boundsHandler = false) (c : Core σ U) :
    Closed (Task.trace (Task.perform action) c) := .single (m := ⟨c, action⟩) h

theorem closed_handling {V : Type} (exc : Exception) {handler : Task S U (Outcome S V)}
    (h : ∀ c : Core σ U, Closed (handler.trace c)) (c : Core σ U) :
    Closed (Task.trace (Task.handling exc handler) c) := by
  simp only [Task.handling, Task.trace_bind]
  exact Closed.handler rfl (h _) rfl .nil

/-- Whatever scripts do, their handlers are nested. -/
theorem Compiler.carries_closed (compiler : Compiler S U) :
    compiler.Carries fun _ t => ∀ c : Core σ U, Closed (t.trace c) := by
  have hC := closed_composes (σ := σ) (S := S) (U := U)
  refine .of_units hC (fun action _ hplain => closed_perform ?_) ?_ (fun _ => closed_handling _)
    fun action ha _ => closed_perform ?_
  · cases action <;> first | rfl | cases hplain
  · exact hC.inScope (closed_perform rfl) (fun _ => closed_perform rfl)
      fun _ => closed_perform rfl
  · cases action <;> first | rfl | cases ha

end Runs

end ProcedureBridge
