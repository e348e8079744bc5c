import ProcedureBridge.Bridge.Task
import Mathlib.Tactic.Common

/-! # Runs of tasks

What every action keeps, a run keeps. From any moment of a run on, the rest of the run is the run
of another task, which begins with the core that the moment left. -/

namespace ProcedureBridge.Task

variable {S U α σ : Type} [Host σ]

theorem run_act {action : Action S U} {next : action.Answer → Task S U α} {c : Core σ U} :
    (Task.act action next).run c =
      (next (c.perform action).1).run (Moment.after ⟨c, action⟩) := rfl

theorem trace_act {action : Action S U} {next : action.Answer → Task S U α} {c : Core σ U} :
    (Task.act action next).trace c =
      ⟨c, action⟩ :: (next (c.perform action).1).trace (Moment.after ⟨c, action⟩) := rfl

theorem run_bind {β : Type} (t : Task S U α) (k : α → Task S U β) (c : Core σ U) :
    (t >>= k).run c = (k (t.run c).1).run (t.run c).2 := by
  induction t generalizing c with
  | pure a => rfl
  | act action next ih => exact ih _ _

theorem trace_bind {β : Type} (t : Task S U α) (k : α → Task S U β) (c : Core σ U) :
    (t >>= k).trace c = t.trace c ++ (k (t.run c).1).trace (t.run c).2 := by
  induction t generalizing c with
  | pure a => rfl
  | act action next ih => exact congrArg _ (ih _ _)

/-- A run ends where it began, or where one of its actions has left the core. -/
theorem run_core (t : Task S U α) (c : Core σ U) :
    (t.run c).2 = c ∨ ∃ m ∈ t.trace c, (t.run c).2 = m.after := by
  induction t generalizing c with
  | pure a => exact .inl rfl
  | act action next ih =>
    right
    rw [run_act, trace_act]
    rcases ih (c.perform action).1 (Moment.after ⟨c, action⟩) with hend | ⟨m, hm, hend⟩
    · exact ⟨_, .head _, hend⟩
    · exact ⟨m, .tail _ hm, hend⟩

variable {P : Core σ U → Prop}

theorem run_keeps (hP : ∀ m : Moment σ S U, P m.core → P m.after) (t : Task S U α) {c : Core σ U}
    (hc : P c) : P (t.run c).2 := by
  induction t generalizing c with
  | pure a => exact hc
  | act action next ih =>
    rw [run_act]
    exact ih _ (hP ⟨c, action⟩ hc)

theorem keeps_of_run (hP : ∀ m : Moment σ S U, P m.core → P m.after) {t : Task S U α} {a : α}
    {c c' : Core σ U} (ht : t.run c = (a, c')) (hc : P c) : P c' := by
  have hafter := t.run_keeps hP hc
  rwa [ht] at hafter

theorem core_of_trace {m : Moment σ S U} {after : List (Moment σ S U)} {t : Task S U α}
    {c : Core σ U} (ht : t.trace c = m :: after) : m.core = c := by
  cases t with
  | pure a => cases ht
  | act action next =>
    cases ht
    rfl

/-- What comes after a moment is all that the rest of the run does. -/
theorem exists_rest_of_append {m : Moment σ S U} {before after : List (Moment σ S U)}
    (t : Task S U α) {c : Core σ U} (ht : t.trace c = before ++ m :: after) :
    ∃ rest : Task S U α, rest.run m.after = t.run c ∧ rest.trace m.after = after := by
  induction before generalizing t c with
  | nil =>
    cases t with
    | pure a => cases ht
    | act action next =>
      cases ht
      exact ⟨next (c.perform action).1, rfl, rfl⟩
  | cons first before ih =>
    cases t with
    | pure a => cases ht
    | act action next =>
      obtain ⟨-, ht⟩ := List.cons.inj ht
      exact ih (next (c.perform action).1) ht

/-- What a moment has brought about, and every action keeps, holds when the run is over. -/
theorem run_of_moment (hP : ∀ m : Moment σ S U, P m.core → P m.after) (t : Task S U α)
    {c : Core σ U} {m : Moment σ S U} (hm : m ∈ t.trace c) (hafter : P m.after) :
    P (t.run c).2 := by
  obtain ⟨before, after, ht⟩ := List.append_of_mem hm
  obtain ⟨rest, hrest, -⟩ := t.exists_rest_of_append ht
  rw [← hrest]
  exact rest.run_keeps hP hafter

/-- Along a stretch of a run, what holds where the stretch begins and is kept by its own actions holds
throughout, and the rest of the run begins with it. -/
theorem stretch_keeps {I : Core σ U → Prop} {stretch after : List (Moment σ S U)} (t : Task S U α)
    {c : Core σ U} (ht : t.trace c = stretch ++ after) (hc : I c)
    (hI : ∀ m ∈ stretch, I m.core → I m.after) :
    (∀ m ∈ stretch, I m.core ∧ I m.after) ∧
      ∃ (rest : Task S U α) (c' : Core σ U), I c' ∧ rest.trace c' = after ∧ rest.run c' = t.run c := by
  induction stretch generalizing t c with
  | nil =>
    refine ⟨?_, t, c, hc, ht, rfl⟩
    intro m hm
    cases hm
  | cons first stretch ih =>
    cases t with
    | pure a => cases ht
    | act action next =>
      obtain ⟨rfl, hnext⟩ := List.cons.inj ht
      have hfirst := hI _ List.mem_cons_self hc
      obtain ⟨hstretch, hrest⟩ :=
        ih (next (c.perform action).1) hnext hfirst fun m hm => hI m (List.mem_cons_of_mem _ hm)
      refine ⟨?_, hrest⟩
      intro m hm
      rcases List.mem_cons.mp hm with rfl | hm
      · exact ⟨hc, hfirst⟩
      · exact hstretch m hm

theorem trace_keeps (hP : ∀ m : Moment σ S U, P m.core → P m.after) (t : Task S U α) {c : Core σ U}
    (hc : P c) : ∀ m ∈ t.trace c, P m.core := by
  intro m hm
  obtain ⟨htrace, -⟩ := t.stretch_keeps (List.append_nil _).symm hc fun m _ => hP m
  exact (htrace m hm).1

/-! ## All actions of a task -/

/-- Whatever the answers are, the task performs only actions with the property. -/
def Every (Q : Action S U → Prop) : Task S U α → Prop
  | .pure _ => True
  | .act action next => Q action ∧ ∀ answer, (next answer).Every Q

variable {Q : Action S U → Prop} {β : Type}

theorem every_bind {t : Task S U α} {f : α → Task S U β} (ht : t.Every Q) (hf : ∀ a, (f a).Every Q) :
    (t >>= f).Every Q := by
  induction t with
  | pure a => exact hf a
  | act action next ih => exact ⟨ht.1, fun answer => ih answer (ht.2 answer)⟩

theorem every_perform {action : Action S U} (h : Q action) : (perform action).Every Q :=
  ⟨h, fun _ => trivial⟩

theorem every_trace {t : Task S U α} (ht : t.Every Q) {c : Core σ U} :
    ∀ m ∈ t.trace c, Q m.action := by
  induction t generalizing c with
  | pure a =>
    intro m hm
    cases hm
  | act action next ih =>
    intro m hm
    cases hm with
    | head => exact ht.1
    | tail _ hm => exact ih _ (ht.2 _) m hm

/-- What the actions of a task keep, its runs keep. -/
theorem every_run_keeps {P : Core σ U → Prop} {t : Task S U α} (ht : t.Every Q)
    (hP : ∀ m : Moment σ S U, Q m.action → P m.core → P m.after) {c : Core σ U} (hc : P c) :
    P (t.run c).2 := by
  induction t generalizing c with
  | pure a => exact hc
  | act action next ih =>
    rw [run_act]
    exact ih _ (ht.2 _) (hP ⟨c, action⟩ ht.1 hc)

end ProcedureBridge.Task
