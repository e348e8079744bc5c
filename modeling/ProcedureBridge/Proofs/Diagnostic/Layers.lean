import ProcedureBridge.Diagnostic.Failure

/-! # Layers around an error

Each built-in that an error leaves puts a layer around it, with a traceback. What an error carries,
and what it is taken for, lies under the layers: only the place of an error that names none of its
own is read off them. -/

namespace ProcedureBridge

/-- The exception, said to come from another place. -/
def Exception.inContext (e : Exception) (context : Option String) : Exception :=
  { e with head := { e.head with context } }

theorem Exception.withContext_eq (e : Exception) (context : Option String) :
    e.withContext context = e.inContext (e.head.context.or context) := by
  obtain ⟨⟨severity, code, message, detail, hint, own, position⟩, causes⟩ := e
  cases own <;> rfl

namespace ScriptError

/-- The error inside callback layers with the given tracebacks, the outermost first. -/
def through (e : ScriptError) (layers : List String) : ScriptError := layers.foldr callback e

def Carried.leaf : Carried → ScriptError
  | .exception e => .exception e
  | .suppress reason => .suppress reason

variable (e : ScriptError) (layers : List String)

/-- What does not look at one layer does not look at any. -/
theorem under_layers {α : Type} {f : ScriptError → α}
    (hf : ∀ traceback e, f (callback traceback e) = f e) : f (e.through layers) = f e := by
  induction layers with
  | nil => rfl
  | cons traceback layers ih => exact (hf traceback _).trans ih

@[simp] theorem carried_through : (e.through layers).carried = e.carried :=
  under_layers e layers fun _ _ => rfl

@[simp] theorem message_through : (e.through layers).message = e.message :=
  under_layers e layers fun _ _ => rfl

@[simp] theorem isMalformed_through : (e.through layers).isMalformed = e.isMalformed :=
  under_layers e layers fun _ _ => rfl

@[simp] theorem traceback_through :
    (e.through layers).traceback = layers.head?.or e.traceback := by
  cases layers <;> rfl

variable {e}

/-- What an error carries lies under nothing but callback layers. -/
theorem carried_eq_some_iff {carriedOne : Carried} :
    e.carried = some carriedOne ↔ ∃ layers, e = carriedOne.leaf.through layers := by
  constructor
  · intro h
    induction e with
    | callback traceback cause ih =>
      obtain ⟨layers, hlayers⟩ := ih h
      exact ⟨traceback :: layers, by rw [hlayers]; rfl⟩
    | exception exc =>
      cases h
      exact ⟨[], rfl⟩
    | suppress reason =>
      cases h
      exact ⟨[], rfl⟩
    | _ => cases h
  · rintro ⟨layers, rfl⟩
    rw [carried_through]
    cases carriedOne <;> rfl

theorem isSuppress_iff : e.isSuppress = true ↔ ∃ reason, e.carried = some (.suppress reason) := by
  simp only [isSuppress]
  cases e.carried with
  | none => simp
  | some carriedOne => cases carriedOne <;> simp

/-- Where the exception that an error carries says that it comes from. -/
def ownContext (e : ScriptError) : Option String :=
  match e.carried with
  | some (.exception exc) => exc.head.context
  | _ => none

/-- Layers change the place of an exception at most, and only if it names none of its own. -/
theorem toException_through (h : e.isSuppress = false) (layers : List String) :
    (e.through layers).toException =
      e.toException.inContext (e.ownContext.or (layers.head?.or e.toException.head.context)) := by
  simp only [isSuppress] at h
  simp only [toException, ownContext, carried_through, message_through, isMalformed_through,
    traceback_through]
  cases hc : e.carried with
  | none =>
    simp only [Exception.withContext_eq]
    rfl
  | some carriedOne =>
    cases carriedOne with
    | suppress reason => simp [hc] at h
    | exception exc =>
      simp only [Exception.withContext_eq, Exception.inContext]
      cases exc.head.context <;> simp

theorem context_toException (h : e.ownContext.isSome) :
    e.toException.head.context = e.ownContext := by
  cases hc : e.carried with
  | none => simp [ownContext, hc] at h
  | some carriedOne =>
    cases carriedOne with
    | suppress reason => simp [ownContext, hc] at h
    | exception exc =>
      simp only [ownContext, hc] at h
      obtain ⟨place, hplace⟩ := Option.isSome_iff_exists.mp h
      simp only [toException, ownContext, hc, Exception.withContext_eq, Exception.inContext, hplace,
        Option.some_or]

/-- An exception with a place of its own is not changed at all. -/
theorem toException_through_of_own (h : e.isSuppress = false) (hown : e.ownContext.isSome)
    (layers : List String) : (e.through layers).toException = e.toException := by
  have hplace := context_toException hown
  obtain ⟨place, hsome⟩ := Option.isSome_iff_exists.mp hown
  rw [toException_through h, hsome, Option.some_or, ← hsome, ← hplace]
  rfl

end ScriptError

namespace Failure

/-- The failure asks to skip the row: it is the signal, under any number of layers. -/
def Signals (f : Failure) (reason : Option String) : Prop :=
  ∃ layers, f = .script ((ScriptError.suppress reason).through layers)

theorem signals_iff {f : Failure} {reason : Option String} :
    f.Signals reason ↔ f.toScriptError.carried = some (.suppress reason) := by
  constructor
  · rintro ⟨layers, rfl⟩
    exact ScriptError.carried_through _ _
  · intro h
    cases f with
    | script err =>
      obtain ⟨layers, rfl⟩ := ScriptError.carried_eq_some_iff.mp h
      exact ⟨layers, rfl⟩
    | _ => cases h

theorem isSuppress_of_plain {f : Failure} (hplain : ∀ reason, ¬ f.Signals reason)
    {err : ScriptError} (hsame : err.carried = f.toScriptError.carried) :
    err.isSuppress = false := by
  refine Bool.eq_false_iff.mpr fun h => ?_
  obtain ⟨reason, hreason⟩ := ScriptError.isSuppress_iff.mp h
  exact hplain reason (signals_iff.mpr (hsame.symm.trans hreason))

/-- What is raised in a script for a failure is the exception that the failure stands for. -/
theorem toException_toScriptError (f : Failure) :
    f.toScriptError.toException = f.toException := by
  have hraised : ∀ exc : Exception, (ScriptError.exception exc).toException = exc := by
    intro exc
    have hbare : (ScriptError.exception exc).toException = exc.withContext none := rfl
    rw [hbare, Exception.withContext_eq, Option.or_none]
    rfl
  cases f with
  | script err => rfl
  | _ => exact hraised _

theorem disposition_script {err : ScriptError} (h : err.isSuppress = false) :
    (script err).disposition = .report err.toException.toReport := by
  simp only [ScriptError.isSuppress] at h
  simp only [disposition]
  split
  · rename_i hc
    rw [hc] at h
    cases h
  · rfl

/-- A failure that is raised in a script and comes back through callback layers is what it was. A
signal to skip the row is recognised, with its reason. Anything else stands for the exception that
the failure stood for, causes included: what can change is the place of that exception, which is
read off the outermost layer if the error carries no exception that names one of its own. Once a
place is named, to raise the exception again changes nothing, whatever layers it crosses. -/
theorem errors_cross_unchanged (f : Failure) (layers : List String) :
    let err := f.toScriptError.through layers
    (∀ reason, f.Signals reason →
      err.isSuppress = true ∧ (script err).disposition = .suppress reason) ∧
    ((∀ reason, ¬ f.Signals reason) →
      err.isSuppress = false ∧ (script err).disposition = .report err.toException.toReport ∧
      err.toException = f.toException.inContext
        (f.toScriptError.ownContext.or (layers.head?.or f.toException.head.context)) ∧
      (f.toScriptError.ownContext.isSome → err.toException = f.toException)) ∧
    (err.toException.head.context.isSome → ∀ further,
      ((exception err.toException).toScriptError.through further).toException =
        err.toException) := by
  intro err
  have hcarried : err.carried = f.toScriptError.carried := ScriptError.carried_through _ _
  refine ⟨?_, ?_, ?_⟩
  · intro reason hsignal
    have hsuppress : err.carried = some (.suppress reason) :=
      hcarried.trans (signals_iff.mp hsignal)
    refine ⟨ScriptError.isSuppress_iff.mpr ⟨reason, hsuppress⟩, ?_⟩
    simp only [disposition, hsuppress]
  · intro hplain
    have hbare := isSuppress_of_plain hplain rfl
    have hexc := ScriptError.toException_through hbare layers
    rw [toException_toScriptError] at hexc
    have hlayered := isSuppress_of_plain hplain hcarried
    refine ⟨hlayered, disposition_script hlayered, hexc, fun hown => ?_⟩
    exact (ScriptError.toException_through_of_own hbare hown layers).trans
      (toException_toScriptError f)
  · intro hplace further
    have hown : (exception err.toException).toScriptError.ownContext.isSome := hplace
    exact (ScriptError.toException_through_of_own rfl hown further).trans
      (toException_toScriptError _)

/-- A signal that is under a layer already. -/
def skipping : Failure := .script ((ScriptError.suppress (some "same row")).through ["inner"])

/-- An exception that has a cause and says nothing of its place. -/
def unplaced : Exception where
  head := { severity := .error, code := .internalError, message := "no", detail := some "row 3" }
  causes := [{ severity := .warning, code := .warning, message := "late" }]

theorem errors_cross_unchanged_raised :
    ((skipping.toScriptError.through ["outer"]).isSuppress = true ∧
      (script (skipping.toScriptError.through ["outer"])).disposition =
        .suppress (some "same row")) ∧
    ((exception unplaced).toScriptError.through ["outer", "inner"]).toException =
      unplaced.inContext (some "outer") ∧
    ((exception (unplaced.inContext (some "outer"))).toScriptError.through ["again"]).toException =
      unplaced.inContext (some "outer") := by
  have hplain : ∀ reason, ¬ (exception unplaced).Signals reason := by
    rintro reason ⟨layers, h⟩
    cases h
  obtain ⟨-, hcross, hagain⟩ := errors_cross_unchanged (exception unplaced) ["outer", "inner"]
  obtain ⟨-, -, hexc, -⟩ := hcross hplain
  have hsame := hagain (by rw [hexc]; rfl) ["again"]
  rw [hexc] at hsame
  exact ⟨(errors_cross_unchanged skipping ["outer"]).1 _ ⟨["inner"], rfl⟩, hexc, hsame⟩

end Failure

end ProcedureBridge
