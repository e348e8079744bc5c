import ProcedureBridge.Proofs.Diagnostic.Chain
import ProcedureBridge.Proofs.Diagnostic.Layers

/-! # One classification for all failures

A failure is classified in several places: for its code, for its severity, as a cancellation, and
at the boundary, where the host is told what to do with it. All of them agree with the one exception
that the failure stands for. -/

namespace ProcedureBridge.Failure

theorem code_eq (f : Failure) : f.code = f.toException.code := by
  cases f with
  | reported report => cases report <;> rfl
  | _ => rfl

theorem severity_eq (f : Failure) : f.severity = f.toException.severity := by
  cases f with
  | reported report => cases report <;> rfl
  | _ => rfl

/-- What asks to skip the row is the signal under callback layers, and nothing else. -/
theorem disposition_eq_suppress_iff {f : Failure} {reason : Option String} :
    f.disposition = .suppress reason ↔ f.Signals reason := by
  rw [signals_iff]
  cases f with
  | script err =>
    cases hc : err.carried with
    | none => simp [disposition, toScriptError, hc]
    | some carriedOne => cases carriedOne <;> simp [disposition, toScriptError, hc]
  | _ => simp [disposition, toScriptError, ScriptError.carried]

/-- All else is reported as the exception that it stands for. A report that went to the host once
goes there again as it was. -/
theorem disposition_of_plain {f : Failure} (hplain : ∀ reason, ¬ f.Signals reason) :
    f.disposition = .report f.toException.toReport := by
  cases f with
  | script err => exact disposition_script (isSuppress_of_plain hplain rfl)
  | reported report => exact congrArg Disposition.report (Exception.toReport_ofReport report).symm
  | _ => rfl

/-- One failure has one classification. Its code and its severity are those of the exception that
it stands for, it is a cancellation if that code is in class 57, and the host is told to skip the
row if the failure is the signal for it, under any callback layers, and is handed the report of that
same exception otherwise. A report is handed on unchanged, whatever its causes are. -/
theorem classified_once (f : Failure) :
    f.code = f.toException.code ∧ f.severity = f.toException.severity ∧
    (f.isCancellation = true ↔ f.toException.code.category = "57") ∧
    (∀ reason, f.disposition = .suppress reason ↔ f.Signals reason) ∧
    (∀ report, f.disposition = .report report ↔
      (∀ reason, ¬ f.Signals reason) ∧ report = f.toException.toReport) ∧
    ∀ report, (reported report).disposition = .report report ∧
      (reported report).toException.toReport = report := by
  refine ⟨f.code_eq, f.severity_eq, ?_, fun reason => disposition_eq_suppress_iff,
    fun report => ?_, fun report => ⟨rfl, Exception.toReport_ofReport report⟩⟩
  · rw [isCancellation, code_eq, ErrorCode.isCancellation, beq_iff_eq]
  · constructor
    · intro h
      have hplain (reason : Option String) : ¬ f.Signals reason := by
        rw [← disposition_eq_suppress_iff, h]
        exact Disposition.noConfusion
      rw [disposition_of_plain hplain] at h
      exact ⟨hplain, (Disposition.report.inj h).symm⟩
    · rintro ⟨hplain, rfl⟩
      exact disposition_of_plain hplain

end ProcedureBridge.Failure
