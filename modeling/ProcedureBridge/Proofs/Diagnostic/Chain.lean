import ProcedureBridge.Diagnostic.Exception

/-! # Chains of causes

A report keeps its causes one inside the other, an exception in a row. Either is known by its chain,
so that the two forms carry the same, and to put one chain under another is to append them. -/

namespace ProcedureBridge

namespace Report

/-- The report with `cause` under its innermost cause. -/
def attach : Report → Report → Report
  | plain d, cause => causedBy d cause
  | causedBy d inner, cause => causedBy d (inner.attach cause)

theorem chain_attach (r cause : Report) : (r.attach cause).chain = r.chain ++ cause.chain := by
  induction r with
  | plain d => rfl
  | causedBy d inner ih => rw [attach, chain, ih, chain, List.cons_append]

theorem chain_ne_nil (r : Report) : r.chain ≠ [] := by cases r <;> exact List.cons_ne_nil _ _

/-- A report is known by its chain. -/
theorem eq_of_chain {r r' : Report} (h : r.chain = r'.chain) : r = r' := by
  induction r generalizing r' with
  | plain d =>
    cases r' with
    | plain d' => rw [List.head_eq_of_cons_eq h]
    | causedBy d' inner' => exact absurd (List.tail_eq_of_cons_eq h).symm inner'.chain_ne_nil
  | causedBy d inner ih =>
    cases r' with
    | plain d' => exact absurd (List.tail_eq_of_cons_eq h) inner.chain_ne_nil
    | causedBy d' inner' => rw [List.head_eq_of_cons_eq h, ih (List.tail_eq_of_cons_eq h)]

end Report

namespace Exception

theorem eq_of_chain {e e' : Exception} (h : e.chain = e'.chain) : e = e' := by
  obtain ⟨head, causes⟩ := e
  obtain ⟨head', causes'⟩ := e'
  obtain ⟨rfl, rfl⟩ := List.cons.inj h
  rfl

theorem chain_appendCause (e cause : Exception) :
    (e.appendCause cause).chain = e.chain ++ cause.chain := rfl

theorem toReport_ofReport (r : Report) : (ofReport r).toReport = r :=
  Report.eq_of_chain (by rw [chain_toReport, chain_ofReport])

theorem ofReport_toReport (e : Exception) : ofReport e.toReport = e :=
  eq_of_chain (by rw [chain_ofReport, chain_toReport])

theorem appendCause_assoc (a b c : Exception) :
    (a.appendCause b).appendCause c = a.appendCause (b.appendCause c) :=
  eq_of_chain (by simp only [chain_appendCause, List.append_assoc])

/-- Only the innermost exception learns of the new cause. -/
theorem cause?_appendCause (e cause : Exception) :
    (e.appendCause cause).cause? =
      some (match e.cause? with
        | none => cause
        | some inner => inner.appendCause cause) := by
  obtain ⟨head, causes⟩ := e
  cases causes <;> rfl

theorem chain_raised (r : Report) (handled : Exception) :
    (raised r (some handled)).chain = r.chain ++ handled.chain := by
  rw [raised, chain_appendCause, chain_ofReport]

/-- Nothing is lost between a report and an exception, in either direction and however long the
chains are. A report that is raised while an exception is being handled keeps its own chain and has
the whole chain of the handled one under it. To append a cause is associative, and leaves every
exception of the chain as it is. -/
theorem reports_keep_everything :
    (∀ r : Report, (raised r none).toReport = r) ∧
    (∀ e : Exception, raised e.toReport none = e) ∧
    (∀ (r : Report) (handled : Exception),
      (raised r (some handled)).chain = r.chain ++ handled.chain ∧
      (raised r (some handled)).toReport = r.attach handled.toReport ∧
      (raised r (some handled)).toReport.chainLength = r.chainLength + handled.chain.length) ∧
    (∀ a b c : Exception, (a.appendCause b).appendCause c = a.appendCause (b.appendCause c)) ∧
    ∀ e cause : Exception,
      (e.appendCause cause).chain = e.chain ++ cause.chain ∧
      (e.appendCause cause).head = e.head ∧
      (e.appendCause cause).cause? =
        some (match e.cause? with
          | none => cause
          | some inner => inner.appendCause cause) := by
  refine ⟨toReport_ofReport, ofReport_toReport, ?_, appendCause_assoc, ?_⟩
  · intro r handled
    have hchain := chain_raised r handled
    refine ⟨hchain, Report.eq_of_chain ?_, ?_⟩
    · rw [chain_toReport, hchain, Report.chain_attach, chain_toReport]
    · rw [Report.chainLength, chain_toReport, hchain, List.length_append, Report.chainLength]
  · exact fun e cause => ⟨chain_appendCause e cause, rfl, cause?_appendCause e cause⟩

end Exception

end ProcedureBridge
