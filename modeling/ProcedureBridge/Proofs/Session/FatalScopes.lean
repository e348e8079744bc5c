import ProcedureBridge.Proofs.Session.HostError

/-! # Scopes and fatal conditions

A fatal condition marks the innermost scope alone. The others are marked where they are innermost
when a safepoint raises the condition again; but the commit of a scope is no safepoint. So a scope
can be released although the call has met a fatal condition, if nothing comes between the end of the
scope inside it and its own commit. -/

namespace ProcedureBridge

variable {σ S U : Type} [Host σ]

namespace Moment

variable {m : Moment σ S U} {c : Core σ U} {exc : Exception}

theorem Condemns.errs (h : m.Condemns exc) : m.Errs := by
  cases h with
  | raised ha hsev hr _ =>
    refine .reported ?_
    simp [reportsError, ha, hr, Severity.isError_of_isFatal hsev, Except.isOk, Except.toBool]
  | terminated hc hf hk => exact .interrupted hc (congrArg Prod.fst (Core.safepoint_of_held hf hk))

/-- Every later safepoint raises the condition again. -/
theorem errs_of_fatal (hf : m.core.fatal = some exc) (hc : m.core.checkpoint m.action = some c) :
    m.Errs := by
  rw [← checkpoint_fatal hc] at hf
  exact .interrupted hc (congrArg Prod.fst (Core.safepoint_of_fatal hf))

end Moment

namespace Session

variable {e : Engine} {s : Session e (Recorded MemoryHost)}

/-- Once a fatal condition has been met, every scope that was open is ended before the operation
returns. A scope that was innermost then, or that is innermost at a later safepoint, is rolled back
and not released. -/
theorem fatal_scopes_end
    (hs : s.Reachable (fun r => r.host.Fresh) (fun r r' => r.host.LeftAlone r'.host)) {o : Operation}
    {m : Moment (Recorded MemoryHost) e.State e.Code}
    {before after : List (Moment (Recorded MemoryHost) e.State e.Code)}
    (htrace : s.trace o = before ++ m :: after) {exc : Exception} (hexc : m.Condemns exc) :
    (∀ X ∈ m.core.scopes.scopes,
      ∃ later, (s.operate o).2.host.log = m.after.host.log ++ later ∧
        (.rolledBack X.subxact (.ok ()) ∈ later ∨ ∃ answer, .released X.subxact answer ∈ later)) ∧
    (∀ m' ∈ m :: after, ∀ X outer, m'.core.scopes.scopes = X :: outer →
      (m' = m ∨ ∃ c, m'.core.checkpoint m'.action = some c) →
        ∃ later, (s.operate o).2.host.log = m'.after.host.log ++ later ∧
          .rolledBack X.subxact (.ok ()) ∈ later ∧
          ∀ answer, .released X.subxact answer ∉ later) := by
  have hsettled := hs.settled
  have hd : s.core.Has RecordDriven :=
    hs.has recordDriven_standing (fun hnil hh => driven_of_fresh hnil hh)
      (fun _ hl hd => hd.leftAlone hl)
  have hmem : ∀ m' ∈ m :: after, m' ∈ s.trace o := by
    intro m' hm'
    rw [htrace]
    exact List.mem_append_right _ hm'
  have hm := hmem m List.mem_cons_self
  constructor
  · intro X hX
    have hopen : X.subxact ∈ m.after.scopes.scopes.map Scope.subxact := by
      rw [hexc.errs.after, ScopeStack.markFailed_map Scope.subxact (fun _ => rfl)]
      exact List.mem_map_of_mem hX
    obtain ⟨later, hlater, -, hend⟩ := memory_log_of_open hsettled hd hm hopen
    exact ⟨later, hlater, hend⟩
  · intro m' hm' X outer hX hpoint
    suffices herr : m'.Errs from memory_log_of_errs hsettled hd (hmem m' hm') herr hX
    rcases List.mem_cons.mp hm' with rfl | hafter
    · exact hexc.errs
    · -- the moments that follow are those of a run that begins with the condition recorded
      rw [trace_of_open (open_of_mem_trace hm)] at htrace
      obtain ⟨rest, -, hrest⟩ := Task.exists_rest_of_append _ htrace
      have hf : m'.core.fatal = some exc :=
        (fatal_lasting exc).trace rest hexc.after m' (hrest ▸ hafter)
      rcases hpoint with rfl | ⟨c, hc⟩
      · exact hexc.errs
      · exact Moment.errs_of_fatal hf hc

/-- A script that swallows a fatal error together with the scope in which it was raised, and returns
from the scope outside as if nothing had happened. -/
def reprieved : Session (Engine.scripted (.scope ()
    (fun _ => .scope () (fun _ => .report .fatal "stop" {} fun r => .done ⟨r, ()⟩)
      fun _ => .done ⟨.ok (), ()⟩) .done)) (Recorded MemoryHost) :=
  fresh _ () { host := {} }

theorem reprieved_condemned :
    ∃ m ∈ reprieved.trace (.executeInline ""), (∃ exc, m.Condemns exc) ∧
      m.core.scopes.scopes = [⟨⟨2, 2⟩, ⟨2⟩, false⟩, ⟨⟨1, 1⟩, ⟨1⟩, false⟩] ∧
      (reprieved.operate (.executeInline "")).2.host.log =
        m.after.host.log ++ [.rolledBack ⟨2⟩ (.ok ()), .released ⟨1⟩ (.ok ())] := by
  have hrun : (reprieved.trace (.executeInline "")).any (fun m => m.raisesFatal &&
      decide (m.core.scopes.scopes = [⟨⟨2, 2⟩, ⟨2⟩, false⟩, ⟨⟨1, 1⟩, ⟨1⟩, false⟩]) &&
      decide ((reprieved.operate (.executeInline "")).2.host.log =
        m.after.host.log ++ [.rolledBack ⟨2⟩ (.ok ()), .released ⟨1⟩ (.ok ())])) = true := by
    decide +kernel
  obtain ⟨m, hm, hmoment⟩ := List.any_eq_true.mp hrun
  simp only [Bool.and_eq_true, decide_eq_true_eq] at hmoment
  obtain ⟨⟨hfatal, hscopes⟩, hlog⟩ := hmoment
  exact ⟨m, hm, Moment.condemns_of_raisesFatal hfatal, hscopes, hlog⟩

/-- The outer scope is released although it was open when the fatal error was raised. -/
theorem reprieved_releases :
    ∃ m ∈ reprieved.trace (.executeInline ""), (∃ exc, m.Condemns exc) ∧
      ∃ X ∈ m.core.scopes.scopes, ∃ later,
        (reprieved.operate (.executeInline "")).2.host.log = m.after.host.log ++ later ∧
          .released X.subxact (.ok ()) ∈ later := by
  obtain ⟨m, hm, hexc, hscopes, hlog⟩ := reprieved_condemned
  refine ⟨m, hm, hexc, ⟨⟨1, 1⟩, ⟨1⟩, false⟩, ?_, _, hlog, .tail _ (.head _)⟩
  rw [hscopes]
  exact .tail _ (.head _)

theorem fatal_scopes_end_reprieved :
    ∃ m ∈ reprieved.trace (.executeInline ""), (∃ exc, m.Condemns exc) ∧
      ∃ X outer, m.core.scopes.scopes = X :: outer ∧ ∃ later,
        (reprieved.operate (.executeInline "")).2.host.log = m.after.host.log ++ later ∧
          .rolledBack X.subxact (.ok ()) ∈ later := by
  have hs : reprieved.Reachable (fun r => r.host.Fresh) (fun r r' => r.host.LeftAlone r'.host) :=
    fresh_reachable _ _ _ MemoryHost.fresh_empty
  obtain ⟨m, hm, ⟨exc, hexc⟩, hscopes, -⟩ := reprieved_condemned
  obtain ⟨before, after, htrace⟩ := List.append_of_mem hm
  obtain ⟨later, hlater, hback, -⟩ :=
    (fatal_scopes_end hs htrace hexc).2 m List.mem_cons_self _ _ hscopes (.inl rfl)
  exact ⟨m, hm, ⟨exc, hexc⟩, _, _, hscopes, later, hlater, hback⟩

end Session

end ProcedureBridge
