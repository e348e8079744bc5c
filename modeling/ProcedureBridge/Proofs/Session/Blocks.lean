import ProcedureBridge.Proofs.Bridge.Enclosed
import ProcedureBridge.Proofs.Session.Handles

/-! # Blocks of scripts

At every point of every script a block is balanced: whatever its body does, and whatever the host
says, the scopes are in the end those that were open before the block. -/

namespace ProcedureBridge.Session

variable {e : Engine} {σ : Type} [Host σ]

theorem inOrder_throughout : Throughout (e := e) (σ := Recorded σ) fun _ c => InOrder c where
  new _ _ := ⟨trivial, fun _ _ h => absurd h nofun⟩
  resting _ :=
    { forget := fun hc _ _ _ _ _ _ _ _ => ⟨hc.nested, hc.held⟩
      unwind := fun {c} hc base => by
        have hissued := (c.scopes.unwindTo_dropped base c.host).issued
        exact ⟨nested_lasting.unwindTo hc.nested base, fun handle scope he =>
          hissued ▸ hc.held handle scope he⟩
      invalidate := fun hc _ => ⟨hc.nested, hc.held⟩
      clearCache := fun hc => ⟨hc.nested, hc.held⟩
      addUnit := fun hc _ => ⟨hc.nested, hc.held⟩ }
  records := .of_perform Task.records_composes fun action _ _ =>
    Task.records_perform fun _ c hc => hc.after (m := ⟨c, action⟩)

variable {past : List (Moment (Recorded σ) e.State e.Code)} {c c₁ : Core (Recorded σ) e.Code}

/-- At every point of every script, for every block that enters its scope: however the body ends and
whatever it leaves open, the block ends in one of the ways of `Leaving`, and after it the scopes are
those before it. Every subtransaction that the host is told to end meanwhile was begun in the block
and was the innermost one of those. -/
theorem block_balanced (h : Point past c) {scope : ScopeHandle}
    (henter : c.enterScope = (.ok scope, c₁)) (state : e.State)
    (body : e.State → Script e.State e.Value e.Code)
    (next : Outcome e.State e.Value → Script e.State e.Value e.Code) :
    let ran := Task.run ((body state).task e.compiler) c₁
    ∃ id inner result during ended c',
      ran.2.scopes.places = inner ++ (scope, id) :: c.scopes.places ∧
      Leaving id (inner.map Prod.snd) ran.2.scopes.isFailed ran.1.result result ended ∧
      Task.run ((Script.scope state body next).task e.compiler) c =
        Task.run ((next ⟨result, ran.1.state⟩).task e.compiler) c' ∧
      c'.scopes.places = c.scopes.places ∧
      ran.2.host.log = c.host.log ++ during ∧
      c'.host.log = c.host.log ++ (during ++ ended) ∧
      HostExchange.replay [] (during ++ ended) = some [] := by
  intro ran
  have hguards : ((body state).task e.compiler).Guards σ scope :=
    (e.compiler.carries_guards scope).script (body state)
  obtain ⟨id, inner, during, result, ended, c', hplaces, hleaving, hrun, hleft⟩ :=
    Task.run_inScope (inOrder_throughout.point h) henter state hguards
  refine ⟨id, inner, result, during, ended, c', hplaces, hleaving, ?_, hleft⟩
  rw [Script.task_scope, Task.run_bind, hrun]

/-- A block that leaves a scope open. -/
def leavingOpen : Script Unit Unit Unit :=
  .scope () (fun _ => .newHandle fun handle => .enter handle fun _ => .done ⟨.ok (), ()⟩) .done

theorem block_balanced_leavingOpen :
    ∃ past c scope c₁, Point (e := Engine.scripted leavingOpen) (σ := Recorded MemoryHost) past c ∧
      c.enterScope = (.ok scope, c₁) ∧
      (Task.run (leavingOpen.task (Engine.scripted leavingOpen).compiler) c).2.scopes.places =
        c.scopes.places := by
  obtain ⟨past, c, hpoint, hc⟩ := point_of_any leavingOpen
    (fun c => match c.enterScope.1 with | .ok _ => true | .error _ => false) (by decide +kernel)
  rcases henter : c.enterScope with ⟨f | scope, c₁⟩
  · simp [henter] at hc
  · obtain ⟨id, inner, result, during, ended, c', -, -, hrun, hplaces, -⟩ :=
      block_balanced hpoint henter () (fun _ => .newHandle fun handle => .enter handle fun _ =>
        .done ⟨.ok (), ()⟩) .done
    exact ⟨past, c, scope, c₁, hpoint, henter, (congrArg (·.2.scopes.places) hrun).trans hplaces⟩

end ProcedureBridge.Session
