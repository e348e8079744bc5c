import ProcedureBridge.Proofs.Bridge.Ledger
import ProcedureBridge.Proofs.Scope.Brackets

/-! # Blocks in a scope of their own

Whatever the body of a block does, the scope of the block stays open until the block itself ends it:
no handle of the script stands for it, and the blocks inside end only scopes that were opened after
it. Below the scope nothing is touched, and when the block is left the scope goes, with all that was
left open inside. -/

namespace ProcedureBridge

variable {σ S U V : Type}

/-- The ways in which a block ends. Given are the subtransactions that its body has left open above
its own, whether the innermost scope is marked, how the body ended and how the block ends, and what
the host is asked. -/
inductive Leaving (id : SubxactId) : List SubxactId → Bool → Except ScriptError V →
    Except ScriptError V → List HostExchange → Prop
  | committed {v : V} : Leaving id [] false (.ok v) (.ok v) [.released id (.ok ())]
  /-- The host refuses the commit. -/
  | refused {v : V} {report : Report} : Leaving id [] false (.ok v)
      (.error (.exception (.ofReport report))) [.released id (.error report)]
  /-- The body returned in a scope that was marked. -/
  | failed {v : V} : Leaving id [] true (.ok v) (.error (.exception .inFailedTransaction))
      [.rolledBack id (.ok ())]
  | failedRefused {v : V} {report : Report} : Leaving id [] true (.ok v)
      (.error (.exception (.ofReport report))) [.rolledBack id (.error report)]
  /-- The body returned and left scopes open. -/
  | leftOpen {inner : List SubxactId} {marked : Bool} {v : V} {exc : Exception}
      {log : List HostExchange} : inner ≠ [] → exc.code = .savepointException →
      HostExchange.RollBack (inner ++ [id]) log →
      Leaving id inner marked (.ok v) (.error (.exception exc)) log
  | raised {inner : List SubxactId} {marked : Bool} {err : ScriptError} {log : List HostExchange} :
      HostExchange.RollBack (inner ++ [id]) log → Leaving id inner marked (.error err) (.error err) log

/-- Whatever the way, the brackets of the block are closed. -/
theorem Leaving.replay {id : SubxactId} {inner rest : List SubxactId} {marked : Bool}
    {body result : Except ScriptError V} {log : List HostExchange}
    (h : Leaving id inner marked body result log) :
    HostExchange.replay (inner ++ id :: rest) log = some rest := by
  cases h with
  | committed | refused | failed | failedRefused => simp [HostExchange.replay, HostExchange.bracket]
  | leftOpen _ _ hroll | raised hroll =>
    have hreplay : HostExchange.replay (inner ++ [id] ++ rest) log = some rest := hroll.replay
    simpa using hreplay

theorem Core.resolveScope_eq [Host σ] {c : Core σ U} {handle : ScopeHandle} {resolution : Resolution}
    {answer : Except Failure ScopeStatus} {scopes : ScopeStack} {host : σ}
    (h : c.scopes.resolve handle resolution c.host = (answer, scopes, host)) :
    c.resolveScope handle resolution = (answer, { c with scopes, host }) := by
  rw [resolveScope, h]

namespace Task

variable [Host σ]

theorem run_leaveScope_error (handle : ScopeHandle) (err : ScriptError) (c : Core σ U) :
    (leaveScope handle (.error err) : Task S U (Except ScriptError V)).run c =
      (.error err, c.abortThrough handle) := rfl

section

variable {c c' : Core σ U} {handle : ScopeHandle}

theorem run_leaveScope_ok {status : ScopeStatus}
    (h : c.resolveScope handle .commit = (.ok status, c')) (v : V) :
    (leaveScope handle (.ok v) : Task S U (Except ScriptError V)).run c = (.ok v, c') := by
  have hrun : (perform (.resolveScope handle .commit) : Task S U _).run c = (.ok status, c') := h
  rw [leaveScope, run_bind, hrun]
  rfl

theorem run_leaveScope_refused {exc : Exception}
    (h : c.resolveScope handle .commit = (.error (.exception exc), c')) (v : V) :
    (leaveScope handle (.ok v) : Task S U (Except ScriptError V)).run c =
      (.error (.exception exc), c') := by
  have hrun : (perform (.resolveScope handle .commit) : Task S U _).run c =
      (.error (.exception exc), c') := h
  rw [leaveScope, run_bind, hrun]
  rfl

theorem run_leaveScope_order {id : Nat} {detail : String}
    (h : c.resolveScope handle .commit = (.error (.scopeOrder id detail), c')) (v : V) :
    (leaveScope handle (.ok v) : Task S U (Except ScriptError V)).run c =
      (.error (Failure.scopeOrder id detail).toScriptError, c'.abortThrough handle) := by
  have hrun : (perform (.resolveScope handle .commit) : Task S U _).run c =
      (.error (.scopeOrder id detail), c') := h
  rw [leaveScope, run_bind, hrun]
  rfl

end

end Task

section

variable [Host σ] {c : Core (Recorded σ) U} {handle : ScopeHandle} {id : SubxactId}
  {inner outer : List (ScopeHandle × SubxactId)}

/-- The commit of the innermost scope ends it as a block whose body has returned. -/
theorem commit_of_places (hs : c.scopes.places = (handle, id) :: outer) (v : V) :
    ∃ result more, Leaving id [] c.scopes.isFailed (.ok v) result more ∧
      ∃ c' : Core (Recorded σ) U, (Task.leaveScope handle (.ok v) : Task S U _).run c = (result, c') ∧
        c'.scopes.places = outer ∧ c'.host.log = c.host.log ++ more := by
  obtain ⟨top, rest, hc, rfl, rfl, rfl⟩ := ScopeStack.exists_of_places hs
  have hmarked : c.scopes.isFailed = top.failed := by rw [ScopeStack.isFailed, hc]
  rw [hmarked]
  let popped : ScopeStack := { c.scopes with scopes := rest }
  cases hf : top.failed with
  | false =>
    obtain ⟨host, h⟩ | ⟨report, host, h⟩ := popped.release_cases top c.host
    · have hresolve : c.scopes.resolve top.handle .commit c.host = (.ok .committed, popped,
          c.host.add host (.released top.subxact (.ok ()))) := by
        rw [ScopeStack.resolve_commit hc hf, h]
        rfl
      exact ⟨_, _, .committed, _, Task.run_leaveScope_ok (Core.resolveScope_eq hresolve) v, rfl, rfl⟩
    · have hresolve : c.scopes.resolve top.handle .commit c.host =
          (.error (.exception (.ofReport report)), popped.markFailed,
            c.host.add host (.released top.subxact (.error report))) := by
        rw [ScopeStack.resolve_commit hc hf, h]
        rfl
      exact ⟨_, _, .refused, _, Task.run_leaveScope_refused (Core.resolveScope_eq hresolve) v,
        ScopeStack.places_markFailed popped, rfl⟩
  | true =>
    obtain ⟨host, h⟩ | ⟨report, host, h⟩ := popped.rollback_cases top c.host
    · have hresolve : c.scopes.resolve top.handle .commit c.host =
          (.error (.exception .inFailedTransaction), popped,
            c.host.add host (.rolledBack top.subxact (.ok ()))) := by
        rw [ScopeStack.resolve_commit_of_failed hc hf, h]
        rfl
      exact ⟨_, _, .failed, _, Task.run_leaveScope_refused (Core.resolveScope_eq hresolve) v, rfl, rfl⟩
    · have hresolve : c.scopes.resolve top.handle .commit c.host =
          (.error (.exception (.ofReport report)), popped.markFailed,
            c.host.add host (.rolledBack top.subxact (.error report))) := by
        rw [ScopeStack.resolve_commit_of_failed hc hf, h]
        rfl
      exact ⟨_, _, .failedRefused, _, Task.run_leaveScope_refused (Core.resolveScope_eq hresolve) v,
        ScopeStack.places_markFailed popped, rfl⟩

/-- How a block ends of which the scope is still open. -/
theorem leave_of_places {n : Nat} (hn : ScopeStack.Nested n c.scopes.scopes)
    (hs : c.scopes.places = inner ++ (handle, id) :: outer) (body : Except ScriptError V) :
    ∃ result more, Leaving id (inner.map Prod.snd) c.scopes.isFailed body result more ∧
      ∃ c' : Core (Recorded σ) U, (Task.leaveScope handle body : Task S U _).run c = (result, c') ∧
        c'.scopes.places = outer ∧ c'.host.log = c.host.log ++ more := by
  obtain ⟨hplaces, more, hlog, hroll⟩ := ScopeStack.closed_abortThrough hn hs c.host
  cases body with
  | error err =>
    exact ⟨_, more, .raised hroll, _, Task.run_leaveScope_error handle err c, hplaces, hlog⟩
  | ok v =>
    cases hinner : inner with
    | nil =>
      rw [hinner] at hs
      exact commit_of_places hs v
    | cons first inner' =>
      -- the commit is refused before anything is asked of the host
      have hne : c.scopes.current? ≠ some handle := by
        intro hcurrent
        have hnodup := hn.nodup
        rw [← ScopeStack.opened, ScopeStack.opened_eq_places, hs, hinner] at hnodup
        rw [ScopeStack.current?, ← List.head?_map, ← ScopeStack.opened,
          ScopeStack.opened_eq_places, hs, hinner] at hcurrent
        -- the innermost scope is not the one below it
        simp only [List.cons_append, List.map_cons, List.head?_cons, Option.some.injEq] at hcurrent
        rw [List.cons_append, List.map_cons, hcurrent] at hnodup
        exact (List.nodup_cons.mp hnodup).1 (by simp)
      have hresolve := ScopeStack.resolve_of_ne (h := c.host) hne .commit
      have hleft : inner.map Prod.snd ≠ [] := by simp [hinner]
      rw [← hinner]
      exact ⟨_, more, .leftOpen hleft rfl hroll, _,
        Task.run_leaveScope_order (Core.resolveScope_eq hresolve) v, hplaces, hlog⟩

end

/-! ## What is asked of the host inside -/

section

variable {scope : ScopeHandle} {id : SubxactId} {outer : List (ScopeHandle × SubxactId)}
  {start : List HostExchange}

/-- As long as the scope is open, the same is below it as ever, and the brackets that were opened
since are those of the scope and of what is inside it. -/
structure Encloses (scope : ScopeHandle) (id : SubxactId) (outer : List (ScopeHandle × SubxactId))
    (start : List HostExchange) (s : ScopeStack) (log : List HostExchange) : Prop where
  nested : ScopeStack.Nested s.issued s.scopes
  issued : scope.id ≤ s.issued
  inside : scope ∈ s.opened → ∃ inner more, s.places = inner ++ (scope, id) :: outer ∧
    log = start ++ more ∧ HostExchange.replay [] more = some (inner.map Prod.snd ++ [id])

namespace Encloses

variable {s : ScopeStack} {log : List HostExchange}

/-- An exchange that neither opens nor closes a bracket does not matter. -/
theorem ask (h : Encloses scope id outer start s log) {x : HostExchange} (hbegin : x.isBegin = false)
    (hend : x.isEnd = false) : Encloses scope id outer start s (log ++ [x]) := by
  refine ⟨h.nested, h.issued, fun hopen => ?_⟩
  obtain ⟨inner, more, hplaces, rfl, hreplay⟩ := h.inside hopen
  refine ⟨inner, more ++ [x], hplaces, List.append_assoc _ _ _, ?_⟩
  rw [HostExchange.replay_concat hreplay, HostExchange.bracket_of_neither hbegin hend]

theorem mark (h : Encloses scope id outer start s log) :
    Encloses scope id outer start s.markFailed log := by
  refine ⟨?_, ?_, ?_⟩
  · rw [ScopeStack.markFailed_issued]
    exact h.nested.congr (ScopeStack.opened_markFailed s)
  · rw [ScopeStack.markFailed_issued]
    exact h.issued
  · rw [ScopeStack.opened_markFailed, ScopeStack.places_markFailed]
    exact h.inside

theorem push (h : Encloses scope id outer start s log) (new : SubxactId) :
    Encloses scope id outer start (s.push new).2 (log ++ [.began (.ok new)]) := by
  refine ⟨⟨Nat.succ_pos _, Nat.le_refl _, rfl, h.nested⟩, Nat.le_succ_of_le h.issued, ?_⟩
  intro hopen
  have hbefore : scope ∈ s.opened := by
    refine (List.mem_cons.mp hopen).resolve_left fun he => ?_
    have hid : scope.id = s.issued + 1 := congrArg ScopeHandle.id he
    have := h.issued
    omega
  obtain ⟨inner, more, hplaces, rfl, hreplay⟩ := h.inside hbefore
  refine ⟨(_, new) :: inner, more ++ [.began (.ok new)], congrArg (_ :: ·) hplaces,
    List.append_assoc _ _ _, ?_⟩
  rw [HostExchange.replay_concat hreplay]
  rfl

theorem pop (h : Encloses scope id outer start s log) {top : Scope} {rest : List Scope}
    (hc : s.scopes = top :: rest) {x : HostExchange}
    (hx : ∀ ids, HostExchange.bracket (top.subxact :: ids) x = some ids) :
    Encloses scope id outer start { s with scopes := rest } (log ++ [x]) := by
  have hnested := hc ▸ h.nested
  refine ⟨hnested.tail, h.issued, fun hopen => ?_⟩
  have hopen' : scope ∈ rest.map Scope.handle := hopen
  obtain ⟨inner, more, hplaces, rfl, hreplay⟩ :=
    h.inside (by rw [ScopeStack.opened, hc]; exact List.mem_cons_of_mem _ hopen')
  rw [ScopeStack.places, hc, List.map_cons] at hplaces
  cases inner with
  | nil =>
    -- the scope itself has ended
    obtain ⟨htop, -⟩ := List.cons.inj hplaces
    have hnodup := hnested.nodup
    rw [List.map_cons, (Prod.mk.inj htop).1] at hnodup
    exact absurd hopen' (List.nodup_cons.mp hnodup).1
  | cons first inner =>
    obtain ⟨rfl, hrest⟩ := List.cons.inj hplaces
    refine ⟨inner, more ++ [x], hrest, List.append_assoc _ _ _, ?_⟩
    rw [HostExchange.replay_concat hreplay]
    exact hx _

end Encloses

theorem logged_encloses : Logged fun _ s log => Encloses scope id outer start s log where
  mark h := h.mark
  rollback answer hc h := h.pop hc fun ids => by simp [HostExchange.bracket]
  release answer hc _ h := h.pop hc fun ids => by simp [HostExchange.bracket]
  list _ h := h.ask rfl rfl
  push new h := h.push new
  ask hbegin hend h := h.ask hbegin hend
  condemn _ h := h

end

/-! ## The scope stays open -/

/-- The action resolves or aborts only scopes that were opened after the given one; what a handle
does is another matter. -/
def Action.Spares (scope : ScopeHandle) : Action S U → Prop
  | .resolveScope other _ | .abortThrough other => scope.id < other.id
  | _ => True

theorem nested_lasting [Host σ] :
    Lasting fun _ (t : ScopeStack × σ) => ScopeStack.Nested t.1.issued t.1.scopes where
  mark := ScopeStack.nested_keeps.mark (σ := σ)
  rollback := ScopeStack.nested_keeps.rollback
  release := ScopeStack.nested_keeps.release
  list _ h := h
  poll h := h
  enter := ScopeStack.nested_keeps.enter
  deliver _ h := h
  lookup _ h := h
  condemn _ h := h

/-- A handle that is given a state has it, if it exists, and no other handle is concerned. -/
theorem Core.handleState_of_set {c c' : Core σ U} {set : HandleId} {state : HandleState}
    (h : c'.handles = c.handles.setIfInBounds set.number state) (handle : HandleId) :
    c'.handleState handle = state ∨ c'.handleState handle = c.handleState handle := by
  by_cases he : handle = set
  · subst he
    by_cases hmade : handle.number < c.handles.size
    · exact .inl (handleState_set h hmade)
    · right
      simp [handleState, h, Nat.le_of_not_lt hmade]
  · exact .inr (handleState_set_of_ne h he)

/-- A handle stands for a scope that it stood for before, or for one that was opened just now. -/
theorem Moment.entered_after [Host σ] {m : Moment (Recorded σ) S U} {handle : HandleId}
    {scope : ScopeHandle} (h : m.after.handleState handle = .entered scope) :
    m.core.handleState handle = .entered scope ∨ m.core.scopes.Opens scope m.after.scopes := by
  cases m.deals with
  | calm _ hhandles _ | opened _ _ _ hhandles | ended _ _ _ hhandles _ _ =>
    exact .inl (Core.handleState_congr hhandles handle ▸ h)
  | made haction =>
    obtain ⟨c, action⟩ := m
    cases haction
    change ((c.handles.push .fresh)[handle.number]?).getD .fresh = _ at h
    rw [Array.getElem?_push] at h
    split at h
    · cases h
    · exact .inl h
  | entered set new _ _ _ hopens hhandles =>
    rcases Core.handleState_of_set hhandles handle with hset | hsame
    · obtain rfl := HandleState.entered.inj (hset.symm.trans h)
      exact .inr hopens
    · exact .inl (hsame ▸ h)
  | resolved set _ _ state _ _ _ _ hhandles hend =>
    rcases Core.handleState_of_set hhandles handle with hset | hsame
    · rw [hset] at h
      obtain ⟨rfl, -⟩ | ⟨rfl, -⟩ := hend <;> cases h
    · exact .inl (hsame ▸ h)

/-- The scopes are numbered as they were opened, and no handle stands for one that is yet to
come. -/
structure InOrder (c : Core σ U) : Prop where
  nested : ScopeStack.Nested c.scopes.issued c.scopes.scopes
  held : ∀ handle scope, c.handleState handle = .entered scope → scope.id ≤ c.scopes.issued

theorem Moment.issued_le [Host σ] (m : Moment (Recorded σ) S U) :
    m.core.scopes.issued ≤ m.after.scopes.issued := by
  cases m.deals with
  | calm htally => exact Nat.le_of_eq (ScopeStack.issued_of_tally htally).symm
  | made haction =>
    obtain ⟨c, action⟩ := m
    cases haction
    exact Nat.le_refl _
  | opened _ _ hopens | entered _ _ _ _ _ hopens =>
    have hissued : m.after.scopes.issued = m.core.scopes.issued + 1 := congrArg Prod.snd hopens.tally
    omega
  | ended _ _ hissued => exact Nat.le_of_eq hissued.symm
  | resolved _ _ _ _ _ _ _ htally => exact Nat.le_of_eq (congrArg Prod.snd htally).symm

theorem InOrder.after [Host σ] {m : Moment (Recorded σ) S U} (h : InOrder m.core) :
    InOrder m.after where
  nested := nested_lasting.after m h.nested
  held handle scope he := by
    rcases m.entered_after he with hbefore | hopens
    · exact Nat.le_trans (h.held handle scope hbefore) m.issued_le
    · have hid := hopens.id
      have hissued : m.after.scopes.issued = m.core.scopes.issued + 1 :=
        congrArg Prod.snd hopens.tally
      omega

/-- The scope is open, and no handle stands for it. -/
structure Guarded (scope : ScopeHandle) (c : Core σ U) : Prop where
  nested : ScopeStack.Nested c.scopes.issued c.scopes.scopes
  isOpen : scope ∈ c.scopes.opened
  unheld : ∀ handle, c.handleState handle ≠ .entered scope

namespace Guarded

variable {scope other : ScopeHandle}

theorem id_le {c : Core σ U} (h : Guarded scope c) : scope.id ≤ c.scopes.issued := by
  obtain ⟨x, hx, rfl⟩ := List.mem_map.mp h.isOpen
  exact h.nested.id_le hx

variable [Host σ]

theorem open_enterScope {c : Core (Recorded σ) U} (h : Guarded scope c) :
    scope ∈ c.enterScope.2.scopes.opened := by
  obtain ⟨f, -, htally⟩ | ⟨new, -, hopens⟩ := c.enterScope_cases
  · exact (ScopeStack.opened_of_tally htally).symm ▸ h.isOpen
  · have hopened : c.enterScope.2.scopes.opened = new :: c.scopes.opened :=
      congrArg Prod.fst hopens.tally
    exact hopened ▸ List.mem_cons_of_mem _ h.isOpen

theorem open_resolveScope {c : Core (Recorded σ) U} (h : Guarded scope c) (hne : scope ≠ other)
    (resolution : Resolution) : scope ∈ (c.resolveScope other resolution).2.scopes.opened := by
  by_contra hgone
  have hends := (c.scopes.resolve_cases other resolution c.host).ends
  exact hne (hends.2.2 scope h.isOpen hgone)

theorem open_abortThrough {c : Core (Recorded σ) U} (h : Guarded scope c)
    (hlt : scope.id < other.id) : scope ∈ (c.abortThrough other).scopes.opened := by
  cases hholds : c.scopes.holds other with
  | false =>
    have hsame : c.scopes.abortThrough other c.host = (.error (c.scopes.orderFailure other),
        c.scopes, c.host) := by simp [ScopeStack.abortThrough, hholds]
    rw [Core.abortThrough, hsame]
    exact h.isOpen
  | true =>
    obtain ⟨x, hx, hother⟩ := List.any_eq_true.mp hholds
    obtain ⟨inner, outer, hc⟩ := List.append_of_mem hx
    have hplaces : c.scopes.places = inner.map (fun x => (x.handle, x.subxact)) ++
        (other, x.subxact) :: outer.map fun x => (x.handle, x.subxact) := by
      rw [ScopeStack.places, hc, ← of_decide_eq_true hother]
      simp
    have hclosed := ScopeStack.closed_abortThrough h.nested hplaces c.host
    have hfalling := h.nested.falling
    have hopen := h.isOpen
    rw [ScopeStack.opened_eq_places, hplaces] at hopen
    rw [← ScopeStack.opened, ScopeStack.opened_eq_places, hplaces] at hfalling
    change scope ∈ (c.scopes.abortThrough other c.host).2.1.opened
    rw [ScopeStack.opened_eq_places, hclosed.places]
    rw [List.map_append, List.map_cons] at hopen hfalling
    rcases List.mem_append.mp hopen with hinner | houter
    · -- what is inside the other scope was opened after it
      have := (List.pairwise_append.mp hfalling).2.2 scope hinner other List.mem_cons_self
      omega
    · refine (List.mem_cons.mp houter).resolve_left fun he => ?_
      rw [he] at hlt
      exact Nat.lt_irrefl _ hlt

/-- The scope stays open under an action that spares it. -/
theorem open_after {m : Moment (Recorded σ) S U} (h : Guarded scope m.core)
    (hspares : m.action.Spares scope) : scope ∈ m.after.scopes.opened := by
  obtain ⟨c, action⟩ := m
  have hsame (htally : (Moment.after ⟨c, action⟩).tally = c.tally) :
      scope ∈ (Moment.after ⟨c, action⟩).scopes.opened :=
    (ScopeStack.opened_of_tally htally).symm ▸ h.isOpen
  cases action with
  | resolveScope other resolution =>
    exact h.open_resolveScope (fun he => absurd hspares (by simp [Action.Spares, he])) resolution
  | abortThrough other => exact h.open_abortThrough hspares
  | enterScope => exact h.open_enterScope
  | enterHandle handle =>
    change scope ∈ (c.enterHandle handle).2.scopes.opened
    have henter := h.open_enterScope
    simp only [Core.enterHandle]
    split
    · split
      all_goals
        rename_i he
        rw [he] at henter
        exact henter
    · exact h.isOpen
  | resolveHandle handle resolution =>
    change scope ∈ (c.resolveHandle handle resolution).2.scopes.opened
    simp only [Core.resolveHandle]
    split
    · rename_i other hstate
      have hne : scope ≠ other := fun he => h.unheld handle (he ▸ hstate)
      have hresolve := h.open_resolveScope hne resolution
      split
      all_goals
        rename_i hr
        rw [hr] at hresolve
        exact hresolve
    all_goals exact h.isOpen
  | beginHandling exc =>
    refine hsame ?_
    change (c.beginHandling exc).tally = c.tally
    unfold Core.beginHandling
    dsimp only
    split <;> rfl
  | newHandle | endHandling | countInline => exact hsame rfl
  | obtain | addUnit | beginLoad | endLoad | invalidate | clearCache =>
    exact hsame (Moment.after_of_handlesUnits Core.tally_steady (fun _ _ _ => rfl) rfl)
  | _ => exact hsame (Moment.after_of_passing Core.tally_steady rfl)

theorem unheld_after {m : Moment (Recorded σ) S U} (h : Guarded scope m.core) (handle : HandleId) :
    m.after.handleState handle ≠ .entered scope := by
  intro he
  rcases m.entered_after he with hbefore | hopens
  · exact h.unheld handle hbefore
  · have hid := hopens.id
    have hle := h.id_le
    omega

/-- The step lemma. -/
theorem after {m : Moment (Recorded σ) S U} (h : Guarded scope m.core)
    (hspares : m.action.Spares scope) : Guarded scope m.after :=
  ⟨nested_lasting.after m h.nested, h.open_after hspares, h.unheld_after⟩

end Guarded

/-! ## Bodies -/

section

/-- Runs of the task leave the scope open and without a handle. -/
def Task.Guards (σ : Type) [Host σ] (scope : ScopeHandle) {α : Type} (t : Task S U α) : Prop :=
  ∀ c : Core (Recorded σ) U, Guarded scope c → Guarded scope (t.run c).2

variable [Host σ] {scope : ScopeHandle}

theorem Task.guards_composes :
    Task.Composes fun _ (t : Task S U _) => t.Guards σ scope where
  pure _ _ hc := hc
  bind ht hk c hc := by
    rw [run_bind]
    exact hk _ _ (ht c hc)

theorem Task.guards_perform {action : Action S U} (h : action.Spares scope) :
    (perform action).Guards σ scope := fun c hc => hc.after (m := ⟨c, action⟩) h

/-- A block inside ends scopes that were opened after its own, or its own. -/
theorem Task.guards_inScope (state : S) {body : Task S U (Outcome S V)}
    (hbody : body.Guards σ scope) : (inScope state body).Guards σ scope := by
  intro c hc
  have hafter := hc.after (m := (⟨c, .enterScope⟩ : Moment _ S U)) trivial
  rw [inScope, run_act]
  change Guarded scope (run _ c.enterScope.2).2
  change Guarded scope c.enterScope.2 at hafter
  obtain ⟨f, hanswer, -⟩ | ⟨other, hanswer, hopens⟩ := c.enterScope_cases
  · have hrun : (c.perform .enterScope : (Action.enterScope : Action S U).Answer × _).1 = .error f :=
      hanswer
    rw [hrun]
    exact hafter
  · have hrun : (c.perform .enterScope : (Action.enterScope : Action S U).Answer × _).1 = .ok other :=
      hanswer
    rw [hrun]
    have hlt : scope.id < other.id := by
      have hid := hopens.id
      have hle := hc.id_le
      omega
    have hC : Composes fun _ (t : Task S U _) => t.Guards σ scope := guards_composes
    exact (hC.bind hbody fun o => hC.bind (hC.leaveScope other (guards_perform hlt)
      (guards_perform hlt) o.result) fun _ => hC.pure _) _ hafter

/-- The run lemma: whatever scripts do inside leaves the scope open. -/
theorem Compiler.carries_guards (compiler : Compiler S U) (scope : ScopeHandle) :
    compiler.Carries fun _ t => t.Guards σ scope := by
  have hC : Task.Composes fun _ (t : Task S U _) => t.Guards σ scope := Task.guards_composes
  refine .of_units hC (fun action _ hplain => Task.guards_perform ?_) Task.guards_inScope
    (fun _ => hC.handling (Task.guards_perform trivial) (Task.guards_perform trivial))
    fun action ha _ => Task.guards_perform ?_
  · cases action <;> trivial
  · cases action <;> trivial

/-! ## Blocks -/

/-- A scope is entered behind a safepoint, on top of those that are open. -/
theorem Core.enterScope_ok {c c' : Core (Recorded σ) U} (h : c.enterScope = (.ok scope, c')) :
    ∃ id, c'.scopes = (c.scopes.push id).2 ∧ scope = (c.scopes.push id).1 ∧
      c'.host.log = c.host.log ++ [.polled, .began (.ok id)] ∧ c'.handles = c.handles := by
  have hhandles : c'.handles = c.handles := by
    rw [← Core.handles_steady.enterScope (fun _ _ => rfl) c, h]
  simp only [enterScope] at h
  rcases hs : c.safepoint with ⟨f | u, passed⟩
  · rw [hs] at h
    cases h
  · obtain ⟨-, -, rfl⟩ := safepoint_ok hs
    rw [hs] at h
    dsimp only at h
    have hpolled : c.poll.host.log = c.host.log ++ [.polled] := by rw [poll_host]; rfl
    by_cases hl : c.poll.scopes.maxDepth ≤ c.poll.scopes.depth
    · rw [ScopeStack.enter_of_limit hl] at h
      cases h
    · have hlt : c.poll.scopes.depth < c.poll.scopes.maxDepth := by omega
      rcases hr : Host.beginSubxact c.poll.host.host with ⟨report | id, host⟩
      · rw [ScopeStack.enter_of_refused hlt (Recorded.beginSubxact_eq hr)] at h
        cases h
      · rw [ScopeStack.enter_of_began hlt (Recorded.beginSubxact_eq hr)] at h
        cases h
        refine ⟨id, by rw [poll_scopes], by rw [poll_scopes], ?_, hhandles⟩
        rw [Recorded.add, hpolled, List.append_assoc]
        rfl

theorem Task.run_inScope_of_ok {c c₁ : Core (Recorded σ) U} (henter : c.enterScope = (.ok scope, c₁))
    (state : S) (body : Task S U (Outcome S V)) :
    (inScope state body).run c = (body >>= fun o => leaveScope scope o.result >>= fun result =>
      .pure (⟨result, o.state⟩ : Outcome S V)).run c₁ := by
  have hperform : c.perform (.enterScope : Action S U) = (.ok scope, c₁) := henter
  rw [inScope, run]
  simp only [hperform]

/-- When the body of a block is over, the scope of the block is still open, on top of those that were
open before it. -/
theorem Task.run_body {c c₁ : Core (Recorded σ) U} (hc : InOrder c)
    (henter : c.enterScope = (.ok scope, c₁)) {body : Task S U (Outcome S V)}
    (hbody : body.Guards σ scope) :
    ∃ id inner during,
      ScopeStack.Nested (body.run c₁).2.scopes.issued (body.run c₁).2.scopes.scopes ∧
      (body.run c₁).2.scopes.places = inner ++ (scope, id) :: c.scopes.places ∧
      (body.run c₁).2.host.log = c.host.log ++ during ∧
      HostExchange.replay [] during = some (inner.map Prod.snd ++ [id]) := by
  obtain ⟨id, hscopes, rfl, hlog, hhandles⟩ := Core.enterScope_ok henter
  have hguarded : Guarded (c.scopes.push id).1 c₁ := by
    refine ⟨?_, ?_, fun handle he => ?_⟩
    · rw [hscopes]
      exact ⟨Nat.succ_pos _, Nat.le_refl _, rfl, hc.nested⟩
    · rw [hscopes]
      exact List.mem_cons_self
    · rw [Core.handleState_congr hhandles] at he
      exact absurd (hc.held handle _ he) (Nat.not_succ_le_self _)
  have hencloses : c₁.Has fun _ (t : ScopeStack × Recorded σ) =>
      Encloses (c.scopes.push id).1 id c.scopes.places c.host.log t.1 t.2.log := by
    refine ⟨hguarded.nested, hguarded.id_le, fun _ => ⟨[], [.polled, .began (.ok id)], ?_, hlog, rfl⟩⟩
    rw [hscopes]
    rfl
  have hopen := (hbody _ hguarded).isOpen
  have hafter := logged_encloses.lasting.run body hencloses
  obtain ⟨inner, during, hplaces, hduring, hreplay⟩ := hafter.inside hopen
  exact ⟨id, inner, during, hafter.nested, hplaces, hduring, hreplay⟩

/-- A block that has entered its scope leaves the scopes below as they were. The host is asked to
end what was begun inside, and nothing else. -/
theorem Task.run_inScope {c c₁ : Core (Recorded σ) U} (hc : InOrder c)
    (henter : c.enterScope = (.ok scope, c₁)) (state : S) {body : Task S U (Outcome S V)}
    (hbody : body.Guards σ scope) :
    ∃ id inner during result ended c',
      (body.run c₁).2.scopes.places = inner ++ (scope, id) :: c.scopes.places ∧
      Leaving id (inner.map Prod.snd) (body.run c₁).2.scopes.isFailed (body.run c₁).1.result result
        ended ∧
      (inScope state body).run c = (⟨result, (body.run c₁).1.state⟩, c') ∧
      c'.scopes.places = c.scopes.places ∧
      (body.run c₁).2.host.log = c.host.log ++ during ∧
      c'.host.log = c.host.log ++ (during ++ ended) ∧
      HostExchange.replay [] (during ++ ended) = some [] := by
  obtain ⟨id, inner, during, hnested, hplaces, hduring, hreplay⟩ := run_body hc henter hbody
  obtain ⟨result, ended, hleaving, c', hrun, hleft, hended⟩ :=
    leave_of_places (S := S) hnested hplaces (body.run c₁).1.result
  refine ⟨id, inner, during, result, ended, c', hplaces, hleaving, ?_, hleft, hduring, ?_, ?_⟩
  · rw [run_inScope_of_ok henter, run_bind, run_bind, hrun]
    rfl
  · rw [hended, hduring, List.append_assoc]
  · rw [HostExchange.replay_append, hreplay]
    exact hleaving.replay

end

end ProcedureBridge
