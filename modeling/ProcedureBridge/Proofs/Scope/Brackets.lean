import ProcedureBridge.Proofs.Scope.Marks

/-! # Subtransactions as brackets

To begin a subtransaction opens a bracket, and to end one closes it, whatever the host says to that.
Read in this way the record of a host tells what is open, and an operation that ends scopes closes
the brackets of just these scopes, from the innermost one outwards. -/

namespace ProcedureBridge

namespace HostExchange

/-- The brackets that are open after one more exchange, innermost first. There are none if it closes
another one than the innermost. -/
def bracket (ids : List SubxactId) : HostExchange → Option (List SubxactId)
  | began (.ok id) => some (id :: ids)
  | released id _ | rolledBack id _ => if ids.head? = some id then some ids.tail else none
  | _ => some ids

/-- The brackets that are open after the exchanges, if each of these closes only the innermost
one. -/
def replay (ids : List SubxactId) (log : List HostExchange) : Option (List SubxactId) :=
  log.foldlM bracket ids

theorem replay_append {ids : List SubxactId} {log more : List HostExchange} :
    replay ids (log ++ more) = (replay ids log).bind (replay · more) :=
  List.foldlM_append

theorem replay_concat {ids open_ : List SubxactId} {log : List HostExchange} {x : HostExchange}
    (h : replay ids log = some open_) : replay ids (log ++ [x]) = bracket open_ x := by
  rw [replay_append, h]
  simp [replay]

theorem bracket_of_neither {x : HostExchange} (hbegin : x.isBegin = false) (hend : x.isEnd = false)
    (ids : List SubxactId) : bracket ids x = some ids := by
  cases x with
  | began answer =>
    cases answer with
    | ok id => cases hbegin
    | error report => rfl
  | released | rolledBack => cases hend
  | delivered | polled | lookedUp | listed => rfl

/-- The exchanges are rollbacks of the subtransactions, one after the other. -/
def RollBack (ids : List SubxactId) (log : List HostExchange) : Prop :=
  List.Forall₂ (fun id x => ∃ answer, x = rolledBack id answer) ids log

theorem RollBack.replay {ids rest : List SubxactId} {log : List HostExchange}
    (h : RollBack ids log) : replay (ids ++ rest) log = some rest := by
  induction h with
  | nil => rfl
  | cons hx _ ih =>
    obtain ⟨answer, rfl⟩ := hx
    simpa [HostExchange.replay, bracket] using ih

end HostExchange

namespace ScopeStack

variable {σ : Type}

/-- The open scopes, each with its subtransaction, innermost first. -/
def places (s : ScopeStack) : List (ScopeHandle × SubxactId) :=
  s.scopes.map fun x => (x.handle, x.subxact)

@[simp] theorem places_markFailed (s : ScopeStack) : s.markFailed.places = s.places :=
  markFailed_map (fun x => (x.handle, x.subxact)) (fun _ => rfl) s

theorem opened_eq_places (s : ScopeStack) : s.opened = s.places.map Prod.fst := by
  simp [opened, places]

theorem subxacts_eq_places (s : ScopeStack) : s.subxacts = s.places.map Prod.snd := by
  simp [subxacts, places]

theorem exists_of_places {s : ScopeStack} {handle : ScopeHandle} {id : SubxactId}
    {outer : List (ScopeHandle × SubxactId)} (h : s.places = (handle, id) :: outer) :
    ∃ top rest, s.scopes = top :: rest ∧ top.handle = handle ∧ top.subxact = id ∧
      ({ s with scopes := rest } : ScopeStack).places = outer := by
  cases hc : s.scopes with
  | nil => simp [places, hc] at h
  | cons top rest =>
    simp only [places, hc, List.map_cons, List.cons.injEq, Prod.mk.injEq] at h
    exact ⟨top, rest, rfl, h.1.1, h.1.2, h.2⟩

/-- The depth of a handle tells how many scopes are below its own. -/
theorem Nested.depth_of_places {s : ScopeStack} {n : Nat} (hn : Nested n s.scopes)
    {handle : ScopeHandle} {id : SubxactId} {inner outer : List (ScopeHandle × SubxactId)}
    (hs : s.places = inner ++ (handle, id) :: outer) : handle.depth = outer.length + 1 := by
  obtain ⟨above, below, hc, -, hbelow⟩ := List.map_eq_append_iff.mp hs
  obtain ⟨x, rest, rfl, hx, rfl⟩ := List.map_eq_cons_iff.mp hbelow
  rw [hc] at hn
  rw [List.length_map, ← (Prod.mk.inj hx).1]
  exact hn.depth_append

/-- The subtransactions were rolled back, one after the other, and nothing else was asked of the
host; the places are those that are left. -/
structure Closed (ids : List SubxactId) (places : List (ScopeHandle × SubxactId)) (r : Recorded σ)
    (t : ScopeStack × Recorded σ) : Prop where
  places : t.1.places = places
  log : ∃ more, t.2.log = r.log ++ more ∧ HostExchange.RollBack ids more

theorem Closed.trans {ids ids' : List SubxactId} {places places' : List (ScopeHandle × SubxactId)}
    {r : Recorded σ} {t u : ScopeStack × Recorded σ} (h : Closed ids places r t)
    (h' : Closed ids' places' t.2 u) : Closed (ids ++ ids') places' r u := by
  obtain ⟨more, hlog, hroll⟩ := h.log
  obtain ⟨more', hlog', hroll'⟩ := h'.log
  refine ⟨h'.places, more ++ more', ?_, List.rel_append hroll hroll'⟩
  rw [hlog', hlog, List.append_assoc]

variable [Host σ] {s : ScopeStack} {r : Recorded σ} {top : Scope} {outer : List Scope}

theorem closed_rollback (s : ScopeStack) (scope : Scope) (r : Recorded σ) :
    Closed [scope.subxact] s.places r (s.rollback scope r).2 := by
  obtain ⟨host, h⟩ | ⟨report, host, h⟩ := s.rollback_cases scope r
  · rw [h]
    exact ⟨rfl, _, rfl, .cons ⟨_, rfl⟩ .nil⟩
  · rw [h]
    exact ⟨places_markFailed s, _, rfl, .cons ⟨_, rfl⟩ .nil⟩

theorem closed_unwindBy (s : ScopeStack) (r : Recorded σ) (count : Nat) :
    Closed (s.subxacts.take count) (s.places.drop count) r (s.unwindBy r count) := by
  induction count generalizing s r with
  | zero => exact ⟨rfl, [], (List.append_nil _).symm, .nil⟩
  | succ count ih =>
    cases hc : s.scopes with
    | nil =>
      have hnone : s.unwindBy r (count + 1) = (s, r) := by rw [unwindBy, hc]
      rw [hnone]
      refine ⟨by simp [places, hc], [], (List.append_nil _).symm, ?_⟩
      simp [HostExchange.RollBack, subxacts, hc]
    | cons top outer =>
      have hfirst := closed_rollback { s with scopes := outer } top r
      have hrest := ih ({ s with scopes := outer }.rollback top r).2.1
        ({ s with scopes := outer }.rollback top r).2.2
      rw [subxacts_eq_places, hfirst.places, ← subxacts_eq_places] at hrest
      have hboth := hfirst.trans hrest
      rw [unwindBy, hc]
      simpa [places, subxacts, hc] using hboth

/-- Aborting through a scope closes its bracket after those inside it. -/
theorem closed_abortThrough {n : Nat} (hn : Nested n s.scopes) {handle : ScopeHandle}
    {id : SubxactId} {inner outer : List (ScopeHandle × SubxactId)}
    (hs : s.places = inner ++ (handle, id) :: outer) (r : Recorded σ) :
    Closed (inner.map Prod.snd ++ [id]) outer r (s.abortThrough handle r).2 := by
  have hlength : s.depth = inner.length + (outer.length + 1) := by
    have := congrArg List.length hs
    simpa [places, depth] using this
  have hdepth : handle.depth = outer.length + 1 := hn.depth_of_places hs
  have hholds : s.holds handle = true := by
    have hmem : (handle, id) ∈ s.places := hs ▸ List.mem_append_right _ List.mem_cons_self
    obtain ⟨x, hx, he⟩ := List.mem_map.mp hmem
    exact List.any_eq_true.mpr ⟨x, hx, by simp [(Prod.mk.inj he).1]⟩
  have hcount : s.depth - handle.depth = inner.length := by omega
  have hunwound := closed_unwindBy s r inner.length
  rw [subxacts_eq_places, hs] at hunwound
  simp only [List.map_append, List.take_left', List.drop_left', List.length_map] at hunwound
  obtain ⟨top, rest, hc, rfl, rfl, hrest⟩ := exists_of_places hunwound.places
  rw [abortThrough, if_pos hholds, unwindTo, hcount]
  dsimp only
  rw [resolve_abort hc]
  have hlast := closed_rollback { (s.unwindBy r inner.length).1 with scopes := rest } top
    (s.unwindBy r inner.length).2
  rw [hrest] at hlast
  exact hunwound.trans hlast

end ScopeStack

end ProcedureBridge
