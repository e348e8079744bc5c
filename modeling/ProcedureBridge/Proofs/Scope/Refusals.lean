import ProcedureBridge.Proofs.Scope.Stack
import ProcedureBridge.Proofs.Host.Recorded

/-! # Scopes over a host that refuses to release

A host may refuse to release a subtransaction, which then stays open. The scope has left the stack
by that time, so that nothing asks the host again to end the subtransaction, and those around it are
no longer the innermost ones when their scopes end. Up to a first such refusal the stack and the
host are in step, and what is off the stack has ended. -/

namespace ProcedureBridge

/-- What a stack can be asked, whatever its host. -/
inductive ScopeRequest
  | enter
  | resolve (handle : ScopeHandle) (resolution : Resolution)
  | abortThrough (handle : ScopeHandle)
  | markFailed
  | unwindTo (depth : Nat)
  | takeRootFailed

/-- The host's open subtransactions, innermost first, nest: it begins one whenever it is asked to,
rolls the innermost one back, and may refuse to release it. -/
structure Nests {σ : Type} [Host σ] (opened : σ → List SubxactId) : Prop where
  begins : ∀ h, ∃ id h', Host.beginSubxact h = (.ok id, h') ∧ opened h' = id :: opened h
  rollsBack : ∀ {h id rest}, opened h = id :: rest →
    ∃ h', Host.rollbackSubxact id h = (.ok (), h') ∧ opened h' = rest
  releases : ∀ {h id rest}, opened h = id :: rest →
    (∃ h', Host.releaseSubxact id h = (.ok (), h') ∧ opened h' = rest) ∨
      ∃ report h', Host.releaseSubxact id h = (.error report, h') ∧ opened h' = opened h

namespace HostExchange

/-- The host has ended the subtransaction. -/
def Ended (id : SubxactId) (log : List HostExchange) : Prop :=
  .released id (.ok ()) ∈ log ∨ .rolledBack id (.ok ()) ∈ log

/-- The host has refused to release the subtransaction, or one begun after it. -/
def Refused (id : SubxactId) (log : List HostExchange) : Prop :=
  ∃ x report, (x = id ∨ .began (.ok x) ∈ log) ∧ .released x (.error report) ∈ log

variable {id : SubxactId} {log : List HostExchange}

instance : Decidable (Ended id log) := inferInstanceAs (Decidable (_ ∨ _))

theorem Ended.append (h : Ended id log) (more : List HostExchange) : Ended id (log ++ more) := by
  cases h with
  | inl h => exact .inl (List.mem_append_left _ h)
  | inr h => exact .inr (List.mem_append_left _ h)

theorem Refused.append (h : Refused id log) (more : List HostExchange) :
    Refused id (log ++ more) := by
  obtain ⟨x, report, hx, hr⟩ := h
  exact ⟨x, report, hx.imp_right (List.mem_append_left _), List.mem_append_left _ hr⟩

/-- Where an exchange stands in a log that has one more at its end. -/
theorem split_concat {log past later : List HostExchange} {x y : HostExchange}
    (h : log ++ [x] = past ++ y :: later) :
    (later = [] ∧ log = past ∧ x = y) ∨ ∃ later', later = later' ++ [x] ∧ log = past ++ y :: later' := by
  rcases later.eq_nil_or_concat with rfl | ⟨later', z, rfl⟩
  · obtain ⟨hlog, hx⟩ := List.append_inj' h rfl
    exact .inl ⟨rfl, hlog, List.singleton_inj.mp hx⟩
  · have h' : log ++ [x] = (past ++ y :: later') ++ [z] := by simpa using h
    obtain ⟨hlog, hx⟩ := List.append_inj' h' rfl
    exact .inr ⟨later', by rw [List.concat_eq_append, List.singleton_inj.mp hx], hlog⟩

end HostExchange

namespace ScopeStack

variable {σ : Type}

def subxacts (s : ScopeStack) : List SubxactId := s.scopes.map Scope.subxact

@[simp] theorem subxacts_markFailed (s : ScopeStack) : s.markFailed.subxacts = s.subxacts :=
  markFailed_map Scope.subxact (fun _ => rfl) s

section

variable [Host σ]

def perform (t : ScopeStack × σ) : ScopeRequest → ScopeStack × σ
  | .enter => (t.1.enter t.2).2
  | .resolve handle resolution => (t.1.resolve handle resolution t.2).2
  | .abortThrough handle => (t.1.abortThrough handle t.2).2
  | .markFailed => (t.1.markFailed, t.2)
  | .unwindTo depth => (t.1.unwindTo depth t.2).2
  | .takeRootFailed => (t.1.takeRootFailed.2, t.2)

/-- A stack and its host after some requests. -/
def performAll (t : ScopeStack × σ) (requests : List ScopeRequest) : ScopeStack × σ :=
  requests.foldl perform t

/-- What a mark, an enter and the end of an innermost scope keep, every request keeps. -/
structure RequestKeeps (P : ScopeStack × σ → Prop) : Prop where
  mark : ∀ {s h}, P (s, h) → P (s.markFailed, h)
  takeRoot : ∀ {s h}, P (s, h) → P (s.takeRootFailed.2, h)
  enter : ∀ {s h}, P (s, h) → P (s.enter h).2
  rollback : RollbackKeeps P
  release : ReleaseKeeps P

variable {P : ScopeStack × σ → Prop} {t : ScopeStack × σ}

theorem RequestKeeps.perform (hP : RequestKeeps P) (request : ScopeRequest) (ht : P t) :
    P (perform t request) := by
  cases request with
  | enter => exact hP.enter ht
  | resolve handle resolution => exact resolve_keeps hP.rollback hP.release handle resolution ht
  | abortThrough handle => exact abortThrough_keeps hP.rollback handle ht
  | markFailed => exact hP.mark ht
  | unwindTo depth => exact unwindTo_keeps hP.rollback depth ht
  | takeRootFailed => exact hP.takeRoot ht

theorem RequestKeeps.performAll (hP : RequestKeeps P) (requests : List ScopeRequest) (ht : P t) :
    P (performAll t requests) := by
  induction requests generalizing t with
  | nil => exact ht
  | cons request requests ih => exact ih (hP.perform request ht)

end

/-! ### What becomes of a subtransaction -/

section

variable {opened : σ → List SubxactId} {s : ScopeStack} {r : Recorded σ} {scope : Scope}
  {outer : List Scope} {id : SubxactId} {later : List HostExchange} {inner : List SubxactId}

/-- The subtransaction is on the stack and open, with the same inside it on both. -/
structure Held (opened : σ → List SubxactId) (t : ScopeStack × Recorded σ) (id : SubxactId)
    (later : List HostExchange) (inner : List SubxactId) : Prop where
  stacked : ∃ outer, t.1.subxacts = inner ++ id :: outer
  opened : ∃ rest, opened t.2.host = inner ++ id :: rest
  began : ∀ x ∈ inner, HostExchange.began (.ok x) ∈ later

/-- What is on top of the stack is the held subtransaction or inside it, and it is the host's
innermost one. -/
theorem Held.innermost (hh : Held opened (s, r) id later inner) (hc : s.scopes = scope :: outer) :
    (scope.subxact = id ∨ .began (.ok scope.subxact) ∈ later) ∧
      ∃ rest, opened r.host = scope.subxact :: rest := by
  obtain ⟨out, hs⟩ := hh.stacked
  obtain ⟨rest, ho⟩ := hh.opened
  rw [subxacts, hc, List.map_cons] at hs
  cases inner with
  | nil =>
    obtain ⟨htop, -⟩ := List.cons.inj hs
    exact ⟨.inl htop, rest, htop ▸ ho⟩
  | cons x inner =>
    obtain ⟨rfl, -⟩ := List.cons.inj hs
    exact ⟨.inr (hh.began _ List.mem_cons_self), _, ho⟩

/-- The innermost subtransaction has ended, on the stack and for the host. -/
theorem Held.pop (hh : Held opened (s, r) id later inner) (hc : s.scopes = scope :: outer)
    {rest : List SubxactId} (hr : opened r.host = scope.subxact :: rest) {h' : σ}
    (ho : opened h' = rest) (x : HostExchange) :
    scope.subxact = id ∨
      ∃ inner, Held opened ({ s with scopes := outer }, r.add h' x) id (later ++ [x]) inner := by
  obtain ⟨out, hs⟩ := hh.stacked
  obtain ⟨under, hu⟩ := hh.opened
  rw [subxacts, hc, List.map_cons] at hs
  cases inner with
  | nil => exact .inl (List.cons.inj hs).1
  | cons y inner =>
    have hu : opened r.host = y :: (inner ++ id :: under) := hu
    refine .inr ⟨inner, ⟨out, (List.cons.inj hs).2⟩, ⟨under, ?_⟩, ?_⟩
    · exact ho.trans (List.cons.inj (hr.symm.trans hu)).2
    · intro z hz
      exact List.mem_append_left _ (hh.began z (List.mem_cons_of_mem _ hz))

/-- A subtransaction that was begun is held or has ended, if no release was refused. -/
def Accounted (opened : σ → List SubxactId) (t : ScopeStack × Recorded σ) (id : SubxactId)
    (later : List HostExchange) : Prop :=
  (∃ inner, Held opened t id later inner) ∨ HostExchange.Ended id later ∨
    HostExchange.Refused id later

theorem Accounted.congr {t u : ScopeStack × Recorded σ} (ha : Accounted opened t id later)
    (hs : u.1.subxacts = t.1.subxacts) (ho : u.2 = t.2) : Accounted opened u id later := by
  refine ha.imp_left ?_
  rintro ⟨inner, hh⟩
  refine ⟨inner, ?_, ?_, hh.began⟩
  · rw [hs]
    exact hh.stacked
  · rw [ho]
    exact hh.opened

/-- The stack and the host are in step, if no release was refused. -/
def Levelled (opened : σ → List SubxactId) (base : List SubxactId) (t : ScopeStack × Recorded σ) :
    Prop :=
  opened t.2.host = t.1.subxacts ++ base ∨ ∃ x report, .released x (.error report) ∈ t.2.log

/-- What is inside the subtransaction from now on was begun after it. -/
theorem Accounted.push {x : SubxactId} {h' : σ} (ha : Accounted opened (s, r) id later)
    (ho : opened h' = x :: opened r.host) :
    Accounted opened ((s.push x).2, r.add h' (.began (.ok x))) id (later ++ [.began (.ok x)]) := by
  rcases ha with ⟨inner, hh⟩ | hend | href
  · obtain ⟨out, hs⟩ := hh.stacked
    obtain ⟨rest, hu⟩ := hh.opened
    refine .inl ⟨x :: inner, ⟨out, congrArg (x :: ·) hs⟩, ⟨rest, ?_⟩, ?_⟩
    · exact ho.trans (congrArg (x :: ·) hu)
    · intro y hy
      cases hy with
      | head => simp
      | tail _ hy => exact List.mem_append_left _ (hh.began y hy)
  · exact .inr (.inl (hend.append _))
  · exact .inr (.inr (href.append _))

theorem accounted_new {x : SubxactId} {h' : σ} (ho : opened h' = x :: opened r.host) :
    Accounted opened ((s.push x).2, r.add h' (.began (.ok x))) x [] :=
  .inl ⟨[], ⟨s.subxacts, rfl⟩, ⟨opened r.host, ho⟩, by simp⟩

variable [Host σ]

theorem rollback_log (s : ScopeStack) (scope : Scope) (r : Recorded σ) :
    (s.rollback scope r).2.2.log =
      r.log ++ [.rolledBack scope.subxact (Host.rollbackSubxact scope.subxact r.host).1] :=
  rollback_keeps (P := fun t : ScopeStack × Recorded σ => t.2.log = _) (fun h => h) rfl

theorem release_log (s : ScopeStack) (scope : Scope) (r : Recorded σ) :
    (s.release scope r).2.2.log =
      r.log ++ [.released scope.subxact (Host.releaseSubxact scope.subxact r.host).1] :=
  release_keeps (P := fun t : ScopeStack × Recorded σ => t.2.log = _) (fun h => h) rfl

theorem rollback_innermost (hn : Nests opened) {rest : List SubxactId}
    (hr : opened r.host = scope.subxact :: rest) (s : ScopeStack) :
    ∃ h', Host.rollbackSubxact scope.subxact r.host = (.ok (), h') ∧ opened h' = rest ∧
      s.rollback scope r = (.ok (), s, r.add h' (.rolledBack scope.subxact (.ok ()))) := by
  obtain ⟨h', hrun, ho⟩ := hn.rollsBack hr
  refine ⟨h', hrun, ho, ?_⟩
  simp only [ScopeStack.rollback, Recorded.rollbackSubxact_eq hrun]

theorem release_innermost (hn : Nests opened) {rest : List SubxactId}
    (hr : opened r.host = scope.subxact :: rest) (s : ScopeStack) :
    (∃ h', Host.releaseSubxact scope.subxact r.host = (.ok (), h') ∧ opened h' = rest ∧
        s.release scope r = (.ok (), s, r.add h' (.released scope.subxact (.ok ())))) ∨
      ∃ report h', Host.releaseSubxact scope.subxact r.host = (.error report, h') := by
  rcases hn.releases hr with ⟨h', hrun, ho⟩ | ⟨report, h', hrun, -⟩
  · refine .inl ⟨h', hrun, ho, ?_⟩
    simp only [ScopeStack.release, Recorded.releaseSubxact_eq hrun]
  · exact .inr ⟨report, h', hrun⟩

theorem enter_nests (hn : Nests opened) (s : ScopeStack) (r : Recorded σ) :
    (s.enter r).2 = (s, r) ∨
      ∃ id h', opened h' = id :: opened r.host ∧
        (s.enter r).2 = ((s.push id).2, r.add h' (.began (.ok id))) := by
  by_cases hl : s.maxDepth ≤ s.depth
  · exact .inl (by rw [enter_of_limit hl])
  · obtain ⟨id, h', hrun, ho⟩ := hn.begins r.host
    exact .inr ⟨id, h', ho, by rw [enter_of_began (by omega) (Recorded.beginSubxact_eq hrun)]⟩

theorem Accounted.rollback (hn : Nests opened) (hc : s.scopes = scope :: outer)
    (ha : Accounted opened (s, r) id later) :
    Accounted opened ({ s with scopes := outer }.rollback scope r).2 id
      (later ++ [.rolledBack scope.subxact (Host.rollbackSubxact scope.subxact r.host).1]) := by
  rcases ha with ⟨inner, hh⟩ | hend | href
  · obtain ⟨-, rest, hr⟩ := hh.innermost hc
    obtain ⟨h', hrun, ho, hroll⟩ := rollback_innermost hn hr { s with scopes := outer }
    rw [hroll, hrun]
    rcases hh.pop hc hr ho (.rolledBack scope.subxact (.ok ())) with htop | hheld
    · exact .inr (.inl (.inr (by simp [htop])))
    · exact .inl hheld
  · exact .inr (.inl (hend.append _))
  · exact .inr (.inr (href.append _))

theorem Accounted.release (hn : Nests opened) (hc : s.scopes = scope :: outer)
    (ha : Accounted opened (s, r) id later) :
    Accounted opened ({ s with scopes := outer }.release scope r).2 id
      (later ++ [.released scope.subxact (Host.releaseSubxact scope.subxact r.host).1]) := by
  rcases ha with ⟨inner, hh⟩ | hend | href
  · obtain ⟨hinner, rest, hr⟩ := hh.innermost hc
    rcases release_innermost hn hr { s with scopes := outer } with
      ⟨h', hrun, ho, hrel⟩ | ⟨report, h', hrun⟩
    · rw [hrel, hrun]
      rcases hh.pop hc hr ho (.released scope.subxact (.ok ())) with htop | hheld
      · exact .inr (.inl (.inl (by simp [htop])))
      · exact .inl hheld
    · rw [hrun]
      refine .inr (.inr ⟨scope.subxact, report, ?_, by simp⟩)
      exact hinner.imp_right (List.mem_append_left _)
  · exact .inr (.inl (hend.append _))
  · exact .inr (.inr (href.append _))

theorem levelled_keeps (hn : Nests opened) (base : List SubxactId) :
    RequestKeeps (Levelled opened base : ScopeStack × Recorded σ → Prop) where
  mark ht := by
    simpa only [Levelled, subxacts_markFailed] using ht
  takeRoot ht := ht
  enter {s r} ht := by
    rcases enter_nests hn s r with hr | ⟨id, h', ho, hr⟩
    · rw [hr]
      exact ht
    · rw [hr]
      refine ht.imp ?_ ?_
      · intro hl
        exact ho.trans (congrArg (id :: ·) hl)
      · rintro ⟨x, report, hx⟩
        exact ⟨x, report, List.mem_append_left _ hx⟩
  rollback {s r scope outer} hc ht := by
    rcases ht with hl | ⟨x, report, hx⟩
    · have hr : opened r.host = scope.subxact :: (outer.map Scope.subxact ++ base) := by
        rw [hl, subxacts, hc]
        rfl
      obtain ⟨h', -, ho, hroll⟩ := rollback_innermost hn hr { s with scopes := outer }
      rw [hroll]
      exact .inl ho
    · refine .inr ⟨x, report, ?_⟩
      rw [rollback_log]
      exact List.mem_append_left _ hx
  release {s r scope outer} hc _ ht := by
    rw [Levelled, release_log]
    rcases ht with hl | ⟨x, report, hx⟩
    · have hr : opened r.host = scope.subxact :: (outer.map Scope.subxact ++ base) := by
        rw [hl, subxacts, hc]
        rfl
      rcases release_innermost hn hr { s with scopes := outer } with
        ⟨h', -, ho, hrel⟩ | ⟨report, h', hrun⟩
      · rw [hrel]
        exact .inl ho
      · exact .inr ⟨scope.subxact, report, by simp [hrun]⟩
    · exact .inr ⟨x, report, List.mem_append_left _ hx⟩

theorem accounted_keeps (hn : Nests opened) :
    RequestKeeps fun t : ScopeStack × Recorded σ => ∀ past id later,
      t.2.log = past ++ .began (.ok id) :: later → Accounted opened t id later where
  mark ht past id later hl := (ht past id later hl).congr (subxacts_markFailed _) rfl
  takeRoot ht past id later hl := (ht past id later hl).congr rfl rfl
  enter {s r} ht := by
    rcases enter_nests hn s r with hr | ⟨x, h', ho, hr⟩
    · rw [hr]
      exact ht
    · rw [hr]
      intro past id later hl
      rcases HostExchange.split_concat hl with ⟨rfl, -, hx⟩ | ⟨later', rfl, hl'⟩
      · cases hx
        exact accounted_new ho
      · exact (ht past id later' hl').push ho
  rollback {s r scope outer} hc ht := by
    intro past id later hl
    rw [rollback_log] at hl
    rcases HostExchange.split_concat hl with ⟨-, -, hx⟩ | ⟨later', rfl, hl'⟩
    · cases hx
    · exact (ht past id later' hl').rollback hn hc
  release {s r scope outer} hc _ ht := by
    intro past id later hl
    rw [release_log] at hl
    rcases HostExchange.split_concat hl with ⟨-, -, hx⟩ | ⟨later', rfl, hl'⟩
    · cases hx
    · exact (ht past id later' hl').release hn hc

end

end ScopeStack

/-- What was begun and is not on the stack has ended, unless the host has refused to release it, or
one inside it. Once the stack is unwound, and unless there was such a refusal, the host has open
what it had open at the start. -/
theorem begun_subxacts_end {σ : Type} [Host σ] {opened : σ → List SubxactId} (hn : Nests opened)
    (maxDepth : Nat) (host : σ) (requests : List ScopeRequest) :
    let t := ScopeStack.performAll ({ maxDepth }, ({ host } : Recorded σ)) requests
    let u := ScopeStack.perform t (.unwindTo 0)
    (∀ past id later, t.2.log = past ++ .began (.ok id) :: later →
      id ∈ t.1.subxacts ∨ HostExchange.Ended id later ∨ HostExchange.Refused id later) ∧
    u.1.scopes = [] ∧
    (∀ past id later, u.2.log = past ++ .began (.ok id) :: later →
      HostExchange.Ended id later ∨ HostExchange.Refused id later) ∧
    (opened u.2.host = opened host ∨ ∃ x report, .released x (.error report) ∈ u.2.log) := by
  intro t u
  have haccounted := (ScopeStack.accounted_keeps hn).performAll
    (t := ({ maxDepth }, ({ host } : Recorded σ))) requests (by simp)
  have hlevelled := (ScopeStack.levelled_keeps hn (opened host)).performAll
    (t := ({ maxDepth }, ({ host } : Recorded σ))) requests (.inl rfl)
  have hempty : u.1.scopes = [] := ScopeStack.unwindTo_zero _ _
  have hnone : u.1.subxacts = [] := by rw [ScopeStack.subxacts, hempty, List.map_nil]
  refine ⟨?_, hempty, ?_, ?_⟩
  · intro past id later hl
    refine (haccounted past id later hl).imp_left ?_
    rintro ⟨inner, ⟨outer, hs⟩, -, -⟩
    rw [show t.1.subxacts = inner ++ id :: outer from hs]
    simp
  · intro past id later hl
    rcases (ScopeStack.accounted_keeps hn).perform (.unwindTo 0) haccounted past id later hl with
      ⟨inner, ⟨outer, hs⟩, -, -⟩ | hend
    · exact absurd (hnone.symm.trans hs) (by simp)
    · exact hend
  · have hu := (ScopeStack.levelled_keeps hn (opened host)).perform (.unwindTo 0) hlevelled
    rw [ScopeStack.Levelled, hnone] at hu
    exact hu

/-- A host that releases what it is asked to, or refuses, as it was told beforehand. -/
structure Reluctant where
  next : Nat := 1
  /-- Innermost first. -/
  openStack : List SubxactId := []
  /-- For each release to come, if it is refused; those beyond the list are not. -/
  refusals : List Bool := []

namespace Reluctant

def refusal : Report :=
  .plain { severity := .error, code := .savepointException, message := "refused" }

instance : Host Reluctant where
  beginSubxact h :=
    (.ok ⟨h.next⟩, { h with next := h.next + 1, openStack := ⟨h.next⟩ :: h.openStack })
  releaseSubxact id h :=
    if h.openStack.head? ≠ some id then (.error refusal, h)
    else if h.refusals.head? = some true then
      (.error refusal, { h with refusals := h.refusals.tail })
    else (.ok (), { h with openStack := h.openStack.tail, refusals := h.refusals.tail })
  rollbackSubxact id h :=
    if h.openStack.head? ≠ some id then (.error refusal, h)
    else (.ok (), { h with openStack := h.openStack.tail })
  deliver _ h := ([], h)
  takeInterrupt h := (false, h)
  lookup _ h := (.error refusal, h)
  procedures _ h := (.ok [], h)

theorem nests : Nests Reluctant.openStack where
  begins _ := ⟨_, _, rfl, rfl⟩
  rollsBack {h id rest} ho := by
    refine ⟨{ h with openStack := h.openStack.tail }, ?_, by simp [ho]⟩
    simp [Host.rollbackSubxact, ho]
  releases {h id rest} ho := by
    by_cases hr : h.refusals.head? = some true
    · refine .inr ⟨refusal, { h with refusals := h.refusals.tail }, ?_, rfl⟩
      simp [Host.releaseSubxact, ho, hr]
    · refine .inl ⟨{ h with openStack := h.openStack.tail, refusals := h.refusals.tail }, ?_,
        by simp [ho]⟩
      simp [Host.releaseSubxact, ho, hr]

end Reluctant

/-- Two scopes are entered, the inner one is committed, and what is left is unwound. -/
def commitInner : List ScopeRequest := [.enter, .enter, .resolve ⟨2, 2⟩ .commit, .unwindTo 0]

theorem begun_subxacts_end_refused :
    Nests Reluctant.openStack ∧
    (∀ past id later, (ScopeStack.performAll ({ maxDepth := 8 },
        ({ host := { refusals := [true] } } : Recorded Reluctant)) commitInner).2.log =
          past ++ .began (.ok id) :: later →
      id ∈ (ScopeStack.performAll ({ maxDepth := 8 },
        ({ host := { refusals := [true] } } : Recorded Reluctant)) commitInner).1.subxacts ∨
      HostExchange.Ended id later ∨ HostExchange.Refused id later) :=
  ⟨Reluctant.nests, (begun_subxacts_end Reluctant.nests 8 { refusals := [true] } commitInner).1⟩

/-- The host refuses once, and neither subtransaction ends: the outer one is not the innermost one
when it is to be rolled back. -/
theorem refused_release_leaks :
    Nests Reluctant.openStack ∧
    let t := ScopeStack.performAll ({ maxDepth := 8 },
      ({ host := { refusals := [true] } } : Recorded Reluctant)) commitInner
    t.1.scopes = [] ∧
    t.2.log = [.began (.ok ⟨1⟩), .began (.ok ⟨2⟩), .released ⟨2⟩ (.error Reluctant.refusal),
      .rolledBack ⟨1⟩ (.error Reluctant.refusal)] ∧
    ¬ HostExchange.Ended ⟨1⟩ t.2.log ∧ ¬ HostExchange.Ended ⟨2⟩ t.2.log ∧
    t.2.host.openStack = [⟨2⟩, ⟨1⟩] :=
  ⟨Reluctant.nests, by decide +kernel⟩

end ProcedureBridge
