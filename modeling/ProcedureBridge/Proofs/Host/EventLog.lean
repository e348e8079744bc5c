import Mathlib.Data.List.Induction
import ProcedureBridge.Proofs.Scope.Refinement

/-! # The event log of a host in memory

A host in memory keeps its open subtransactions and its log apart from each other. However it is
called, also on the delivery of messages, and however ids are mixed up, the log is a sequence of
brackets, each of which closes the innermost one, and those left open are the open subtransactions.
Only a call that clears the log makes it forget them. -/

namespace ProcedureBridge

namespace HostEvent

/-- The event begins or ends a subtransaction. -/
def isBracket : HostEvent → Bool
  | began _ | released _ | rolledBack _ => true
  | _ => false

/-- The brackets that are open after one more event, innermost first. There are none if it closes
another one than the innermost. -/
def bracket (ids : List SubxactId) : HostEvent → Option (List SubxactId)
  | began id => some (id :: ids)
  | released id | rolledBack id => if ids.head? = some id then some ids.tail else none
  | _ => some ids

def replay (ids : List SubxactId) (events : List HostEvent) : Option (List SubxactId) :=
  events.foldlM bracket ids

def begun? : HostEvent → Option SubxactId
  | began id => some id
  | _ => none

end HostEvent

/-- The call leaves the log as it is, but for what it adds. -/
def HostCall.keepsLog : HostCall → Bool
  | .clearEvents => false
  | _ => true

namespace MemoryHost

variable {h h' : MemoryHost} {call : HostCall} {id : SubxactId}

/-! ## Calls and the calls that they lead to -/

theorem perform_begin (fuel : Nat) (h : MemoryHost) :
    perform fuel .beginSubxact h =
      (.beganSubxact (Host.beginSubxact h).1, [], (Host.beginSubxact h).2) := by
  cases fuel <;> rfl

theorem perform_release (fuel : Nat) (h : MemoryHost) (id : SubxactId) :
    perform fuel (.releaseSubxact id) h =
      (.ended (h.endInnermost "release" id (.released id)).1, [],
        (h.endInnermost "release" id (.released id)).2) := by
  cases fuel <;> rfl

theorem perform_rollback (fuel : Nat) (h : MemoryHost) (id : SubxactId) :
    perform fuel (.rollbackSubxact id) h =
      (.ended (h.endInnermost "roll back" id (.rolledBack id)).1, [],
        (h.endInnermost "roll back" id (.rolledBack id)).2) := by
  cases fuel <;> rfl

/-- What every allowed call keeps by itself is kept if such calls are also made on deliveries. -/
theorem perform_keeps {P : MemoryHost → Prop} {A : HostCall → Prop}
    (hcall : ∀ call h, A call → (∀ report, call ≠ .deliver report) → P h → P (perform 0 call h).2.2)
    (hreport : ∀ report h, P h → P (h.record (.reported report)))
    (hhooks : ∀ h, P h → ∀ hook ∈ h.hooks, ∀ call ∈ hook.calls, A call) (fuel : Nat)
    (hA : A call) (hP : P h) : P (perform fuel call h).2.2 := by
  induction fuel generalizing call h with
  | zero =>
    cases call with
    | deliver report => exact hreport report h hP
    | _ => exact hcall _ h hA nofun hP
  | succ fuel ih =>
    cases call with
    | deliver report =>
      -- the calls of the hooks, one after the other
      suffices hfold : ∀ (calls : List HostCall) (acc : List Interrupt × MemoryHost),
          (∀ call ∈ calls, A call) → P acc.2 →
          P (calls.foldl (fun acc call =>
            (acc.1 ++ (perform fuel call acc.2).2.1, (perform fuel call acc.2).2.2)) acc).2 by
        have hrecorded := hreport report h hP
        refine hfold _ ([], h.record (.reported report)) ?_ hrecorded
        intro call hcall
        obtain ⟨hook, hhook, hmem⟩ := List.mem_flatMap.mp hcall
        exact hhooks _ hrecorded hook (List.mem_filter.mp hhook).1 call hmem
      intro calls
      induction calls with
      | nil => exact fun _ _ hacc => hacc
      | cons call calls ihcalls =>
        intro acc hcalls hacc
        obtain ⟨hfirst, hrest⟩ := List.forall_mem_cons.mp hcalls
        exact ihcalls _ hrest (ih hfirst hacc)
    | _ => exact hcall _ h hA nofun hP

/-! ## What the log tells -/

/-- The subtransactions that were ever begun, in order. -/
def issued (h : MemoryHost) : List SubxactId := h.events.toList.filterMap HostEvent.begun?

/-- What the log tells of the subtransactions is so. -/
structure Logged (h : MemoryHost) : Prop where
  replay : HostEvent.replay [] h.events.toList = some h.openStack
  balanced : h.Balanced h.openStack.length
  increasing : h.issued.Pairwise fun a b => a.number < b.number
  below : ∀ id ∈ h.issued, id.number < h.nextSubxact

namespace Logged

theorem empty : Logged {} := ⟨rfl, rfl, .nil, nofun⟩

theorem congr (hl : h.Logged) (hevents : h'.events = h.events) (hopen : h'.openStack = h.openStack)
    (hnext : h'.nextSubxact = h.nextSubxact) : h'.Logged := by
  obtain ⟨hreplay, hbalanced, hincreasing, hbelow⟩ := hl
  simp only [Balanced, begins, releases, rollbacks, issued] at hbalanced hincreasing hbelow
  constructor <;>
    simp only [Balanced, begins, releases, rollbacks, issued, hevents, hopen, hnext] <;> assumption

variable {event : HostEvent}

theorem replay_record (hl : h.Logged) (hevents : h'.events = h.events.push event) :
    HostEvent.replay [] h'.events.toList = HostEvent.bracket h.openStack event := by
  rw [HostEvent.replay, hevents, Array.toList_push, List.foldlM_append]
  have hreplay : h.events.toList.foldlM HostEvent.bracket [] = some h.openStack := hl.replay
  rw [hreplay]
  simp

theorem issued_record (hevents : h'.events = h.events.push event) :
    h'.issued = h.issued ++ event.begun?.toList := by
  rw [issued, hevents, Array.toList_push, List.filterMap_append, issued]
  cases event <;> rfl

/-- An event with which no subtransaction begins leaves the ids that were issued as they are. -/
theorem issued_of_not_begun (hevents : h'.events = h.events.push event)
    (hevent : event.begun? = none) : h'.issued = h.issued := by
  rw [issued_record hevents, hevent, Option.toList_none, List.append_nil]

theorem noted (hl : h.Logged) (hevents : h'.events = h.events.push event)
    (hevent : event.isBracket = false) (hopen : h'.openStack = h.openStack)
    (hnext : h'.nextSubxact = h.nextSubxact) : h'.Logged := by
  have hissued : h'.issued = h.issued := by
    refine issued_of_not_begun hevents ?_
    cases event <;> first | rfl | cases hevent
  refine ⟨?_, ?_, hissued ▸ hl.increasing, hissued ▸ hnext ▸ hl.below⟩
  · rw [hl.replay_record hevents, hopen]
    cases event <;> first | rfl | cases hevent
  · have hbalanced := hl.balanced
    simp only [Balanced, begins, releases, rollbacks, Array.countP_toList, hevents,
      Array.countP_push, hopen] at hbalanced ⊢
    cases event <;> first | exact hbalanced | cases hevent

theorem began (hl : h.Logged) (hevents : h'.events = h.events.push (.began ⟨h.nextSubxact⟩))
    (hopen : h'.openStack = ⟨h.nextSubxact⟩ :: h.openStack)
    (hnext : h'.nextSubxact = h.nextSubxact + 1) : h'.Logged where
  replay := by
    rw [hl.replay_record hevents, hopen]
    rfl
  balanced := by
    rw [hopen]
    exact hl.balanced.began hevents
  increasing := by
    rw [issued_record hevents]
    refine List.pairwise_append.mpr ⟨hl.increasing, List.pairwise_singleton _ _, ?_⟩
    intro a ha b hb
    cases List.mem_singleton.mp hb
    exact hl.below a ha
  below := by
    rw [issued_record hevents, hnext]
    intro a ha
    rcases List.mem_append.mp ha with ha | ha
    · exact Nat.lt_succ_of_lt (hl.below a ha)
    · cases List.mem_singleton.mp ha
      exact Nat.lt_succ_self _

theorem ended (hl : h.Logged)
    (hevents : h'.events = h.events.push (.released id) ∨
      h'.events = h.events.push (.rolledBack id))
    (hopen : h.openStack = id :: h'.openStack) (hnext : h'.nextSubxact = h.nextSubxact) :
    h'.Logged := by
  have hissued : h'.issued = h.issued :=
    hevents.elim (issued_of_not_begun · rfl) (issued_of_not_begun · rfl)
  refine ⟨?_, ?_, hissued ▸ hl.increasing, hissued ▸ hnext ▸ hl.below⟩
  · rcases hevents with hevents | hevents <;>
      simp [hl.replay_record hevents, hopen, HostEvent.bracket]
  · have hbalanced := hl.balanced
    rw [hopen] at hbalanced
    exact hbalanced.ended hevents

end Logged

/-- A call ends a subtransaction if it is the innermost one, and else it changes nothing. -/
theorem endInnermost_cases (h : MemoryHost) (action : String) (id : SubxactId) (event : HostEvent) :
    (∃ outer, h.openStack = id :: outer ∧
      h.endInnermost action id event = (.ok (), { h with openStack := outer }.record event)) ∨
    (h.openStack.head? ≠ some id ∧
      h.endInnermost action id event = (.error (notInnermost action id), h)) := by
  rw [endInnermost]
  split
  · rename_i top outer hopen
    split
    · rename_i htop
      exact .inl ⟨outer, htop ▸ hopen, rfl⟩
    · rename_i htop
      exact .inr ⟨by simpa [hopen] using htop, rfl⟩
  · rename_i hopen
    exact .inr ⟨by simp [hopen], rfl⟩

theorem Logged.endInnermost (hl : h.Logged) (action : String) {event : HostEvent}
    (hevent : event = .released id ∨ event = .rolledBack id) :
    (h.endInnermost action id event).2.Logged := by
  obtain ⟨outer, hopen, hend⟩ | ⟨-, hend⟩ := h.endInnermost_cases action id event
  · rw [hend]
    refine Logged.ended hl ?_ hopen rfl
    rcases hevent with rfl | rfl
    · exact .inl rfl
    · exact .inr rfl
  · rwa [hend]

/-- Every call but one that clears the log keeps it true. -/
theorem Logged.after_call (hl : h.Logged) (hkeeps : call.keepsLog = true)
    (hcall : ∀ report, call ≠ .deliver report) : (perform 0 call h).2.2.Logged := by
  cases call with
  | beginSubxact =>
    change (Host.beginSubxact h).2.Logged
    obtain ⟨report, hbegin⟩ | hbegin := ScopeStack.beginSubxact_cases h
    · rw [hbegin]
      exact hl.congr rfl rfl rfl
    · rw [hbegin]
      exact hl.began rfl rfl rfl
  | releaseSubxact id => exact hl.endInnermost _ (.inl rfl)
  | rollbackSubxact id => exact hl.endInnermost _ (.inr rfl)
  | lookup id => exact hl.noted rfl rfl rfl rfl
  | clearEvents => cases hkeeps
  | deliver report => exact absurd rfl (hcall report)
  | _ => exact hl.congr rfl rfl rfl

/-- No call made on a delivery clears the log. -/
def HooksKeep (h : MemoryHost) : Prop :=
  ∀ hook ∈ h.hooks, ∀ call ∈ hook.calls, call.keepsLog = true

theorem hooks_after_call (hcall : ∀ report, call ≠ .deliver report) (h : MemoryHost) :
    (perform 0 call h).2.2.hooks = h.hooks := by
  cases call with
  | beginSubxact =>
    change (Host.beginSubxact h).2.hooks = h.hooks
    obtain ⟨report, hbegin⟩ | hbegin := ScopeStack.beginSubxact_cases h
    · rw [hbegin]
    · rw [hbegin]
      rfl
  | releaseSubxact id | rollbackSubxact id =>
    change (h.endInnermost _ _ _).2.hooks = h.hooks
    obtain ⟨outer, -, hend⟩ | ⟨-, hend⟩ := h.endInnermost_cases _ id _
    · rw [hend]
      rfl
    · rw [hend]
  | deliver report => exact absurd rfl (hcall report)
  | _ => rfl

theorem Logged.perform (fuel : Nat) (hl : h.Logged) (hhooks : h.HooksKeep)
    (hkeeps : call.keepsLog = true) : (perform fuel call h).2.2.Logged := by
  refine (perform_keeps (P := fun h => h.Logged ∧ h.HooksKeep)
    (A := fun call => call.keepsLog = true) ?_ ?_ (fun h hP => hP.2) fuel hkeeps ⟨hl, hhooks⟩).1
  · intro call h hkeeps hcall hP
    refine ⟨hP.1.after_call hkeeps hcall, ?_⟩
    rw [HooksKeep, hooks_after_call hcall]
    exact hP.2
  · exact fun report h hP => ⟨hP.1.noted rfl rfl rfl rfl, hP.2⟩

/-! ## Refusals -/

/-- The host has refused to begin or to end a subtransaction. -/
def Answer.isRefusal : Answer → Bool
  | .beganSubxact (.error _) | .ended (.error _) => true
  | _ => false

/-- The events, the open subtransactions and the catalog are the same. -/
def Unmoved (h h' : MemoryHost) : Prop :=
  h'.events = h.events ∧ h'.openSubxacts = h.openSubxacts ∧ h'.catalog = h.catalog

/-- A refusal leaves no trace but that the host refuses to begin a subtransaction only once. -/
theorem unmoved_of_refusal {fuel : Nat} (hrefused : (perform fuel call h).1.isRefusal = true) :
    h.Unmoved (perform fuel call h).2.2 := by
  have hend (action : String) (id : SubxactId) (event : HostEvent)
      (hrefused : (Answer.ended (h.endInnermost action id event).1).isRefusal = true) :
      h.Unmoved (h.endInnermost action id event).2 := by
    obtain ⟨outer, -, hgranted⟩ | ⟨-, hsame⟩ := h.endInnermost_cases action id event
    · rw [hgranted] at hrefused
      cases hrefused
    · rw [hsame]
      exact ⟨rfl, rfl, rfl⟩
  cases call with
  | beginSubxact =>
    rw [perform_begin] at hrefused ⊢
    obtain ⟨report, hbegin⟩ | hbegin := ScopeStack.beginSubxact_cases h
    · rw [hbegin]
      exact ⟨rfl, rfl, rfl⟩
    · rw [hbegin] at hrefused
      cases hrefused
  | releaseSubxact id =>
    rw [perform_release] at hrefused ⊢
    exact hend _ id _ hrefused
  | rollbackSubxact id =>
    rw [perform_rollback] at hrefused ⊢
    exact hend _ id _ hrefused
  | _ => cases fuel <;> cases hrefused

/-- A subtransaction is refused if the host was told to refuse the next one. -/
theorem isRefusal_begin (fuel : Nat) (h : MemoryHost) :
    (perform fuel .beginSubxact h).1.isRefusal = h.refusal.isSome := by
  rw [perform_begin]
  cases hr : h.refusal <;> simp [Host.beginSubxact, beginSubxact, hr, Answer.isRefusal]

theorem isRefusal_end (h : MemoryHost) (action : String) (id : SubxactId) (event : HostEvent) :
    (Answer.ended (h.endInnermost action id event).1).isRefusal =
      decide (h.openSubxacts.getLast? ≠ some id) := by
  rw [openSubxacts, List.getLast?_reverse]
  obtain ⟨outer, hopen, hend⟩ | ⟨hopen, hend⟩ := h.endInnermost_cases action id event
  · simp [hend, hopen, Answer.isRefusal]
  · simp [hend, hopen, Answer.isRefusal]

theorem issued_begin {fuel : Nat}
    (hbegan : (perform fuel .beginSubxact h).1 = .beganSubxact (.ok id)) :
    (perform fuel .beginSubxact h).2.2.issued = h.issued ++ [id] := by
  rw [perform_begin] at hbegan ⊢
  obtain ⟨report, hbegin⟩ | hbegin := ScopeStack.beginSubxact_cases h
  · rw [hbegin] at hbegan
    cases hbegan
  · rw [hbegin] at hbegan ⊢
    cases hbegan
    simp [issued, record, HostEvent.begun?]

/-! ## Runs -/

/-- A new host after some calls, each of them with the hooks that were set when it came. -/
def after (fuel : Nat) (calls : List (List MessageHook × HostCall)) : MemoryHost :=
  calls.foldl (fun h call => (perform fuel call.2 { h with hooks := call.1 }).2.2) {}

theorem logged_after (fuel : Nat) {calls : List (List MessageHook × HostCall)}
    (hcalls : ∀ call ∈ calls, call.2.keepsLog = true ∧
      ∀ hook ∈ call.1, ∀ made ∈ hook.calls, made.keepsLog = true) :
    (after fuel calls).Logged := by
  induction calls using List.reverseRecOn with
  | nil => exact .empty
  | append_singleton calls call ih =>
    obtain ⟨hbefore, hlast⟩ := List.forall_mem_append.mp hcalls
    obtain ⟨hkeeps, hhooks⟩ := hlast call List.mem_cons_self
    have hl : { after fuel calls with hooks := call.1 }.Logged := (ih hbefore).congr rfl rfl rfl
    rw [after, List.foldl_append]
    exact hl.perform fuel hhooks hkeeps

/-- Whatever calls are made on a new host, on the delivery of messages also, and whichever ids they
name: as long as no call clears the log, reading its brackets from the beginning never closes one
that is not the innermost, and ends with the open subtransactions. Of those that were begun the ones
that are open have not been ended, and ids grow from one to the next. A call that is refused is one
to begin when the host was told to refuse this, or one to end what is not the innermost, and it is
not in the log. -/
theorem log_tells_open_subxacts (fuel : Nat) :
    (∀ calls : List (List MessageHook × HostCall),
      (∀ call ∈ calls, call.2.keepsLog = true ∧
        ∀ hook ∈ call.1, ∀ made ∈ hook.calls, made.keepsLog = true) →
      let h := after fuel calls
      HostEvent.replay [] h.events.toList = some h.openSubxacts.reverse ∧
        h.begins = h.releases + h.rollbacks + h.openSubxacts.length ∧
        h.issued.Pairwise fun a b => a.number < b.number) ∧
      ∀ h : MemoryHost,
        (∀ call, (perform fuel call h).1.isRefusal = true → h.Unmoved (perform fuel call h).2.2) ∧
          (perform fuel .beginSubxact h).1.isRefusal = h.refusal.isSome ∧
          (∀ id, (perform fuel .beginSubxact h).1 = .beganSubxact (.ok id) →
            (perform fuel .beginSubxact h).2.2.issued = h.issued ++ [id]) ∧
          ∀ id, (perform fuel (.releaseSubxact id) h).1.isRefusal =
              decide (h.openSubxacts.getLast? ≠ some id) ∧
            (perform fuel (.rollbackSubxact id) h).1.isRefusal =
              decide (h.openSubxacts.getLast? ≠ some id) := by
  refine ⟨fun calls hcalls => ?_, fun h => ⟨fun call => unmoved_of_refusal, isRefusal_begin fuel h,
    fun id => issued_begin, fun id => ⟨?_, ?_⟩⟩⟩
  · have hl := logged_after fuel hcalls
    refine ⟨?_, ?_, hl.increasing⟩
    · rw [hl.replay, openSubxacts, List.reverse_reverse]
    · rw [openSubxacts, List.length_reverse]
      exact hl.balanced
  · rw [perform_release]
    exact h.isRefusal_end _ id _
  · rw [perform_rollback]
    exact h.isRefusal_end _ id _

def tooMany : Report :=
  .plain { severity := .error, code := .internalError, message := "too many" }

/-- Ids are mixed up, and a subtransaction is begun whenever the message is delivered. -/
def disorderly : List (List MessageHook × HostCall) :=
  [.refuseNextBegin tooMany, .beginSubxact, .beginSubxact, .beginSubxact, .releaseSubxact ⟨1⟩,
    .rollbackSubxact ⟨9⟩, .define "app" "a" "", .rollbackSubxact ⟨2⟩, .releaseSubxact ⟨2⟩,
    .deliver tooMany].map
      fun call => ([⟨"too many", [.beginSubxact, .lookup ⟨16384⟩]⟩], call)

theorem log_tells_open_subxacts_disorderly :
    HostEvent.replay [] (after 8 disorderly).events.toList = some [⟨3⟩, ⟨1⟩] ∧
      (after 8 disorderly).begins =
        (after 8 disorderly).releases + (after 8 disorderly).rollbacks + 2 ∧
      (after 8 disorderly).issued = [⟨1⟩, ⟨2⟩, ⟨3⟩] := by
  have hcalls : ∀ call ∈ disorderly, call.2.keepsLog = true ∧
      ∀ hook ∈ call.1, ∀ made ∈ hook.calls, made.keepsLog = true := by
    simp [disorderly, HostCall.keepsLog]
  obtain ⟨hreplay, hcount, -⟩ := (log_tells_open_subxacts 8).1 disorderly hcalls
  exact ⟨hreplay, hcount, rfl⟩

end MemoryHost

end ProcedureBridge
