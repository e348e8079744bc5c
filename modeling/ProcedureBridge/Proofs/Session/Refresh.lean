import ProcedureBridge.Host.Memory
import ProcedureBridge.Proofs.Bridge.Provenance
import ProcedureBridge.Proofs.Session.Reported
import ProcedureBridge.Proofs.Session.Resting

/-! # What a refresh makes sure of

A session does not keep the texts of the units that it has cached, but their checksums. A refresh
drops a cached unit if the checksum of the host's text is another one, and keeps it otherwise, also
if the text has changed. -/

namespace ProcedureBridge

namespace Session

section

variable {e : Engine} {σ : Type} [Host σ]

theorem provided_resting : Resting (σ := σ) (Core.Provided e.compiler) where
  forget hc _ _ _ _ _ _ _ _ := hc.drop rfl (.refl _)
  unwind hc _ := hc.drop rfl (.refl _)
  invalidate {c} hc id := hc.drop rfl (c.cache.invalidate_within id)
  clearCache {c} hc := hc.drop rfl c.cache.invalidateAll_within
  addUnit hc _ := hc.push rfl fun _ _ hid => .inr hid

theorem Reachable.provided {s : Session e σ} {kind : σ → Prop} {others : σ → σ → Prop}
    (hs : s.Reachable kind others) : s.core.Provided e.compiler := by
  refine provided_resting.reachable e.compiler.carries_compiledBy ?_ (fun host options => ?_) hs
  · exact fun hx => Bridge.preserves_ofRoutine_every hx fun m hm hc => hc.step hm
  · intro id ref hid
    simp [Core.new, CodeCache.peek] at hid

theorem Reachable.made {s : Session e σ} {kind : σ → Prop} {others : σ → σ → Prop}
    (hs : s.Reachable kind others) {id : ProcedureId} {unit : ExecutionUnit e.Code}
    (hunit : s.cachedUnit? id = some unit) :
    ∃ name text, e.compiler.Made (.procedure id) name text unit := by
  obtain ⟨ref, hid, href⟩ := Option.bind_eq_some_iff.mp hunit
  obtain ⟨unit', name, text, hunit', hmade⟩ := hs.provided id ref hid
  obtain rfl : unit = unit' := Option.some.inj (href.symm.trans hunit')
  exact ⟨name, text, hmade⟩

end

variable {e : Engine} {s : Session e MemoryHost} {id : ProcedureId}

/-- A cached unit is kept if and only if it has the checksum of the host's text. -/
theorem refresh_of_found {unit : ExecutionUnit e.Code} {source : ProcedureSource}
    (ht : s.isTerminated = false) (hunit : s.cachedUnit? id = some unit)
    (hsource : s.host.find? id = some source) :
    (s.refresh id).1 = .ok (!unit.isCurrent source.text) ∧
      (s.refresh id).2.host.find? id = some source ∧
      (s.refresh id).2.cachedUnit? id =
        if unit.isCurrent source.text then some unit else none := by
  have hlookup : Host.lookup id s.host = (.ok source, s.host.record (.lookedUp id)) := by
    change s.host.lookup id = _
    rw [MemoryHost.lookup, hsource]
  cases hcurrent : unit.isCurrent source.text with
  | true =>
    have hrefresh : s.refresh id = (.ok false, s.withHost (s.host.record (.lookedUp id))) := by
      rw [refresh, ht]
      simp [hunit, hlookup, hcurrent, withHost]
    rw [hrefresh]
    exact ⟨rfl, hsource, hunit⟩
  | false =>
    obtain ⟨ref, hid, -⟩ := Option.bind_eq_some_iff.mp hunit
    have hcontains : s.core.cache.units.contains id = true := by
      rw [Std.HashMap.contains_eq_isSome_getElem?]
      exact Option.isSome_of_eq_some hid
    have hrefresh : s.refresh id =
        (.ok true, ((s.withHost (s.host.record (.lookedUp id))).invalidate id).2) := by
      rw [refresh, ht]
      simp [hunit, hlookup, hcurrent, withHost, invalidate, Core.invalidate,
        CodeCache.invalidate, hcontains]
    rw [hrefresh]
    refine ⟨rfl, hsource, ?_⟩
    change ((s.core.cache.invalidate id).2.peek id).bind _ = none
    rw [CodeCache.peek_invalidate, if_pos rfl]
    rfl

/-- A refresh that succeeds has found nothing to refresh, or the host's text. -/
theorem refresh_cases {b : Bool} (h : (s.refresh id).1 = .ok b) :
    (s.cachedUnit? id = none ∧ b = false ∧ (s.refresh id).2 = s) ∨
      s.isTerminated = false ∧ ∃ unit source, s.cachedUnit? id = some unit ∧
        s.host.find? id = some source := by
  cases ht : s.isTerminated with
  | true =>
    rw [refresh, if_pos ht] at h
    cases h
  | false =>
    cases hunit : s.cachedUnit? id with
    | none =>
      have hrefresh : s.refresh id = (.ok false, s) := by
        rw [refresh, ht]
        simp [hunit]
      rw [hrefresh] at h ⊢
      cases h
      exact .inl ⟨rfl, rfl, rfl⟩
    | some unit =>
      cases hsource : s.host.find? id with
      | none =>
        have hlookup : ∃ report, (Host.lookup id s.host).1 = .error report := by
          change ∃ report, (s.host.lookup id).1 = .error report
          rw [MemoryHost.lookup, hsource]
          exact ⟨_, rfl⟩
        obtain ⟨report, hreport⟩ := hlookup
        rw [refresh_of_refused ht ⟨by rw [hunit]; rfl, hreport⟩] at h
        cases h
      | some source => exact .inr ⟨rfl, unit, source, rfl, rfl⟩

/-- What is cached was made of a text for the procedure, and takes another text for that one if and
only if they have the same checksum. After a refresh that succeeds, what is cached was made of a
text with the checksum of the text that the host has. The refresh says that it dropped something if
and only if something was cached that did not take the host's text for its own, and nothing is
cached then. -/
theorem refresh_compares_checksums (hs : s.Reachable (fun _ => True) fun _ _ => True)
    (id : ProcedureId) :
    (∀ unit, s.cachedUnit? id = some unit → ∃ name text,
      e.compiler.Made (.procedure id) name text unit ∧
        ∀ given, unit.isCurrent given = true ↔ Text.checksum given = Text.checksum text) ∧
    ∀ b, (s.refresh id).1 = .ok b →
      (∀ unit, (s.refresh id).2.cachedUnit? id = some unit → ∃ name text source,
        e.compiler.Made (.procedure id) name text unit ∧
          (s.refresh id).2.host.find? id = some source ∧
          Text.checksum source.text = Text.checksum text) ∧
      (b = true ↔ ∃ unit source, s.cachedUnit? id = some unit ∧ s.host.find? id = some source ∧
        unit.isCurrent source.text = false) ∧
      (b = true → (s.refresh id).2.cachedUnit? id = none) := by
  have hmade : ∀ unit, s.cachedUnit? id = some unit → ∃ name text,
      e.compiler.Made (.procedure id) name text unit ∧
        ∀ given, unit.isCurrent given = true ↔ Text.checksum given = Text.checksum text := by
    intro unit hunit
    obtain ⟨name, text, h⟩ := hs.made hunit
    exact ⟨name, text, h, e.isCurrent_of_made h⟩
  refine ⟨hmade, fun b hb => ?_⟩
  obtain ⟨hnone, rfl, hsame⟩ | ⟨ht, unit, source, hunit, hfind⟩ := refresh_cases hb
  · rw [hsame]
    simp [hnone]
  · obtain ⟨hb', hfind', hcached⟩ := refresh_of_found ht hunit hfind
    obtain rfl : b = !unit.isCurrent source.text := Except.ok.inj (hb.symm.trans hb')
    refine ⟨fun kept hkept => ?_, ⟨fun h => ⟨unit, source, hunit, hfind, by simpa using h⟩, ?_⟩, ?_⟩
    · obtain ⟨hcurrent, rfl⟩ : unit.isCurrent source.text = true ∧ unit = kept := by
        simpa using hcached.symm.trans hkept
      obtain ⟨name, text, h, htells⟩ := hmade unit hunit
      exact ⟨name, text, source, h, hfind', (htells _).mp hcurrent⟩
    · rintro ⟨unit', source', hunit', hfind'', hstale⟩
      obtain rfl : unit = unit' := Option.some.inj (hunit.symm.trans hunit')
      obtain rfl : source = source' := Option.some.inj (hfind.symm.trans hfind'')
      simpa using hstale
    · intro hdropped
      rw [hcached, if_neg (by simpa using hdropped)]

end Session

/-- An engine whose procedures return their texts. -/
def Engine.quoting : Engine where
  State := Unit
  Value := String
  Chunk := String
  Code := String
  parse _ text := .ok text
  instantiate text _ := (text, ())
  topLevel _ _ := .done ⟨.ok "", ()⟩
  member text _ _ := .done ⟨.ok text, ()⟩
  isFunction _ := true
  invoke text _ _ := .done ⟨.ok text, ()⟩
  isNil _ := false
  toDatum text _ := .ok (.string text)
  publish _ _ := .done ⟨.ok "", ()⟩

theorem Engine.eq_text_of_made {id : UnitId} {name text : String}
    {unit : ExecutionUnit Engine.quoting.Code}
    (h : Engine.quoting.compiler.Made id name text unit) : unit.code = text := by
  obtain ⟨_, _, _, hmade, hunit⟩ := h
  cases hmade
  rw [hunit]

namespace Session

/-- Two texts with one checksum, `f9e9146f`. -/
def collidingTexts : String × String :=
  ("function main() return \"plumless\" end", "function main() return \"buckeroo\" end")

theorem collidingTexts_checksum :
    Text.checksum collidingTexts.1 = Text.checksum collidingTexts.2 := by decide +kernel

/-- A session on whose host is one procedure, of the first of the texts. -/
def quoting : Session Engine.quoting MemoryHost :=
  fresh _ () { catalog := [⟨⟨16384⟩, "public", "p", collidingTexts.1⟩] }

/-- The procedure was called, and has the second of the texts since. -/
def replaced : Session Engine.quoting MemoryHost :=
  let called := (quoting.respond (.operate (.call ⟨16384⟩ []))).2
  called.withHost (called.host.replace ⟨16384⟩ collidingTexts.2).2

theorem replaced_reachable : replaced.Reachable (fun _ => True) fun _ _ => True :=
  ⟨quoting, fresh_opened _ _ trivial, .outside (.request _ .refl) trivial⟩

/-- The unit of the first text, when it is loaded. -/
def quotingUnit : ExecutionUnit Engine.quoting.Code where
  id := .procedure ⟨16384⟩
  name := "public.p"
  checksum := Text.checksum collidingTexts.1
  code := collidingTexts.1
  state := .loaded

theorem replaced_cached :
    replaced.isTerminated = false ∧ replaced.cachedUnit? ⟨16384⟩ = some quotingUnit ∧
      replaced.host.find? ⟨16384⟩ = some ⟨⟨16384⟩, "public", "p", collidingTexts.2⟩ := by
  have hobtain : (armCall quoting.core).obtain ⟨16384⟩
      (Routine.compiling Engine.quoting.compiler ⟨16384⟩ ()) = (.ok (⟨0⟩, some ()), _) :=
    Core.obtain_of_made (Core.safepoint_of_clear rfl rfl) (CodeCache.peek_empty _ _) rfl
  have hload : Task.run (Engine.quoting.loadProcedure ⟨16384⟩ ()) (armCall quoting.core) =
      ((.ok ⟨0⟩, ()), _) :=
    Routine.run_loadProcedure_of_made hobtain rfl rfl
  have hcall : (quoting.operate (.call ⟨16384⟩ [])).2.core = _ :=
    operate_call rfl (new_settled _ _) hload rfl ⟨rfl, rfl, rfl, rfl, Monitor.idle_unseen⟩ rfl
  have hcore : replaced.core = { (quoting.operate (.call ⟨16384⟩ [])).2.core with
      host := ((quoting.operate (.call ⟨16384⟩ [])).2.core.host.replace
        ⟨16384⟩ collidingTexts.2).2 } := rfl
  have hcached : replaced.core.cache.peek ⟨16384⟩ = some ⟨0⟩ := by
    rw [hcore, hcall]
    refine CodeCache.peek_insert_self ?_ ?_ (⟨0⟩ : UnitRef)
    · exact CodeCache.peek_empty 1024 _
    · decide
  refine ⟨?_, ?_, ?_⟩
  · rw [isTerminated, hcore, hcall]
    rfl
  · rw [cachedUnit?, Core.cachedUnit?, hcached, hcore, hcall]
    rfl
  · rw [host, hcore, hcall]
    rfl

theorem quotingUnit_isCurrent : quotingUnit.isCurrent collidingTexts.2 = true :=
  decide_eq_true collidingTexts_checksum.symm

theorem refresh_replaced : (replaced.refresh ⟨16384⟩).1 = .ok false ∧
    (replaced.refresh ⟨16384⟩).2.cachedUnit? ⟨16384⟩ = some quotingUnit ∧
    (replaced.refresh ⟨16384⟩).2.host.find? ⟨16384⟩ =
      some ⟨⟨16384⟩, "public", "p", collidingTexts.2⟩ := by
  obtain ⟨ht, hunit, hfind⟩ := replaced_cached
  obtain ⟨hb, hfind', hcached⟩ := refresh_of_found ht hunit hfind
  rw [quotingUnit_isCurrent] at hb hcached
  exact ⟨hb, hcached, hfind'⟩

theorem refresh_compares_checksums_replaced :
    replaced.Reachable (fun _ => True) (fun _ _ => True) ∧
      (replaced.refresh ⟨16384⟩).1 = .ok false ∧ ∃ name text source,
        Engine.quoting.compiler.Made (.procedure ⟨16384⟩) name text quotingUnit ∧
          (replaced.refresh ⟨16384⟩).2.host.find? ⟨16384⟩ = some source ∧
          Text.checksum source.text = Text.checksum text := by
  obtain ⟨hb, hunit, -⟩ := refresh_replaced
  obtain ⟨-, hrefresh⟩ := refresh_compares_checksums replaced_reachable ⟨16384⟩
  exact ⟨replaced_reachable, hb, (hrefresh false hb).1 quotingUnit hunit⟩

/-- A refresh that succeeds may leave a unit cached that was not made of the text that the host
has, and that takes this text for its own. -/
theorem refresh_keeps_replaced :
    replaced.Reachable (fun _ => True) (fun _ _ => True) ∧
      (replaced.refresh ⟨16384⟩).1 = .ok false ∧ ∃ unit source,
        (replaced.refresh ⟨16384⟩).2.cachedUnit? ⟨16384⟩ = some unit ∧
          (replaced.refresh ⟨16384⟩).2.host.find? ⟨16384⟩ = some source ∧
          unit.isCurrent source.text = true ∧
          ¬ ∃ name, Engine.quoting.compiler.Made (.procedure ⟨16384⟩) name source.text unit := by
  obtain ⟨hb, hunit, hfind⟩ := refresh_replaced
  refine ⟨replaced_reachable, hb, _, _, hunit, hfind, quotingUnit_isCurrent, ?_⟩
  rintro ⟨name, hmade⟩
  have htext : collidingTexts.1 = collidingTexts.2 := Engine.eq_text_of_made hmade
  exact absurd htext (by decide)

end Session

end ProcedureBridge
