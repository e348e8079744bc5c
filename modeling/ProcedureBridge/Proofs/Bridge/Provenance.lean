import ProcedureBridge.Proofs.Bridge.Loading
import ProcedureBridge.Proofs.Bridge.Handler

/-! # Where cached units come from

A unit is cached for a procedure only after it was compiled for that procedure, of the text that the
host gave. Nothing but how far it has been loaded changes in a unit afterwards. -/

namespace ProcedureBridge

variable {σ S U : Type} {compiler : Compiler S U}

/-- The unit was made of the text; how far it has been loaded since does not matter. -/
def Compiler.Made (compiler : Compiler S U) (id : UnitId) (name text : String)
    (unit : ExecutionUnit U) : Prop :=
  ∃ state made state', compiler id name text state = .ok (made, state') ∧
    unit = { made with state := unit.state }

theorem Compiler.made_of_ok {id : UnitId} {name text : String} {state state' : S}
    {unit : ExecutionUnit U} (h : compiler id name text state = .ok (unit, state')) :
    compiler.Made id name text unit := ⟨state, unit, state', h, rfl⟩

theorem Compiler.Made.setState {id : UnitId} {name text : String} {unit : ExecutionUnit U}
    (h : compiler.Made id name text unit) (state : LoadState) :
    compiler.Made id name text { unit with state } := by
  obtain ⟨before, made, after, hmade, hunit⟩ := h
  refine ⟨before, made, after, hmade, ?_⟩
  rw [hunit]

/-- What the engine compiles bears the checksum of its text. -/
theorem Engine.checksum_of_made {e : Engine} {id : UnitId} {name text : String}
    {unit : ExecutionUnit e.Code} (h : e.compiler.Made id name text unit) :
    unit.checksum = Text.checksum text := by
  obtain ⟨state, made, state', hmade, hunit⟩ := h
  obtain ⟨code, rfl⟩ := Engine.compiler_ok hmade
  rw [hunit]

/-- So it tells texts apart by their checksums. -/
theorem Engine.isCurrent_of_made {e : Engine} {id : UnitId} {name text : String}
    {unit : ExecutionUnit e.Code} (h : e.compiler.Made id name text unit) (given : String) :
    unit.isCurrent given = true ↔ Text.checksum given = Text.checksum text := by
  rw [ExecutionUnit.isCurrent, decide_eq_true_eq, e.checksum_of_made h]

namespace Core

variable {c c' : Core σ U}

/-- Every cached unit was made of some text, for the procedure that it is cached for. -/
def Provided (compiler : Compiler S U) (c : Core σ U) : Prop :=
  ∀ id ref, c.cache.peek id = some ref →
    ∃ unit name text, c.unit? ref = some unit ∧ compiler.Made (.procedure id) name text unit

namespace Provided

theorem drop (h : c.Provided compiler) (hunits : c'.units = c.units)
    (hcache : c'.cache.Within c.cache) : c'.Provided compiler := by
  intro id ref hid
  rw [unit?, hunits]
  exact h id ref (hcache id ref hid)

/-- A new unit may be cached for the procedure that it was made for. -/
theorem push (h : c.Provided compiler) {unit : ExecutionUnit U}
    (hunits : c'.units = c.units.push unit)
    (hcache : ∀ id ref, c'.cache.peek id = some ref →
      (ref = ⟨c.units.size⟩ ∧ ∃ name text, compiler.Made (.procedure id) name text unit) ∨
        c.cache.peek id = some ref) : c'.Provided compiler := by
  intro id ref hid
  obtain ⟨rfl, name, text, hmade⟩ | hold := hcache id ref hid
  · refine ⟨unit, name, text, ?_, hmade⟩
    rw [unit?, hunits, Array.getElem?_push_size]
  · obtain ⟨old, name, text, hunit, hmade⟩ := h id ref hold
    have hlt : ref.index < c.units.size := (Array.getElem?_eq_some_iff.mp hunit).1
    refine ⟨old, name, text, ?_, hmade⟩
    rw [unit?, hunits, Array.getElem?_push_lt hlt, ← Array.getElem?_eq_getElem hlt]
    exact hunit

theorem setLoadState (h : c.Provided compiler) (ref : UnitRef) (state : LoadState) :
    (c.setLoadState ref state).Provided compiler := by
  intro id x hid
  obtain ⟨unit, name, text, hunit, hmade⟩ := h id x hid
  rw [unit?, Core.setLoadState, Array.getElem?_modify]
  rw [unit?] at hunit
  split
  · exact ⟨{ unit with state }, name, text, by rw [hunit]; rfl, hmade.setState state⟩
  · exact ⟨unit, name, text, hunit, hmade⟩

variable [Host σ]

theorem obtain (h : c.Provided compiler) (id : ProcedureId) (state : S) :
    (c.obtain id (Routine.compiling compiler id state)).2.Provided compiler := by
  have hobtained := c.obtain_obtained id (Routine.compiling compiler id state)
  generalize c.obtain id (Routine.compiling compiler id state) = r at hobtained ⊢
  cases hobtained with
  | failed hunits hpeek | found _ hunits hpeek =>
    exact h.drop hunits (CodeCache.within_of_peek hpeek)
  | @made source unit state' c' hmade hunits hpeek =>
    refine h.push hunits fun x ref hx => (hpeek x ref hx).imp_left ?_
    rintro ⟨rfl, rfl⟩
    exact ⟨rfl, source.qualifiedName, source.text, Compiler.made_of_ok hmade⟩

/-- The step lemma. -/
theorem step {m : Moment σ S U} (h : m.core.Provided compiler)
    (hm : m.action.CompiledBy compiler) : m.after.Provided compiler := by
  cases hunits : m.action.handlesUnits with
  | false =>
    obtain ⟨hsame, hcache⟩ := stock_eq.mp (m.after_stock hunits)
    exact h.drop hsame (hcache ▸ .refl _)
  | true =>
    obtain ⟨c, action⟩ := m
    cases action with
    | obtain id compile =>
      obtain ⟨state, rfl⟩ := hm
      exact h.obtain id state
    | addUnit unit => exact h.push rfl fun _ _ hid => .inr hid
    | beginLoad ref =>
      change (c.beginLoad ref).2.Provided compiler
      simp only [Core.beginLoad]
      split
      · exact h
      · split
        · exact h.setLoadState ref .loading
        · exact h
    | endLoad ref completed => exact h.setLoadState ref _
    | invalidate id => exact h.drop rfl (c.cache.invalidate_within id)
    | clearCache => exact h.drop rfl c.cache.invalidateAll_within
    | _ => cases hunits

end Provided

end Core

/-- Whatever is run obtains units that are made with the compiler. -/
theorem Compiler.carries_compiledBy (compiler : Compiler S U) :
    compiler.Carries fun _ t => t.Every (Action.CompiledBy compiler) :=
  .of_perform (Task.every_composes _) fun _ _ hmade => Task.every_perform hmade

end ProcedureBridge
