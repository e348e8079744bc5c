import ProcedureBridge.Proofs.Bridge.Composition

/-! # What handlers handle

A handler begins only for an error that its pattern names. So a cancellation is handled only under a
pattern that names its class or a code of it. -/

namespace ProcedureBridge

variable {S U α : Type}

theorem Task.every_composes (Q : Action S U → Prop) : Task.Composes fun _ t => t.Every Q where
  pure _ := trivial
  bind := Task.every_bind

/-- Whatever the state and the answers are, the routine performs only actions with the property. -/
def Routine.Every (Q : Action S U → Prop) (x : Routine S U α) : Prop :=
  ∀ state, Task.Every Q (x state)

/-- To compile a text is to add a unit at most. -/
theorem Routine.compile_every {compiler : Compiler S U} {Q : Action S U → Prop}
    (hQ : ∀ unit, Q (.addUnit unit)) (id : UnitId) (name text : String) :
    Every Q (compile compiler id name text) :=
  all_compile (Task.every_composes Q) (fun unit => Task.every_perform (hQ unit)) id name text

/-- Whatever is compiled and loaded, the handlers that begin are named. -/
theorem Compiler.carries_named (compiler : Compiler S U) :
    compiler.Carries fun _ t => t.Every Action.Named :=
  .of_perform (Task.every_composes _) fun _ hnamed _ => Task.every_perform hnamed

/-- The handlers that an operation begins are named. -/
theorem Operation.routine_named (e : Engine) (entryPoint : String) (o : Operation) :
    Routine.Every Action.Named (o.routine e entryPoint) :=
  e.compiler.carries_named.routine entryPoint o

namespace CatchPattern

/-- The pattern names the class of cancellations, or a code of that class. -/
def namesCancellation : CatchPattern → Bool
  | any => false
  | ofClass name => name == "57"
  | ofCode code => code.isCancellation

/-- A cancellation is caught only under its own name. -/
theorem namesCancellation_of_caught {p : CatchPattern} {err : ScriptError} {exc : Exception}
    (h : p.caught? err = some exc) (hexc : exc.isCancellation = true) :
    p.namesCancellation = true := by
  simp only [caught?] at h
  split at h
  · cases h
  · split at h
    · rename_i hi
      cases h
      cases p with
      | any => simp [intercepts, hexc] at hi
      | ofClass name =>
        simp only [intercepts] at hi
        split at hi
        · cases hi
        · rw [beq_iff_eq] at hi
          rw [namesCancellation, ← hi]
          exact hexc
      | ofCode code =>
        simp only [intercepts] at hi
        split at hi
        · cases hi
        · rw [decide_eq_true_eq] at hi
          rw [namesCancellation, ← hi]
          exact hexc
    · cases h

end CatchPattern

end ProcedureBridge
