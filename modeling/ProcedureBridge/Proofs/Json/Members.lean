import ProcedureBridge.Proofs.Json.Document

/-! # Members of objects

The values that are given to a key, and what an object is because its members are: how deep it is,
and whether it can be written and read exactly. -/

namespace ProcedureBridge

namespace Numeral

@[simp] theorem natural?_ofNat (n : Nat) : (ofNat n).natural? = some n := rfl

theorem isFinite_ofNat {n : Nat} (hn : n < UInt32.size) : (ofNat n).isFinite = true := by
  have hbound : UInt32.size ≤ overflowBound := by decide +kernel
  have hscale : (ofNat n).scale = .ofNat 0 := rfl
  rw [isFinite, hscale]
  split
  · rfl
  · simpa [ofNat] using Nat.lt_of_lt_of_le hn hbound

end Numeral

namespace Json

/-! ## Values of a key -/

@[simp] theorem valuesOf_nil (key : String) : valuesOf key [] = [] := rfl

@[simp] theorem valuesOf_append (key : String) (members more : List (Option String × Json)) :
    valuesOf key (members ++ more) = valuesOf key members ++ valuesOf key more :=
  List.filterMap_append

@[simp] theorem valuesOf_cons (key k : String) (value : Json) (members : List (Option String × Json)) :
    valuesOf key ((some k, value) :: members) =
      if k = key then value :: valuesOf key members else valuesOf key members := by
  by_cases h : k = key <;> simp [valuesOf, h]

theorem mem_of_valuesOf {key : String} {members : List (Option String × Json)} {value : Json}
    (h : value ∈ valuesOf key members) : (some key, value) ∈ members := by
  obtain ⟨⟨k, v⟩, hmem, hv⟩ := List.mem_filterMap.mp h
  by_cases hk : k = some key
  · simp only [if_pos hk, Option.some.injEq] at hv
    rwa [← hk, ← hv]
  · simp [if_neg hk] at hv

/-! ## Values -/

theorem isPlain_number (n : Nat) : (number (.ofNat n)).IsPlain :=
  List.forall_mem_singleton.mpr ⟨rfl, rfl⟩

theorem isPlain_string (text : String) : (string (some text)).IsPlain :=
  List.forall_mem_singleton.mpr rfl

theorem isPlain_null : null.IsPlain := List.forall_mem_singleton.mpr trivial

theorem isPlain_bool (b : Bool) : (bool b).IsPlain := List.forall_mem_singleton.mpr trivial

theorem optional_of_ne_null {α : Type} {j : Json} (h : j ≠ .null) (read : Json → Option α) :
    j.optional read = (read j).map some := by
  cases j with
  | null => exact absurd rfl h
  | _ => rfl

/-! ## Objects -/

theorem isPlain_object {members : List (Option String × Json)}
    (h : ∀ member ∈ members, member.1.isSome = true ∧ member.2.IsPlain) :
    (object members).IsPlain := by
  have hmembers : ∀ t ∈ tokens.memberTokens members, t.IsPlain := by
    induction members with
    | nil => exact nofun
    | cons member rest ih =>
      obtain ⟨key, value⟩ := member
      obtain ⟨⟨hkey, hvalue⟩, hrest⟩ := List.forall_mem_cons.mp h
      have hmember : ∀ t ∈ Token.string key :: .colon :: value.tokens, t.IsPlain :=
        List.forall_mem_cons.mpr ⟨hkey, List.forall_mem_cons.mpr ⟨trivial, hvalue⟩⟩
      cases rest with
      | nil => exact hmember
      | cons next rest =>
        exact List.forall_mem_append.mpr
          ⟨hmember, List.forall_mem_cons.mpr ⟨trivial, ih hrest⟩⟩
  exact List.forall_mem_cons.mpr
    ⟨trivial, List.forall_mem_append.mpr ⟨hmembers, List.forall_mem_singleton.mpr trivial⟩⟩

theorem memberDepths_le_iff {members : List (Option String × Json)} {n : Nat} :
    depth.memberDepths members ≤ n ↔ ∀ member ∈ members, member.2.depth ≤ n := by
  induction members with
  | nil => simp [depth.memberDepths]
  | cons member rest ih =>
    obtain ⟨key, value⟩ := member
    rw [depth.memberDepths, Nat.max_le, ih, List.forall_mem_cons]

theorem membersExact_iff {members : List (Option String × Json)} :
    isExact.membersExact members = true ↔
      ∀ member ∈ members, member.1.isSome = true ∧ member.2.isExact = true := by
  induction members with
  | nil => simp [isExact.membersExact]
  | cons member rest ih =>
    obtain ⟨key, value⟩ := member
    rw [isExact.membersExact, Bool.and_eq_true, Bool.and_eq_true, ih, List.forall_mem_cons]

end Json

end ProcedureBridge
