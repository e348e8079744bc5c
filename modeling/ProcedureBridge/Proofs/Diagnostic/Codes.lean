import Mathlib.Data.String.Basic
import ProcedureBridge.Diagnostic.Failure

/-! # How codes are read

A text is read as the code that its letters and digits spell in upper case. So the case of letters
does not matter, and what a code is written as is read as that code. -/

namespace ProcedureBridge

/-! ## Letters and digits -/

section Characters

variable {c : Char}

theorem isUpper_iff : c.isUpper = true ↔ 65 ≤ c.toNat ∧ c.toNat ≤ 90 := decide_eq_true_iff

theorem isLower_iff : c.isLower = true ↔ 97 ≤ c.toNat ∧ c.toNat ≤ 122 := by
  change (decide _ && decide _) = true ↔ _
  rw [Bool.and_eq_true, decide_eq_true_iff, decide_eq_true_iff]
  rfl

theorem isAlphanum_eq : c.isAlphanum = (c.isLower || isCodeChar c) := by
  change ((c.isUpper || c.isLower) || c.isDigit) = _
  rw [isCodeChar, Bool.or_comm c.isUpper, Bool.or_assoc, Bool.or_comm c.isUpper]

theorem isCodeChar_iff :
    isCodeChar c = true ↔ (48 ≤ c.toNat ∧ c.toNat ≤ 57) ∨ (65 ≤ c.toNat ∧ c.toNat ≤ 90) := by
  rw [isCodeChar, Bool.or_eq_true, Char.isDigit_iff_toNat, isUpper_iff]
  rfl

/-- Upper case changes lower-case letters alone, and makes upper-case letters of them. -/
theorem toUpper_cases (c : Char) :
    (c.isLower = false ∧ c.toUpper = c) ∨ (c.isLower = true ∧ c.toUpper.isUpper = true) := by
  by_cases h : 'a'.val ≤ c.val ∧ c.val ≤ 'z'.val
  · have hlower : c.isLower = true := isLower_iff.mpr h
    obtain ⟨hfirst, hlast⟩ := isLower_iff.mp hlower
    -- The number of `A` is below that of `a`, so the sum wraps around.
    have hnumber : c.toUpper.toNat = (c.toNat + (2 ^ 32 - 32)) % 2 ^ 32 :=
      (congrArg Char.toNat (dif_pos h)).trans (UInt32.toNat_add ..)
    refine .inr ⟨hlower, isUpper_iff.mpr ?_⟩
    omega
  · refine .inl ⟨?_, dif_neg h⟩
    rw [← Bool.not_eq_true, isLower_iff]
    exact h

theorem toUpper_of_isCodeChar (h : isCodeChar c = true) : c.toUpper = c := by
  obtain ⟨-, hsame⟩ | ⟨hlower, -⟩ := toUpper_cases c
  · exact hsame
  · rw [isCodeChar_iff] at h
    rw [isLower_iff] at hlower
    omega

/-- In upper case, letters and digits are the characters that codes are made of. -/
theorem isCodeChar_toUpper (c : Char) : isCodeChar c.toUpper = c.isAlphanum := by
  obtain ⟨hlower, hsame⟩ | ⟨hlower, hupper⟩ := toUpper_cases c
  · rw [hsame, isAlphanum_eq, hlower, Bool.false_or]
  · rw [isCodeChar, hupper, isAlphanum_eq, hlower, Bool.or_true, Bool.true_or]

theorem utf8Size_of_isAlphanum (h : c.isAlphanum = true) : c.utf8Size = 1 := by
  rw [isAlphanum_eq, Bool.or_eq_true, isLower_iff, isCodeChar_iff] at h
  rw [Char.utf8Size_eq_one_iff, UInt32.le_iff_toNat_le, Char.toNat_val]
  change c.toNat ≤ 127
  omega

end Characters

/-! ## Texts -/

/-- What has no letters in upper case is in upper case as it stands. -/
theorem eq_of_map_toUpper {chars upper : List Char} (h : chars.map Char.toUpper = upper)
    (hupper : upper.all (fun c => !c.isAlpha) = true) : chars = upper := by
  have hfixed (c : Char) (hc : c ∈ chars) : c.toUpper = c := by
    obtain ⟨-, hsame⟩ | ⟨-, hletter⟩ := toUpper_cases c
    · exact hsame
    · have halpha : c.toUpper.isAlpha = true := Bool.or_eq_true_iff.mpr (.inl hletter)
      have hnone := List.all_eq_true.mp hupper c.toUpper (h ▸ List.mem_map_of_mem hc)
      rw [halpha] at hnone
      exact Bool.noConfusion hnone
  rw [← h, List.map_congr_left hfixed, List.map_id']

theorem all_isAlphanum_eq (text : String) :
    text.toList.all Char.isAlphanum = text.toUpper.toList.all isCodeChar := by
  rw [String.toUpper, String.toList_map, List.all_map]
  exact congrArg _ (funext fun c => (isCodeChar_toUpper c).symm)

theorem length_toUpper (text : String) : text.toUpper.toList.length = text.toList.length := by
  rw [String.toUpper, String.toList_map, List.length_map]

theorem toUpper_append (text rest : String) :
    (text ++ rest).toUpper = text.toUpper ++ rest.toUpper := by
  rw [← String.toList_inj]
  simp [String.toUpper]

theorem toUpper_toUpper (text : String) : text.toUpper.toUpper = text.toUpper := by
  have hchar (c : Char) : c.toUpper.toUpper = c.toUpper := by
    obtain ⟨-, hsame⟩ | ⟨-, hupper⟩ := toUpper_cases c
    · rw [hsame, hsame]
    · exact toUpper_of_isCodeChar (by rw [isCodeChar, hupper, Bool.or_true])
  rw [← String.toList_inj, String.toUpper, String.toUpper, String.toList_map, String.toList_map,
    List.map_map]
  exact List.map_congr_left fun c _ => hchar c

/-- A text of letters and digits has as many bytes as it has characters. -/
theorem utf8ByteSize_of_alphanum {text : String} (h : text.toList.all Char.isAlphanum = true) :
    text.utf8ByteSize = text.toList.length := by
  rw [← String.ofList_toList (s := text), String.utf8ByteSize_ofList, String.toList_ofList]
  generalize text.toList = chars at h
  induction chars with
  | nil => rfl
  | cons c rest ih =>
    rw [List.all_cons, Bool.and_eq_true] at h
    rw [String.utf8Len_cons, ih h.2, utf8Size_of_isAlphanum h.1, List.length_cons]

/-! ## Codes -/

namespace ErrorCode

@[simp] theorem toList_toString (code : ErrorCode) : code.toString.toList = code.chars :=
  String.toList_ofList

@[simp] theorem toList_category (code : ErrorCode) : code.category.toList = code.chars.take 2 :=
  String.toList_ofList

/-- The class of a code is what the first two of its characters spell. -/
theorem category_eq_iff {code : ErrorCode} {name : String} (h : name.toList.length = 2) :
    code.category = name ↔ ∃ rest, code.toString = name ++ rest := by
  rw [← String.toList_inj, toList_category]
  constructor
  · intro htake
    refine ⟨String.ofList (code.chars.drop 2), ?_⟩
    rw [← String.toList_inj, toList_toString, String.toList_append, String.toList_ofList, ← htake,
      List.take_append_drop]
  · rintro ⟨rest, hrest⟩
    rw [← toList_toString, hrest, String.toList_append, ← h, List.take_left]

theorem toString_injective {code code' : ErrorCode} (h : code.toString = code'.toString) :
    code = code' := by
  have hchars : code.chars = code'.chars := by rw [← toList_toString, h, toList_toString]
  cases code
  cases code'
  cases hchars
  rfl

/-- A code is written in upper case. -/
theorem toUpper_toString (code : ErrorCode) : code.toString.toUpper = code.toString := by
  have hchars : code.chars.map Char.toUpper = code.chars :=
    (List.map_congr_left fun c hc =>
      toUpper_of_isCodeChar (List.all_eq_true.mp code.valid c hc)).trans (List.map_id' _)
  rw [← String.toList_inj, String.toUpper, String.toList_map, toList_toString, hchars]

/-- A text is read as the code that it spells in upper case. -/
theorem ofString?_eq_some_iff {text : String} {code : ErrorCode} :
    ofString? text = some code ↔ code.toString = text.toUpper := by
  rw [← String.toList_inj, toList_toString, String.toUpper, String.toList_map, ofString?]
  constructor
  · intro h
    split at h
    · cases h
      rfl
    · cases h
  · intro h
    have hvalid := And.intro code.length_eq code.valid
    rw [h] at hvalid
    rw [dif_pos hvalid]
    refine congrArg some (toString_injective ?_)
    rw [← String.toList_inj, toList_toString, toList_toString, h]

theorem parse_eq_ok_iff {text : String} {code : ErrorCode} :
    parse text = .ok code ↔ code.toString = text.toUpper := by
  rw [← ofString?_eq_some_iff, parse]
  cases ofString? text with
  | none => simp
  | some found => simp

/-- A text can be read when it is five letters or digits. -/
theorem exists_toString_eq_toUpper {text : String} :
    (∃ code : ErrorCode, code.toString = text.toUpper) ↔
      text.toList.length = 5 ∧ text.toList.all Char.isAlphanum = true := by
  rw [all_isAlphanum_eq, ← length_toUpper]
  constructor
  · rintro ⟨code, hcode⟩
    rw [← hcode, toList_toString]
    exact ⟨code.length_eq, code.valid⟩
  · rintro ⟨hlength, hvalid⟩
    exact ⟨⟨text.toUpper.toList, hlength, hvalid⟩, String.ofList_toList⟩

end ErrorCode

end ProcedureBridge
