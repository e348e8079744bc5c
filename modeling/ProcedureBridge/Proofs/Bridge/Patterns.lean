import ProcedureBridge.Bridge.CatchPattern
import ProcedureBridge.Interrupt.Monitor
import ProcedureBridge.Proofs.Diagnostic.Codes

/-! # What catch patterns select

A pattern is read as what its letters and digits spell in upper case, and so are codes. Of the
errors below `fatal`, a class takes those that some code of the class takes, and a code those that
have it. Nothing but class 57 and its codes takes a cancellation. -/

namespace ProcedureBridge.CatchPattern

/-- What a pattern is read as. -/
inductive Reads (pattern : String) : CatchPattern → Prop
  | any (star : pattern = "*") : Reads pattern .any
  | ofClass (valid : pattern.toList.all Char.isAlphanum = true) (size : pattern.utf8ByteSize = 2) :
      Reads pattern (.ofClass pattern.toUpper)
  | ofCode {code : ErrorCode} (size : pattern.utf8ByteSize = 5)
      (spelled : code.toString = pattern.toUpper) : Reads pattern (.ofCode code)

theorem isAlphanumeric_eq (c : Char) : isAlphanumeric c = c.isAlphanum := by
  rw [isAlphanumeric, isAlphanum_eq, isCodeChar, Bool.or_comm]

theorem parse_eq_ok_iff {pattern : String} {p : CatchPattern} :
    parse pattern = .ok p ↔ Reads pattern p := by
  rw [parse, funext isAlphanumeric_eq]
  constructor
  · intro h
    split at h
    next hany => cases h; exact .any hany
    split at h
    next hclass =>
      cases h
      rw [Bool.and_eq_true, decide_eq_true_iff] at hclass
      exact .ofClass hclass.2 hclass.1
    split at h
    next hsize =>
      cases hcode : ErrorCode.parse pattern with
      | error err => rw [hcode] at h; cases h
      | ok code =>
        rw [hcode] at h
        cases h
        exact .ofCode hsize (ErrorCode.parse_eq_ok_iff.mp hcode)
    next => cases h
  · intro h
    cases h with
    | any star => rw [if_pos star]
    | ofClass valid size =>
      have hstar : pattern ≠ "*" := fun hstar => absurd (hstar ▸ size) (by decide)
      rw [if_neg hstar, if_pos (by rw [size, valid]; rfl)]
    | @ofCode code size spelled =>
      have hstar : pattern ≠ "*" := fun hstar => absurd (hstar ▸ size) (by decide)
      rw [if_neg hstar, if_neg (by rw [size]; simp), if_pos size,
        ErrorCode.parse_eq_ok_iff.mpr spelled]
      rfl

/-- A pattern is `"*"`, or two or five letters or digits. -/
theorem exists_reads_iff {pattern : String} :
    (∃ p, Reads pattern p) ↔ pattern = "*" ∨ pattern.toList.all Char.isAlphanum = true ∧
      (pattern.utf8ByteSize = 2 ∨ pattern.utf8ByteSize = 5) := by
  constructor
  · rintro ⟨p, star | ⟨valid, size⟩ | ⟨size, spelled⟩⟩
    · exact .inl star
    · exact .inr ⟨valid, .inl size⟩
    · exact .inr ⟨(ErrorCode.exists_toString_eq_toUpper.mp ⟨_, spelled⟩).2, .inr size⟩
  · rintro (star | ⟨valid, size | size⟩)
    · exact ⟨_, .any star⟩
    · exact ⟨_, .ofClass valid size⟩
    · have hlength : pattern.toList.length = 5 := by rw [← utf8ByteSize_of_alphanum valid, size]
      obtain ⟨code, spelled⟩ := ErrorCode.exists_toString_eq_toUpper.mpr ⟨hlength, valid⟩
      exact ⟨_, .ofCode size spelled⟩

/-- The case of letters does not matter. -/
theorem Reads.of_toUpper_eq {pattern pattern' : String} {p : CatchPattern} (h : Reads pattern p)
    (hcase : pattern.toUpper = pattern'.toUpper) : Reads pattern' p := by
  have hvalid : pattern'.toList.all Char.isAlphanum = pattern.toList.all Char.isAlphanum := by
    rw [all_isAlphanum_eq, all_isAlphanum_eq, hcase]
  have hsize (valid : pattern.toList.all Char.isAlphanum = true) :
      pattern'.utf8ByteSize = pattern.utf8ByteSize := by
    rw [utf8ByteSize_of_alphanum valid, utf8ByteSize_of_alphanum (hvalid.trans valid),
      ← length_toUpper pattern, ← length_toUpper pattern', hcase]
  cases h with
  | any star =>
    rw [star, ← String.toList_inj, String.toUpper, String.toUpper, String.toList_map,
      String.toList_map] at hcase
    exact .any (String.toList_inj.mp (eq_of_map_toUpper hcase.symm (by decide)))
  | ofClass valid size => exact hcase ▸ .ofClass (hvalid.trans valid) ((hsize valid).trans size)
  | ofCode size spelled =>
    have valid := (ErrorCode.exists_toString_eq_toUpper.mp ⟨_, spelled⟩).2
    exact .ofCode ((hsize valid).trans size) (spelled.trans hcase)

/-- What a pattern takes is not fatal. -/
theorem not_isFatal_of_intercepts {p : CatchPattern} {e : Exception} (h : p.intercepts e = true) :
    e.isFatal = false := by
  unfold intercepts at h
  split at h
  · cases h
  · next hfatal => exact Bool.eq_false_of_not_eq_true hfatal

section Below

variable {e : Exception}

theorem isFatal_of_lt (h : e.severity < .fatal) : e.isFatal = false := by
  rw [Severity.lt_def] at h
  rw [Exception.isFatal, Severity.isFatal, decide_eq_false_iff_not, Severity.le_def]
  omega

theorem intercepts_any (h : e.isFatal = false) :
    any.intercepts e = true ↔ e.code.category ≠ "57" := by
  simp [intercepts, h, Exception.isCancellation, ErrorCode.isCancellation]

theorem intercepts_ofClass (h : e.isFatal = false) {name : String} :
    (ofClass name).intercepts e = true ↔ e.code.category = name := by
  simp [intercepts, h]

theorem intercepts_ofCode (h : e.isFatal = false) {code : ErrorCode} :
    (ofCode code).intercepts e = true ↔ e.code = code := by
  simp [intercepts, h]

/-- A code takes the errors that have it. -/
theorem Reads.intercepts_iff_code {pattern : String} {p : CatchPattern} (hp : Reads pattern p)
    (h : e.isFatal = false) (hsize : pattern.utf8ByteSize = 5) :
    p.intercepts e = true ↔ e.code.toString = pattern.toUpper := by
  cases hp with
  | any star => exact absurd (star ▸ hsize) (by decide)
  | ofClass valid size => rw [size] at hsize; cases hsize
  | ofCode size spelled =>
    rw [intercepts_ofCode h, ← spelled]
    exact ⟨congrArg _, ErrorCode.toString_injective⟩

/-- A class takes the errors that a code of the class takes. -/
theorem Reads.intercepts_iff_class {pattern : String} {p : CatchPattern} (hp : Reads pattern p)
    (h : e.isFatal = false) (hsize : pattern.utf8ByteSize = 2) :
    p.intercepts e = true ↔ ∃ rest p', (pattern ++ rest).utf8ByteSize = 5 ∧
      Reads (pattern ++ rest) p' ∧ p'.intercepts e = true := by
  cases hp with
  | any star => exact absurd (star ▸ hsize) (by decide)
  | ofCode size => rw [size] at hsize; cases hsize
  | ofClass valid size =>
    have hlength : pattern.toUpper.toList.length = 2 := by
      rw [length_toUpper, ← utf8ByteSize_of_alphanum valid, size]
    rw [intercepts_ofClass h, ErrorCode.category_eq_iff hlength]
    constructor
    · rintro ⟨rest, hrest⟩
      have hspelled : e.code.toString = (pattern ++ rest).toUpper := by
        rw [← ErrorCode.toUpper_toString, hrest, toUpper_append, toUpper_append, toUpper_toUpper]
      obtain ⟨hfive, halphanum⟩ := ErrorCode.exists_toString_eq_toUpper.mp ⟨_, hspelled⟩
      have hbytes := (utf8ByteSize_of_alphanum halphanum).trans hfive
      exact ⟨rest, _, hbytes, .ofCode hbytes hspelled, (intercepts_ofCode h).mpr rfl⟩
    · rintro ⟨rest, p', hbytes, hreads, htakes⟩
      rw [hreads.intercepts_iff_code h hbytes, toUpper_append] at htakes
      exact ⟨rest.toUpper, htakes⟩

/-- Only a pattern that starts with 57 takes a cancellation. -/
theorem Reads.take_two_of_cancellation {pattern : String} {p : CatchPattern}
    (hp : Reads pattern p) (h : p.intercepts e = true) (hcategory : e.code.category = "57") :
    pattern.toList.take 2 = ['5', '7'] := by
  have hfatal := not_isFatal_of_intercepts h
  -- Digits are alike in both cases, so the pattern has them where what it spells has them.
  suffices hspelled : pattern.toUpper.toList.take 2 = ['5', '7'] by
    rw [String.toUpper, String.toList_map, ← List.map_take] at hspelled
    exact eq_of_map_toUpper hspelled (by decide)
  cases hp with
  | any star => exact absurd hcategory ((intercepts_any hfatal).mp h)
  | ofClass valid size =>
    rw [← (intercepts_ofClass hfatal).mp h, hcategory]
    rfl
  | ofCode size spelled =>
    rw [← spelled, ErrorCode.toList_toString, ← (intercepts_ofCode hfatal).mp h,
      ← ErrorCode.toList_category, hcategory]
    rfl

end Below

/-- What a pattern that is read as `p` takes, told by its text and by the error alone. -/
structure Selects (pattern : String) (p : CatchPattern) (e : Exception) : Prop where
  fatal : .fatal ≤ e.severity → p.intercepts e = false
  cancellation : e.code.category = "57" → p.intercepts e = true →
    pattern.toList.take 2 = ['5', '7']
  any : e.severity < .fatal → pattern = "*" →
    (p.intercepts e = true ↔ e.code.category ≠ "57")
  ofClass : e.severity < .fatal → pattern.utf8ByteSize = 2 →
    (p.intercepts e = true ↔ ∃ rest p', (pattern ++ rest).utf8ByteSize = 5 ∧
      parse (pattern ++ rest) = .ok p' ∧ p'.intercepts e = true)
  ofCode : e.severity < .fatal → pattern.utf8ByteSize = 5 →
    (p.intercepts e = true ↔ e.code.toString = pattern.toUpper)

theorem Reads.selects {pattern : String} {p : CatchPattern} (hp : Reads pattern p)
    (e : Exception) : Selects pattern p e where
  fatal hfatal := by
    refine Bool.eq_false_of_not_eq_true fun h => ?_
    have hnot := not_isFatal_of_intercepts h
    rw [Exception.isFatal, Severity.isFatal, decide_eq_false_iff_not] at hnot
    exact hnot hfatal
  cancellation hcategory h := hp.take_two_of_cancellation h hcategory
  any hbelow hstar := by
    cases hp with
    | any => exact intercepts_any (isFatal_of_lt hbelow)
    | ofClass valid size => exact absurd (hstar ▸ size) (by decide)
    | ofCode size => exact absurd (hstar ▸ size) (by decide)
  ofClass hbelow hsize := by
    simp only [parse_eq_ok_iff]
    exact hp.intercepts_iff_class (isFatal_of_lt hbelow) hsize
  ofCode hbelow hsize := hp.intercepts_iff_code (isFatal_of_lt hbelow) hsize

/-- Patterns select what they name. A pattern is `"*"`, a class or a code, in letters of either
case; which errors it takes is told by `Selects`. Codes are read in the same way, and what a code
is written as is read as that code. -/
theorem patterns_select_what_they_name :
    (∀ pattern, (∃ p, parse pattern = .ok p) ↔
      pattern = "*" ∨ pattern.toList.all Char.isAlphanum = true ∧
        (pattern.utf8ByteSize = 2 ∨ pattern.utf8ByteSize = 5)) ∧
    (∀ pattern pattern' p, pattern.toUpper = pattern'.toUpper →
      (parse pattern = .ok p ↔ parse pattern' = .ok p)) ∧
    (∀ pattern p, parse pattern = .ok p → ∀ e, Selects pattern p e) ∧
    (∀ text code, ErrorCode.parse text = .ok code → ErrorCode.parse code.toString = .ok code) ∧
    (∀ text text' code, text.toUpper = text'.toUpper →
      (ErrorCode.parse text = .ok code ↔ ErrorCode.parse text' = .ok code)) ∧
    ∀ code : ErrorCode, code.toString.toList.length = 5 ∧
      code.category.toList = code.toString.toList.take 2 := by
  refine ⟨fun pattern => ?_, fun pattern pattern' p hcase => ?_, fun pattern p hp e => ?_,
    fun text code _ => ?_, fun text text' code hcase => ?_, fun code => ?_⟩
  · simp only [parse_eq_ok_iff, exists_reads_iff]
  · rw [parse_eq_ok_iff, parse_eq_ok_iff]
    exact ⟨(·.of_toUpper_eq hcase), (·.of_toUpper_eq hcase.symm)⟩
  · exact (parse_eq_ok_iff.mp hp).selects e
  · exact ErrorCode.parse_eq_ok_iff.mpr code.toUpper_toString.symm
  · rw [ErrorCode.parse_eq_ok_iff, ErrorCode.parse_eq_ok_iff, hcase]
  · rw [ErrorCode.toList_category, ErrorCode.toList_toString]
    exact ⟨code.length_eq, rfl⟩

/-- Class 57 takes a cancellation, as its code 57014 does, and no termination. -/
theorem class57_takes_cancellation :
    (ofClass "57").intercepts Interrupt.cancel.toException = true ∧
    (ofClass "57").intercepts Interrupt.terminate.toException = false ∧
    ∃ rest p, ("57" ++ rest).utf8ByteSize = 5 ∧ parse ("57" ++ rest) = .ok p ∧
      p.intercepts Interrupt.cancel.toException = true := by
  have hupper : "57".toUpper = "57" := by
    rw [← String.toList_inj, String.toUpper, String.toList_map]
    decide
  have hreads : Reads "57" (ofClass "57".toUpper) := .ofClass (by decide) (by decide)
  rw [hupper] at hreads
  have hselects := patterns_select_what_they_name.2.2.1 "57" (ofClass "57")
    (parse_eq_ok_iff.mpr hreads)
  have htakes : (ofClass "57").intercepts Interrupt.cancel.toException = true := by decide
  exact ⟨htakes, (hselects Interrupt.terminate.toException).fatal (by decide),
    ((hselects Interrupt.cancel.toException).ofClass (by decide) (by decide)).mp htakes⟩

end ProcedureBridge.CatchPattern
