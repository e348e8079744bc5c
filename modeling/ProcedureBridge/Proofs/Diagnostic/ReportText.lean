import ProcedureBridge.Diagnostic.ReportJson
import ProcedureBridge.Proofs.Diagnostic.Codes
import ProcedureBridge.Proofs.Json.Members

/-! # Reports as text

A report is written with the members that it has, its cause inside of it, and read back as it was:
there is one container for each report of the chain. So only a chain that reaches the nesting limit
cannot be read back, and no such chain is read from any text. -/

namespace ProcedureBridge

namespace Report

open Json (valuesOf)

/-- What the members of a diagnostic can be. -/
theorem forall_mem_diagnosticMembers {P : Option String × Json → Prop} (d : Diagnostic)
    (htext : ∀ key text, P (some key, .string (some text)))
    (hnumber : ∀ key (n : UInt32), P (some key, .number (.ofNat n.toNat))) :
    ∀ member ∈ diagnosticMembers d, P member := by
  have hoption : ∀ key value, ∀ member ∈ textMember key value, P member := by
    intro key value member hmember
    cases value with
    | none => cases hmember
    | some text => exact List.mem_singleton.mp hmember ▸ htext key text
  simp only [diagnosticMembers, List.forall_mem_append, List.forall_mem_cons]
  refine ⟨⟨⟨⟨⟨htext _ _, htext _ _, htext _ _, nofun⟩, hoption _ _⟩, hoption _ _⟩, hoption _ _⟩, ?_⟩
  cases d.position with
  | none => exact nofun
  | some n => exact List.forall_mem_singleton.mpr (hnumber _ n)

/-! ## What a written report is -/

theorem isPlain_diagnosticMembers (d : Diagnostic) :
    ∀ member ∈ diagnosticMembers d, member.1.isSome = true ∧ member.2.IsPlain :=
  forall_mem_diagnosticMembers d (fun _ text => ⟨rfl, Json.isPlain_string text⟩)
    fun _ n => ⟨rfl, Json.isPlain_number n.toNat⟩

theorem toJson_isPlain (r : Report) : r.toJson.IsPlain := by
  induction r with
  | plain d => exact Json.isPlain_object (isPlain_diagnosticMembers d)
  | causedBy d cause ih =>
    exact Json.isPlain_object (List.forall_mem_append.mpr
      ⟨isPlain_diagnosticMembers d, List.forall_mem_singleton.mpr ⟨rfl, ih⟩⟩)

theorem isExact_diagnosticMembers (d : Diagnostic) :
    ∀ member ∈ diagnosticMembers d, member.1.isSome = true ∧ member.2.isExact = true :=
  forall_mem_diagnosticMembers d (fun _ _ => ⟨rfl, rfl⟩)
    fun _ n => ⟨rfl, Numeral.isFinite_ofNat n.toNat_lt⟩

theorem toJson_isExact (r : Report) : r.toJson.isExact = true := by
  induction r with
  | plain d => exact Json.membersExact_iff.mpr (isExact_diagnosticMembers d)
  | causedBy d cause ih =>
    exact Json.membersExact_iff.mpr (List.forall_mem_append.mpr
      ⟨isExact_diagnosticMembers d, List.forall_mem_singleton.mpr ⟨rfl, ih⟩⟩)

theorem depth_diagnosticMembers (d : Diagnostic) :
    ∀ member ∈ diagnosticMembers d, member.2.depth = 0 :=
  forall_mem_diagnosticMembers d (fun _ _ => rfl) fun _ _ => rfl

theorem memberDepths_le_iff (d : Diagnostic) (more : List (Option String × Json)) (n : Nat) :
    Json.depth.memberDepths (diagnosticMembers d ++ more) ≤ n ↔
      Json.depth.memberDepths more ≤ n := by
  rw [Json.memberDepths_le_iff, Json.memberDepths_le_iff, List.forall_mem_append]
  exact and_iff_right fun m hm => depth_diagnosticMembers d m hm ▸ Nat.zero_le n

/-- A report is nested as deeply as its chain is long. -/
theorem depth_toJson (r : Report) : r.toJson.depth = r.chainLength := by
  induction r with
  | plain d =>
    have hmembers := eq_of_forall_ge_iff (memberDepths_le_iff d [])
    rw [List.append_nil] at hmembers
    exact congrArg (· + 1) hmembers
  | causedBy d cause ih =>
    have hmembers := eq_of_forall_ge_iff (memberDepths_le_iff d [(some "cause", cause.toJson)])
    rw [toJson, Json.depth, hmembers, Json.depth.memberDepths, ih, chainLength, chainLength, chain]
    exact congrArg (· + 1) (Nat.max_zero _)

/-! ## Reading it -/

section Members

variable {key : String} {members : List (Option String × Json)}

/-- A member that is written when it is there. -/
@[simp] theorem valuesOf_toList {α : Type} (key k : String) (write : α → Json) (value : Option α) :
    valuesOf key (value.map fun a => (some k, write a)).toList =
      if k = key then (value.map write).toList else [] := by
  cases value with
  | none => simp [valuesOf]
  | some a => exact Json.valuesOf_cons key k _ []

theorem required_of_valuesOf {value : Json} (h : valuesOf key members = [value]) :
    required key members = some value := by
  rw [required, h]

section Optional

variable {α : Type} {read : Json → Option α}

/-- A member is read back if it is written when it is there. -/
theorem optionalMember_of_valuesOf {write : α → Json} {value : Option α}
    (h : valuesOf key members = (value.map write).toList)
    (hread : ∀ a ∈ value, read (write a) = some a) (hnull : ∀ a, write a ≠ .null) :
    optionalMember key read members = some value := by
  rw [optionalMember, h]
  cases value with
  | none => rfl
  | some a => simp [Json.optional_of_ne_null (hnull a), hread]

theorem exists_of_optionalMember {a : α} (h : optionalMember key read members = some (some a)) :
    ∃ value, (some key, value) ∈ members ∧ read value = some a := by
  rw [optionalMember] at h
  split at h
  · cases h
  · rename_i value hvalues
    refine ⟨value, Json.mem_of_valuesOf (hvalues ▸ List.mem_cons_self), ?_⟩
    cases value <;> simp_all [Json.optional]
  · cases h

end Optional

end Members

theorem positionOfJson?_ofNat (n : UInt32) : positionOfJson? (.number (.ofNat n.toNat)) = some n := by
  have hn : n.toNat < UInt32.size := n.toNat_lt
  simp [positionOfJson?, Json.natural?, hn]

/-- A diagnostic is read back, with a cause beside it or without one. -/
theorem diagnosticOfMembers?_append (d : Diagnostic) {more : List (Option String × Json)}
    (hmore : ∀ key, key ≠ "cause" → valuesOf key more = []) :
    diagnosticOfMembers? (diagnosticMembers d ++ more) = some d := by
  have hseverity : valuesOf "severity" (diagnosticMembers d ++ more) =
      [.string (some d.severity.name)] := by simp [diagnosticMembers, textMember, hmore]
  have hcode : valuesOf "code" (diagnosticMembers d ++ more) =
      [.string (some d.code.toString)] := by simp [diagnosticMembers, textMember, hmore]
  have hmessage : valuesOf "message" (diagnosticMembers d ++ more) =
      [.string (some d.message)] := by simp [diagnosticMembers, textMember, hmore]
  have hdetail : valuesOf "detail" (diagnosticMembers d ++ more) =
      (d.detail.map fun text => Json.string (some text)).toList := by
    simp [diagnosticMembers, textMember, hmore]
  have hhint : valuesOf "hint" (diagnosticMembers d ++ more) =
      (d.hint.map fun text => Json.string (some text)).toList := by
    simp [diagnosticMembers, textMember, hmore]
  have hcontext : valuesOf "context" (diagnosticMembers d ++ more) =
      (d.context.map fun text => Json.string (some text)).toList := by
    simp [diagnosticMembers, textMember, hmore]
  have hposition : valuesOf "position" (diagnosticMembers d ++ more) =
      (d.position.map fun n => Json.number (.ofNat n.toNat)).toList := by
    simp [diagnosticMembers, textMember, hmore]
  have hread (text : String) : (Json.string (some text)).string? = some text := rfl
  have htext {value : Option String} : ∀ text ∈ value, (Json.string (some text)).string? = some text :=
    fun text _ => hread text
  have hnumber : ∀ n ∈ d.position, positionOfJson? (.number (.ofNat n.toNat)) = some n :=
    fun n _ => positionOfJson?_ofNat n
  simp [diagnosticOfMembers?, required_of_valuesOf hseverity, required_of_valuesOf hcode,
    required_of_valuesOf hmessage, optionalMember_of_valuesOf hdetail htext nofun,
    optionalMember_of_valuesOf hhint htext nofun, optionalMember_of_valuesOf hcontext htext nofun,
    optionalMember_of_valuesOf hposition hnumber nofun, Severity.ofJson?,
    Severity.ofExactName?_name, hread, ErrorCode.ofString?_eq_some_iff.mpr d.code.toUpper_toString.symm]

/-- What is deep enough for the chain is deep enough to read the report. -/
theorem ofJsonUpTo?_toJson (r : Report) {fuel : Nat} (hfuel : r.chainLength ≤ fuel) :
    ofJsonUpTo? fuel r.toJson = some r := by
  induction r generalizing fuel with
  | plain d =>
    obtain ⟨fuel, rfl⟩ : ∃ n, fuel = n + 1 := Nat.exists_eq_add_of_le' hfuel
    have hread : diagnosticOfMembers? (diagnosticMembers d ++ []) = some d :=
      diagnosticOfMembers?_append d fun _ _ => rfl
    have hcause : optionalMember "cause" (ofJsonUpTo? fuel) (diagnosticMembers d) = some none := by
      simp [optionalMember, diagnosticMembers, textMember]
    rw [List.append_nil] at hread
    simp [toJson, ofJsonUpTo?, hread, hcause]
  | causedBy d cause ih =>
    obtain ⟨fuel, rfl⟩ : ∃ n, fuel = n + 1 := Nat.exists_eq_add_of_le' (Nat.le_of_add_left_le hfuel)
    have hread : diagnosticOfMembers? (diagnosticMembers d ++ [(some "cause", cause.toJson)]) =
        some d := diagnosticOfMembers?_append d fun key hkey => by simp [Ne.symm hkey]
    have hcause : optionalMember "cause" (ofJsonUpTo? fuel)
        (diagnosticMembers d ++ [(some "cause", cause.toJson)]) = some (some cause) := by
      have hvalues : valuesOf "cause" (diagnosticMembers d ++ [(some "cause", cause.toJson)]) =
          ((some cause).map toJson).toList := by simp [diagnosticMembers, textMember]
      refine optionalMember_of_valuesOf hvalues ?_ ?_
      · rintro _ ⟨⟩
        exact ih (Nat.le_of_succ_le_succ hfuel)
      · intro r
        cases r <;> exact nofun
    simp [toJson, ofJsonUpTo?, hread, hcause]

/-- A report is read only from a document that is nested as deeply as its chain is long. -/
theorem chainLength_le_depth {fuel : Nat} {j : Json} {r : Report} (h : ofJsonUpTo? fuel j = some r) :
    r.chainLength ≤ j.depth := by
  induction fuel generalizing j r with
  | zero => cases h
  | succ fuel ih =>
    cases j with
    | object members =>
      simp only [ofJsonUpTo?, Option.bind_eq_bind, Option.bind_eq_some_iff] at h
      obtain ⟨d, -, cause?, hcause, hr⟩ := h
      cases cause? with
      | none =>
        cases hr
        exact Nat.le_add_left 1 _
      | some cause =>
        cases hr
        obtain ⟨value, hmem, hvalue⟩ := exists_of_optionalMember hcause
        have hdepth : value.depth ≤ Json.depth.memberDepths members :=
          Json.memberDepths_le_iff.mp (Nat.le_refl _) _ hmem
        exact Nat.succ_le_succ (Nat.le_trans (ih hvalue) hdepth)
    | _ => cases h

theorem read?_write (r : Report) :
    read? r.write = if r.chainLength < nestingLimit then some r else none := by
  rw [read?, write, Json.read?_write r.toJson_isPlain, Option.bind_some, ofJson?, toJson_isExact,
    depth_toJson, Bool.true_and]
  split
  · rename_i h
    simp only [decide_eq_true_eq] at h
    rw [if_pos h, ofJsonUpTo?_toJson r (Nat.le_of_lt h)]
  · rename_i h
    simp only [decide_eq_true_eq] at h
    rw [if_neg h]

/-- What was read from a text is short enough to be read again. -/
theorem chainLength_lt_of_read? {text : String} {r : Report} (h : read? text = some r) :
    r.chainLength < nestingLimit := by
  obtain ⟨j, -, hj⟩ := Option.bind_eq_some_iff.mp h
  rw [ofJson?] at hj
  split at hj
  · rename_i hlimit
    simp only [Bool.and_eq_true, decide_eq_true_eq] at hlimit
    exact Nat.lt_of_le_of_lt (chainLength_le_depth hj) hlimit.2
  · cases hj

/-- A report is read back from its text as it was, whatever its texts, codes and position are, as
long as fewer than 128 reports are nested in it. A report that was read from some text, however that
text was laid out, is read again from the text that it is written as. -/
theorem written_reports_are_read_back :
    (∀ r : Report, r.chainLength < nestingLimit → read? r.write = some r) ∧
      ∀ text r, read? text = some r → read? r.write = some r := by
  have hwritten (r : Report) (hr : r.chainLength < nestingLimit) : read? r.write = some r :=
    (read?_write r).trans (if_pos hr)
  exact ⟨hwritten, fun _ r h => hwritten r (chainLength_lt_of_read? h)⟩

/-- A diagnostic with characters that are escaped, an empty hint and the last position. -/
def outOfSpace : Diagnostic where
  severity := .fatal
  code := .internalError
  message := "\"disk\"\\\n\x01é"
  hint := some ""
  position := some 4294967295

/-- A report with the longest chain that can be read. -/
def deepest : Report := ofChain outOfSpace (List.replicate 126 outOfSpace)

theorem chainLength_deepest : deepest.chainLength = 127 := by
  rw [chainLength, deepest, chain_ofChain, List.length_cons, List.length_replicate]

def noted : Report :=
  .plain { severity := .log, code := ⟨['P', 'L', '0', '0', 'Z'], rfl, by decide⟩, message := "é" }

/-- The report in another hand: with a member that is not known, a code in lower case, and an escape
that is never written. -/
def notedText : String :=
  "\x7b\"x\":[],\"code\":\"pl00z\",\"message\":\"\\u00E9\",\"severity\":\"LOG\"\x7d "

theorem written_reports_are_read_back_deepest :
    deepest.chainLength < nestingLimit ∧ read? deepest.write = some deepest ∧
      read? notedText = some noted ∧ read? noted.write = some noted := by
  obtain ⟨hwritten, hagain⟩ := written_reports_are_read_back
  have hchain : deepest.chainLength < nestingLimit := by
    rw [chainLength_deepest]
    decide
  have hread : read? notedText = some noted := by decide +kernel
  exact ⟨hchain, hwritten _ hchain, hread, hagain _ _ hread⟩

end Report

end ProcedureBridge
