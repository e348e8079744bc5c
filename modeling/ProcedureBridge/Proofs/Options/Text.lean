import ProcedureBridge.Options.Json
import ProcedureBridge.Proofs.Json.Members

/-! # Options as text

All members of options are written, and read back as they were, but for the timeout: it is written
in whole milliseconds. -/

namespace ProcedureBridge

namespace Duration

/-! ## Whole milliseconds -/

theorem toNat_nanoseconds_lt (d : Duration) : d.nanoseconds.toNat < 1000000000 :=
  UInt32.lt_iff_toNat_lt.mp d.nanoseconds_lt

theorem toNat_div_mul (n : UInt32) :
    (n / 1000000 * 1000000).toNat = n.toNat / 1000000 * 1000000 := by
  rw [UInt32.toNat_mul, UInt32.toNat_div]
  exact Nat.mod_eq_of_lt (Nat.lt_of_le_of_lt (Nat.div_mul_le_self _ _) n.toNat_lt)

/-- A span of time without the fraction of its last millisecond. -/
def wholeMilliseconds (d : Duration) : Duration where
  seconds := d.seconds
  nanoseconds := d.nanoseconds / 1000000 * 1000000
  nanoseconds_lt := by
    rw [UInt32.lt_iff_toNat_lt, toNat_div_mul]
    exact Nat.lt_of_le_of_lt (Nat.div_mul_le_self _ _) d.toNat_nanoseconds_lt

theorem ofMilliseconds_milliseconds {d : Duration} (h : d.milliseconds < UInt64.size) :
    ofMilliseconds (.ofNat d.milliseconds) = d.wholeMilliseconds := by
  have hfraction : d.nanoseconds.toNat / 1000000 < 1000 :=
    Nat.div_lt_of_lt_mul d.toNat_nanoseconds_lt
  have hseconds : d.milliseconds / 1000 = d.seconds.toNat := by
    rw [milliseconds]
    omega
  have hrest : d.milliseconds % 1000 = d.nanoseconds.toNat / 1000000 := by
    rw [milliseconds]
    omega
  simp only [ofMilliseconds, wholeMilliseconds, mk.injEq, UInt64.toNat_ofNat_of_lt' h, hseconds,
    hrest, UInt64.ofNat_toNat, true_and]
  rw [← toNat_div_mul, UInt32.ofNat_toNat]

theorem wholeMilliseconds_eq_iff {d : Duration} :
    d.wholeMilliseconds = d ↔ d.nanoseconds % 1000000 = 0 := by
  obtain ⟨seconds, n, hn⟩ := d
  simp only [wholeMilliseconds, mk.injEq, true_and, ← UInt32.toNat_inj, toNat_div_mul,
    UInt32.toNat_mod]
  have : n.toNat / 1000000 * 1000000 + n.toNat % 1000000 = n.toNat := Nat.div_add_mod' _ _
  simp
  omega

/-- What is a millisecond long is not nothing when it is cut. -/
theorem wholeMilliseconds_ne_zero {d : Duration} (h : 1 ≤ d.milliseconds) :
    d.wholeMilliseconds ≠ zero := by
  intro heq
  simp only [wholeMilliseconds, zero, mk.injEq, ← UInt32.toNat_inj, toNat_div_mul] at heq
  obtain ⟨hseconds, hfraction⟩ := heq
  simp [milliseconds, hseconds] at h hfraction
  omega

end Duration

namespace Options

/-! ## What is written -/

theorem natBelow?_ofNat {n bound : Nat} (hn : n < bound) :
    natBelow? bound (.number (.ofNat n)) = some n := by
  simp [natBelow?, Json.natural?, hn]

section Optional

variable {α β : Type} {write : α → Json}

theorem isPlain_getD (value : Option α) (h : ∀ a ∈ value, (write a).IsPlain) :
    ((value.map write).getD .null).IsPlain := by
  cases value with
  | none => exact Json.isPlain_null
  | some a => exact h a rfl

/-- What is written when it is there is read when it is there. -/
theorem optional_getD {read : Json → Option β} {f : α → β} {value : Option α}
    (hread : ∀ a, read (write a) = some (f a)) (hnull : ∀ a, write a ≠ .null) :
    ((value.map write).getD .null).optional read = some (value.map f) := by
  cases value with
  | none => rfl
  | some a => simp [Json.optional_of_ne_null (hnull a), hread]

end Optional

theorem toJson_eq (o : Options) :
    o.toJson = .object
      [(some "max_scope_depth", .number (.ofNat o.maxScopeDepth.toNat)),
        (some "safepoint_interval", .number (.ofNat o.safepointInterval.toNat)),
        (some "cache_capacity", .number (.ofNat o.cacheCapacity.toNat)),
        (some "entry_point", .string (some o.entryPoint)),
        (some "init_path", (o.initPath.map fun text => .string (some text)).getD .null),
        (some "init_source", (o.initSource.map fun text => .string (some text)).getD .null),
        (some "statement_timeout",
          (o.statementTimeout.map fun d =>
            .number (.ofNat (d.milliseconds % UInt64.size))).getD .null),
        (some "redirect_print", .bool o.redirectPrint)] := by
  obtain ⟨_, _, _, _, path, source, timeout, _⟩ := o
  cases path <;> cases source <;> cases timeout <;> rfl

theorem toJson_isPlain (o : Options) : o.toJson.IsPlain := by
  rw [toJson_eq]
  refine Json.isPlain_object ?_
  simp only [List.forall_mem_cons]
  have htext (value : Option String) := isPlain_getD value fun text _ => Json.isPlain_string text
  exact ⟨⟨rfl, Json.isPlain_number _⟩, ⟨rfl, Json.isPlain_number _⟩, ⟨rfl, Json.isPlain_number _⟩,
    ⟨rfl, Json.isPlain_string _⟩, ⟨rfl, htext _⟩, ⟨rfl, htext _⟩,
    ⟨rfl, isPlain_getD _ fun _ _ => Json.isPlain_number _⟩, ⟨rfl, Json.isPlain_bool _⟩, nofun⟩

/-- What is left of options when they are written. -/
def written (o : Options) : Options :=
  { o with
    statementTimeout := o.statementTimeout.map fun d =>
      .ofMilliseconds (.ofNat (d.milliseconds % UInt64.size)) }

theorem parse?_write (o : Options) : parse? o.write = some o.written := by
  have h64 (n : UInt64) : natBelow? UInt64.size (.number (.ofNat n.toNat)) = some n.toNat :=
    natBelow?_ofNat n.toNat_lt
  have h32 (n : UInt32) : natBelow? UInt32.size (.number (.ofNat n.toNat)) = some n.toNat :=
    natBelow?_ofNat n.toNat_lt
  have hms (d : Duration) :
      natBelow? UInt64.size (.number (.ofNat (d.milliseconds % UInt64.size))) =
        some (d.milliseconds % UInt64.size) :=
    natBelow?_ofNat (Nat.mod_lt _ (by decide))
  have htext (text : String) : (Json.string (some text)).string? = some text := rfl
  have hbool (b : Bool) : (Json.bool b).bool? = some b := rfl
  rw [parse?, write, Json.read?_write o.toJson_isPlain, Option.bind_some, toJson_eq, ofJson?,
    ofMembers?]
  simp [fields, h64, h32, htext, hbool, optional_getD htext nofun, optional_getD hms nofun, written,
    Function.comp_def]

theorem read_write (o : Options) : read o.write = o.written.validate.map fun _ => o.written := by
  rw [read, parse?_write]

/-! ## Valid options -/

theorem fault?_eq_none_iff {o : Options} :
    o.fault? = none ↔ o.maxScopeDepth ≠ 0 ∧ o.safepointInterval ≠ 0 ∧ o.entryPoint.isEmpty = false ∧
      o.statementTimeout ≠ some .zero := by
  rw [fault?]
  split_ifs <;> simp_all

theorem validate_eq_ok_iff {o : Options} : o.validate = .ok () ↔ o.fault? = none := by
  rw [validate]
  cases o.fault? <;> simp

/-- The options with a timeout that is cut to whole milliseconds. -/
def inMilliseconds (o : Options) : Options :=
  { o with statementTimeout := o.statementTimeout.map Duration.wholeMilliseconds }

theorem written_eq {o : Options} (h : ∀ d ∈ o.statementTimeout, d.milliseconds < UInt64.size) :
    o.written = o.inMilliseconds := by
  have htimeout : (o.statementTimeout.map fun d =>
      Duration.ofMilliseconds (.ofNat (d.milliseconds % UInt64.size))) =
        o.statementTimeout.map Duration.wholeMilliseconds := by
    refine Option.map_congr fun d hd => ?_
    rw [Nat.mod_eq_of_lt (h d hd), Duration.ofMilliseconds_milliseconds (h d hd)]
  rw [written, inMilliseconds, htimeout]

theorem validate_inMilliseconds {o : Options} (hvalid : o.validate = .ok ())
    (htimeout : ∀ d ∈ o.statementTimeout, 1 ≤ d.milliseconds) :
    o.inMilliseconds.validate = .ok () := by
  obtain ⟨hdepth, hinterval, hentry, -⟩ := fault?_eq_none_iff.mp (validate_eq_ok_iff.mp hvalid)
  refine validate_eq_ok_iff.mpr (fault?_eq_none_iff.mpr ⟨hdepth, hinterval, hentry, ?_⟩)
  intro hzero
  obtain ⟨d, hd, hcut⟩ := Option.map_eq_some_iff.mp hzero
  exact Duration.wholeMilliseconds_ne_zero (htimeout d hd) hcut

theorem inMilliseconds_eq_iff {o : Options} :
    o.inMilliseconds = o ↔ ∀ d ∈ o.statementTimeout, d.nanoseconds % 1000000 = 0 := by
  obtain ⟨_, _, _, _, _, _, timeout, _⟩ := o
  cases timeout <;> simp [inMilliseconds, Duration.wholeMilliseconds_eq_iff]

/-- Options that are valid are read back from their text, and are valid again, if their timeout is a
millisecond or more and can be counted in milliseconds. All that is lost is the fraction of its last
millisecond, so they are what they were exactly if there is none. -/
theorem written_options_are_read_back {o : Options} (hvalid : o.validate = .ok ())
    (htimeout : ∀ d ∈ o.statementTimeout, 1 ≤ d.milliseconds ∧ d.milliseconds < UInt64.size) :
    read o.write = .ok o.inMilliseconds ∧ o.inMilliseconds.validate = .ok () ∧
      (o.inMilliseconds = o ↔ ∀ d ∈ o.statementTimeout, d.nanoseconds % 1000000 = 0) := by
  have hagain := validate_inMilliseconds hvalid fun d hd => (htimeout d hd).1
  refine ⟨?_, hagain, inMilliseconds_eq_iff⟩
  rw [read_write, written_eq fun d hd => (htimeout d hd).2, hagain]
  rfl

/-- Options that are at their limits, with a timeout that ends within a millisecond. -/
def extreme : Options where
  maxScopeDepth := 18446744073709551615
  safepointInterval := 4294967295
  cacheCapacity := 0
  entryPoint := "größe"
  initPath := some "/tmp/\"a\"\\b"
  initSource := some "\n\x01é"
  statementTimeout := some ⟨18446744073709551, 615999999, by decide⟩
  redirectPrint := false

theorem written_options_are_read_back_extreme :
    extreme.validate = .ok () ∧
      (∀ d ∈ extreme.statementTimeout, 1 ≤ d.milliseconds ∧ d.milliseconds < UInt64.size) ∧
      read extreme.write =
        .ok { extreme with
          statementTimeout := some ⟨18446744073709551, 615000000, by decide⟩ } := by
  have hvalid : extreme.validate = .ok () := by decide
  have htimeout : ∀ d ∈ extreme.statementTimeout,
      1 ≤ d.milliseconds ∧ d.milliseconds < UInt64.size := by
    decide
  exact ⟨hvalid, htimeout, (written_options_are_read_back hvalid htimeout).1⟩

/-- The default options with a timeout. -/
def timed (d : Duration) : Options := { statementTimeout := some d }

/-- Half a millisecond is written as none, which is refused; the half of a millisecond is dropped
from one and a half. -/
theorem fractions_of_milliseconds_are_lost :
    (timed ⟨0, 500000, by decide⟩).validate = .ok () ∧
      read (timed ⟨0, 500000, by decide⟩).write = .error (.config "statement_timeout must be > 0") ∧
      (timed ⟨0, 1500000, by decide⟩).validate = .ok () ∧
      read (timed ⟨0, 1500000, by decide⟩).write = .ok (timed ⟨0, 1000000, by decide⟩) ∧
      timed ⟨0, 1000000, by decide⟩ ≠ timed ⟨0, 1500000, by decide⟩ := by
  rw [read_write, read_write]
  decide

end Options

end ProcedureBridge
