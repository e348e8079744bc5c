import Mathlib.Data.List.Chain
import Mathlib.Tactic.Common
import ProcedureBridge.Json.Printer

/-! # Tokens as text

The text of a token is read back as that token, whatever comes after it; a numeral alone has to be
followed by something that does not go on with it. So the texts of tokens, one after the other, are
cut into these tokens again, as long as no numeral comes right after another one. -/

namespace ProcedureBridge

/-- The numeral has neither a fraction nor an exponent. -/
def Numeral.IsWhole (n : Numeral) : Prop := n.fractionLength = none ∧ n.exponent = none

namespace Json.Token

/-- What a token is written as. -/
def render : Token → List Char
  | openArray => ['[']
  | closeArray => [']']
  | openObject => ['\x7b']
  | closeObject => ['\x7d']
  | comma => [',']
  | colon => [':']
  | null => "null".toList
  | bool true => "true".toList
  | bool false => "false".toList
  | number n => (if n.negative then ['-'] else []) ++ Numeral.natDigits n.digits
  | string text => quote (text.getD "")

/-- The token is told by what it is written as: numbers are whole, and strings are text. -/
def IsPlain : Token → Prop
  | number n => n.IsWhole
  | string text => text.isSome
  | _ => True

def isNumber : Token → Bool
  | number _ => true
  | _ => false

/-! ## Numbers -/

theorem eq_zero_of_head?_toDigits {n : Nat} (h : (Nat.toDigits 10 n).head? = some '0') : n = 0 := by
  induction n using Nat.strongRecOn with
  | ind n ih =>
    by_cases hn : n < 10
    · rw [Nat.toDigits_of_lt_base hn] at h
      exact Nat.digitChar_eq_zero.mp (Option.some.inj h)
    · rw [Nat.toDigits_of_base_le (by omega) (by omega),
        List.head?_append, List.head?_eq_some_head Nat.toDigits_ne_nil, Option.some_or,
        ← List.head?_eq_some_head] at h
      have := ih (n / 10) (by omega) h
      omega

theorem exists_toDigits (n : Nat) :
    ∃ c rest, Nat.toDigits 10 n = c :: rest ∧ c.isDigit = true := by
  obtain ⟨c, rest, h⟩ := List.exists_cons_of_ne_nil (Nat.toDigits_ne_nil (b := 10) (n := n))
  have hmem : c ∈ Nat.toDigits 10 n := h ▸ List.mem_cons_self
  exact ⟨c, rest, h, Nat.isDigit_of_mem_toDigits (by omega) (by omega) hmem⟩

theorem decimal_toDigits (n : Nat) : decimal 0 (Nat.toDigits 10 n) = n := by
  calc decimal 0 (Nat.toDigits 10 n)
      = Nat.ofDigitChars 10 (Nat.toDigits 10 n) 0 := by
        simp only [decimal, Nat.ofDigitChars_eq_foldl, Nat.mul_comm 10]
    _ = n := Nat.ofDigitChars_ten_toDigits

/-- No numeral goes on with the text. -/
def EndsNumeral (rest : List Char) : Prop :=
  ∀ c ∈ rest.head?, c.isDigit = false ∧ c ≠ '.' ∧ c ≠ 'e' ∧ c ≠ 'E'

section Digits

variable {rest : List Char} (hrest : EndsNumeral rest)

include hrest

theorem EndsNumeral.digits (n : Nat) :
    (Nat.toDigits 10 n ++ rest).takeWhile Char.isDigit = Nat.toDigits 10 n ∧
      (Nat.toDigits 10 n ++ rest).dropWhile Char.isDigit = rest := by
  have hdigits : ∀ c ∈ Nat.toDigits 10 n, c.isDigit = true :=
    fun c hc => Nat.isDigit_of_mem_toDigits (by omega) (by omega) hc
  rw [List.takeWhile_append_of_pos hdigits, List.dropWhile_append_of_pos hdigits]
  cases rest with
  | nil => simp
  | cons c rest => simp [(hrest c rfl).1]

theorem EndsNumeral.scanExponent : Token.scanExponent rest = some (none, rest) := by
  cases rest with
  | nil => rfl
  | cons c rest => simp [Token.scanExponent, (hrest c rfl).2.2]

theorem scanUnsigned_toDigits (negative : Bool) (n : Nat) :
    scanUnsigned negative (Nat.toDigits 10 n ++ rest) = some (⟨negative, n, none, none⟩, rest) := by
  have hleading : ((Nat.toDigits 10 n).isEmpty ||
      ((Nat.toDigits 10 n).head? = some '0' && (Nat.toDigits 10 n).length ≠ 1)) = false := by
    by_cases h : (Nat.toDigits 10 n).head? = some '0'
    · rw [eq_zero_of_head?_toDigits h]
      rfl
    · simp [h]
  simp only [scanUnsigned, (hrest.digits n).1, (hrest.digits n).2, hleading, Bool.false_eq_true,
    if_false]
  split
  · exact absurd rfl (hrest '.' rfl).2.1
  · simp [hrest.scanExponent, decimal_toDigits, decimal.eq_def _ []]

end Digits

/-! ## Strings -/

theorem hexDigit?_hexDigit {n : Nat} (hn : n < 16) : hexDigit? (hexDigit n) = some n := by
  revert n
  decide

/-- What an escaped character is read as. Control characters without a letter of their own are
written as numbers. -/
def pieceOf (c : Char) : Piece :=
  if c.toNat < 0x20 ∧ c ∉ ['\x08', '\x0c', '\n', '\r', '\t'] then .unit c.toNat else .char c

theorem scanPieces_escape (c : Char) (rest : List Char) :
    scanPieces (escape c ++ rest) =
      (scanPieces rest).bind fun (pieces, after) => some (pieceOf c :: pieces, after) := by
  by_cases hspecial : c ∈ ['"', '\\', '\x08', '\x0c', '\n', '\r', '\t']
  · simp only [List.mem_cons, List.not_mem_nil, or_false] at hspecial
    obtain rfl | rfl | rfl | rfl | rfl | rfl | rfl := hspecial
    all_goals simp [escape, scanPieces, Piece.ofEscape?, pieceOf]
  · simp only [List.mem_cons, List.not_mem_nil, or_false, not_or] at hspecial
    obtain ⟨hquote, hslash, hb, hf, hn, hr, ht⟩ := hspecial
    by_cases hcontrol : c.toNat < 0x20
    · have hhigh := hexDigit?_hexDigit (n := c.toNat / 16) (by omega)
      have hlow := hexDigit?_hexDigit (n := c.toNat % 16) (by omega)
      have hunit : c.toNat / 16 * 16 + c.toNat % 16 = c.toNat := by omega
      have hzero : hexDigit? '0' = some 0 := rfl
      simp [escape, pieceOf, scanPieces, *]
    · have hescape : escape c = [c] := by simp [escape, *]
      have hpiece : pieceOf c = .char c := by simp [pieceOf, hcontrol]
      rw [hescape, hpiece, List.singleton_append, scanPieces.eq_def]
      simp [*]

theorem scanPieces_escapes (cs : List Char) (rest : List Char) :
    scanPieces (cs.flatMap escape ++ '"' :: rest) = some (cs.map pieceOf, rest) := by
  induction cs with
  | nil => rfl
  | cons c cs ih => simp [scanPieces_escape, ih]

theorem joinPieces_unit {n : Nat} (hn : n < 0xD800) (pieces : List Piece) :
    joinPieces (.unit n :: pieces) = (joinPieces pieces).map (Char.ofNat n :: ·) := by
  have hhigh : ¬0xD800 ≤ n := by omega
  have hlow : ¬0xDC00 ≤ n := by omega
  match pieces with
  | [] | .char _ :: _ | .unit _ :: _ => simp [joinPieces, hhigh, hlow]

/-- No control character is half of a pair. -/
theorem joinPieces_map_pieceOf (cs : List Char) : joinPieces (cs.map pieceOf) = some cs := by
  induction cs with
  | nil => rfl
  | cons c cs ih =>
    rw [List.map_cons]
    rw [pieceOf]
    split
    · rename_i hcontrol
      rw [joinPieces_unit (by omega), ih, Option.map_some, Char.ofNat_toNat]
    · rw [joinPieces, ih, Option.map_some]

theorem scanOne_quote (text : String) (rest : List Char) :
    scanOne (quote text ++ rest) = some (string (some text), rest) := by
  simp [quote, scanOne, scanPieces_escapes, joinPieces_map_pieceOf]

/-! ## Single tokens -/

theorem scanOne_of_isDigit {c : Char} (hc : c.isDigit = true) (rest : List Char) :
    scanOne (c :: rest) =
      (scanUnsigned false (c :: rest)).map fun (n, after) => (number n, after) := by
  rw [scanOne.eq_def]
  split
  case h_12 => rfl
  all_goals
    rename_i heq
    obtain ⟨rfl, -⟩ := List.cons.inj heq
    cases hc

/-- What comes after a token must not go on with it. -/
theorem scanOne_render {t : Token} (ht : t.IsPlain) {rest : List Char}
    (hrest : t.isNumber = true → EndsNumeral rest) :
    scanOne (t.render ++ rest) = some (t, rest) := by
  cases t with
  | number n =>
    obtain ⟨negative, digits, fractionLength, exponent⟩ := n
    obtain ⟨rfl, rfl⟩ : fractionLength = none ∧ exponent = none := ht
    have hscan := scanUnsigned_toDigits (hrest rfl)
    cases negative with
    | true =>
      change (scanUnsigned true (Nat.toDigits 10 digits ++ rest)).map _ = _
      rw [hscan, Option.map_some]
    | false =>
      change scanOne (Nat.toDigits 10 digits ++ rest) = _
      have hnumeral := hscan false digits
      obtain ⟨c, more, hdigits, hc⟩ := exists_toDigits digits
      rw [hdigits, List.cons_append] at hnumeral ⊢
      rw [scanOne_of_isDigit hc, hnumeral, Option.map_some]
  | string text =>
    obtain ⟨text, rfl⟩ := Option.isSome_iff_exists.mp ht
    exact scanOne_quote text rest
  | bool b => cases b <;> rfl
  | _ => rfl

/-- What every token but a number begins with ends a numeral. -/
theorem render_head? {t : Token} :
    ∃ c rest, t.render = c :: rest ∧ isSpace c = false ∧
      (t.isNumber = false → c.isDigit = false ∧ c ≠ '.' ∧ c ≠ 'e' ∧ c ≠ 'E') := by
  cases t with
  | number n =>
    obtain ⟨negative, digits, _, _⟩ := n
    cases negative with
    | true => exact ⟨_, _, rfl, rfl, nofun⟩
    | false =>
      obtain ⟨c, rest, hdigits, hc⟩ := exists_toDigits digits
      refine ⟨c, rest, hdigits, ?_, nofun⟩
      by_contra hspace
      simp only [isSpace, Bool.not_eq_false, Bool.or_eq_true, decide_eq_true_eq] at hspace
      obtain ((rfl | rfl) | rfl) | rfl := hspace
      all_goals cases hc
  | bool b => cases b <;> exact ⟨_, _, rfl, rfl, fun _ => by decide⟩
  | _ => exact ⟨_, _, rfl, rfl, fun _ => by decide⟩

/-! ## All tokens -/

theorem scanUpTo_succ {t : Token} (ht : t.IsPlain) {rest : List Char}
    (hrest : t.isNumber = true → EndsNumeral rest) (fuel : Nat) :
    scanUpTo (fuel + 1) (t.render ++ rest) = (scanUpTo fuel rest).map (t :: ·) := by
  obtain ⟨c, more, hrender, hspace, -⟩ := t.render_head?
  have hscan := scanOne_render ht hrest
  rw [hrender, List.cons_append] at hscan ⊢
  rw [scanUpTo, List.dropWhile_cons_of_neg (by simp [hspace])]
  simp [hscan]

/-- No number comes right after another one. -/
def Apart (tokens : List Token) : Prop :=
  tokens.IsChain fun t u => t.isNumber = true → u.isNumber = false

theorem scanUpTo_flatMap {tokens : List Token} (hplain : ∀ t ∈ tokens, t.IsPlain)
    (hapart : Apart tokens) {fuel : Nat} (hfuel : tokens.length ≤ fuel) :
    scanUpTo fuel (tokens.flatMap render) = some tokens := by
  induction tokens generalizing fuel with
  | nil => cases fuel <;> rfl
  | cons t tokens ih =>
    obtain ⟨fuel, rfl⟩ : ∃ n, fuel = n + 1 := ⟨fuel - 1, by simp at hfuel; omega⟩
    have hnext : t.isNumber = true → EndsNumeral (tokens.flatMap render) := by
      intro hnumber c hc
      cases tokens with
      | nil => cases hc
      | cons u tokens =>
        obtain ⟨d, more, hrender, -, hends⟩ := u.render_head?
        rw [List.flatMap_cons, hrender] at hc
        obtain rfl := Option.some.inj hc
        exact hends ((List.isChain_cons.mp hapart).1 u rfl hnumber)
    rw [List.flatMap_cons, scanUpTo_succ (hplain t List.mem_cons_self) hnext,
      ih (fun u hu => hplain u (List.mem_cons_of_mem _ hu)) hapart.of_cons (by simpa using hfuel)]
    rfl

/-- Every token is written with at least one character. -/
theorem length_le_flatMap (tokens : List Token) :
    tokens.length ≤ (tokens.flatMap render).length := by
  induction tokens with
  | nil => exact Nat.le_refl _
  | cons t tokens ih =>
    obtain ⟨c, more, hrender, -⟩ := t.render_head?
    rw [List.flatMap_cons, hrender, List.length_append, List.length_cons, List.length_cons]
    omega

theorem scan_flatMap {tokens : List Token} (hplain : ∀ t ∈ tokens, t.IsPlain)
    (hapart : Apart tokens) : scan (tokens.flatMap render) = some tokens :=
  scanUpTo_flatMap hplain hapart (length_le_flatMap tokens)

end Json.Token

end ProcedureBridge
