/-! # Exact values of floats

A finite binary64 number is `m * 2 ^ e`. Working on `m` and `e` makes comparison with integers,
rounding to integers and remainders exact. -/

namespace ProcedureBridge.Number

/-- The value `m * 2 ^ e`, negated if `negative`. -/
structure Dyadic where
  negative : Bool
  m : Nat
  e : Int
deriving DecidableEq

namespace Dyadic

/-- The exact value of a finite float. -/
def ofFloat? (x : Float) : Option Dyadic :=
  let bits := x.toBits.toNat
  let negative := decide (Nat.pow 2 63 ≤ bits)
  let exponent : Nat := bits / Nat.pow 2 52 % Nat.pow 2 11
  let fraction : Nat := bits % Nat.pow 2 52
  if exponent = 2047 then none
  else if exponent = 0 then some ⟨negative, fraction, -1074⟩
  else some ⟨negative, fraction + Nat.pow 2 52, (exponent : Int) - 1075⟩

/-- Numerator and denominator of the absolute value. -/
def ratio (d : Dyadic) : Nat × Nat :=
  match d.e with
  | .ofNat e => (d.m * Nat.pow 2 e, 1)
  | .negSucc e => (d.m, Nat.pow 2 (e + 1))

/-- The greatest integer that is not above the value. -/
def floor (d : Dyadic) : Int :=
  let (n, k) := d.ratio
  if d.negative then Int.fdiv (-n) k else Int.fdiv n k

/-- The least integer that is not below the value. -/
def ceil (d : Dyadic) : Int :=
  let (n, k) := d.ratio
  if d.negative then -Int.fdiv n k else -Int.fdiv (-n) k

/-- The integer that the value is, if it is one. -/
def toInt? (d : Dyadic) : Option Int :=
  let (n, k) := d.ratio
  if n % k = 0 then some (if d.negative then -(n / k : Nat) else (n / k : Nat)) else none

end Dyadic

/-- The float nearest to `m * 2 ^ e`, of two the one with the even last digit. -/
def roundScaled (m : Nat) (e : Int) : Float :=
  if m = 0 then 0.0
  else
    let length : Int := m.log2 + 1
    -- The power of two that the last digit stands for: 53 digits, or fewer near zero.
    let unit := max (e + length - 53) (-1074)
    if 1100 < unit then 1.0 / 0.0
    else
      match unit - e with
      | .ofNat 0 => (Float.ofNat m).scaleB e
      | .negSucc _ => (Float.ofNat m).scaleB e
      | .ofNat drop =>
        if m.log2 + 2 < drop then 0.0
        else
          let q := m >>> drop
          let r := m % Nat.pow 2 drop
          let half := Nat.pow 2 (drop - 1)
          let q := if half < r || (r = half && q % 2 = 1) then q + 1 else q
          (Float.ofNat q).scaleB unit

/-- The remainder of a division that rounds toward zero; it has the sign of `a`. -/
def truncatedRemainder (a b : Float) : Float :=
  match Dyadic.ofFloat? a, Dyadic.ofFloat? b with
  | some x, some y =>
    if y.m = 0 then 0.0 / 0.0
    else
      let e := min x.e y.e
      let r := x.m * Nat.pow 2 (x.e - e).toNat % (y.m * Nat.pow 2 (y.e - e).toNat)
      let r := roundScaled r e
      if x.negative then -r else r
  | some _, none => if b.isNaN then b else a
  | none, _ => 0.0 / 0.0

end ProcedureBridge.Number
