import ProcedureBridge.Number.Dyadic

/-! # Decimal text of floats

The general format: a given number of significant digits, rounded exactly, a tie going to the even
digit; trailing zeros are dropped, and the exponent is written out when it is below -4 or not below
the number of digits. -/

namespace ProcedureBridge.Number

def decimalLength (n : Nat) : Nat := (Nat.toDigits 10 n).length

/-- The quotient rounded to the nearest integer, a tie going to the even one. -/
def divNearest (n k : Nat) : Nat :=
  let q := n / k
  let r := n % k
  if k < 2 * r || (2 * r = k && q % 2 = 1) then q + 1 else q

/-- The exponent of ten of the first digit of `n / k`, for positive `n` and `k`. -/
def decimalExponent (n k : Nat) : Int :=
  if k ≤ n then (decimalLength (n / k) : Int) - 1
  else
    let d := decimalLength (k / n)
    if k ≤ n * Nat.pow 10 (d - 1) then -((d : Int) - 1) else -(d : Int)

/-- The first `count` digits of `n / k`, rounded, as a number of `count` digits, and the exponent
of ten of the first of them. -/
def significant (count n k : Nat) : Nat × Int :=
  let p := decimalExponent n k
  let q :=
    match (count : Int) - 1 - p with
    | .ofNat s => divNearest (n * Nat.pow 10 s) k
    | .negSucc s => divNearest n (k * Nat.pow 10 (s + 1))
  if q = Nat.pow 10 count then (Nat.pow 10 (count - 1), p + 1) else (q, p)

def dropTrailingZeros (digits : List Char) : List Char :=
  (digits.reverse.dropWhile (· = '0')).reverse

/-- Places the point behind the digit with exponent 0. -/
def positional (digits : List Char) (exponent : Int) : List Char :=
  match exponent with
  | .ofNat p =>
    let whole := (digits ++ List.replicate (p + 1 - digits.length) '0').take (p + 1)
    let fraction := digits.drop (p + 1)
    if fraction.isEmpty then whole else whole ++ '.' :: fraction
  | .negSucc z => '0' :: '.' :: List.replicate z '0' ++ digits

/-- One digit, the point, the other digits and the exponent, of which two digits are written at
least. -/
def scientific (digits : List Char) (exponent : Int) : List Char :=
  let mantissa :=
    match digits with
    | [] => []
    | [d] => [d]
    | d :: rest => d :: '.' :: rest
  let size := Nat.toDigits 10 exponent.natAbs
  let size := if size.length < 2 then '0' :: size else size
  mantissa ++ 'e' :: (if exponent < 0 then '-' else '+') :: size

/-- The general format with `count` significant digits. -/
def general (count : Nat) (x : Float) : List Char :=
  let negative := decide (Nat.pow 2 63 ≤ x.toBits.toNat)
  let sign := if negative then ['-'] else []
  match Dyadic.ofFloat? x with
  | none => sign ++ (if x.isNaN then "nan" else "inf").toList
  | some d =>
    if d.m = 0 then sign ++ ['0']
    else
      let (n, k) := d.ratio
      let (q, p) := significant count n k
      let digits := dropTrailingZeros (Nat.toDigits 10 q)
      sign ++ if p < -4 || (count : Int) ≤ p then scientific digits p else positional digits p

end ProcedureBridge.Number
