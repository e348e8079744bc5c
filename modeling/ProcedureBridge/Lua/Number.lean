import ProcedureBridge.Number.Decimal

/-! # Numbers of Lua

A number is a 64-bit integer or a float. Integer arithmetic wraps around; an operation on an
integer and a float is done on floats, while comparisons of the two are exact. -/

namespace ProcedureBridge.Lua

inductive Num
  | int (n : Int64)
  | float (x : Float)

namespace Num

def toFloat : Num → Float
  | int n => n.toFloat
  | float x => x

/-- The integer that an exact value is, if it is in range. -/
def int64OfInt? (n : Int) : Option Int64 :=
  if Int64.minValue.toInt ≤ n && n ≤ Int64.maxValue.toInt then some (.ofInt n) else none

/-- The integer that a float is, if it is one that is in range. -/
def integerOfFloat? (x : Float) : Option Int64 :=
  (Number.Dyadic.ofFloat? x).bind fun d => d.toInt?.bind int64OfInt?

def toInteger? : Num → Option Int64
  | int n => some n
  | float x => integerOfFloat? x

/-- A float below an integer, exactly. -/
def floatLtInt (x : Float) (n : Int64) : Bool :=
  match Number.Dyadic.ofFloat? x with
  | some d => decide (d.floor < n.toInt)
  | none => !x.isNaN && x < 0.0

def floatLeInt (x : Float) (n : Int64) : Bool :=
  match Number.Dyadic.ofFloat? x with
  | some d => decide (d.ceil ≤ n.toInt)
  | none => !x.isNaN && x < 0.0

def intLtFloat (n : Int64) (x : Float) : Bool :=
  match Number.Dyadic.ofFloat? x with
  | some d => decide (n.toInt < d.ceil)
  | none => !x.isNaN && 0.0 < x

def intLeFloat (n : Int64) (x : Float) : Bool :=
  match Number.Dyadic.ofFloat? x with
  | some d => decide (n.toInt ≤ d.floor)
  | none => !x.isNaN && 0.0 < x

def lt : Num → Num → Bool
  | int a, int b => decide (a < b)
  | float a, float b => a < b
  | int a, float b => intLtFloat a b
  | float a, int b => floatLtInt a b

def le : Num → Num → Bool
  | int a, int b => decide (a ≤ b)
  | float a, float b => a ≤ b
  | int a, float b => intLeFloat a b
  | float a, int b => floatLeInt a b

def beq : Num → Num → Bool
  | int a, int b => a == b
  | float a, float b => a == b
  | int a, float b => integerOfFloat? b == some a
  | float a, int b => integerOfFloat? a == some b

instance : BEq Num := ⟨beq⟩

/-! ## Arithmetic -/

inductive ArithOp
  | add
  | sub
  | mul
  | div
  | mod
  | pow
  | idiv
deriving DecidableEq

inductive BitOp
  | and
  | or
  | xor
  | shl
  | shr
deriving DecidableEq

/-- The remainder with the sign of the divisor. -/
def floatMod (a b : Float) : Float :=
  let m := Number.truncatedRemainder a b
  if (m > 0.0 && b < 0.0) || (m < 0.0 && b > 0.0) then m + b else m

def floatArith : ArithOp → Float → Float → Float
  | .add, a, b => a + b
  | .sub, a, b => a - b
  | .mul, a, b => a * b
  | .div, a, b => a / b
  | .mod, a, b => floatMod a b
  | .pow, a, b => if b == 2.0 then a * a else a.pow b
  | .idiv, a, b => (a / b).floor

/-- Arithmetic on two numbers, or why there is no result. -/
def arith (op : ArithOp) (a b : Num) : Except String Num :=
  match op, a, b with
  | .add, int a, int b => .ok (int (a + b))
  | .sub, int a, int b => .ok (int (a - b))
  | .mul, int a, int b => .ok (int (a * b))
  | .idiv, int a, int b =>
    if b = 0 then .error "attempt to perform 'n//0'"
    else .ok (int (.ofInt (a.toInt.fdiv b.toInt)))
  | .mod, int a, int b =>
    if b = 0 then .error "attempt to perform 'n%%0'"
    else .ok (int (.ofInt (a.toInt.fmod b.toInt)))
  | op, a, b => .ok (float (floatArith op a.toFloat b.toFloat))

/-- Shifts to the left, or to the right by a negative amount. Vacated bits are zero. -/
def shiftLeft (a b : Int64) : Int64 :=
  let bits := a.toUInt64
  let amount := b.toInt
  if amount ≤ -64 || 64 ≤ amount then 0
  else if 0 ≤ amount then (bits <<< UInt64.ofNat amount.toNat).toInt64
  else (bits >>> UInt64.ofNat (-amount).toNat).toInt64

def bitwise (op : BitOp) (a b : Int64) : Int64 :=
  match op with
  | .and => a &&& b
  | .or => a ||| b
  | .xor => a ^^^ b
  | .shl => shiftLeft a b
  | .shr => if b = Int64.minValue then 0 else shiftLeft a (-b)

def neg : Num → Num
  | int n => int (-n)
  | float x => float (-x)

/-! ## Text -/

/-- Fourteen significant digits. A float that looks like an integer gets a point and a zero. What is
no number has the sign of what invalid operations give. -/
def floatText (x : Float) : List Char :=
  let text := if x.isNaN then "-nan".toList else Number.general 14 x
  if text.all (fun c => c.isDigit || c = '-') then text ++ ['.', '0'] else text

def text : Num → List Char
  | int n => (toString n.toInt).toList
  | float x => floatText x

def isSpace (c : Char) : Bool :=
  c = ' ' || c = '\t' || c = '\n' || c = '\x0b' || c = '\x0c' || c = '\r'

def hexValue? (c : Char) : Option Nat :=
  if c.isDigit then some (c.toNat - 48)
  else if 'a' ≤ c && c ≤ 'f' then some (c.toNat - 87)
  else if 'A' ≤ c && c ≤ 'F' then some (c.toNat - 55)
  else none

def isHexDigit (c : Char) : Bool := (hexValue? c).isSome

def ofDigits (base : Nat) (digits : List Char) : Nat :=
  digits.foldl (fun n c => n * base + (hexValue? c).getD 0) 0

/-- The float nearest to `digits * 10 ^ e`. -/
def floatOfDecimal (digits : Nat) (e : Int) : Float :=
  if digits = 0 then 0.0
  else
    let top := (Number.decimalLength digits : Int) + e
    if 400 < top then 1.0 / 0.0
    else if top < -400 then 0.0
    else
      match e with
      | .ofNat e => Float.ofScientific digits false e
      | .negSucc e => Float.ofScientific digits true (e + 1)

/-- An exponent, which has at least one digit. -/
def exponent? (cs : List Char) : Option (Int × List Char) :=
  let (negative, rest) :=
    match cs with
    | '-' :: rest => (true, rest)
    | '+' :: rest => (false, rest)
    | rest => (false, rest)
  let digits := rest.takeWhile Char.isDigit
  if digits.isEmpty then none
  else
    let n : Int := ofDigits 10 digits
    some (if negative then -n else n, rest.dropWhile Char.isDigit)

/-- Digits with at most one point among them: the digits, how many stand behind the point, if there
is a point, and the rest. -/
def mantissa (isDigit : Char → Bool) (cs : List Char) : List Char × Option Nat × List Char :=
  let whole := cs.takeWhile isDigit
  match cs.dropWhile isDigit with
  | '.' :: rest =>
    let fraction := rest.takeWhile isDigit
    (whole ++ fraction, some fraction.length, rest.dropWhile isDigit)
  | rest => (whole, none, rest)

/-- A numeral in base 16, behind its `0x`. -/
def hexadecimal? (negative : Bool) (cs : List Char) : Option (Num × List Char) :=
  let (digits, fraction, rest) := mantissa isHexDigit cs
  if digits.isEmpty then none
  else
    let value := ofDigits 16 digits
    let scaled (e : Int) : Num :=
      let x := Number.roundScaled value (e - 4 * (fraction.getD 0 : Nat))
      float (if negative then -x else x)
    match rest with
    | c :: after =>
      if c = 'p' || c = 'P' then
        (exponent? after).map fun (e, rest) => (scaled (max (-20000) (min 20000 e)), rest)
      else if fraction.isSome then some (scaled 0, rest)
      else some (int (if negative then -(.ofNat value) else .ofNat value), rest)
    | [] =>
      if fraction.isSome then some (scaled 0, [])
      else some (int (if negative then -(.ofNat value) else .ofNat value), [])

/-- A numeral in base 10. One that is written as an integer but is out of range is a float. -/
def decimal? (negative : Bool) (cs : List Char) : Option (Num × List Char) :=
  let (digits, fraction, rest) := mantissa Char.isDigit cs
  if digits.isEmpty then none
  else
    let value := ofDigits 10 digits
    let scaled (e : Int) : Num :=
      let x := floatOfDecimal value (e - (fraction.getD 0 : Nat))
      float (if negative then -x else x)
    let plain : Num :=
      match fraction, int64OfInt? (if negative then -value else value) with
      | none, some n => int n
      | _, _ => scaled 0
    match rest with
    | c :: after =>
      if c = 'e' || c = 'E' then (exponent? after).map fun (e, rest) => (scaled e, rest)
      else some (plain, rest)
    | [] => some (plain, [])

/-- The number that a text spells, blanks around it and a sign in front allowed. -/
def ofText? (cs : List Char) : Option Num :=
  let cs := cs.dropWhile isSpace
  let (negative, cs) :=
    match cs with
    | '-' :: rest => (true, rest)
    | '+' :: rest => (false, rest)
    | rest => (false, rest)
  let read :=
    match cs with
    | '0' :: 'x' :: rest => hexadecimal? negative rest
    | '0' :: 'X' :: rest => hexadecimal? negative rest
    | cs => decimal? negative cs
  match read with
  | some (n, rest) => if rest.all isSpace then some n else none
  | none => none

end Num

end ProcedureBridge.Lua
