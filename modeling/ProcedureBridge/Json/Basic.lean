/-! # JSON documents

A document as it was written. Two things are kept that a value would not show: a number is kept as
a numeral, and a string that names half of a surrogate pair, which is no text, is kept as `none`. A
reader that skips a member it does not know accepts both; one that needs the value does not. -/

namespace ProcedureBridge

/-- A decimal numeral: `whole` and the fraction's digits read as one number, the count of the
fraction's digits if there is a point, and the exponent if there is one. -/
structure Numeral where
  negative : Bool
  digits : Nat
  fractionLength : Option Nat
  exponent : Option Int
deriving DecidableEq

namespace Numeral

def ofNat (n : Nat) : Numeral := ⟨false, n, none, none⟩

/-- The natural number a numeral denotes. Whoever writes a point, an exponent or a sign does not
mean one. -/
def natural? (n : Numeral) : Option Nat :=
  if !n.negative && n.fractionLength.isNone && n.exponent.isNone then some n.digits else none

/-- The power of ten that `digits` is multiplied with. -/
def scale (n : Numeral) : Int := n.exponent.getD 0 - (n.fractionLength.getD 0 : Nat)

/-- Everything from here on is rounded to infinity in binary64. -/
def overflowBound : Nat := Nat.pow 2 1024 - Nat.pow 2 970

/-- The numeral denotes a finite binary64 number. -/
def isFinite (n : Numeral) : Bool :=
  if n.digits = 0 then true
  else
    match n.scale with
    | .ofNat e => decide (e ≤ 400) && decide (n.digits * Nat.pow 10 e < overflowBound)
    | .negSucc e =>
      -- The digits alone decide once the power of ten exceeds their number.
      if n.digits.log2 < 3 * (e + 1) then true
      else decide (n.digits < overflowBound * Nat.pow 10 (e + 1))

end Numeral

inductive Json
  | null
  | bool (b : Bool)
  | number (n : Numeral)
  | string (text : Option String)
  | array (items : List Json)
  | object (members : List (Option String × Json))

namespace Json

/-- How deeply arrays and objects are nested. -/
def depth : Json → Nat
  | array items => depths items + 1
  | object members => memberDepths members + 1
  | _ => 0
where
  depths : List Json → Nat
    | [] => 0
    | item :: rest => max item.depth (depths rest)
  memberDepths : List (Option String × Json) → Nat
    | [] => 0
    | (_, value) :: rest => max value.depth (memberDepths rest)

/-- Every string is text and every number is finite. -/
def isExact : Json → Bool
  | number n => n.isFinite
  | string text => text.isSome
  | array items => allExact items
  | object members => membersExact members
  | _ => true
where
  allExact : List Json → Bool
    | [] => true
    | item :: rest => item.isExact && allExact rest
  membersExact : List (Option String × Json) → Bool
    | [] => true
    | (key, value) :: rest => key.isSome && value.isExact && membersExact rest

def string? : Json → Option String
  | string text => text
  | _ => none

def natural? : Json → Option Nat
  | number n => n.natural?
  | _ => none

def bool? : Json → Option Bool
  | bool b => some b
  | _ => none

/-- The value of a member that is absent or null, or read by `read`. -/
def optional {α : Type} (read : Json → Option α) : Json → Option (Option α)
  | null => some none
  | j => (read j).map some

/-- The values given to a key, in order. -/
def valuesOf (key : String) (members : List (Option String × Json)) : List Json :=
  members.filterMap fun (k, v) => if k = some key then some v else none

end Json

end ProcedureBridge
