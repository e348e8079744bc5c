/-! # Bytes as text

Decoding UTF-8 where the bytes may be anything: a sequence that is broken off, or that nothing
starts, is shown as one replacement character. -/

namespace ProcedureBridge.Text

/-- How many bytes follow a first byte, and the range of the first of them. -/
def followers? (b : Nat) : Option (Nat × Nat × Nat) :=
  if b < 0x80 then some (0, 0, 0)
  else if 0xC2 ≤ b && b ≤ 0xDF then some (1, 0x80, 0xBF)
  else if b = 0xE0 then some (2, 0xA0, 0xBF)
  else if b = 0xED then some (2, 0x80, 0x9F)
  else if 0xE1 ≤ b && b ≤ 0xEF then some (2, 0x80, 0xBF)
  else if b = 0xF0 then some (3, 0x90, 0xBF)
  else if 0xF1 ≤ b && b ≤ 0xF3 then some (3, 0x80, 0xBF)
  else if b = 0xF4 then some (3, 0x80, 0x8F)
  else none

/-- Takes up to `count` bytes that continue a sequence; the first has to be in the given range. -/
def takeFollowers : Nat → Nat → Nat → List Nat → List Nat × List Nat
  | 0, _, _, bs => ([], bs)
  | count + 1, low, high, b :: bs =>
    if low ≤ b && b ≤ high then
      let (taken, rest) := takeFollowers count 0x80 0xBF bs
      (b :: taken, rest)
    else ([], b :: bs)
  | _ + 1, _, _, [] => ([], [])

/-- The code point of a complete sequence. -/
def pointOf (first : Nat) (followers : List Nat) : Nat :=
  let lead :=
    match followers.length with
    | 0 => first
    | 1 => first - 0xC0
    | 2 => first - 0xE0
    | _ => first - 0xF0
  followers.foldl (fun n b => n * 64 + (b - 0x80)) lead

def replacement : Char := '\uFFFD'

/-- Decodes at most `fuel` sequences. -/
def decodeUpTo : Nat → List Nat → List Char
  | 0, _ => []
  | _ + 1, [] => []
  | fuel + 1, b :: bs =>
    match followers? b with
    | none => replacement :: decodeUpTo fuel bs
    | some (count, low, high) =>
      let (taken, rest) := takeFollowers count low high bs
      let c := if taken.length = count then Char.ofNat (pointOf b taken) else replacement
      c :: decodeUpTo fuel rest

/-- The text of some bytes. Every sequence has at least one byte. -/
def decodeLossy (bytes : ByteArray) : String :=
  match String.fromUTF8? bytes with
  | some text => text
  | none =>
    let bs := bytes.toList.map UInt8.toNat
    String.ofList (decodeUpTo bs.length bs)

end ProcedureBridge.Text
