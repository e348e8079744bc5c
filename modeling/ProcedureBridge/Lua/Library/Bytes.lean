import ProcedureBridge.Lua.Library.Argument

/-! # Functions on strings

A string is a sequence of bytes, and positions count bytes from 1 on. -/

namespace ProcedureBridge.Lua

namespace Library

/-- A start index, counted from the end if it is negative, as a position from 1 on. -/
def startIndex (i : Int) (size : Nat) : Nat :=
  if 0 < i then i.toNat
  else if i = 0 || i < -(size : Int) then 1
  else (size + i + 1).toNat

/-- An end index in the same way; it may be 0. -/
def endIndex (i : Int) (size : Nat) : Nat :=
  if (size : Int) < i then size
  else if 0 ≤ i then i.toNat
  else if i < -(size : Int) then 0
  else (size + i + 1).toNat

/-- The longest string that a repetition may make. -/
def repeatLimit : Nat := 0x7fffffff

def repeated (bytes separator : ByteArray) : Nat → ByteArray → ByteArray
  | 0, done => done
  | 1, done => done ++ bytes
  | n + 1, done => repeated bytes separator n (done ++ bytes ++ separator)

def mapBytes (f : UInt8 → UInt8) (bytes : ByteArray) : ByteArray :=
  (bytes.toList.map f).toByteArray

def upperByte (b : UInt8) : UInt8 := if 97 ≤ b && b ≤ 122 then b - 32 else b

def lowerByte (b : UInt8) : UInt8 := if 65 ≤ b && b ≤ 90 then b + 32 else b

def string (f : StringFunction) (s : Site) (args : List Value) : Eval (List Value) := do
  match f with
  | .len => do one (.ofNat (← bytesArg s args 0 "len").size)
  | .upper => do one (.str (mapBytes upperByte (← bytesArg s args 0 "upper")))
  | .lower => do one (.str (mapBytes lowerByte (← bytesArg s args 0 "lower")))
  | .reverse => do one (.str (← bytesArg s args 0 "reverse").toList.reverse.toByteArray)
  | .sub => do
    let bytes ← bytesArg s args 0 "sub"
    let i ← intArg s args 1 "sub"
    let j ← intArgOr s args 2 "sub" (-1)
    let start := startIndex i bytes.size
    let stop := endIndex j bytes.size
    one (.str (bytes.extract (start - 1) stop))
  | .rep => do
    let bytes ← bytesArg s args 0 "rep"
    let n ← intArg s args 1 "rep"
    let separator ← if (arg args 2).isNil then pure ByteArray.empty else bytesArg s args 2 "rep"
    if n ≤ 0 then one (.str ByteArray.empty)
    else if repeatLimit < (bytes.size + separator.size) * n.toNat then
      s.error "resulting string too large"
    else one (.str (repeated bytes separator n.toNat ByteArray.empty))
  | .byte => do
    let bytes ← bytesArg s args 0 "byte"
    let i ← intArgOr s args 1 "byte" 1
    let start := startIndex i bytes.size
    let j ← intArgOr s args 2 "byte" start
    let stop := endIndex j bytes.size
    pure ((bytes.extract (start - 1) stop).toList.map fun b => .ofNat b.toNat)
  | .char => do
    let rec go : Nat → Nat → Eval (List UInt8)
      | 0, _ => pure []
      | n + 1, i => do
        let c ← intArg s args i "char"
        if c < 0 || 255 < c then s.badArgument (i + 1) "char" "value out of range"
        else do pure (UInt8.ofNat c.toNat :: (← go n (i + 1)))
    one (.str (← go args.length 0).toByteArray)

end Library

end ProcedureBridge.Lua
