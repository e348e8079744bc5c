import ProcedureBridge.Lua.Library.Argument

/-! # Functions on tables

A table is taken for the list of what it has at 1, 2, … up to its length, metatables included. -/

namespace ProcedureBridge.Lua

namespace Library

/-- The strings of some items with a separator between them. -/
def concatItems (r : Runner) (s : Site) (v : Value) (separator : ByteArray) :
    Nat → Int → ByteArray → Eval ByteArray
  | 0, _, done => pure done
  | n + 1, i, done => do
    let item ← Operation.index r s.inside v (.int (.ofInt i))
    match item.toBytes? with
    | some bytes =>
      let done := done ++ bytes
      concatItems r s v separator n (i + 1) (if n = 0 then done else done ++ separator)
    | none =>
      s.error ("invalid value (at index " ++ toString i ++ ") in table for 'concat'")

def lengthOf (r : Runner) (s : Site) (v : Value) : Eval Int := do
  match (← Operation.length r s.inside v).toNum? with
  | some n =>
    match n.toInteger? with
    | some n => pure n.toInt
    | none => s.error "object length is not an integer"
  | none => s.error "object length is not an integer"

def moveUp (r : Runner) (s : Site) (v : Value) : Nat → Int → Eval PUnit
  | 0, _ => pure ⟨⟩
  | n + 1, i => do
    let x ← Operation.index r s.inside v (.int (.ofInt (i - 1)))
    Operation.setIndex r s.inside v (.int (.ofInt i)) x
    moveUp r s v n (i - 1)

def moveDown (r : Runner) (s : Site) (v : Value) : Nat → Int → Eval PUnit
  | 0, _ => pure ⟨⟩
  | n + 1, i => do
    let x ← Operation.index r s.inside v (.int (.ofInt (i + 1)))
    Operation.setIndex r s.inside v (.int (.ofInt i)) x
    moveDown r s v n (i + 1)

def items (r : Runner) (s : Site) (v : Value) : Nat → Int → Eval (List Value)
  | 0, _ => pure []
  | n + 1, i => do
    let x ← Operation.index r s.inside v (.int (.ofInt i))
    pure (x :: (← items r s v n (i + 1)))

def table (f : TableFunction) (r : Runner) (s : Site) (args : List Value) :
    Eval (List Value) := do
  let v := arg args 0
  match f with
  | .concat => do
    let _ ← tableArg s args 0 "concat"
    let size ← lengthOf r s v
    let separator ←
      if (arg args 1).isNil then pure ByteArray.empty else bytesArg s args 1 "concat"
    let i ← intArgOr s args 2 "concat" 1
    let j ← intArgOr s args 3 "concat" size
    one (.str (← concatItems r s v separator (j - i + 1).toNat i ByteArray.empty))
  | .insert => do
    let _ ← tableArg s args 0 "insert"
    let size ← lengthOf r s v
    match args with
    | [_, x] => do
      Operation.setIndex r s.inside v (.int (.ofInt (size + 1))) x
      pure []
    | [_, _, x] => do
      let i ← intArg s args 1 "insert"
      if i < 1 || size + 1 < i then s.badArgument 2 "insert" "position out of bounds"
      else
        moveUp r s v (size + 1 - i).toNat (size + 1)
        Operation.setIndex r s.inside v (.int (.ofInt i)) x
        pure []
    | _ => s.error "wrong number of arguments to 'insert'"
  | .remove => do
    let _ ← tableArg s args 0 "remove"
    let size ← lengthOf r s v
    let i ← intArgOr s args 1 "remove" size
    if 1 < args.length && !(1 ≤ i && i ≤ size + 1) && !(size = 0 && i = 0) then
      s.badArgument 2 "remove" "position out of bounds"
    else
      let x ← Operation.index r s.inside v (.int (.ofInt i))
      moveDown r s v (size - i).toNat i
      if i ≤ size || 0 < i then
        Operation.setIndex r s.inside v (.int (.ofInt (max i size))) .nil
      one x
  | .pack => do
    let place ← Eval.update fun m => m.newTable (.withRoom args.length 1)
    Exec.setItems place 1 args
    Eval.change fun m => m.setField place "n" (.ofNat args.length)
    one (.table place)
  | .unpack => do
    let i ← intArgOr s args 1 "unpack" 1
    let j ← if (arg args 2).isNil then lengthOf r s v else intArg s args 2 "unpack"
    if 1000000 ≤ j - i then s.error "too many results to unpack"
    else items r s v (j - i + 1).toNat i

end Library

end ProcedureBridge.Lua
