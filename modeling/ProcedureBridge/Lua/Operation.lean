import ProcedureBridge.Lua.Eval
import ProcedureBridge.Text.Utf8

/-! # Operations

What the operators and the access to fields do, metatables included. -/

namespace ProcedureBridge.Lua

namespace Operation

/-! ## Fields -/

def chainLimit : Nat := 2000

/-- A field of an exception. -/
def exceptionField (e : Exception) (key : Value) : Eval Value := do
  let text (s : Option String) : Value := (s.map Value.ofString).getD .nil
  let unknown (name : String) : Eval Value :=
    Eval.raise (.ofString ("attempt to get an unknown field '" ++ name ++ "'"))
  match key with
  | .str name =>
    match String.fromUTF8? name with
    | some "severity" => pure (.ofString e.severity.name)
    | some "code" => pure (.ofString e.code.toString)
    | some "message" => pure (.ofString e.head.message)
    | some "detail" => pure (text e.head.detail)
    | some "hint" => pure (text e.head.hint)
    | some "context" => pure (text e.head.context)
    | some "position" =>
      pure ((e.head.position.map fun n => Value.ofNat n.toNat).getD .nil)
    | some "cause" =>
      match e.cause? with
      | none => pure .nil
      | some cause =>
        let identity ← Eval.update Machine.newIdentity
        pure (.exception identity cause)
    | some name => unknown name
    | none => unknown "?"
  | _ => unknown "?"

def handleField (key : Value) : Value :=
  match key with
  | .str name =>
    match String.fromUTF8? name with
    | some "enter" => .native (.handle .enter)
    | some "commit" => .native (.handle .commit)
    | some "abort" => .native (.handle .abort)
    | some "status" => .native (.handle .status)
    | _ => .nil
  | _ => .nil

/-- Reads a field, through at most so many metatables. -/
def indexUpTo (r : Runner) (s : Site) : Nat → Value → Value → Eval Value
  | 0, _, _ => s.error "'__index' chain too long; possibly a loop"
  | n + 1, object, key => do
    let follow (absent : Eval Value) : Eval Value := do
      let handler ← Eval.gets fun m => m.metamethod object "__index"
      if handler.isNil then absent
      else if handler.isFunction then do pure (first (← r.callNested s handler [object, key]))
      else indexUpTo r s n handler key
    match object with
    | .table place =>
      let v ← Eval.gets fun m => (m.table place).get key
      if v.isNil then follow (pure .nil) else pure v
    | .exception _ e => exceptionField e key
    | .transaction _ => pure (handleField key)
    | object => follow (s.error ("attempt to index a " ++ object.typeName ++ " value"))

def index (r : Runner) (s : Site) (object key : Value) : Eval Value :=
  indexUpTo r s chainLimit object key

/-- Sets a field without asking metatables. -/
def rawSet (s : Site) (place : Nat) (key value : Value) : Eval PUnit :=
  match key with
  | .nil => s.error "table index is nil"
  | .num (.float x) =>
    if x.isNaN then s.error "table index is NaN"
    else Eval.change fun m => m.modifyTable place fun t => t.set key value
  | key => Eval.change fun m => m.modifyTable place fun t => t.set key value

def setIndexUpTo (r : Runner) (s : Site) : Nat → Value → Value → Value → Eval PUnit
  | 0, _, _, _ => s.error "'__newindex' chain too long; possibly a loop"
  | n + 1, object, key, value => do
    let follow (absent : Eval PUnit) : Eval PUnit := do
      let handler ← Eval.gets fun m => m.metamethod object "__newindex"
      if handler.isNil then absent
      else if handler.isFunction then do
        let _ ← r.callNested s handler [object, key, value]
      else setIndexUpTo r s n handler key value
    match object with
    | .table place =>
      let plain ← Eval.gets fun m =>
        (m.table place).metatable.isNone || !((m.table place).get key).isNil
      if plain then rawSet s place key value else follow (rawSet s place key value)
    | object => follow (s.error ("attempt to index a " ++ object.typeName ++ " value"))

def setIndex (r : Runner) (s : Site) (object key value : Value) : Eval PUnit :=
  setIndexUpTo r s chainLimit object key value

/-! ## Operators -/

/-- What the first operand has for an event or, if it has nothing, the second. -/
def handlerOf (event : String) (a b : Value) : Eval Value :=
  Eval.gets fun m =>
    let own := m.metamethod a event
    if own.isNil then m.metamethod b event else own

/-- Calls the handler of an event. -/
def handled (r : Runner) (s : Site) (event : String) (a b : Value) (absent : Eval Value) :
    Eval Value := do
  let handler ← handlerOf event a b
  if handler.isNil then absent else do pure (first (← r.callNested s handler [a, b]))

def arithEvent : Num.ArithOp → String
  | .add => "__add"
  | .sub => "__sub"
  | .mul => "__mul"
  | .div => "__div"
  | .mod => "__mod"
  | .pow => "__pow"
  | .idiv => "__idiv"

def bitEvent : Num.BitOp → String
  | .and => "__band"
  | .or => "__bor"
  | .xor => "__bxor"
  | .shl => "__shl"
  | .shr => "__shr"

/-- The operand that an operation on numbers fails for: the second one, if the first could be
used. -/
def culprit (a b : Value) : Value := if a.toNum?.isSome then b else a

def arith (r : Runner) (s : Site) (op : Num.ArithOp) (a b : Value) : Eval Value :=
  match a.toNum?, b.toNum? with
  | some x, some y =>
    match Num.arith op x y with
    | .ok n => pure (.num n)
    | .error message => s.error message
  | _, _ =>
    handled r s (arithEvent op) a b
      (s.error ("attempt to perform arithmetic on a " ++ (culprit a b).typeName ++ " value"))

/-! Strings are not taken for numbers by the operators on bits. -/

/-- Refuses a number; `name` is what messages call the operand. -/
def notInteger (s : Site) (name : String) : Eval Value :=
  s.error ("number" ++ name ++ " has no integer representation")

def bitwise (r : Runner) (s : Site) (op : Num.BitOp) (name : Bool → String) (a b : Value) :
    Eval Value :=
  match a, b with
  | .num x, .num y =>
    match x.toInteger?, y.toInteger? with
    | some x, some y => pure (.int (Num.bitwise op x y))
    | none, _ => notInteger s (name true)
    | _, none => notInteger s (name false)
  | a, b =>
    handled r s (bitEvent op) a b
      (s.error ("attempt to perform bitwise operation on a " ++ (culprit a b).typeName ++ " value"))

def concat (r : Runner) (s : Site) (a b : Value) : Eval Value :=
  match a.toBytes?, b.toBytes? with
  | some x, some y => pure (.str (x ++ y))
  | x, _ =>
    let culprit := if x.isSome then b else a
    handled r s "__concat" a b
      (s.error ("attempt to concatenate a " ++ culprit.typeName ++ " value"))

def equals (r : Runner) (s : Site) (a b : Value) : Eval Bool := do
  if a == b then pure true
  else
    match a, b with
    | .table _, .table _ => do pure (← handled r s "__eq" a b (pure (.bool false))).isTrue
    | _, _ => pure false

/-- The order of strings is that of their bytes. -/
def bytesLt : List UInt8 → List UInt8 → Bool
  | _, [] => false
  | [], _ :: _ => true
  | x :: xs, y :: ys => if x = y then bytesLt xs ys else decide (x < y)

def notComparable (s : Site) (a b : Value) : Eval Value :=
  if a.typeName = b.typeName then
    s.error ("attempt to compare two " ++ a.typeName ++ " values")
  else s.error ("attempt to compare " ++ a.typeName ++ " with " ++ b.typeName)

def lessThan (r : Runner) (s : Site) (a b : Value) : Eval Bool :=
  match a, b with
  | .num x, .num y => pure (x.lt y)
  | .str x, .str y => pure (bytesLt x.toList y.toList)
  | a, b => do pure (← handled r s "__lt" a b (notComparable s a b)).isTrue

def lessEqual (r : Runner) (s : Site) (a b : Value) : Eval Bool :=
  match a, b with
  | .num x, .num y => pure (x.le y)
  | .str x, .str y => pure (!bytesLt y.toList x.toList)
  | a, b => do pure (← handled r s "__le" a b (notComparable s a b)).isTrue

/-- An operator between two values. `name` is what messages call the first operand or, for
`false`, the second. -/
def binary (r : Runner) (s : Site) (op : BinaryOp) (name : Bool → String) (a b : Value) :
    Eval Value :=
  match op with
  | .arith op => arith r s op a b
  | .bit op => bitwise r s op name a b
  | .concat => concat r s a b
  | .eq => do pure (.bool (← equals r s a b))
  | .ne => do pure (.bool (!(← equals r s a b)))
  | .lt => do pure (.bool (← lessThan r s a b))
  | .le => do pure (.bool (← lessEqual r s a b))
  | .gt => do pure (.bool (← lessThan r s b a))
  | .ge => do pure (.bool (← lessEqual r s b a))

def length (r : Runner) (s : Site) (a : Value) : Eval Value := do
  match a with
  | .str x => pure (.ofNat x.size)
  | a =>
    let handler ← Eval.gets fun m => m.metamethod a "__len"
    if handler.isNil then
      match a with
      | .table place => do pure (.ofNat (← Eval.gets fun m => (m.table place).length))
      | a => s.error ("attempt to get length of a " ++ a.typeName ++ " value")
    else do pure (first (← r.callNested s handler [a, a]))

def unary (r : Runner) (s : Site) (op : UnaryOp) (name : Bool → String) (a : Value) :
    Eval Value :=
  match op with
  | .not => pure (.bool (!a.isTrue))
  | .length => length r s a
  | .neg =>
    match a.toNum? with
    | some n => pure (.num n.neg)
    | none =>
      handled r s "__unm" a a
        (s.error ("attempt to perform arithmetic on a " ++ a.typeName ++ " value"))
  | .bitNot =>
    match a with
    | .num n =>
      match n.toInteger? with
      | some n => pure (.int (n ^^^ -1))
      | none => notInteger s (name true)
    | a =>
      handled r s "__bnot" a a
        (s.error ("attempt to perform bitwise operation on a " ++ a.typeName ++ " value"))

/-! ## Text -/

def hexAddress (kind : String) (n : Nat) : String :=
  kind ++ ": 0x" ++ String.ofList (Nat.toDigits 16 (0x5581e0000000 + 64 * n))

def handleStatusName : HandleStatus → String
  | .fresh => "new"
  | .open => "open"
  | .committed => "committed"
  | .aborted => "aborted"

/-- Asks for the status of a handle. -/
def statusOf (handle : HandleId) : Eval HandleStatus := fun m k _ =>
  .status handle fun status => k status m

/-- The text of a value. -/
def text (r : Runner) (s : Site) (v : Value) : Eval ByteArray := do
  let plain (text : String) : Eval ByteArray := pure text.toUTF8
  let handler ← Eval.gets fun m => m.metamethod v "__tostring"
  if !handler.isNil then
    match (first (← r.callInner s handler [v])).toBytes? with
    | some bytes => pure bytes
    | none => s.error "'__tostring' must return a string"
  else
    match v with
    | .nil => plain "nil"
    | .bool true => plain "true"
    | .bool false => plain "false"
    | .num n => plain (String.ofList n.text)
    | .str bytes => pure bytes
    | .closure place => plain (hexAddress "function" place)
    | .native f => plain (hexAddress "function" (0x100000000 + (hash f).toNat % 0x100000000))
    | .transaction handle => do
      plain ("transaction (" ++ handleStatusName (← statusOf handle) ++ ")")
    | .exception _ e => plain e.summary
    | .failure _ e => plain e.display
    | .table place =>
      let name ← Eval.gets fun m => m.metamethod v "__name"
      match name with
      | .str name => pure (name ++ (hexAddress "" place).toUTF8)
      | _ => plain (hexAddress "table" place)

/-- An error as it leaves Lua: an error of the bridge is passed on, and anything else becomes its
text. If that fails the new error takes its place. -/
def leaveUpTo (r : Runner) (s : Site) : Nat → Value → Eval ScriptError
  | 0, _ => pure (.runtime "error in error handling")
  | n + 1, v =>
    match v with
    | .failure _ e => pure e
    | v => do
      match ← Eval.attempt (text r s v) with
      | .ok bytes => pure (.runtime (Text.decodeLossy bytes ++ "\n" ++ Eval.traceback))
      | .error v => leaveUpTo r s n v

def leave (r : Runner) (s : Site) (v : Value) : Eval ScriptError := leaveUpTo r s 200 v

end Operation

end ProcedureBridge.Lua
