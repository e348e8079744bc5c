import ProcedureBridge.Lua.Library.Argument

/-! # Basic functions

The functions that every namespace has under a name of their own. -/

namespace ProcedureBridge.Lua

namespace Library

/-- Raises a value. A message gets the position of the caller at the level in front. -/
def raiseAt (s : Site) (v : Value) (level : Int) : Eval (List Value) :=
  match v with
  | .str message =>
    if 0 < level then Eval.raise (.str (s.whereBytes level.toNat ++ message)) else Eval.raise v
  | v => Eval.raise v

def error (s : Site) (args : List Value) : Eval (List Value) := do
  let level ← intArgOr s args 1 "error" 1
  raiseAt s (arg args 0) level

def assert (s : Site) (args : List Value) : Eval (List Value) := do
  present s args 0 "assert"
  if (arg args 0).isTrue then pure args
  else
    match args[1]? with
    | some v => raiseAt s v 1
    | none => raiseAt s (.ofString "assertion failed!") 1

/-- The metatable of a value, or what it shows instead. Those of bridge values are hidden. -/
def getmetatable (s : Site) (args : List Value) : Eval (List Value) := do
  present s args 0 "getmetatable"
  match arg args 0 with
  | .transaction _ => one (.bool false)
  | .exception _ _ => one (.bool false)
  | .failure _ _ => one (.bool false)
  | v =>
    Eval.gets fun m =>
      match m.metatable? v with
      | none => [.nil]
      | some place =>
        let shown := (m.table place).get (.ofString "__metatable")
        [if shown.isNil then .table place else shown]

def setmetatable (s : Site) (args : List Value) : Eval (List Value) := do
  let place ← tableArg s args 0 "setmetatable"
  let set (mt : Option Nat) : Eval (List Value) := do
    let hidden ← Eval.gets fun m => m.metamethod (.table place) "__metatable"
    if hidden.isNil then
      Eval.change fun m => m.modifyTable place fun t => { t with metatable := mt }
      one (.table place)
    else s.error "cannot change a protected metatable"
  match args.drop 1 with
  | .nil :: _ => set none
  | .table mt :: _ => set (some mt)
  | _ => expected s args 1 "setmetatable" "nil or table"

def next (s : Site) (args : List Value) : Eval (List Value) := do
  let place ← tableArg s args 0 "next"
  let found ← Eval.gets fun m => (m.table place).next? (arg args 1)
  match found with
  | none => s.inside.error "invalid key to 'next'"
  | some none => one .nil
  | some (some (k, v)) => pure [k, v]

def pairs (r : Runner) (s : Site) (args : List Value) : Eval (List Value) := do
  present s args 0 "pairs"
  let v := arg args 0
  let handler ← Eval.gets fun m => m.metamethod v "__pairs"
  if handler.isNil then pure [.native .next, v, .nil]
  else
    let vs ← r.callInner s handler [v]
    pure [arg vs 0, arg vs 1, arg vs 2]

def ipairs (s : Site) (args : List Value) : Eval (List Value) := do
  present s args 0 "ipairs"
  pure [.native .ipairsStep, arg args 0, .ofNat 0]

def ipairsStep (r : Runner) (s : Site) (args : List Value) : Eval (List Value) := do
  let i ← intArg s args 1 "ipairs"
  let key := Value.int (.ofInt (i + 1))
  let v ← Operation.index r s.inside (arg args 0) key
  pure (if v.isNil then [.nil] else [key, v])

/-- A protected call: whether it succeeded, then its results or the error. -/
def pcall (r : Runner) (s : Site) (args : List Value) : Eval (List Value) := do
  present s args 0 "pcall"
  match ← Eval.attempt (r.callInner s (arg args 0) args.tail) with
  | .ok vs => pure (.bool true :: vs)
  | .error v => pure [.bool false, v]

/-- Calls a message handler; an error in the handler is handled in turn, so many times. -/
def handleMessage (r : Runner) (s : Site) (handler : Value) : Nat → Value → Eval (List Value)
  | 0, _ => one (.ofString "error in error handling")
  | n + 1, v => do
    match ← Eval.attempt (r.callInner s handler [v]) with
    | .ok vs => one (first vs)
    | .error v => handleMessage r s handler n v

def xpcall (r : Runner) (s : Site) (args : List Value) : Eval (List Value) := do
  if !(arg args 1).isFunction then expected s args 1 "xpcall" "function"
  else
    match ← Eval.attempt (r.callInner s (arg args 0) (args.drop 2)) with
    | .ok vs => pure (.bool true :: vs)
    | .error v => pure (.bool false :: (← handleMessage r s (arg args 1) 200 v))

def rawequal (s : Site) (args : List Value) : Eval (List Value) := do
  present s args 0 "rawequal"
  present s args 1 "rawequal"
  one (.bool (arg args 0 == arg args 1))

def rawget (s : Site) (args : List Value) : Eval (List Value) := do
  let place ← tableArg s args 0 "rawget"
  present s args 1 "rawget"
  Eval.gets fun m => [(m.table place).get (arg args 1)]

def rawset (s : Site) (args : List Value) : Eval (List Value) := do
  let place ← tableArg s args 0 "rawset"
  present s args 1 "rawset"
  present s args 2 "rawset"
  Operation.rawSet s.inside place (arg args 1) (arg args 2)
  one (.table place)

def rawlen (s : Site) (args : List Value) : Eval (List Value) :=
  match arg args 0 with
  | .table place => Eval.gets fun m => [.ofNat (m.table place).length]
  | .str bytes => one (.ofNat bytes.size)
  | _ => s.badArgument 1 "rawlen" "table or string expected"

/-- The arguments from an index on, or their number. -/
def select (s : Site) (args : List Value) : Eval (List Value) := do
  let isCount :=
    match arg args 0 with
    | .str bytes => bytes == "#".toUTF8
    | _ => false
  if isCount then one (.ofNat args.tail.length)
  else
    let n ← intArg s args 0 "select"
    let rest := args.tail
    if 0 < n then pure (rest.drop (n - 1).toNat)
    else if n < 0 && -n ≤ rest.length then pure (rest.drop (rest.length - (-n).toNat))
    else s.badArgument 1 "select" "index out of range"

def digitIn? (base : Nat) (c : Char) : Option Nat :=
  let value :=
    if c.isDigit then some (c.toNat - 48)
    else if c.isAlpha then some (c.toLower.toNat - 87)
    else none
  value.filter (· < base)

/-- A numeral in a base, blanks around it and a minus sign allowed. It wraps around. -/
def numberInBase? (base : Nat) (cs : List Char) : Option Int64 :=
  let cs := cs.dropWhile Num.isSpace
  let (negative, cs) :=
    match cs with
    | '-' :: rest => (true, rest)
    | cs => (false, cs)
  let digits := cs.takeWhile fun c => c.isAlphanum
  let rest := cs.dropWhile fun c => c.isAlphanum
  if digits.isEmpty || !rest.all Num.isSpace then none
  else
    (digits.mapM (digitIn? base)).map fun ds =>
      let n := Int64.ofNat (ds.foldl (fun n d => n * base + d) 0)
      if negative then -n else n

def tonumber (s : Site) (args : List Value) : Eval (List Value) := do
  if (arg args 1).isNil then
    match arg args 0 with
    | .num n => one (.num n)
    | .str bytes => one (((Value.str bytes).toNum?.map Value.num).getD .nil)
    | _ =>
      present s args 0 "tonumber"
      one .nil
  else
    let base ← intArg s args 1 "tonumber"
    match arg args 0 with
    | .str bytes =>
      if base < 2 || 36 < base then s.badArgument 2 "tonumber" "base out of range"
      else
        let cs := bytes.toList.map fun b => Char.ofNat b.toNat
        one (((numberInBase? base.toNat cs).map Value.int).getD .nil)
    | _ => expected s args 0 "tonumber" "string"

def tostring (r : Runner) (s : Site) (args : List Value) : Eval (List Value) := do
  present s args 0 "tostring"
  one (.str (← Operation.text r s (arg args 0)))

def type (s : Site) (args : List Value) : Eval (List Value) := do
  present s args 0 "type"
  one (.ofString (arg args 0).typeName)

end Library

end ProcedureBridge.Lua
