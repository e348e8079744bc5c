import ProcedureBridge.Lua.Eval

/-! # Data and values

What a datum is in Lua, and which datum a value of Lua stands for. -/

namespace ProcedureBridge.Lua

namespace Convert

/-! ## From data -/

/-- An integer out of range becomes a float. -/
def ofInt (n : Int) : Value :=
  match Num.int64OfInt? n with
  | some n => .int n
  | none => if n < 0 then .float (-Float.ofNat n.natAbs) else .float (UInt64.ofNat n.toNat).toFloat

mutual

def ofDatum : Datum → Machine → Value × Machine
  | .null, m => (.nil, m)
  | .bool b, m => (.bool b, m)
  | .int n, m => (ofInt n, m)
  | .float x, m => (.float x, m)
  | .string s, m => (.ofString s, m)
  | .array items, m =>
    let (place, m) :=
      m.newTable { Table.withRoom items.length 0 with metatable := some m.arrayMeta }
    (.table place, fillItems place 1 items m)
  | .object members, m =>
    let (place, m) := m.newTable (.withRoom 0 members.length)
    (.table place, fillMembers place members m)

/-- Sets the items from an index on. A null leaves a gap. -/
def fillItems (place : Nat) : Nat → List Datum → Machine → Machine
  | _, [], m => m
  | n, d :: ds, m =>
    let (v, m) := ofDatum d m
    fillItems place (n + 1) ds (m.modifyTable place fun t => t.setNat n v)

/-- Sets the members that are not null. -/
def fillMembers (place : Nat) : List (String × Datum) → Machine → Machine
  | [], m => m
  | (name, d) :: ds, m =>
    let (v, m) := ofDatum d m
    fillMembers place ds (m.setField place name v)

end

def ofData : List Datum → Machine → List Value × Machine
  | [], m => ([], m)
  | d :: ds, m =>
    let (v, m) := ofDatum d m
    let (vs, m) := ofData ds m
    (v :: vs, m)

/-! ## To data -/

def unsupported (v : Value) : ScriptError :=
  .conversion ("unsupported value type `" ++ v.kindName ++ "`")

def recursive : ScriptError := .conversion "recursive table detected"

def unexpected (v : Value) (expected : String) : ScriptError :=
  .conversion ("invalid type: " ++ v.kindName ++ ", expected " ++ expected)

/-- The items from an index on, up to the first that is nil. -/
def itemsFrom (t : Table) : Nat → Nat → List Value
  | 0, _ => []
  | fuel + 1, n =>
    let v := t.getNat n
    if v.isNil then [] else v :: itemsFrom t fuel (n + 1)

def items (t : Table) : List Value := itemsFrom t (t.array.size + t.slots.size) 1

/-- The table stands for an array. -/
def isList (m : Machine) (t : Table) : Bool := decide (0 < t.length) || m.isArray t

def ofFloat (x : Float) : Datum := if x.isFinite then .float x else .null

def text (v : Value) (bytes : ByteArray) (expected : String) : Except ScriptError String :=
  match String.fromUTF8? bytes with
  | some s => .ok s
  | none => .error (unexpected v expected)

def memberName : Value → Except ScriptError String
  | .str bytes => text (.str bytes) bytes "a string key"
  | v => .error (unexpected v "a string key")

/-- The datum of a value inside the tables `around`. No chain of distinct tables is longer than the
number of tables. -/
def toDatumUpTo (m : Machine) : Nat → List Nat → Value → Except ScriptError Datum
  | 0, _, _ => .error recursive
  | fuel + 1, around, v =>
    match v with
    | .nil => .ok .null
    | .bool b => .ok (.bool b)
    | .num (.int n) => .ok (.int n.toInt)
    | .num (.float x) => .ok (ofFloat x)
    | .str bytes => (text v bytes "any valid JSON value").map .string
    | .table place =>
      if around.contains place then .error recursive
      else
        let t := m.table place
        if isList m t then
          ((items t).mapM (toDatumUpTo m fuel (place :: around))).map .array
        else do
          let members ← t.entries.mapM fun (key, value) => do
            let name ← memberName key
            let datum ← toDatumUpTo m fuel (place :: around) value
            pure (name, datum)
          pure (.object members)
    | v => .error (unsupported v)

/-- The datum that a value stands for, if it stands for one. -/
def toDatum (v : Value) (m : Machine) : Except ScriptError Datum :=
  toDatumUpTo m (m.tables.size + 1) [] v

/-! ## Options of a report -/

/-- A value that nobody reads still has to be one that can be read. -/
def skipUpTo (m : Machine) : Nat → List Nat → Value → Except ScriptError Unit
  | 0, _, _ => .error recursive
  | fuel + 1, around, v =>
    match v with
    | .table place =>
      if around.contains place then .error recursive
      else
        let t := m.table place
        let skip := skipUpTo m fuel (place :: around)
        if isList m t then (items t).forM skip
        else t.entries.forM fun (key, value) => do skip key; skip value
    | .nil => .ok ()
    | .bool _ => .ok ()
    | .num _ => .ok ()
    | .str _ => .ok ()
    | v => .error (unsupported v)

def optionText : Value → Except ScriptError String
  | .str bytes => text (.str bytes) bytes "a string"
  | v => .error (if v.kindName = "table" || v.kindName = "boolean" || v.toNum?.isSome then
      unexpected v "a string" else unsupported v)

def optionPosition : Value → Except ScriptError UInt32
  | .num (.int n) =>
    if 0 ≤ n.toInt && n.toInt < UInt32.size then .ok (UInt32.ofNat n.toInt.toNat)
    else .error (.conversion ("invalid value: integer `" ++ toString n.toInt ++ "`, expected u32"))
  | v => .error (unexpected v "u32")

/-- Reads one option. Unknown ones are skipped. -/
def readOption (m : Machine) (place : Nat) (options : ReportOptions) (key value : Value) :
    Except ScriptError ReportOptions :=
  match key with
  | .str name =>
    match String.fromUTF8? name with
    | some "code" => do pure { options with code := some (← optionText value) }
    | some "detail" => do pure { options with detail := some (← optionText value) }
    | some "hint" => do pure { options with hint := some (← optionText value) }
    | some "context" => do pure { options with context := some (← optionText value) }
    | some "position" => do pure { options with position := some (← optionPosition value) }
    | _ => do
      skipUpTo m (m.tables.size + 1) [place] value
      pure options
  | key => .error (unexpected key "field identifier")

def reportOptions (m : Machine) : Value → Except ScriptError ReportOptions
  | .nil => .ok {}
  | .table place =>
    (m.table place).entries.foldlM
      (fun options (key, value) => readOption m place options key value) {}
  | v => .error (unexpected v "table")

end Convert

end ProcedureBridge.Lua
