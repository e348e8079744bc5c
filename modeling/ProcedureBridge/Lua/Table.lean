import ProcedureBridge.Lua.Value

/-! # Tables

A table keeps the values of the keys 1, 2, … in an array as long as more than half of the array is
in use, and the others in a part that grows by doubling. Both sizes change only when a new key finds
no room. The length of a table with gaps depends on these sizes. -/

namespace ProcedureBridge.Lua

structure Table where
  /-- The values of the keys 1, 2, …; some may be nil. -/
  array : Array Value := #[]
  /-- Other keys with their values, in the order of insertion. A key stays when its value is nil. -/
  slots : Array (Value × Value) := #[]
  /-- Where a key is among the slots. -/
  places : Std.HashMap Value Nat := {}
  /-- How many slots there is room for. -/
  capacity : Nat := 0
  metatable : Option Nat := none

namespace Table

/-- The index in the array that belongs to a key. -/
def arrayIndex? (t : Table) (key : Value) : Option Nat :=
  match key with
  | .num (.int n) =>
    let i := n.toInt
    if 1 ≤ i && i ≤ t.array.size then some (i.toNat - 1) else none
  | _ => none

/-- The value of a key in normal form. -/
def getKey (t : Table) (key : Value) : Value :=
  match t.arrayIndex? key with
  | some i => t.array[i]?.getD .nil
  | none =>
    match t.places[key]? with
    | some i => (t.slots[i]?.map Prod.snd).getD .nil
    | none => .nil

def get (t : Table) (key : Value) : Value := t.getKey key.asKey

def getNat (t : Table) (n : Nat) : Value := t.getKey (.ofNat n)

/-- The least power of two that is not below `n`. -/
def roundUp (n : Nat) : Nat :=
  if n ≤ 1 then n else Nat.pow 2 ((n - 1).log2 + 1)

/-- A table with room for so many values in its array and so many slots. -/
def withRoom (items slots : Nat) : Table :=
  { array := Array.replicate items .nil, capacity := roundUp slots }

/-- Entries whose value is not nil, in order. -/
def entries (t : Table) : List (Value × Value) :=
  let items := t.array.toList.zipIdx.map fun (v, i) => (Value.ofNat (i + 1), v)
  (items ++ t.slots.toList).filter fun (_, v) => !v.isNil

/-- The best size for the array, and how many of the given keys it takes: the greatest power of two
of whose keys more than half are there. -/
def bestSize (keys : List Nat) : Nat × Nat :=
  let rec search : Nat → Nat → Nat × Nat → Nat × Nat
    | 0, _, best => best
    | fuel + 1, size, best =>
      if size / 2 < keys.length then
        let used := keys.countP fun k => decide (k ≤ size)
        search fuel (size * 2) (if size / 2 < used then (size, used) else best)
      else best
  search 64 1 (0, 0)

/-- The positive integer that a key is, if it could be in an array. -/
def positive? (key : Value) : Option Nat :=
  match key with
  | .num (.int n) => if 1 ≤ n.toInt && n.toInt ≤ 0x80000000 then some n.toInt.toNat else none
  | _ => none

/-- Appends a slot. -/
def pushSlot (t : Table) (key value : Value) : Table :=
  let place := t.slots.size
  { t with slots := t.slots.push (key, value), places := t.places.insert key place }

/-- Changes an entry, for whose key there is a place. -/
def store (t : Table) (key value : Value) : Table :=
  match t.arrayIndex? key with
  | some i => { t with array := t.array.setIfInBounds i value }
  | none =>
    match t.places[key]? with
    | some i => { t with slots := t.slots.setIfInBounds i (key, value) }
    | none => t.pushSlot key value

/-- Makes room for a new key: the sizes are chosen anew, and what has a value moves. -/
def rehash (t : Table) (key : Value) : Table :=
  let entries := t.entries
  let keys := (key :: entries.map Prod.fst).filterMap positive?
  let (size, used) := bestSize keys
  let start : Table :=
    { array := Array.replicate size .nil
      capacity := roundUp (entries.length + 1 - used)
      metatable := t.metatable }
  entries.foldl (fun t (k, v) => t.store k v) start

/-- Sets the value of a key in normal form. -/
def setKey (t : Table) (key value : Value) : Table :=
  if (t.arrayIndex? key).isSome || t.places.contains key then t.store key value
  else if value.isNil then t
  else if t.slots.size < t.capacity then t.pushSlot key value
  else (t.rehash key).store key value

def set (t : Table) (key value : Value) : Table := t.setKey key.asKey value

def setNat (t : Table) (n : Nat) (value : Value) : Table := t.setKey (.ofNat n) value

/-- Sets the item of a table constructor. The array has room for it, or gets some. -/
def setItem (t : Table) (n : Nat) (value : Value) : Table :=
  if n ≤ t.array.size then t.setNat n value
  else { t with array := (t.array ++ Array.replicate (n - 1 - t.array.size) Value.nil).push value }

/-- Halves the gap between a present index and an absent one until they are neighbours. -/
def border (t : Table) : Nat → Nat → Nat → Nat
  | 0, present, _ => present
  | fuel + 1, present, absent =>
    if absent - present ≤ 1 then present
    else
      let middle := (present + absent) / 2
      if (t.getNat middle).isNil then t.border fuel present middle
      else t.border fuel middle absent

/-- Doubles a present index until it is absent, and looks for the border between. -/
def borderBeyond (t : Table) : Nat → Nat → Nat
  | 0, present => present
  | fuel + 1, present =>
    if (t.getNat (present * 2)).isNil then t.border 64 present (present * 2)
    else t.borderBeyond fuel (present * 2)

/-- The length: an index that is present while the next one is absent, or 0. -/
def length (t : Table) : Nat :=
  let size := t.array.size
  if 0 < size && (t.getNat size).isNil then
    if 2 ≤ size && !(t.getNat (size - 1)).isNil then size - 1
    else t.border 64 0 size
  else if (t.getNat (size + 1)).isNil then size
  else t.borderBeyond 62 (max size 1)

/-- The first entry at or behind a position: positions run through the array, then the slots. -/
def entryFrom (t : Table) : Nat → Nat → Option (Value × Value)
  | 0, _ => none
  | fuel + 1, position =>
    if position < t.array.size then
      match t.array[position]? with
      | some v =>
        if v.isNil then t.entryFrom fuel (position + 1) else some (.ofNat (position + 1), v)
      | none => none
    else
      match t.slots[position - t.array.size]? with
      | some (k, v) => if v.isNil then t.entryFrom fuel (position + 1) else some (k, v)
      | none => none

/-- The position behind a key, if the table has had the key. -/
def positionAfter? (t : Table) (key : Value) : Option Nat :=
  match key with
  | .nil => some 0
  | key =>
    let key := key.asKey
    match t.arrayIndex? key with
    | some i => some (i + 1)
    | none => t.places[key]?.map fun i => t.array.size + i + 1

/-- The entry that follows a key in the order of traversal; nil comes before the first. -/
def next? (t : Table) (key : Value) : Option (Option (Value × Value)) :=
  (t.positionAfter? key).map fun position =>
    t.entryFrom (t.array.size + t.slots.size + 1) position

end Table

end ProcedureBridge.Lua
