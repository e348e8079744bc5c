import ProcedureBridge.Options.Basic
import ProcedureBridge.Json.Printer

/-! # Options as JSON

Options are an object, of which unknown members are skipped, or an array of the leading members in
their order. Members that are not given keep their defaults, and none may be given twice. A span of
time is written in whole milliseconds. -/

namespace ProcedureBridge.Options

def natBelow? (bound : Nat) (j : Json) : Option Nat := do
  let n ← j.natural?
  if n < bound then some n else none

/-- The members in their order: each with its key and with how its value changes the options. -/
def fields : List (String × (Options → Json → Option Options)) :=
  [("max_scope_depth", fun o j =>
      (natBelow? UInt64.size j).map fun n => { o with maxScopeDepth := .ofNat n }),
    ("safepoint_interval", fun o j =>
      (natBelow? UInt32.size j).map fun n => { o with safepointInterval := .ofNat n }),
    ("cache_capacity", fun o j =>
      (natBelow? UInt64.size j).map fun n => { o with cacheCapacity := .ofNat n }),
    ("entry_point", fun o j => j.string?.map fun name => { o with entryPoint := name }),
    ("init_path", fun o j =>
      (j.optional Json.string?).map fun path => { o with initPath := path }),
    ("init_source", fun o j =>
      (j.optional Json.string?).map fun source => { o with initSource := source }),
    ("statement_timeout", fun o j =>
      (j.optional (natBelow? UInt64.size)).map fun ms =>
        { o with statementTimeout := ms.map fun n => .ofMilliseconds (.ofNat n) }),
    ("redirect_print", fun o j => j.bool?.map fun b => { o with redirectPrint := b })]

def ofMembers? (members : List (Option String × Json)) : Option Options :=
  if members.all fun member => member.1.isSome then
    fields.foldlM (fun o (key, set) =>
      match Json.valuesOf key members with
      | [] => some o
      | [value] => set o value
      | _ => none) {}
  else none

/-- Items set the fields in order. There may be fewer items than fields, not more. -/
def ofItems? (items : List Json) : Option Options :=
  if items.length ≤ fields.length then
    (items.zip fields).foldlM (fun o (value, _, set) => set o value) {}
  else none

def ofJson? : Json → Option Options
  | .object members => ofMembers? members
  | .array items => ofItems? items
  | _ => none

def parse? (text : String) : Option Options := (Json.read? text).bind ofJson?

/-- Reads options and validates them. -/
def read (text : String) : Except Failure Options :=
  match parse? text with
  | none => .error (.config "malformed options")
  | some o => o.validate.map fun _ => o

def toJson (o : Options) : Json :=
  let text (value : Option String) : Json :=
    match value with
    | some text => .string (some text)
    | none => .null
  .object
    [(some "max_scope_depth", .number (.ofNat o.maxScopeDepth.toNat)),
      (some "safepoint_interval", .number (.ofNat o.safepointInterval.toNat)),
      (some "cache_capacity", .number (.ofNat o.cacheCapacity.toNat)),
      (some "entry_point", .string (some o.entryPoint)),
      (some "init_path", text o.initPath),
      (some "init_source", text o.initSource),
      (some "statement_timeout",
        match o.statementTimeout with
        | some d => .number (.ofNat (d.milliseconds % UInt64.size))
        | none => .null),
      (some "redirect_print", .bool o.redirectPrint)]

def write (o : Options) : String := o.toJson.write

end ProcedureBridge.Options
