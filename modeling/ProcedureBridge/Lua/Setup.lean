import ProcedureBridge.Lua.Machine

/-! # The machine at the start of a session

The shared built-ins: what every namespace starts with. Namespaces get references to them, so that
there is one `pl` table in a session. -/

namespace ProcedureBridge.Lua

namespace Machine

/-- A table with the given fields. -/
def newTableOf (m : Machine) (fields : List (String × Value)) : Nat × Machine :=
  m.newTable (fields.foldl (fun t (name, v) => t.set (.ofString name) v) {})

/-- Adds a shared built-in. -/
def share (m : Machine) (name : String) (v : Value) : Machine := m.setField m.builtins name v

def shareTable (m : Machine) (name : String) (fields : List (String × Value)) : Machine :=
  let (place, m) := m.newTableOf fields
  m.share name (.table place)

def stringFields : List (String × Value) :=
  [("byte", .native (.string .byte)), ("char", .native (.string .char)),
    ("len", .native (.string .len)), ("lower", .native (.string .lower)),
    ("rep", .native (.string .rep)), ("reverse", .native (.string .reverse)),
    ("sub", .native (.string .sub)), ("upper", .native (.string .upper))]

def tableFields : List (String × Value) :=
  [("concat", .native (.table .concat)), ("insert", .native (.table .insert)),
    ("pack", .native (.table .pack)), ("remove", .native (.table .remove)),
    ("unpack", .native (.table .unpack))]

def mathFields : List (String × Value) :=
  [("abs", .native (.math .abs)), ("ceil", .native (.math .ceil)),
    ("floor", .native (.math .floor)), ("fmod", .native (.math .fmod)),
    ("max", .native (.math .max)), ("min", .native (.math .min)),
    ("sqrt", .native (.math .sqrt)), ("tointeger", .native (.math .tointeger)),
    ("type", .native (.math .type)), ("ult", .native (.math .ult)),
    ("huge", .float (1.0 / 0.0)), ("pi", .float 3.141592653589793),
    ("maxinteger", .int Int64.maxValue), ("mininteger", .int Int64.minValue)]

/-- The functions of the standard library that every namespace has. -/
def basicFields : List (String × Value) :=
  [("assert", .native .assert), ("error", .native .error),
    ("getmetatable", .native .getmetatable), ("ipairs", .native .ipairs), ("next", .native .next),
    ("pairs", .native .pairs), ("pcall", .native .pcall), ("rawequal", .native .rawequal),
    ("rawget", .native .rawget), ("rawlen", .native .rawlen), ("rawset", .native .rawset),
    ("select", .native .select), ("setmetatable", .native .setmetatable),
    ("tonumber", .native .tonumber), ("tostring", .native .tostring), ("type", .native .type),
    ("xpcall", .native .xpcall), ("_VERSION", .ofString "Lua 5.4")]

/-- The version that scripts see. -/
def version : String := "0.1.0"

/-- The functions of the `pl` table. -/
def bridgeFields : List (String × Value) :=
  Severity.all.map (fun severity => (severity.name, .native (.report severity))) ++
  [("xact", .native .xact), ("transaction", .native .transaction), ("catch", .native .guarded),
    ("errcode", .native .errcode), ("raise", .native .raise),
    ("stop_event", .native .stopEvent), ("preload", .native .preload),
    ("clearcache", .native .clearCache), ("version", .ofString version)]

/-- A machine without built-ins. Strings have the string functions for methods. -/
def bare : Machine :=
  let m : Machine := {}
  let (functions, m) := m.newTableOf stringFields
  let (stringMeta, m) := m.newTableOf [("__index", .table functions)]
  let (arrayMeta, m) := m.newTableOf [("__metatable", .bool false)]
  let (builtins, m) := m.newTable {}
  { m with stringMeta, arrayMeta, builtins }

/-- The functions that strings have for methods. -/
def stringFunctions (m : Machine) : Value := (m.table m.stringMeta).get (.ofString "__index")

/-- The machine of a new session. -/
def initial (redirectPrint : Bool) : Machine :=
  let m := basicFields.foldl (fun m (name, v) => m.share name v) bare
  let m := m.share "string" m.stringFunctions
  let m := m.shareTable "math" mathFields
  let m := m.shareTable "table" tableFields
  let m := m.shareTable "coroutine" []
  let m := m.shareTable "utf8" []
  let m := m.share "print" (.native (.print redirectPrint))
  let m := m.shareTable "pl" bridgeFields
  m.share "xact" (.native .xact)

end Machine

end ProcedureBridge.Lua
