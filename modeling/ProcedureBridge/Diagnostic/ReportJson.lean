import ProcedureBridge.Diagnostic.Report
import ProcedureBridge.Json.Printer

/-! # Reports as JSON

A report is an object. Members that it does not know are skipped, wherever they stand and however
often, but one that it knows may not be given twice. Optional members may be null. Since skipped
members are read in full, every string has to be text, every number finite, and fewer than 128
containers may be nested. -/

namespace ProcedureBridge

namespace Severity

/-- A severity is its name, or an object with the name for its only key and null for the value. -/
def ofJson? : Json → Option Severity
  | .string (some name) => ofExactName? name
  | .object [(some name, .null)] => ofExactName? name
  | _ => none

end Severity

namespace Report

/-- The nesting that no document may reach. -/
def nestingLimit : Nat := 128

/-- The one value of a key that must be there. -/
def required (key : String) (members : List (Option String × Json)) : Option Json :=
  match Json.valuesOf key members with
  | [value] => some value
  | _ => none

/-- The value of a key that may be absent or null. -/
def optionalMember {α : Type} (key : String) (read : Json → Option α)
    (members : List (Option String × Json)) : Option (Option α) :=
  match Json.valuesOf key members with
  | [] => some none
  | [value] => value.optional read
  | _ => none

def positionOfJson? (j : Json) : Option UInt32 := do
  let n ← j.natural?
  if n < UInt32.size then some (.ofNat n) else none

def diagnosticOfMembers? (members : List (Option String × Json)) : Option Diagnostic := do
  let severity ← (required "severity" members).bind Severity.ofJson?
  let code ← ((required "code" members).bind Json.string?).bind ErrorCode.ofString?
  let message ← (required "message" members).bind Json.string?
  let detail ← optionalMember "detail" Json.string? members
  let hint ← optionalMember "hint" Json.string? members
  let context ← optionalMember "context" Json.string? members
  let position ← optionalMember "position" positionOfJson? members
  some { severity, code, message, detail, hint, context, position }

/-- Reads a document whose nesting is at most `fuel`. -/
def ofJsonUpTo? : Nat → Json → Option Report
  | 0, _ => none
  | fuel + 1, .object members => do
    let d ← diagnosticOfMembers? members
    match ← optionalMember "cause" (ofJsonUpTo? fuel) members with
    | none => some (.plain d)
    | some cause => some (.causedBy d cause)
  | _ + 1, _ => none

def ofJson? (j : Json) : Option Report :=
  if j.isExact && j.depth < nestingLimit then ofJsonUpTo? nestingLimit j else none

def read? (text : String) : Option Report := (Json.read? text).bind ofJson?

def textMember (key : String) (value : Option String) : List (Option String × Json) :=
  (value.map fun text => (some key, Json.string (some text))).toList

def diagnosticMembers (d : Diagnostic) : List (Option String × Json) :=
  [(some "severity", .string (some d.severity.name)),
    (some "code", .string (some d.code.toString)),
    (some "message", .string (some d.message))] ++
  textMember "detail" d.detail ++ textMember "hint" d.hint ++ textMember "context" d.context ++
  (d.position.map fun n => (some "position", Json.number (.ofNat n.toNat))).toList

/-- Absent members are left out, and a cause comes last. -/
def toJson : Report → Json
  | plain d => .object (diagnosticMembers d)
  | causedBy d cause => .object (diagnosticMembers d ++ [(some "cause", cause.toJson)])

def write (r : Report) : String := r.toJson.write

end Report

end ProcedureBridge
