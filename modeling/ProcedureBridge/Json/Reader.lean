import ProcedureBridge.Json.Token

/-! # Reading JSON

The tokens are taken one by one. What is open is kept on a stack, so nesting has no limit here;
readers that have one ask for the depth of the document. -/

namespace ProcedureBridge.Json

/-- A container whose end has not come, with what it holds so far, last first. -/
inductive Open
  | array (items : List Json)
  | object (members : List (Option String × Json)) (key : Option String)

/-- What may come next. -/
inductive Expect
  | value
  /-- A value, or the end of the array just opened. -/
  | firstItem
  /-- A key, or the end of the object just opened. -/
  | firstKey
  | key (members : List (Option String × Json))
  | colon (members : List (Option String × Json)) (key : Option String)
  /-- A comma, or the end of the innermost container. -/
  | next
  | finished (document : Json)

structure Reading where
  stack : List Open := []
  expect : Expect := .value

namespace Reading

/-- A value is complete: it belongs into the innermost container. -/
def complete (stack : List Open) (j : Json) : Reading :=
  match stack with
  | [] => ⟨[], .finished j⟩
  | .array items :: outer => ⟨.array (j :: items) :: outer, .next⟩
  | .object members key :: outer => ⟨.object ((key, j) :: members) none :: outer, .next⟩

/-- A token where a value may start. -/
def start (stack : List Open) : Token → Option Reading
  | .null => some (complete stack .null)
  | .bool b => some (complete stack (.bool b))
  | .number n => some (complete stack (.number n))
  | .string text => some (complete stack (.string text))
  | .openArray => some ⟨.array [] :: stack, .firstItem⟩
  | .openObject => some ⟨stack, .firstKey⟩
  | _ => none

def step (r : Reading) (t : Token) : Option Reading :=
  match r.expect, t with
  | .value, t => start r.stack t
  | .firstItem, .closeArray =>
    match r.stack with
    | .array _ :: outer => some (complete outer (.array []))
    | _ => none
  | .firstItem, t => start r.stack t
  | .firstKey, .closeObject => some (complete r.stack (.object []))
  | .firstKey, .string text => some ⟨r.stack, .colon [] text⟩
  | .key members, .string text => some ⟨r.stack, .colon members text⟩
  | .colon members key, .colon => some ⟨.object members key :: r.stack, .value⟩
  | .next, .comma =>
    match r.stack with
    | .array items :: outer => some ⟨.array items :: outer, .value⟩
    | .object members _ :: outer => some ⟨outer, .key members⟩
    | [] => none
  | .next, .closeArray =>
    match r.stack with
    | .array items :: outer => some (complete outer (.array items.reverse))
    | _ => none
  | .next, .closeObject =>
    match r.stack with
    | .object members _ :: outer => some (complete outer (.object members.reverse))
    | _ => none
  | _, _ => none

def document? (r : Reading) : Option Json :=
  match r.expect with
  | .finished j => some j
  | _ => none

end Reading

def ofTokens? (tokens : List Token) : Option Json :=
  (tokens.foldlM Reading.step {}).bind Reading.document?

/-- The document that a text holds, if it holds one and nothing else. -/
def read? (text : String) : Option Json := (Token.scan text.toList).bind ofTokens?

end ProcedureBridge.Json
