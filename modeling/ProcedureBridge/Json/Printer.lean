import ProcedureBridge.Json.Reader

/-! # Writing JSON

The compact form: no blanks, members in the order given, and in strings only what must be escaped
is escaped. -/

namespace ProcedureBridge.Json

def hexDigit (n : Nat) : Char := if n < 10 then Char.ofNat (48 + n) else Char.ofNat (87 + n)

/-- A character inside quotes. -/
def escape (c : Char) : List Char :=
  if c = '"' then ['\\', '"']
  else if c = '\\' then ['\\', '\\']
  else if c = '\x08' then ['\\', 'b']
  else if c = '\x0c' then ['\\', 'f']
  else if c = '\n' then ['\\', 'n']
  else if c = '\r' then ['\\', 'r']
  else if c = '\t' then ['\\', 't']
  else if c.toNat < 0x20 then
    ['\\', 'u', '0', '0', hexDigit (c.toNat / 16), hexDigit (c.toNat % 16)]
  else [c]

def quote (text : String) : List Char := '"' :: text.toList.flatMap escape ++ ['"']

namespace Numeral

/-- Digits of a natural number, the most significant one first. -/
def natDigits (n : Nat) : List Char := Nat.toDigits 10 n

end Numeral

/-- Numbers are written as the whole numbers they are here; text that is none is written empty. -/
def render : Json → List Char
  | null => "null".toList
  | bool true => "true".toList
  | bool false => "false".toList
  | number n => (if n.negative then ['-'] else []) ++ Numeral.natDigits n.digits
  | string text => quote (text.getD "")
  | array items => '[' :: renderItems items ++ [']']
  | object members => '\x7b' :: renderMembers members ++ ['\x7d']
where
  renderItems : List Json → List Char
    | [] => []
    | [item] => item.render
    | item :: rest => item.render ++ ',' :: renderItems rest
  renderMembers : List (Option String × Json) → List Char
    | [] => []
    | [(key, value)] => quote (key.getD "") ++ ':' :: value.render
    | (key, value) :: rest =>
      quote (key.getD "") ++ ':' :: value.render ++ ',' :: renderMembers rest

def write (j : Json) : String := String.ofList j.render

end ProcedureBridge.Json
