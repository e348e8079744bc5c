import ProcedureBridge.Lua.Ast

/-! # Lexical analysis

A source text is read as its bytes, each of them a character below 256. Tokens are cut off one at a
time, because the line of an error is the line that has been reached when it is noticed. -/

namespace ProcedureBridge.Lua

inductive Token
  | name (x : String)
  | str (s : ByteArray)
  | num (n : Num)
  /-- A reserved word or an operator. -/
  | word (text : String)
  | eos

/-- What is left of a text, and the line that has been reached. -/
structure Source where
  rest : List Char
  line : Nat

/-- Why a text is no program. -/
structure Fault where
  line : Nat
  message : String

namespace Lexer

def reserved : List String :=
  ["and", "break", "do", "else", "elseif", "end", "false", "for", "function", "goto", "if", "in",
    "local", "nil", "not", "or", "repeat", "return", "then", "true", "until", "while"]

/-- Operators, of two that start alike the longer one first. -/
def operators : List String :=
  ["...", "..", "==", "~=", "<=", ">=", "<<", ">>", "//", "::", "+", "-", "*", "/", "%", "^", "#",
    "&", "~", "|", "<", ">", "=", "(", ")", "\x7b", "\x7d", "[", "]", ";", ":", ",", "."]

def isNameStart (c : Char) : Bool := c.isAlpha || c = '_'

def isNameChar (c : Char) : Bool := c.isAlphanum || c = '_'

/-- Takes the second character of a line break made of two different ones. -/
def skipBreak (first : Char) : List Char → List Char
  | second :: rest =>
    if (second = '\n' || second = '\r') && second ≠ first then rest else second :: rest
  | [] => []

def isBreak (c : Char) : Bool := c = '\n' || c = '\r'

/-- The level of a long bracket that starts here, behind its first character, and what follows. -/
def longOpen? (cs : List Char) : Option (Nat × List Char) :=
  match cs.dropWhile (· = '=') with
  | '[' :: rest => some ((cs.takeWhile (· = '=')).length, rest)
  | _ => none

/-- What follows a closing long bracket of the given level, behind its first character. -/
def longClose? (level : Nat) (cs : List Char) : Option (List Char) :=
  if (cs.takeWhile (· = '=')).length = level then
    match cs.dropWhile (· = '=') with
    | ']' :: rest => some rest
    | _ => none
  else none

/-- The content of a long bracket, which may hold `fuel` characters, last character first. -/
def longBody (level : Nat) : Nat → Source → List Char → Except Fault (List Char × Source)
  | 0, s, _ => .error ⟨s.line, "unfinished long string"⟩
  | fuel + 1, s, done =>
    match s.rest with
    | [] => .error ⟨s.line, "unfinished long string"⟩
    | ']' :: rest =>
      match longClose? level rest with
      | some after => .ok (done, ⟨after, s.line⟩)
      | none => longBody level fuel ⟨rest, s.line⟩ (']' :: done)
    | c :: rest =>
      if isBreak c then longBody level fuel ⟨skipBreak c rest, s.line + 1⟩ ('\n' :: done)
      else longBody level fuel ⟨rest, s.line⟩ (c :: done)

/-- A long string, whose first line break is not part of it. -/
def longString (level : Nat) (s : Source) : Except Fault (List Char × Source) := do
  let s :=
    match s.rest with
    | c :: rest => if isBreak c then ⟨skipBreak c rest, s.line + 1⟩ else s
    | [] => s
  let (done, s) ← longBody level (s.rest.length + 1) s []
  pure (done.reverse, s)

/-- The bytes of a code point, also of one beyond what text can hold, as characters. -/
def encodePoint (n : Nat) : List Char :=
  let byte (k : Nat) : Char := Char.ofNat k
  let tail (k : Nat) : Char := byte (0x80 + n >>> (6 * k) % 64)
  if n < 0x80 then [byte n]
  else if n < 0x800 then [byte (0xC0 + n / 64), tail 0]
  else if n < 0x10000 then [byte (0xE0 + n >>> 12), tail 1, tail 0]
  else if n < 0x200000 then [byte (0xF0 + n >>> 18), tail 2, tail 1, tail 0]
  else if n < 0x4000000 then [byte (0xF8 + n >>> 24), tail 3, tail 2, tail 1, tail 0]
  else [byte (0xFC + n >>> 30), tail 4, tail 3, tail 2, tail 1, tail 0]

/-- Skips blanks, over lines. -/
def skipBlanks : Nat → Source → Source
  | 0, s => s
  | fuel + 1, s =>
    match s.rest with
    | c :: rest =>
      if isBreak c then skipBlanks fuel ⟨skipBreak c rest, s.line + 1⟩
      else if Num.isSpace c then skipBlanks fuel ⟨rest, s.line⟩
      else s
    | [] => s

/-- What an escape stands for; the source is behind the backslash. -/
def escape (s : Source) : Except Fault (List Char × Source) :=
  let invalid : Except Fault (List Char × Source) := .error ⟨s.line, "invalid escape sequence"⟩
  match s.rest with
  | [] => .ok ([], s)
  | c :: rest =>
    let single (c : Char) : Except Fault (List Char × Source) := .ok ([c], ⟨rest, s.line⟩)
    if isBreak c then .ok (['\n'], ⟨skipBreak c rest, s.line + 1⟩)
    else
      match c with
      | 'a' => single '\x07'
      | 'b' => single '\x08'
      | 'f' => single '\x0c'
      | 'n' => single '\n'
      | 'r' => single '\r'
      | 't' => single '\t'
      | 'v' => single '\x0b'
      | '\\' => single '\\'
      | '"' => single '"'
      | '\'' => single '\''
      | 'x' =>
        match rest with
        | a :: b :: after =>
          match Num.hexValue? a, Num.hexValue? b with
          | some a, some b => .ok ([Char.ofNat (a * 16 + b)], ⟨after, s.line⟩)
          | _, _ => invalid
        | _ => invalid
      | 'z' => .ok ([], skipBlanks rest.length ⟨rest, s.line⟩)
      | 'u' =>
        match rest with
        | '\x7b' :: rest =>
          let digits := rest.takeWhile Num.isHexDigit
          let n := Num.ofDigits 16 digits
          match rest.dropWhile Num.isHexDigit with
          | '\x7d' :: after =>
            if digits.isEmpty || 0x80000000 ≤ n then invalid
            else .ok (encodePoint n, ⟨after, s.line⟩)
          | _ => invalid
        | _ => invalid
      | c =>
        if c.isDigit then
          let digits := ((c :: rest).take 3).takeWhile Char.isDigit
          let n := Num.ofDigits 10 digits
          if 255 < n then invalid
          else .ok ([Char.ofNat n], ⟨(c :: rest).drop digits.length, s.line⟩)
        else invalid

/-- A string up to its closing quote, last character first. -/
def stringBody (quote : Char) : Nat → Source → List Char → Except Fault (List Char × Source)
  | 0, s, _ => .error ⟨s.line, "unfinished string"⟩
  | fuel + 1, s, done =>
    match s.rest with
    | [] => .error ⟨s.line, "unfinished string"⟩
    | '\\' :: rest => do
      let (cs, s) ← escape ⟨rest, s.line⟩
      stringBody quote fuel s (cs.reverse ++ done)
    | c :: rest =>
      if c = quote then .ok (done, ⟨rest, s.line⟩)
      else if isBreak c then .error ⟨s.line, "unfinished string"⟩
      else stringBody quote fuel ⟨rest, s.line⟩ (c :: done)

def bytesOf (cs : List Char) : ByteArray := (cs.map fun c => UInt8.ofNat c.toNat).toByteArray

def isExponentMark (hex : Bool) (c : Char) : Bool :=
  if hex then c = 'p' || c = 'P' else c = 'e' || c = 'E'

/-- Everything that could belong to a numeral: digits, points, and exponents with their signs. -/
def numeralChars (hex : Bool) : List Char → List Char × List Char
  | e :: sign :: rest =>
    if isExponentMark hex e && (sign = '+' || sign = '-') then
      let (cs, after) := numeralChars hex rest
      (e :: sign :: cs, after)
    else if isExponentMark hex e || Num.isHexDigit e || e = '.' then
      let (cs, after) := numeralChars hex (sign :: rest)
      (e :: cs, after)
    else ([], e :: sign :: rest)
  | [c] => if isExponentMark hex c || Num.isHexDigit c || c = '.' then ([c], []) else ([], [c])
  | [] => ([], [])

/-- A numeral; a letter right behind it spoils it. -/
def numeral (s : Source) : Except Fault (Token × Source) :=
  let (lead, hex, rest) :=
    match s.rest with
    | '0' :: 'x' :: rest => (['0', 'x'], true, rest)
    | '0' :: 'X' :: rest => (['0', 'X'], true, rest)
    | cs => ([], false, cs)
  let (cs, after) := numeralChars hex rest
  let touched := (after.head?.map isNameStart).getD false
  match Num.ofText? (lead ++ cs), touched with
  | some n, false => .ok (.num n, ⟨after, s.line⟩)
  | _, _ => .error ⟨s.line, "malformed number near '" ++ String.ofList (lead ++ cs) ++ "'"⟩

/-- The next token, with at most `fuel` blanks and comments before it. -/
def nextUpTo : Nat → Source → Except Fault (Token × Source)
  | 0, s => .ok (.eos, s)
  | fuel + 1, s =>
    match s.rest with
    | [] => .ok (.eos, s)
    | '-' :: '-' :: rest =>
      let line : Source := ⟨rest.dropWhile fun c => !isBreak c, s.line⟩
      match rest with
      | '[' :: after =>
        match longOpen? after with
        | some (level, after) => do
          let (_, s) ← longString level ⟨after, s.line⟩
          nextUpTo fuel s
        | none => nextUpTo fuel line
      | _ => nextUpTo fuel line
    | '[' :: rest =>
      match longOpen? rest with
      | some (level, after) => do
        let (cs, s) ← longString level ⟨after, s.line⟩
        .ok (.str (bytesOf cs), s)
      | none =>
        if rest.head? = some '=' then .error ⟨s.line, "invalid long string delimiter"⟩
        else .ok (.word "[", ⟨rest, s.line⟩)
    | c :: rest =>
      if isBreak c then nextUpTo fuel ⟨skipBreak c rest, s.line + 1⟩
      else if Num.isSpace c then nextUpTo fuel ⟨rest, s.line⟩
      else if c = '"' || c = '\'' then do
        let (done, s) ← stringBody c (rest.length + 1) ⟨rest, s.line⟩ []
        .ok (.str (bytesOf done.reverse), s)
      else if c.isDigit || (c = '.' && (rest.head?.map Char.isDigit).getD false) then numeral s
      else if isNameStart c then
        let x := String.ofList ((c :: rest).takeWhile isNameChar)
        let s : Source := ⟨(c :: rest).dropWhile isNameChar, s.line⟩
        .ok (if reserved.contains x then .word x else .name x, s)
      else
        match operators.find? fun op => op.toList.isPrefixOf (c :: rest) with
        | some op => .ok (.word op, ⟨(c :: rest).drop op.length, s.line⟩)
        | none => .ok (.word (String.singleton c), ⟨rest, s.line⟩)

def next (s : Source) : Except Fault (Token × Source) := nextUpTo (s.rest.length + 1) s

end Lexer

end ProcedureBridge.Lua
