import ProcedureBridge.Lua.Lexer

/-! # Parsing

Recursive descent, one token ahead. While it parses a function the parser knows which local
variables are in scope, which labels are visible and which jumps still look for theirs: a constant
must not be assigned, and a jump must not enter the scope of a local variable.

Statements and expressions may be nested only so deep. -/

namespace ProcedureBridge.Lua

inductive ParseFailure
  | fault (fault : Fault)
  | tooDeep

namespace Parser

structure Label where
  name : String
  line : Nat
  /-- How many local variables are active at the label. -/
  active : Nat

/-- A block that is being parsed, with what there was when it began. -/
structure Block where
  isLoop : Bool
  active : Nat
  labels : Nat
  jumps : Nat

/-- A function that is being parsed. -/
structure Scope where
  isVararg : Bool
  /-- Active local variables, the latest first. -/
  locals : List (String × Attribute) := []
  /-- Labels of the blocks that are open, the latest first. -/
  labels : List Label := []
  /-- Jumps whose label has not come, the latest first. A break is a jump too. -/
  jumps : List Label := []
  blocks : List Block := []

structure State where
  source : Source
  token : Token := .eos
  ahead : Option Token := none
  /-- The line of the last token that was taken. -/
  lastLine : Nat := 1
  /-- Functions around the current position, innermost first. -/
  scopes : List Scope := []
  /-- How deeply statements and expressions are nested here. -/
  level : Nat := 0

end Parser

abbrev Parser := StateT Parser.State (Except ParseFailure)

namespace Parser

def nestingLimit : Nat := 196

def breakName : String := "break"

def lift {α : Type} (x : Except Fault α) : Parser α :=
  match x with
  | .ok a => pure a
  | .error f => throw (.fault f)

/-- A fault at the line that the lexer has reached. -/
def fail {α : Type} (message : String) : Parser α := do
  throw (.fault ⟨(← get).source.line, message⟩)

def tokenText : Token → String
  | .name x => "'" ++ x ++ "'"
  | .str _ => "string"
  | .num n => "'" ++ String.ofList n.text ++ "'"
  | .word w => "'" ++ w ++ "'"
  | .eos => "<eof>"

def failNear {α : Type} (message : String) : Parser α := do
  fail (message ++ " near " ++ tokenText (← get).token)

def currentLine : Parser Nat := do pure (← get).source.line

def lastLine : Parser Nat := do pure (← get).lastLine

def token : Parser Token := do pure (← get).token

def isWord (w : String) : Parser Bool := do
  match (← get).token with
  | .word v => pure (v == w)
  | _ => pure false

/-- Takes the current token. -/
def advance : Parser PUnit := do
  let s ← get
  match s.ahead with
  | some t => set { s with token := t, ahead := none, lastLine := s.source.line }
  | none =>
    let (t, source) ← lift (Lexer.next s.source)
    set { s with token := t, source, lastLine := s.source.line }

/-- The token after the current one. -/
def peek : Parser Token := do
  let s ← get
  match s.ahead with
  | some t => pure t
  | none =>
    let (t, source) ← lift (Lexer.next s.source)
    set { s with ahead := some t, source }
    pure t

def accept (w : String) : Parser Bool := do
  if ← isWord w then
    advance
    pure true
  else pure false

def expect (w : String) : Parser PUnit := do
  if !(← accept w) then failNear ("'" ++ w ++ "' expected")

/-- Expects the word that closes what was opened on the given line. -/
def expectClosing (w opening : String) (line : Nat) : Parser PUnit := do
  if !(← accept w) then
    if line = (← currentLine) then failNear ("'" ++ w ++ "' expected")
    else
      failNear
        ("'" ++ w ++ "' expected (to close '" ++ opening ++ "' at line " ++ toString line ++ ")")

def name : Parser String := do
  match (← get).token with
  | .name x =>
    advance
    pure x
  | _ => failNear "<name> expected"

/-! ## Scopes -/

def modifyScope (f : Scope → Scope) : Parser PUnit :=
  modify fun s =>
    match s.scopes with
    | top :: outer => { s with scopes := f top :: outer }
    | [] => s

def scope : Parser Scope := do
  match (← get).scopes with
  | top :: _ => pure top
  | [] => pure { isVararg := true }

def declare (x : String) (a : Attribute) : Parser PUnit := do
  let s ← scope
  if 200 ≤ s.locals.length then failNear "too many local variables (limit is 200)"
  modifyScope fun s => { s with locals := (x, a) :: s.locals }

def openBlock (isLoop : Bool) : Parser PUnit :=
  modifyScope fun s => { s with
    blocks := ⟨isLoop, s.locals.length, s.labels.length, s.jumps.length⟩ :: s.blocks }

/-- Lets the jumps of the current block that look for this label end at it. -/
def resolveJumps (l : Label) : Parser PUnit := do
  let s ← scope
  let first := (s.blocks.head?.map Block.jumps).getD 0
  let inside := s.jumps.take (s.jumps.length - first)
  let outside := s.jumps.drop (s.jumps.length - first)
  match inside.reverse.find? fun j => j.name = l.name && j.active < l.active with
  | some j =>
    let entered := (s.locals.reverse[j.active]?.map Prod.fst).getD ""
    fail ("<goto " ++ j.name ++ "> at line " ++ toString j.line ++
      " jumps into the scope of local '" ++ entered ++ "'")
  | none => modifyScope fun s => { s with jumps := inside.filter (·.name ≠ l.name) ++ outside }

/-- Leaves a block: its variables and labels are gone, and its open jumps are jumps of the block
around it. -/
def closeBlock : Parser PUnit := do
  let s ← scope
  match s.blocks with
  | [] => pure ()
  | b :: outer =>
    modifyScope fun s => { s with locals := s.locals.drop (s.locals.length - b.active) }
    if b.isLoop then resolveJumps ⟨breakName, 0, b.active⟩
    let s ← scope
    let inside := s.jumps.take (s.jumps.length - b.jumps)
    let outside := s.jumps.drop (s.jumps.length - b.jumps)
    modifyScope fun s => { s with
      labels := s.labels.drop (s.labels.length - b.labels)
      blocks := outer
      jumps := inside.map (fun j => { j with active := min j.active b.active }) ++ outside }
    if outer.isEmpty then
      match inside.getLast? with
      | none => pure ()
      | some j =>
        if j.name = breakName then fail ("break outside a loop at line " ++ toString j.line)
        else fail ("no visible label '" ++ j.name ++ "' for <goto> at line " ++ toString j.line)

def openFunction (isVararg : Bool) : Parser PUnit := do
  modify fun s => { s with scopes := { isVararg } :: s.scopes }
  openBlock false

def closeFunction : Parser PUnit := do
  closeBlock
  modify fun s => { s with scopes := s.scopes.tail }

/-- What the variable that a name means here was declared with. -/
def attributeOf (x : String) : Parser Attribute := do
  let found := (← get).scopes.findSome? fun s => s.locals.lookup x
  pure (found.getD .none)

/-- Refuses to assign to a constant. -/
def checkAssignable : Expr → Parser PUnit
  | .name x _ => do
    if (← attributeOf x) ≠ .none then fail ("attempt to assign to const variable '" ++ x ++ "'")
  | .index .. => pure ()
  | _ => failNear "syntax error"

def addJump (label : String) (line : Nat) : Parser PUnit :=
  modifyScope fun s => { s with jumps := ⟨label, line, s.locals.length⟩ :: s.jumps }

/-- A jump to a label that is visible needs no more; any other waits for its label. -/
def jump (label : String) (line : Nat) : Parser PUnit := do
  let s ← scope
  if !(s.labels.any fun l => l.name = label) then addJump label line

/-- At the end of a block its local variables count as out of scope already. -/
def addLabel (label : String) (line : Nat) (last : Bool) : Parser PUnit := do
  let s ← scope
  match s.labels.find? fun l => l.name = label with
  | some l => fail ("label '" ++ label ++ "' already defined on line " ++ toString l.line)
  | none =>
    let active :=
      if last then (s.blocks.head?.map Block.active).getD 0 else s.locals.length
    let l : Label := ⟨label, line, active⟩
    modifyScope fun s => { s with labels := l :: s.labels }
    resolveJumps l

/-! ## Operators -/

/-- The operator a word is between two operands, and how tightly it binds to the left and to the
right. -/
def binaryOp? : String → Option (BinaryOp × Nat × Nat)
  | "+" => some (.arith .add, 10, 10)
  | "-" => some (.arith .sub, 10, 10)
  | "*" => some (.arith .mul, 11, 11)
  | "%" => some (.arith .mod, 11, 11)
  | "^" => some (.arith .pow, 14, 13)
  | "/" => some (.arith .div, 11, 11)
  | "//" => some (.arith .idiv, 11, 11)
  | "&" => some (.bit .and, 6, 6)
  | "|" => some (.bit .or, 4, 4)
  | "~" => some (.bit .xor, 5, 5)
  | "<<" => some (.bit .shl, 7, 7)
  | ">>" => some (.bit .shr, 7, 7)
  | ".." => some (.concat, 9, 8)
  | "==" => some (.eq, 3, 3)
  | "<" => some (.lt, 3, 3)
  | "<=" => some (.le, 3, 3)
  | "~=" => some (.ne, 3, 3)
  | ">" => some (.gt, 3, 3)
  | ">=" => some (.ge, 3, 3)
  | _ => none

/-- An operator, or one of the two that look at their left operand first. -/
inductive Joiner
  | op (op : BinaryOp)
  | and
  | or

def joiner? (t : Token) : Option (Joiner × Nat × Nat) :=
  match t with
  | .word "and" => some (.and, 2, 2)
  | .word "or" => some (.or, 1, 1)
  | .word w => (binaryOp? w).map fun (op, left, right) => (.op op, left, right)
  | _ => none

def unaryOp? (t : Token) : Option UnaryOp :=
  match t with
  | .word "not" => some .not
  | .word "-" => some .neg
  | .word "~" => some .bitNot
  | .word "#" => some .length
  | _ => none

def unaryStrength : Nat := 12

/-- An operation reports failures with the line of its operator, a comparison with the line that its
operands end on. Of a row of concatenations the last operator counts. -/
def operation (i : Joiner) (a b : Expr) (line endLine : Nat) : Expr :=
  match i with
  | .and => .and a b
  | .or => .or a b
  | .op .concat =>
    match b with
    | .binary .concat _ _ inner => .binary .concat a b inner
    | _ => .binary .concat a b line
  | .op (.arith op) => .binary (.arith op) a b line
  | .op (.bit op) => .binary (.bit op) a b line
  | .op op => .binary op a b endLine

def deeper {α : Type} (x : Parser α) : Parser α := do
  let s ← get
  if nestingLimit ≤ s.level then throw .tooDeep
  set { s with level := s.level + 1 }
  let a ← x
  modify fun s => { s with level := s.level - 1 }
  pure a

/-- The current token ends a block; `until` does so only for blocks that a condition may follow. -/
def atBlockEnd (withUntil : Bool) : Parser Bool := do
  match (← get).token with
  | .eos => pure true
  | .word w =>
    pure (w == "else" || w == "elseif" || w == "end" || (withUntil && w == "until"))
  | _ => pure false

def isCall : Expr → Bool
  | .call .. => true
  | .method .. => true
  | _ => false

def skipSemicolons : Nat → Parser PUnit
  | 0 => pure ()
  | n + 1 => do if ← accept ";" then skipSemicolons n

def attributeMark : Parser Attribute := do
  if ← accept "<" then
    let a ← name
    expect ">"
    if a = "const" then pure .const
    else if a = "close" then pure .close
    else fail ("unknown attribute '" ++ a ++ "'")
  else pure .none

/-! ## Expressions and statements

Every function below takes at least one token in two calls, so the number bounds their nesting. -/

mutual

def expr : Nat → Parser Expr
  | 0 => throw .tooDeep
  | n + 1 => subExpr n 0

def exprList : Nat → Parser (List Expr)
  | 0 => throw .tooDeep
  | n + 1 => do
    let e ← expr n
    if ← accept "," then
      let rest ← exprList n
      pure (e :: rest)
    else pure [e]

/-- An expression of operators that bind more tightly than `limit`. -/
def subExpr : Nat → Nat → Parser Expr
  | 0, _ => throw .tooDeep
  | n + 1, limit => deeper do
    let line ← currentLine
    let first ←
      match unaryOp? (← token) with
      | some op =>
        advance
        let e ← subExpr n unaryStrength
        pure (.unary op e line)
      | none => simpleExpr n
    operators n limit first

def operators : Nat → Nat → Expr → Parser Expr
  | 0, _, _ => throw .tooDeep
  | n + 1, limit, left =>
    do
      match joiner? (← token) with
      | none => pure left
      | some (op, strength, rightStrength) =>
        if strength ≤ limit then pure left
        else
          let line ← currentLine
          advance
          let right ← subExpr n rightStrength
          operators n limit (operation op left right line (← lastLine))

def simpleExpr : Nat → Parser Expr
  | 0 => throw .tooDeep
  | n + 1 => do
    match ← token with
    | .num v =>
      advance
      pure (.num v)
    | .str s =>
      advance
      pure (.str s)
    | .word "nil" =>
      advance
      pure .nil
    | .word "true" =>
      advance
      pure (.bool true)
    | .word "false" =>
      advance
      pure (.bool false)
    | .word "..." =>
      if !(← scope).isVararg then failNear "cannot use '...' outside a vararg function"
      advance
      pure .vararg
    | .word "\x7b" => constructor n
    | .word "function" =>
      let line ← currentLine
      advance
      pure (.function (← functionBody n false line))
    | _ => suffixedExpr n

def primaryExpr : Nat → Parser Expr
  | 0 => throw .tooDeep
  | n + 1 => do
    match ← token with
    | .name x =>
      let line ← currentLine
      advance
      pure (.name x line)
    | .word "(" =>
      let line ← currentLine
      advance
      let e ← expr n
      expectClosing ")" "(" line
      pure (.paren e)
    | _ => failNear "unexpected symbol"

def suffixedExpr : Nat → Parser Expr
  | 0 => throw .tooDeep
  | n + 1 => do suffixes n (← primaryExpr n)

def suffixes : Nat → Expr → Parser Expr
  | 0, _ => throw .tooDeep
  | n + 1, e => do
    match ← token with
    | .word "." =>
      advance
      let key ← name
      suffixes n (.index e (.str key.toUTF8) (← lastLine))
    | .word "[" =>
      let key ← indexKey n
      suffixes n (.index e key (← lastLine))
    | .word ":" =>
      advance
      let method ← name
      let nameLine ← lastLine
      let line ← currentLine
      let args ← arguments n
      suffixes n (.method e method nameLine args line)
    | .word "(" =>
      let line ← currentLine
      let args ← arguments n
      suffixes n (.call e args line)
    | .word "\x7b" =>
      let line ← currentLine
      let args ← arguments n
      suffixes n (.call e args line)
    | .str _ =>
      let line ← currentLine
      let args ← arguments n
      suffixes n (.call e args line)
    | _ => pure e

def indexKey : Nat → Parser Expr
  | 0 => throw .tooDeep
  | n + 1 => do
    advance
    let key ← expr n
    expect "]"
    pure key

def arguments : Nat → Parser (List Expr)
  | 0 => throw .tooDeep
  | n + 1 => do
    let line ← currentLine
    match ← token with
    | .word "(" =>
      advance
      let args ← if ← isWord ")" then pure [] else exprList n
      expectClosing ")" "(" line
      pure args
    | .word "\x7b" => do pure [← constructor n]
    | .str s =>
      advance
      pure [.str s]
    | _ => failNear "function arguments expected"

def constructor : Nat → Parser Expr
  | 0 => throw .tooDeep
  | n + 1 => do
    let line ← currentLine
    expect "\x7b"
    let fields ← tableFields n
    expectClosing "\x7d" "\x7b" line
    pure (.table fields)

def tableFields : Nat → Parser (List Field)
  | 0 => throw .tooDeep
  | n + 1 => do
    if ← isWord "\x7d" then pure []
    else
      let f ← tableField n
      if (← accept ",") || (← accept ";") then
        let rest ← tableFields n
        pure (f :: rest)
      else pure [f]

def tableField : Nat → Parser Field
  | 0 => throw .tooDeep
  | n + 1 => do
    match ← token with
    | .name x =>
      match ← peek with
      | .word "=" =>
        advance
        advance
        let value ← expr n
        pure (.keyed (.str x.toUTF8) value (← lastLine))
      | _ => do pure (.item (← expr n))
    | .word "[" =>
      let key ← indexKey n
      expect "="
      let value ← expr n
      pure (.keyed key value (← lastLine))
    | _ => do pure (.item (← expr n))

/-- Parameters and body of a function that began on the given line. -/
def functionBody : Nat → Bool → Nat → Parser Function
  | 0, _, _ => throw .tooDeep
  | n + 1, isMethod, line => do
    openFunction false
    if isMethod then declare "self" .none
    expect "("
    let (params, isVararg) ← if ← isWord ")" then pure ([], false) else parameters n
    modifyScope fun s => { s with isVararg }
    expect ")"
    let body ← statements n
    expectClosing "end" "function" line
    closeFunction
    pure (.mk (if isMethod then "self" :: params else params) isVararg body)

def parameters : Nat → Parser (List String × Bool)
  | 0 => throw .tooDeep
  | n + 1 => do
    if ← accept "..." then pure ([], true)
    else
      let x ← name
      declare x .none
      if ← accept "," then
        let (rest, isVararg) ← parameters n
        pure (x :: rest, isVararg)
      else pure ([x], false)

/-- The statements of a block. A `return` is the last of them. -/
def statements : Nat → Parser (List Stat)
  | 0 => throw .tooDeep
  | n + 1 => do
    if ← atBlockEnd true then pure []
    else if ← isWord "return" then statement n
    else
      let first ← statement n
      let rest ← statements n
      pure (first ++ rest)

/-- A block with a scope of its own. -/
def block : Nat → Bool → Parser (List Stat)
  | 0, _ => throw .tooDeep
  | n + 1, isLoop => do
    openBlock isLoop
    let body ← statements n
    closeBlock
    pure body

/-- The rest of a conditional whose `if` or `elseif` is the current token. -/
def conditional : Nat → Nat → Parser Stat
  | 0, _ => throw .tooDeep
  | n + 1, line => do
    advance
    let cond ← expr n
    expect "then"
    let body ← block n false
    if ← isWord "elseif" then pure (.if cond body [← conditional n line])
    else if ← accept "else" then
      let otherwise ← block n false
      expectClosing "end" "if" line
      pure (.if cond body otherwise)
    else
      expectClosing "end" "if" line
      pure (.if cond body [])

def forLoop : Nat → Nat → Parser Stat
  | 0, _ => throw .tooDeep
  | n + 1, line => do
    openBlock true
    advance
    let x ← name
    let stat ←
      match ← token with
      | .word "=" =>
        advance
        let start ← expr n
        expect ","
        let limit ← expr n
        let step ← if ← accept "," then do pure (some (← expr n)) else pure none
        expect "do"
        let doLine ← lastLine
        let body ← loopBody n [x]
        pure (Stat.forRange x start limit step body doLine)
      | .word "," =>
        advance
        let names ← nameList n
        forEach n (x :: names) line
      | .word "in" => forEach n [x] line
      | _ => failNear "'=' or 'in' expected"
    expectClosing "end" "for" line
    closeBlock
    pure stat

def forEach : Nat → List String → Nat → Parser Stat
  | 0, _, _ => throw .tooDeep
  | n + 1, names, line => do
    expect "in"
    let values ← exprList n
    expect "do"
    let body ← loopBody n names
    pure (.forEach names values body line)

/-- The body of a loop that binds variables. The loop's own state takes three of the places for
local variables. -/
def loopBody : Nat → List String → Parser (List Stat)
  | 0, _ => throw .tooDeep
  | n + 1, names => do
    openBlock false
    names.forM fun x => declare x .none
    let body ← statements n
    closeBlock
    pure body

def nameList : Nat → Parser (List String)
  | 0 => throw .tooDeep
  | n + 1 => do
    let x ← name
    if ← accept "," then
      let rest ← nameList n
      pure (x :: rest)
    else pure [x]

/-- Names that are declared, each with its attribute. -/
def declaredNames : Nat → Parser (List (String × Attribute))
  | 0 => throw .tooDeep
  | n + 1 => do
    let x ← name
    let a ← attributeMark
    if ← accept "," then
      let rest ← declaredNames n
      if a = .close && rest.any (fun d => d.2 = .close) then
        fail "multiple to-be-closed variables in local list"
      pure ((x, a) :: rest)
    else pure [(x, a)]

/-- The name of a function that is defined, and whether it is a method. -/
def functionName : Nat → Expr → Parser (Expr × Bool)
  | 0, _ => throw .tooDeep
  | n + 1, e => do
    if ← accept "." then
      let key ← name
      functionName n (.index e (.str key.toUTF8) (← lastLine))
    else if ← accept ":" then
      let key ← name
      pure (.index e (.str key.toUTF8) (← lastLine), true)
    else pure (e, false)

/-- More targets of an assignment, up to the equals sign. -/
def targets : Nat → Parser (List Expr)
  | 0 => throw .tooDeep
  | n + 1 => do
    if ← accept "," then
      let e ← suffixedExpr n
      checkAssignable e
      let rest ← deeper (targets n)
      pure (e :: rest)
    else
      expect "="
      pure []

/-- Labels and semicolons that follow a label directly. -/
def afterLabel : Nat → Parser (List Stat)
  | 0 => throw .tooDeep
  | n + 1 => do
    if (← isWord ";") || (← isWord "::") then
      let first ← statement n
      let rest ← afterLabel n
      pure (first ++ rest)
    else pure []

def statement : Nat → Parser (List Stat)
  | 0 => throw .tooDeep
  | n + 1 => deeper do
    let line ← currentLine
    match ← token with
    | .word ";" =>
      advance
      pure []
    | .word "if" => do pure [← conditional n line]
    | .word "while" =>
      advance
      let cond ← expr n
      openBlock true
      expect "do"
      let body ← block n false
      expectClosing "end" "while" line
      closeBlock
      pure [.while cond body]
    | .word "do" =>
      advance
      let body ← block n false
      expectClosing "end" "do" line
      pure [.block body]
    | .word "for" => do pure [← forLoop n line]
    | .word "repeat" =>
      openBlock true
      openBlock false
      advance
      let body ← statements n
      expectClosing "until" "repeat" line
      let cond ← expr n
      closeBlock
      closeBlock
      pure [.repeat body cond]
    | .word "function" =>
      advance
      let x ← name
      let (target, isMethod) ← functionName n (.name x (← lastLine))
      let f ← functionBody n isMethod line
      checkAssignable target
      pure [.assign [target] [.function f] line]
    | .word "local" =>
      advance
      if ← accept "function" then
        let x ← name
        declare x .none
        let f ← functionBody n false (← currentLine)
        pure [.declareFunction x f]
      else
        let names ← declaredNames n
        let values ← if ← accept "=" then exprList n else pure []
        names.forM fun (x, a) => declare x a
        pure [.declare names values line]
    | .word "::" =>
      advance
      let label ← name
      expect "::"
      let more ← afterLabel n
      addLabel label line (← atBlockEnd false)
      pure (.label label :: more)
    | .word "return" =>
      advance
      let values ← if (← atBlockEnd true) || (← isWord ";") then pure [] else exprList n
      let _ ← accept ";"
      pure [.return values]
    | .word "break" =>
      advance
      addJump breakName line
      pure [.break]
    | .word "goto" =>
      advance
      let label ← name
      jump label line
      pure [.goto label]
    | _ =>
      let e ← suffixedExpr n
      if (← isWord "=") || (← isWord ",") then
        checkAssignable e
        let more ← targets n
        let values ← exprList n
        pure [.assign (e :: more) values (← lastLine)]
      else if isCall e then pure [.call e]
      else failNear "syntax error"

end

/-- A whole chunk. -/
def chunk (n : Nat) : Parser (List Stat) := do
  openFunction true
  advance
  let body ← statements n
  match (← get).token with
  | .eos =>
    closeFunction
    pure body
  | _ => failNear "'<eof>' expected"

end Parser

/-- The name of a chunk as messages show it: cut at its first line break, and short. -/
def chunkName (name : List Char) : List Char :=
  let shown :=
    if name.length < 45 && !name.contains '\n' then name
    else (name.takeWhile (· ≠ '\n')).take 45 ++ ['.', '.', '.']
  "[string \"".toList ++ shown ++ ['"', ']']

/-- The bytes of a text, each as a character. -/
def byteChars (text : String) : List Char := text.toUTF8.toList.map fun b => Char.ofNat b.toNat

/-- Where a failure is, as messages show it. -/
def positionText (chunk : List Char) (line : Nat) : List Char :=
  chunk ++ ':' :: (toString line).toList ++ [':', ' ']

/-- Parses a chunk. -/
def Program.parse (name text : String) : Except ParseFailure Program :=
  let source := byteChars text
  -- Two calls take a token, and one more stands around each block.
  let bound := 8 * (source.length + 8)
  match (Parser.chunk bound).run { source := ⟨source, 1⟩ } with
  | .ok (body, _) => .ok ⟨chunkName (byteChars name), body⟩
  | .error f => .error f

end ProcedureBridge.Lua
