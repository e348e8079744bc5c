import ProcedureBridge.Lua.Operation

/-! # Running programs

Expressions and statements. All that the program text bounds is recursion on the text; calls and
loops go through the runner. -/

namespace ProcedureBridge.Lua

/-- What a function's code runs with. -/
structure Context where
  env : Env
  varargs : List Value := []
  /-- Where the function was called. -/
  site : Site
  chunk : List Char
  /-- Variables of the function are to be closed, so that its calls are no tail calls. -/
  closing : Bool := false
  /-- How many variables the function has around it. -/
  outer : Nat := 0

namespace Context

/-- An operation or a call on a line of this function. -/
def onLine (c : Context) (line : Nat) : Site :=
  { c.site with callers := some (c.chunk, line) :: c.site.callers }

/-- Declares a variable. -/
def bind (c : Context) (x : String) (v : Value) : Eval Context := do
  let place ← Eval.update fun m => m.newCell v
  pure { c with env := (x, place) :: c.env }

def bindAll (c : Context) : List String → List Value → Eval Context
  | [], _ => pure c
  | x :: xs, vs => do (← c.bind x (first vs)).bindAll xs vs.tail

/-- The place of a variable that this function has declared, if the expression is its name. -/
def own? (c : Context) : Expr → Option Nat
  | .name x _ =>
    match c.env.findIdx? fun v => v.1 = x with
    | some i => if i + c.outer < c.env.length then (c.env[i]?).map Prod.snd else none
    | none => none
  | .paren e => c.own? e
  | _ => none

/-- Something that is known, or what a variable will hold. -/
inductive Operand
  | value (v : Value)
  | cell (place : Nat)

def Operand.read : Operand → Eval Value
  | .value v => pure v
  | .cell place => Eval.gets fun m => m.cell place

/-- What can be assigned to: a local variable, or a field of a table. -/
inductive Variable
  | cell (place : Nat)
  | field (object key : Operand)

/-- What a name means. If it is not bound, it means a field of the environment table. -/
def find (c : Context) (x : String) : Eval Variable :=
  match c.env.lookup x with
  | some place => pure (.cell place)
  | none =>
    let key := Operand.value (.ofString x)
    match c.env.lookup "_ENV" with
    | some place => pure (.field (.cell place) key)
    | none => pure (.field (.value .nil) key)

def Variable.read (r : Runner) (s : Site) : Variable → Eval Value
  | .cell place => Eval.gets fun m => m.cell place
  | .field object key => do Operation.index r s (← object.read) (← key.read)

def Variable.write (r : Runner) (s : Site) (v : Value) : Variable → Eval PUnit
  | .cell place => Eval.change fun m => m.setCell place v
  | .field object key => do Operation.setIndex r s (← object.read) (← key.read) v

/-- What error messages call the operand that an expression is. -/
def describe (c : Context) : Expr → String
  | .name x _ =>
    match c.env.findIdx? fun v => v.1 = x with
    | some i =>
      if i + c.outer < c.env.length then " (local '" ++ x ++ "')" else " (upvalue '" ++ x ++ "')"
    | none => " (global '" ++ x ++ "')"
  | .index _ (.str key) _ => " (field '" ++ Text.decodeLossy key ++ "')"
  | .index _ (.num (.int _)) _ => " (field 'integer index')"
  | .index .. => " (field '?')"
  | .paren e => c.describe e
  | _ => ""

end Context

open Context (Operand Variable)

namespace Exec

def closure (c : Context) : Function → Eval Value
  | .mk params isVararg body => do
    let place ← Eval.update fun m =>
      m.newClosure { params, isVararg, body, env := c.env, chunk := c.chunk }
    pure (.closure place)

/-- How many items a table constructor has for certain, and how many keys. -/
def fieldCounts : List Field → Nat × Nat
  | [] => (0, 0)
  | [.item .vararg] => (0, 0)
  | [.item (.call ..)] => (0, 0)
  | [.item (.method ..)] => (0, 0)
  | .item _ :: rest => let (items, keys) := fieldCounts rest; (items + 1, keys)
  | .keyed .. :: rest => let (items, keys) := fieldCounts rest; (items, keys + 1)

def setItems (place : Nat) : Nat → List Value → Eval PUnit
  | _, [] => pure ⟨⟩
  | n, v :: vs => do
    Eval.change fun m => m.modifyTable place fun t => t.setItem n v
    setItems place (n + 1) vs

/-- What error messages call the two operands. -/
def names (c : Context) (a b : Expr) (isFirst : Bool) : String :=
  c.describe (if isFirst then a else b)

/-- The first of the values of an expression. -/
def one (x : Eval (List Value)) : Eval Value := do pure (first (← x))

/-! Operands are read from left to right. Only an operand that is a variable of the running function
is read when the operation takes place, so that it shows what the other operand has done to it. -/

mutual

/-- The values of an expression. Only calls and `...` may have another number of them than one. -/
def results (r : Runner) (c : Context) : Expr → Eval (List Value)
  | .nil => pure [.nil]
  | .bool b => pure [.bool b]
  | .num n => pure [.num n]
  | .str s => pure [.str s]
  | .vararg => pure c.varargs
  | .function f => do pure [← closure c f]
  | .name x line => do pure [← (← c.find x).read r (c.onLine line)]
  | .index object key line => do
    match c.own? object with
    | some place =>
      let key ← one (results r c key)
      let object ← (Operand.cell place).read
      pure [← Operation.index r (c.onLine line) object key]
    | none =>
      let object ← one (results r c object)
      let key ← one (results r c key)
      pure [← Operation.index r (c.onLine line) object key]
  | .call f args line => do
    let f ← one (results r c f)
    let args ← allResults r c args
    r.call (c.onLine line) f args
  | .method object name nameLine args line => do
    let object ← one (results r c object)
    let f ← Operation.index r (c.onLine nameLine) object (.ofString name)
    let args ← allResults r c args
    r.call (c.onLine line) f (object :: args)
  | .binary op left right line => do
    match if op = .concat then none else c.own? left with
    | some place =>
      let b ← one (results r c right)
      let a ← (Operand.cell place).read
      pure [← Operation.binary r (c.onLine line) op (names c left right) a b]
    | none =>
      let a ← one (results r c left)
      let b ← one (results r c right)
      pure [← Operation.binary r (c.onLine line) op (names c left right) a b]
  | .unary op operand line => do
    let a ← one (results r c operand)
    pure [← Operation.unary r (c.onLine line) op (fun _ => c.describe operand) a]
  | .and a b => do
    let a ← one (results r c a)
    if a.isTrue then pure [← one (results r c b)] else pure [a]
  | .or a b => do
    let a ← one (results r c a)
    if a.isTrue then pure [a] else pure [← one (results r c b)]
  | .paren e => do pure [← one (results r c e)]
  | .table fields => do
    let (items, keys) := fieldCounts fields
    let place ← Eval.update fun m => m.newTable (.withRoom items keys)
    tableFields r c place 1 fields
    pure [.table place]

/-- The values of some expressions: one of each, but all of the last. -/
def allResults (r : Runner) (c : Context) : List Expr → Eval (List Value)
  | [] => pure []
  | [e] => results r c e
  | e :: rest => do
    let v ← one (results r c e)
    let vs ← allResults r c rest
    pure (v :: vs)

/-- Fills a new table; the next item gets the index `n`. -/
def tableFields (r : Runner) (c : Context) (place : Nat) : Nat → List Field → Eval PUnit
  | _, [] => pure ⟨⟩
  | n, .keyed key value line :: rest => do
    match c.own? key with
    | some cell =>
      let value ← one (results r c value)
      let key ← (Operand.cell cell).read
      Operation.rawSet (c.onLine line) place key value
      tableFields r c place n rest
    | none =>
      let key ← one (results r c key)
      let value ← one (results r c value)
      Operation.rawSet (c.onLine line) place key value
      tableFields r c place n rest
  | n, [.item e] => do setItems place n (← results r c e)
  | n, .item e :: rest => do
    setItems place n [← one (results r c e)]
    tableFields r c place (n + 1) rest

end

def value (r : Runner) (c : Context) (e : Expr) : Eval Value := one (results r c e)

/-- The object or the key of a target. A variable of the running function is read when the
assignment takes place, unless a target further on is the variable. -/
def targetPart (r : Runner) (c : Context) (later : List Expr) (e : Expr) : Eval Operand :=
  match c.own? e with
  | some place =>
    if later.any fun t => c.own? t == some place then do
      pure (.value (← (Operand.cell place).read))
    else pure (.cell place)
  | none => do pure (.value (← value r c e))

/-- The variables that are assigned to. -/
def targets (r : Runner) (c : Context) : List Expr → Eval (List Variable)
  | [] => pure []
  | e :: rest => do
    let v ←
      match e with
      | .name x _ => c.find x
      | .index object key _ => do
        let object ← targetPart r c rest object
        let key ← targetPart r c rest key
        pure (.field object key)
      | _ => pure (.field (.value .nil) (.value .nil))
    let vs ← targets r c rest
    pure (v :: vs)

/-- Assigns from the last target to the first. -/
def assignAll (r : Runner) (s : Site) : List Variable → List Value → Eval PUnit
  | [], _ => pure ⟨⟩
  | t :: ts, vs => do
    assignAll r s ts vs.tail
    t.write r s (first vs)

/-- A round of a loop: what its body's exit means for the loop. -/
def round (x : Eval Exit) (next : Value) : Eval (Sum Exit Value) := do
  match ← x with
  | .normal => pure (.inr next)
  | .break => pure (.inl .normal)
  | e => pure (.inl e)

/-- Runs what follows a label, again and again as long as it jumps to the label. -/
def labelled (r : Runner) (label : String) (x : Eval Exit) : Eval Exit :=
  r.loop .nil fun _ => do
    match ← x with
    | .goto l => if l = label then do Eval.tick 1; pure (.inr .nil) else pure (.inl (.goto l))
    | e => pure (.inl e)

/-- Counts an integer variable; the number of rounds is known when the loop begins. -/
def countRounds (body : Value → Eval Exit) (step : Int64) : Nat → Int64 → Eval Exit
  | 0, _ => pure .normal
  | n + 1, i => do
    Eval.tick 1
    match ← body (.int i) with
    | .normal => countRounds body step n (i + step)
    | .break => pure .normal
    | e => pure e

def forError {α : Type} (s : Site) (v : Value) (what : String) : Eval α :=
  s.error ("bad 'for' " ++ what ++ " (number expected, got " ++ v.typeName ++ ")")

/-- The number of rounds of an integer loop whose limit is any number. -/
def roundCount (start : Int64) (limit : Num) (step : Int64) : Nat :=
  let least := Int64.minValue.toInt
  let greatest := Int64.maxValue.toInt
  let last : Int :=
    match limit with
    | .int n => n.toInt
    | .float x =>
      match Number.Dyadic.ofFloat? x with
      | some d => if 0 < step then d.floor else d.ceil
      | none =>
        -- Nothing runs up to what is no number.
        if x.isNaN then (if 0 < step then least else greatest)
        else if 0.0 < x then greatest
        else least
  let last := max least (min greatest last)
  let isNaN :=
    match limit with
    | .float x => x.isNaN
    | .int _ => false
  let span := if 0 < step then last - start.toInt else start.toInt - last
  if isNaN || span < 0 then 0 else (span / step.toInt.natAbs).toNat + 1

/-- A loop over a range. With an integer start and step it counts, and otherwise it adds floats. -/
def rangeLoop (r : Runner) (s : Site) (start limit step : Value) (body : Value → Eval Exit) :
    Eval Exit :=
  match start, step with
  | .num (.int i), .num (.int k) =>
    if k = 0 then s.error "'for' step is zero"
    else
      match limit.toNum? with
      | some n => countRounds body k (roundCount i n k) i
      | none => forError s limit "limit"
  | start, step =>
    match limit.toNum?, step.toNum?, start.toNum? with
    | none, _, _ => forError s limit "limit"
    | _, none, _ => forError s step "step"
    | _, _, none => forError s start "initial value"
    | some limit, some step, some start =>
      let limit := limit.toFloat
      let step := step.toFloat
      if step == 0.0 then s.error "'for' step is zero"
      else
        r.loop (.float start.toFloat) fun v =>
          match v with
          | .num (.float x) =>
            if (if 0.0 < step then x ≤ limit else limit ≤ x) then do
              Eval.tick 1
              round (body (.float x)) (.float (x + step))
            else pure (.inl .normal)
          | _ => pure (.inl .normal)

/-- A loop over what an iterator gives, until it gives nil. -/
def iteratorLoop (r : Runner) (s : Site) (f state control : Value)
    (body : List Value → Eval Exit) : Eval Exit :=
  r.loop control fun control => do
    Eval.tick 1
    let vs ← r.callNested s f [state, control]
    if (first vs).isNil then pure (.inl .normal) else round (body vs) (first vs)

/-- Runs the rest of a block in which a variable is to be closed, and closes it then. -/
def closeAfter (r : Runner) (s : Site) (name : String) (v : Value) (rest : Eval Exit) :
    Eval Exit := do
  if !v.isTrue then rest
  else
    let handler ← Eval.gets fun m => m.metamethod v "__close"
    if handler.isNil then s.error ("variable '" ++ name ++ "' got a non-closable value")
    else
      match ← Eval.attempt rest with
      | .ok e => do
        let _ ← r.callNested s handler [v, .nil]
        pure e
      | .error err => do
        let _ ← r.callNested s handler [v, err]
        Eval.raise err

def declareAll (c : Context) : List (String × Attribute) → List Value → Eval Context
  | [], _ => pure c
  | (x, _) :: xs, vs => do declareAll (← c.bind x (first vs)) xs vs.tail

/-- The variable of a declaration that is to be closed, with its value. -/
def toClose? : List (String × Attribute) → List Value → Option (String × Value)
  | [], _ => none
  | (x, a) :: xs, vs => if a = .close then some (x, first vs) else toClose? xs vs.tail

mutual

/-- Runs the statements of a block, and `finish` where the block ends. -/
def stats (r : Runner) : Context → List Stat → (Context → Eval Exit) → Eval Exit
  | c, [], finish => finish c
  | c, s :: rest, finish =>
    match s with
    | .declare names values line => do
      let vs ← allResults r c values
      Eval.tick 1
      let c' ← declareAll c names vs
      match toClose? names vs with
      | none => stats r c' rest finish
      | some (x, v) =>
        closeAfter r (c.onLine line) x v (stats r { c' with closing := true } rest finish)
    | .declareFunction x f => do
      let place ← Eval.update fun m => m.newCell .nil
      let c := { c with env := (x, place) :: c.env }
      let v ← closure c f
      Eval.change fun m => m.setCell place v
      Eval.tick 1
      stats r c rest finish
    | .label l => labelled r l (stats r c rest finish)
    | s => do
      match ← stat r c s with
      | .normal => stats r c rest finish
      | .goto l => fromLabel r c l rest finish
      | e => pure e

/-- Looks for a label among the statements that follow, and goes on there. -/
def fromLabel (r : Runner) (c : Context) (label : String) :
    List Stat → (Context → Eval Exit) → Eval Exit
  | [], _ => pure (.goto label)
  | s :: rest, finish =>
    match s with
    | .label l =>
      if l = label then labelled r l (stats r c rest finish) else fromLabel r c label rest finish
    | _ => fromLabel r c label rest finish

def stat (r : Runner) (c : Context) : Stat → Eval Exit
  | .call e => do
    let _ ← results r c e
    Eval.tick 1
    pure .normal
  | .assign left values line => do
    let left ← targets r c left
    let vs ← allResults r c values
    assignAll r (c.onLine line) left vs
    Eval.tick 1
    pure .normal
  | .block body => stats r c body fun _ => pure .normal
  | .while cond body =>
    r.loop .nil fun _ => do
      Eval.tick 1
      let v ← value r c cond
      if v.isTrue then round (stats r c body fun _ => pure .normal) .nil
      else pure (.inl .normal)
  | .repeat body cond =>
    r.loop .nil fun _ => do
      Eval.tick 1
      round (stats r c body fun c => do
        let v ← value r c cond
        pure (if v.isTrue then .break else .normal)) .nil
  | .if cond body otherwise => do
    let v ← value r c cond
    if v.isTrue then stats r c body fun _ => pure .normal
    else stats r c otherwise fun _ => pure .normal
  | .forRange x start limit step body line => do
    let start ← value r c start
    let limit ← value r c limit
    let step ←
      match step with
      | some e => value r c e
      | none => pure (.int 1)
    rangeLoop r (c.onLine line) start limit step fun v => do
      stats r (← c.bind x v) body fun _ => pure .normal
  | .forEach names values body line => do
    let vs ← allResults r c values
    iteratorLoop r (c.onLine line) (arg vs 0) (arg vs 1) (arg vs 2) fun vs => do
      stats r (← c.bindAll names vs) body fun _ => pure .normal
  | .return values =>
    match values, c.closing with
    | [.call f args line], false => do
      let f ← value r c f
      let args ← allResults r c args
      pure (.tailCall f args line)
    | [.method object name nameLine args line], false => do
      let object ← value r c object
      let f ← Operation.index r (c.onLine nameLine) object (.ofString name)
      let args ← allResults r c args
      pure (.tailCall f (object :: args) line)
    | values, _ => do pure (.return (← allResults r c values))
  | .break => pure .break
  | .goto l => pure (.goto l)
  | .declare .. => pure .normal
  | .declareFunction .. => pure .normal
  | .label _ => pure .normal

end

/-- Runs a function of the program. -/
def callClosure (r : Runner) (s : Site) (f : Closure) (args : List Value) : Eval (List Value) := do
  if Site.heightLimit ≤ s.height then s.error "stack overflow"
  else
    Eval.tick 1
    let site := { s with height := s.height + 1 }
    let c : Context := { env := f.env, site, chunk := f.chunk, outer := f.env.length }
    let c ← c.bindAll f.params args
    let c := if f.isVararg then { c with varargs := args.drop f.params.length } else c
    match ← stats r c f.body fun _ => pure .normal with
    | .return vs => do
      Eval.tick 1
      pure vs
    | .tailCall g args line =>
      match g with
      | .closure _ => r.call s g args
      | g => r.call (c.onLine line) g args
    | _ => do
      Eval.tick 1
      pure []

end Exec

end ProcedureBridge.Lua
