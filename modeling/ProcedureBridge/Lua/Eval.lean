import ProcedureBridge.Lua.Machine

/-! # Evaluation

An evaluation is given what to do with its result and what to do with an error, and comes to a tree
of requests. So a run can stop at each request, and go on from there with the answer. -/

namespace ProcedureBridge.Lua

/-- A compiled unit: the function of its chunk, and the table that is its namespace. -/
structure Code where
  function : Nat
  space : Nat

abbrev Tree := Script Machine (List Value) Code

def Eval (α : Type) : Type :=
  Machine → (α → Machine → Tree) → (Value → Machine → Tree) → Tree

namespace Eval

variable {α β : Type}

instance : Monad Eval where
  pure a := fun m k _ => k a m
  bind x f := fun m k h => x m (fun a m => f a m k h) h

def raise (v : Value) : Eval α := fun m _ h => h v m

/-- Reads from the machine. -/
def gets (f : Machine → α) : Eval α := fun m k _ => let a := f m; k a m

def update (f : Machine → α × Machine) : Eval α := fun m k _ => let (a, m) := f m; k a m

def change (f : Machine → Machine) : Eval PUnit := fun m k _ => k ⟨⟩ (f m)

/-- Makes an error a result. -/
def attempt (x : Eval α) : Eval (Except Value α) := fun m k _ =>
  x m (fun a m => k (.ok a) m) (fun v m => k (.error v) m)

/-- The traceback that built-ins put around an error. -/
def traceback : String := "stack traceback:\n\t[C]: in ?"

/-- Raises an error of the bridge, as it leaves a built-in. -/
def fail (e : ScriptError) : Eval α := do
  let identity ← update Machine.newIdentity
  raise (.failure identity (.callback traceback e))

/-- Goes on with the answer to a request. -/
def answered (m : Machine) (k : α → Machine → Tree) (h : Value → Machine → Tree) :
    Except ScriptError α → Tree
  | .ok a => k a m
  | .error e => fail e m k h

/-- Accounts for executed instructions. -/
def tick (instructions : Nat) : Eval Unit := fun m k h => .tick instructions (answered m k h)

/-- A request that runs scripts and answers with an outcome. -/
def outcome (request : Machine → (Outcome Machine α → Tree) → Tree) : Eval α := fun m k h =>
  request m fun o => answered o.state k h o.result

/-- An evaluation as a body of its own. -/
def body (x : Eval (List Value)) (leave : Value → Eval ScriptError) (m : Machine) : Tree :=
  x m (fun vs m => .done ⟨.ok vs, m⟩)
    (fun v m => leave v m (fun e m => .done ⟨.error e, m⟩)
      (fun _ m => .done ⟨.error (.runtime "error in error handling"), m⟩))

end Eval

/-- A place in a program: the chunk and the line. Calls from outside of Lua have none. -/
abbrev Position := Option (List Char × Nat)

/-- Where a call or an operation takes place. -/
structure Site where
  /-- The positions of the calls in progress, the latest first. -/
  callers : List Position := []
  /-- How many calls in progress were made from outside of Lua code. -/
  depth : Nat := 0
  /-- How many Lua functions are active. -/
  height : Nat := 0

namespace Site

/-- How deeply calls from outside of Lua code may be nested. -/
def depthLimit : Nat := 197

/-- How many Lua functions may be active. -/
def heightLimit : Nat := 190000

/-- The text that names a position, which is empty if there is none. -/
def positionBytes : Position → ByteArray
  | some (chunk, line) => Lexer.bytesOf (positionText chunk line)
  | none => ByteArray.empty

/-- The text that names the position of the caller at a level, 1 being the latest. -/
def whereBytes (s : Site) (level : Nat) : ByteArray :=
  positionBytes ((s.callers[level - 1]?).getD none)

/-- A call made by a built-in. -/
def inner (s : Site) : Site := { s with callers := none :: s.callers, depth := s.depth + 1 }

/-- An operation done by a built-in, which has no position. -/
def inside (s : Site) : Site := { s with callers := none :: s.callers }

/-- A call made by an operation. -/
def nested (s : Site) : Site := { s with depth := s.depth + 1 }

/-- Raises an error message, with its position in front. -/
def error {α : Type} (s : Site) (message : String) : Eval α :=
  Eval.raise (.str (s.whereBytes 1 ++ message.toUTF8))

/-- Refuses an argument of a library function. -/
def badArgument {α : Type} (s : Site) (n : Nat) (f reason : String) : Eval α :=
  s.error ("bad argument #" ++ toString n ++ " to '" ++ f ++ "' (" ++ reason ++ ")")

end Site

/-- How a block is left. -/
inductive Exit
  | normal
  | break
  | goto (label : String)
  | return (values : List Value)
  /-- Returns what a call gives, which takes the place of the function that returns. -/
  | tailCall (f : Value) (args : List Value) (line : Nat)

/-- How calls and loops are run. Neither is bounded by the program text: both are given a supply
that shrinks with each nested call and each round. -/
structure Runner where
  call : Site → Value → List Value → Eval (List Value)
  /-- Goes through rounds, from state to state, until one ends the loop. -/
  loop : Value → (Value → Eval (Sum Exit Value)) → Eval Exit

namespace Runner

/-- A call made by an operation or a built-in. -/
def callNested (r : Runner) (s : Site) (f : Value) (args : List Value) : Eval (List Value) :=
  if Site.depthLimit ≤ s.depth then s.error "C stack overflow" else r.call s.nested f args

/-- A call made by a built-in. -/
def callInner (r : Runner) (s : Site) (f : Value) (args : List Value) : Eval (List Value) :=
  if Site.depthLimit ≤ s.depth then s.inner.error "C stack overflow" else r.call s.inner f args

end Runner

end ProcedureBridge.Lua
