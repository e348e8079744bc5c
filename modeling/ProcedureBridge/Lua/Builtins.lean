import ProcedureBridge.Lua.Convert
import ProcedureBridge.Lua.Library.Argument

/-! # Built-ins of the bridge

The functions with which scripts reach the host. Each makes a request, and an error that it raises
leaves it as an error that has crossed a built-in. -/

namespace ProcedureBridge.Lua

namespace Builtins

/-! ## Arguments -/

def conversionText (v : Value) (target reason : String) : String :=
  "error converting Lua " ++ v.kindName ++ " to " ++ target ++ " (" ++ reason ++ ")"

/-- The text that a value is taken for, or why it is none. -/
def toText (v : Value) : Except String String :=
  match v.toBytes? with
  | none => .error (conversionText v "String" "expected string or number")
  | some bytes =>
    match String.fromUTF8? bytes with
    | some s => .ok s
    | none => .error (conversionText v "String" "invalid utf-8 sequence")

def badArgument {α : Type} (n : Nat) (reason : String) : Eval α :=
  Eval.fail (.other ("bad argument #" ++ toString n ++ ": " ++ reason))

def textArg (args : List Value) (i : Nat) : Eval String :=
  match toText (arg args i) with
  | .ok s => pure s
  | .error reason => badArgument (i + 1) reason

def functionArg (args : List Value) (i : Nat) : Eval Value :=
  let v := arg args i
  if v.isFunction then pure v
  else badArgument (i + 1) (conversionText v "function" "expected function")

def selfArg (method : String) (args : List Value) : Eval HandleId :=
  match arg args 0 with
  | .transaction handle => pure handle
  | v =>
    Eval.fail (.other
      ("bad argument `self` to `" ++ method ++ "`: " ++
        conversionText v "userdata" "userdata is expected"))

def checked {α : Type} : Except ScriptError α → Eval α
  | .ok a => pure a
  | .error e => Eval.fail e

/-! ## Requests -/

/-- Delivers a message to the host, or raises it. -/
def deliver (severity : Severity) (message : String) (options : ReportOptions) : Eval Unit :=
  fun m k h => .report severity message options (Eval.answered m k h)

/-- The function `f` as a body of its own, called by a built-in. -/
def bodyOf (r : Runner) (s : Site) (f : Value) (args : Machine → List Value × Machine)
    (m : Machine) : Tree :=
  Eval.body (do r.callInner s f (← Eval.update args)) (Operation.leave r s) m

def report (severity : Severity) (args : List Value) : Eval (List Value) := do
  let message ← textArg args 0
  let options ← checked (← Eval.gets fun m => Convert.reportOptions m (arg args 1))
  deliver severity message options
  pure []

/-- Runs a function in a scope. -/
def xact (r : Runner) (s : Site) (args : List Value) : Eval (List Value) := do
  let body ← functionArg args 0
  Eval.outcome fun m next => .scope m (bodyOf r s body fun m => ([], m)) next

/-- Runs a function, and a handler on errors that a pattern names. -/
def guarded (r : Runner) (s : Site) (args : List Value) : Eval (List Value) := do
  let pattern ← textArg args 0
  let body ← functionArg args 1
  let handler ← functionArg args 2
  let handle (e : Exception) : Machine → Tree :=
    bodyOf r s handler fun m =>
      let (identity, m) := m.newIdentity
      ([.exception identity e], m)
  Eval.outcome fun m next => .guarded pattern m (bodyOf r s body fun m => ([], m)) handle next

def transaction : Eval (List Value) := fun m k _ =>
  .newHandle fun handle => k [.transaction handle] m

def enter (handle : HandleId) : Eval Unit := fun m k h => .enter handle (Eval.answered m k h)

def resolve (handle : HandleId) (resolution : Resolution) : Eval Unit := fun m k h =>
  .resolve handle resolution (Eval.answered m k h)

def handle (f : HandleMethod) (args : List Value) : Eval (List Value) := do
  match f with
  | .enter =>
    enter (← selfArg "enter" args)
    pure []
  | .commit =>
    resolve (← selfArg "commit" args) .commit
    pure []
  | .abort =>
    resolve (← selfArg "abort" args) .abort
    pure []
  | .status =>
    let status ← Operation.statusOf (← selfArg "status" args)
    pure [.ofString (Operation.handleStatusName status)]

/-- The code of an error value. What is no error of the bridge has the code of script errors. -/
def codeOf : Value → Value
  | .nil => .nil
  | .failure _ e => .ofString e.toException.code.toString
  | .exception _ e => .ofString e.code.toString
  | _ => .ofString ErrorCode.scriptException.toString

/-- Raises an error value again, unchanged. -/
def raise : Value → Eval (List Value)
  | .failure _ e => Eval.fail e
  | .exception _ e => Eval.fail (.exception e)
  | .transaction _ => Eval.fail (.other "userdata is not expected type")
  | v => Eval.fail (.runtime ("pl.raise expects an exception, got " ++ v.kindName))

/-- Asks to skip the row that fired the trigger. -/
def stopEvent (args : List Value) : Eval (List Value) := do
  let reason ← if (arg args 0).isNil then pure none else some <$> textArg args 0
  Eval.fail (.suppress reason)

def preload (r : Runner) (s : Site) (args : List Value) : Eval (List Value) := do
  let schemas ← checked ((args.mapM toText).mapError ScriptError.other)
  let topLevel (code : Code) : Machine → Tree :=
    bodyOf r s (.closure code.function) fun m => ([], m)
  let count ← Eval.outcome fun m next => .preload schemas m topLevel next
  pure [.ofNat count]

def clearCache : Eval (List Value) := fun m k _ =>
  .clearCache fun count => k [.ofNat count] m

/-- The text that a value is printed as. An error in its metatable's function leaves Lua. -/
def printed (r : Runner) (s : Site) (v : Value) : Eval String := do
  match ← Eval.attempt (Operation.text r s.inner v) with
  | .error err => do Eval.fail (← Operation.leave r s err)
  | .ok bytes =>
    match toText (.str bytes) with
    | .ok text => pure text
    | .error reason => Eval.fail (.other reason)

/-- Prints values. The text goes to the host as a notice, if it is not blank; without redirection it
goes where the host cannot see it. -/
def print (redirected : Bool) (r : Runner) (s : Site) (args : List Value) :
    Eval (List Value) := do
  let parts ← args.mapM (printed r s)
  let text := String.intercalate "\t" parts
  if redirected && !text.toList.all Text.isBlank then
    deliver .notice "data written to stdout"
      { code := some ErrorCode.successfulCompletion.toString, detail := some text }
  pure []

end Builtins

end ProcedureBridge.Lua
