import ProcedureBridge.Diagnostic.Exception
import ProcedureBridge.Text.Blank

/-! # Errors leaving script code

An error that leaves script code is a tree: at its leaf a plain failure of the interpreter, an
exception of the bridge or the signal by which a trigger skips its row; around it the layers the
error crossed, each with a traceback. Layers change neither what is carried nor how it is
classified. -/

namespace ProcedureBridge

inductive ScriptError
  | runtime (message : String)
  /-- The source text is not a program. -/
  | malformed (message : String)
  | memory (message : String)
  /-- A script value has no counterpart on the host's side, or the wrong one. -/
  | conversion (message : String)
  | other (message : String)
  | exception (e : Exception)
  /-- Asks to skip the row that fired the trigger. Not an error. -/
  | suppress (reason : Option String)
  /-- The error left a built-in, or host code that the script had called. -/
  | callback (traceback : String) (cause : ScriptError)
  | context (text : String) (cause : ScriptError)
deriving DecidableEq

namespace ScriptError

/-- What an error tree carries beside plain text. -/
inductive Carried
  | exception (e : Exception)
  | suppress (reason : Option String)
deriving DecidableEq

/-- Looks through callback layers only. -/
def carried : ScriptError → Option Carried
  | callback _ cause => cause.carried
  | exception e => some (.exception e)
  | suppress reason => some (.suppress reason)
  | _ => none

def isSuppress (e : ScriptError) : Bool :=
  match e.carried with
  | some (.suppress _) => true
  | _ => false

/-- The traceback of the innermost callback layer, if there is a layer. -/
def innermostTraceback : ScriptError → Option String
  | callback traceback cause => some (cause.innermostTraceback.getD traceback)
  | _ => none

/-- The traceback of the outermost layer. -/
def traceback : ScriptError → Option String
  | callback traceback _ => some traceback
  | _ => none

def suppressText : Option String → String
  | none => "trigger event suppressed"
  | some reason => "trigger event suppressed: " ++ reason

/-- Shows the outer traceback inside the inner one: a mark stands where the outer one starts. -/
def markTraceback (outer inner : String) : String :=
  let part := Text.trimEnd (Text.trimStart (Text.dropLeads "stack traceback:".toList outer.toList))
  match Text.splitAt? part inner.toList with
  | some (before, after) => String.ofList (before ++ '>' :: Text.trimEnd after)
  | none => String.ofList (Text.trimEnd inner.toList)

/-- The traceback that an error's text ends with: there is one if the outermost layer is a
callback. -/
def traceText : ScriptError → String
  | callback traceback cause =>
    let trace :=
      match cause.innermostTraceback with
      | some inner => markTraceback traceback inner
      | none => String.ofList (Text.trimEnd traceback.toList)
    "\n" ++ trace ++ "\n"
  | _ => ""

/-- The text of the first cause that is no callback layer. -/
def rootText : ScriptError → String
  | runtime message => "runtime error: " ++ message
  | malformed message => "syntax error: " ++ message
  | memory message => "memory error: " ++ message
  | conversion message => "deserialize error: " ++ message
  | other message => message
  | exception e => e.summary
  | suppress reason => suppressText reason
  | context text cause => text ++ "\n" ++ cause.rootText ++ cause.traceText
  | callback _ cause => cause.rootText

/-- The text shown to people. -/
def display (e : ScriptError) : String := e.rootText ++ e.traceText

/-- The message a plain error is reported with. -/
def message : ScriptError → String
  | callback _ cause => cause.message
  | runtime message => message
  | malformed message => message
  | e => e.display

def isMalformed : ScriptError → Bool
  | callback _ cause => cause.isMalformed
  | malformed _ => true
  | _ => false

/-- The exception behind an error. A plain error gets one of its own; a carried one keeps
everything, and takes the outermost traceback for a context if it has none. -/
def toException (e : ScriptError) : Exception :=
  match e.carried with
  | some (.exception carriedOne) => carriedOne.withContext e.traceback
  | some (.suppress _) =>
    .plain .error .protocolViolation
      "trigger suppression requested outside of a BEFORE trigger"
  | none =>
    let code := if e.isMalformed then .malformedSource else .scriptException
    (Exception.plain .error code e.message).withContext e.traceback

end ScriptError

end ProcedureBridge
