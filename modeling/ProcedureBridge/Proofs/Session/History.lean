import ProcedureBridge.Session.Basic

/-! # Histories of sessions

A session is opened, and then asked for one thing after the other. Between two requests others may
have changed the host. -/

namespace ProcedureBridge

/-- What can be asked of an open session. -/
inductive Request
  | operate (o : Operation)
  | validate (id : ProcedureId)
  | refresh (id : ProcedureId)
  | invalidate (id : ProcedureId)
  | clearCache
  | interrupt (kind : Interrupt)
  | watch (time : Nat)
  | disarm

def Request.failureOf {α : Type} : Except Failure α → Option Failure
  | .ok _ => none
  | .error f => some f

/-- The language in which every text is the same script. -/
def Engine.scripted (script : Script Unit Unit Unit) : Engine where
  State := Unit
  Value := Unit
  Chunk := Unit
  Code := Unit
  parse _ _ := .ok ()
  instantiate _ _ := ((), ())
  topLevel _ _ := script
  member _ _ _ := script
  isFunction _ := true
  invoke _ _ _ := script
  isNil _ := true
  toDatum _ _ := .ok .null
  publish _ _ := script

namespace Session

variable {e : Engine} {σ : Type}

def withHost (s : Session e σ) (host : σ) : Session e σ := { s with core := { s.core with host } }

variable [Host σ]

/-- The failure that a request is answered with, if it is one, and the session after it. -/
def respond (s : Session e σ) : Request → Option Failure × Session e σ
  | .operate o => (Request.failureOf (s.operate o).1, (s.operate o).2)
  | .validate id => (Request.failureOf (s.validate id).1, (s.validate id).2)
  | .refresh id => (Request.failureOf (s.refresh id).1, (s.refresh id).2)
  | .invalidate id => (none, (s.invalidate id).2)
  | .clearCache => (none, s.clearCache.2)
  | .interrupt kind => (none, s.interrupt kind)
  | .watch time => (none, s.watch time)
  | .disarm => (none, s.disarm.2)

/-- What a session can become; `others` is what can happen to the host between two requests. -/
inductive Later (others : σ → σ → Prop) (s : Session e σ) : Session e σ → Prop
  | refl : Later others s s
  | request {t : Session e σ} (r : Request) : Later others s t → Later others s (t.respond r).2
  | outside {t : Session e σ} {host : σ} :
      Later others s t → others t.host host → Later others s (t.withHost host)

/-- The session has just been opened, on a host of a certain kind. -/
def Opened (kind : σ → Prop) (s : Session e σ) : Prop :=
  ∃ initial files host options, kind host ∧ start e initial files host options = .ok s

def Reachable (kind : σ → Prop) (others : σ → σ → Prop) (s : Session e σ) : Prop :=
  ∃ opened : Session e σ, opened.Opened kind ∧ opened.Later others s

end Session

end ProcedureBridge
