import ProcedureBridge.Lua.Builtins
import ProcedureBridge.Lua.Library.Base
import ProcedureBridge.Lua.Library.Bytes
import ProcedureBridge.Lua.Library.List
import ProcedureBridge.Lua.Library.Math

/-! # The interpreter

Ties calls and loops to what they run. A run is given a supply of nested calls and rounds that no
run can use up in practice; it makes every evaluation a finite tree. -/

namespace ProcedureBridge.Lua

/-- Calls a function that is not written in Lua. -/
def Native.call (r : Runner) (s : Site) (args : List Value) : Native → Eval (List Value)
  | .assert => Library.assert s args
  | .error => Library.error s args
  | .getmetatable => Library.getmetatable s args
  | .ipairs => Library.ipairs s args
  | .ipairsStep => Library.ipairsStep r s args
  | .next => Library.next s args
  | .pairs => Library.pairs r s args
  | .pcall => Library.pcall r s args
  | .print redirected => Builtins.print redirected r s args
  | .rawequal => Library.rawequal s args
  | .rawget => Library.rawget s args
  | .rawlen => Library.rawlen s args
  | .rawset => Library.rawset s args
  | .select => Library.select s args
  | .setmetatable => Library.setmetatable s args
  | .tonumber => Library.tonumber s args
  | .tostring => Library.tostring r s args
  | .type => Library.type s args
  | .xpcall => Library.xpcall r s args
  | .math f => Library.math f s args
  | .string f => Library.string f s args
  | .table f => Library.table f r s args
  | .report severity => Builtins.report severity args
  | .xact => Builtins.xact r s args
  | .transaction => Builtins.transaction
  | .guarded => Builtins.guarded r s args
  | .errcode => Eval.gets fun _ => [Builtins.codeOf (arg args 0)]
  | .raise => Builtins.raise (arg args 0)
  | .stopEvent => Builtins.stopEvent args
  | .preload => Builtins.preload r s args
  | .clearCache => Builtins.clearCache
  | .handle f => Builtins.handle f args

namespace Interpreter

/-- How many values a call may go through that are called in place of one another. -/
def calleeLimit : Nat := 200

/-- Calls a value, at most so many values in its place. -/
def callUpTo (r : Runner) (s : Site) : Nat → Value → List Value → Eval (List Value)
  | 0, _, _ => s.error "stack overflow"
  | n + 1, f, args =>
    match f with
    | .closure place => do
      match ← Eval.gets fun m => m.closures[place]? with
      | some c => Exec.callClosure r s c args
      | none => pure []
    | .native g => g.call r s args
    | f => do
      let handler ← Eval.gets fun m => m.metamethod f "__call"
      if handler.isNil then s.error ("attempt to call a " ++ f.typeName ++ " value")
      else callUpTo r s n handler (f :: args)

def exhausted {α : Type} : Eval α := Eval.raise (.ofString "supply of calls exhausted")

/-- Runs calls and loops with the given supply. -/
def runner : Nat → Runner
  | 0 =>
    { call := fun _ _ _ => exhausted
      loop := fun _ _ => exhausted }
  | n + 1 =>
    { call := fun s f args => callUpTo (runner n) s calleeLimit f args
      loop := fun v body => do
        match ← body v with
        | .inl e => pure e
        | .inr v => (runner n).loop v body }

def supply : Nat := Nat.pow 2 62

/-- Calls a value from outside of Lua. -/
def call (f : Value) (args : List Value) : Eval (List Value) := (runner supply).call {} f args

/-- An evaluation as a script. Its errors leave Lua. -/
def script (x : Eval (List Value)) (m : Machine) : Tree :=
  Eval.body x (Operation.leave (runner supply) {}) m

end Interpreter

end ProcedureBridge.Lua
