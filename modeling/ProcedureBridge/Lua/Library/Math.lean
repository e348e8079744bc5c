import ProcedureBridge.Lua.Library.Argument

/-! # Functions on numbers -/

namespace ProcedureBridge.Lua

namespace Library

def ofFloatRounded (x : Float) (n : Option Int) : Value :=
  match n.bind Num.int64OfInt? with
  | some n => .int n
  | none => .float x

/-- The greatest or the least of some numbers; `better a b` says that `a` replaces `b`. -/
def extreme (s : Site) (f : String) (better : Num → Num → Bool) (args : List Value) :
    Eval (List Value) := do
  let start ← numArg s args 0 f
  let rec go : Nat → Nat → Num → Eval (List Value)
    | 0, _, best => one (.num best)
    | n + 1, i, best => do
      let x ← numArg s args i f
      go n (i + 1) (if better x best then x else best)
  go (args.length - 1) 1 start

def math (f : MathFunction) (s : Site) (args : List Value) : Eval (List Value) := do
  match f with
  | .floor =>
    match ← numArg s args 0 "floor" with
    | .int n => one (.int n)
    | .float x => one (ofFloatRounded x.floor ((Number.Dyadic.ofFloat? x).map (·.floor)))
  | .ceil =>
    match ← numArg s args 0 "ceil" with
    | .int n => one (.int n)
    | .float x => one (ofFloatRounded x.ceil ((Number.Dyadic.ofFloat? x).map (·.ceil)))
  | .abs =>
    match ← numArg s args 0 "abs" with
    | .int n => one (.int (if n < 0 then -n else n))
    | .float x => one (.float x.abs)
  | .sqrt => do one (.float (← numArg s args 0 "sqrt").toFloat.sqrt)
  | .max => extreme s "max" (fun x best => best.lt x) args
  | .min => extreme s "min" (fun x best => x.lt best) args
  | .fmod =>
    match ← numArg s args 0 "fmod", ← numArg s args 1 "fmod" with
    | .int a, .int b =>
      if b = 0 then s.badArgument 2 "fmod" "zero"
      else one (.int (.ofInt (a.toInt.tmod b.toInt)))
    | a, b => one (.float (Number.truncatedRemainder a.toFloat b.toFloat))
  | .tointeger =>
    match arg args 0 with
    | .num n => one ((n.toInteger?.map Value.int).getD .nil)
    | .str bytes => one ((((Value.str bytes).toNum?.bind Num.toInteger?).map Value.int).getD .nil)
    | _ =>
      present s args 0 "tointeger"
      one .nil
  | .type =>
    match arg args 0 with
    | .num (.int _) => one (.ofString "integer")
    | .num (.float _) => one (.ofString "float")
    | _ =>
      present s args 0 "type"
      one .nil
  | .ult => do
    let a ← intArg s args 0 "ult"
    let b ← intArg s args 1 "ult"
    one (.bool (decide ((Int64.ofInt a).toUInt64 < (Int64.ofInt b).toUInt64)))

end Library

end ProcedureBridge.Lua
