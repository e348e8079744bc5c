import ProcedureBridge.Lua.Number

/-! # Programs of Lua

Where an operation can fail, its node has the line that the failure is reported with. -/

namespace ProcedureBridge.Lua

inductive BinaryOp
  | arith (op : Num.ArithOp)
  | bit (op : Num.BitOp)
  | concat
  | eq
  | ne
  | lt
  | le
  | gt
  | ge
deriving DecidableEq

inductive UnaryOp
  | neg
  | not
  | length
  | bitNot
deriving DecidableEq

/-- What a local variable is declared with. -/
inductive Attribute
  | none
  | const
  | close
deriving DecidableEq

mutual

inductive Expr
  | nil
  | bool (b : Bool)
  | num (n : Num)
  | str (s : ByteArray)
  | vararg
  | function (f : Function)
  | name (x : String) (line : Nat)
  | index (object key : Expr) (line : Nat)
  | call (f : Expr) (args : List Expr) (line : Nat)
  | method (object : Expr) (name : String) (nameLine : Nat) (args : List Expr) (line : Nat)
  | binary (op : BinaryOp) (a b : Expr) (line : Nat)
  | unary (op : UnaryOp) (a : Expr) (line : Nat)
  | and (a b : Expr)
  | or (a b : Expr)
  /-- Parentheses, which cut several values down to one. -/
  | paren (e : Expr)
  | table (fields : List Field)

inductive Field
  | item (value : Expr)
  | keyed (key value : Expr) (line : Nat)

inductive Function
  | mk (params : List String) (isVararg : Bool) (body : List Stat)

inductive Stat
  | call (e : Expr)
  | declare (names : List (String × Attribute)) (values : List Expr) (line : Nat)
  | assign (targets values : List Expr) (line : Nat)
  | block (body : List Stat)
  | while (cond : Expr) (body : List Stat)
  | repeat (body : List Stat) (cond : Expr)
  | if (cond : Expr) (body otherwise : List Stat)
  | forRange (x : String) (start limit : Expr) (step : Option Expr) (body : List Stat) (line : Nat)
  | forEach (names : List String) (values : List Expr) (body : List Stat) (line : Nat)
  | declareFunction (name : String) (f : Function)
  | return (values : List Expr)
  | break
  | goto (label : String)
  | label (name : String)

end

/-- A chunk: its name as error messages show it, and its statements. -/
structure Program where
  name : List Char
  body : List Stat

end ProcedureBridge.Lua
