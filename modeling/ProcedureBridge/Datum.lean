/-! # Data

The values that go into procedures and come out of them. -/

namespace ProcedureBridge

inductive Datum
  | null
  | bool (b : Bool)
  | int (n : Int)
  | float (x : Float)
  | string (s : String)
  | array (items : List Datum)
  | object (members : List (String × Datum))

end ProcedureBridge
