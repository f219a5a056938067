/-
  GridQuery.Value — the value of a query, its readable form and its JSON form.

  A set is shown and written in ascending order; on reading, its elements may come in any order
  and repeat.
-/

import GridQuery.Json.Partial
import GridQuery.Json.Written
import GridQuery.Query.Operator

namespace GridQuery

inductive Value where
  | number (n : Int32)
  | set (s : Ascending Int32)
  | truth (b : Bool)
  deriving DecidableEq

namespace Value

def of : {c : Category} → c.Carrier → Value
  | .numeric, n => .number n
  | .set, s => .set s
  | .formula, b => .truth b

def text : Value → String
  | .number n => Numeral.writeWord n
  | .set s => "\x7b" ++ ", ".intercalate (s.toList.map Numeral.writeWord) ++ "\x7d"
  | .truth true => "true"
  | .truth false => "false"

def toJson : Value → Json
  | .number n => .tagged "Number" (.word n)
  | .set s => .tagged "Set" (.arr (s.toList.map .word))
  | .truth b => .tagged "Truth" (.bool b)

def ofJson? : Json → Option Value
  | .obj [(some "Number", content)] => content.word?.map .number
  | .obj [(some "Set", content)] => content.words?.map fun ns => .set (.ofList ns)
  | .obj [(some "Truth", content)] => content.bool?.map .truth
  | _ => none

def read? (text : String) : Option Value := (Json.read? text).bind ofJson?

end Value

end GridQuery
