/-
  GridQuery.Query.Event — what an evaluation reports while it runs.
-/

import GridQuery.Log
import GridQuery.Query
import GridQuery.Value

namespace GridQuery.Query

inductive Event where
  | begun (q : Query)
  /-- A comprehension's predicate has been evaluated for an element. -/
  | tested (name : String) (element : Int32) (kept : Bool)
  /-- A quantifier stopped at an element. -/
  | settled (q : Quantifier) (name : String) (element : Int32)
  | finished (v : Value)
  deriving DecidableEq

namespace Event

def level : Event → Level
  | .begun _ => .debug
  | .tested .. => .trace
  | .settled .. => .trace
  | .finished _ => .debug

def message : Event → String
  | .begun q => "Evaluating " ++ q.category.text ++ " query: " ++ q.text
  | .tested name element kept =>
    name ++ " = " ++ Numeral.writeWord element ++ ": " ++ (Value.truth kept).text
  | .settled q name element =>
    q.text ++ " " ++ name ++ ": settled at " ++ name ++ " = " ++ Numeral.writeWord element
  | .finished v => "Result: " ++ v.text

def record (e : Event) : Record := ⟨e.level, "salesql::expression::eval", e.message⟩

end Event

end GridQuery.Query
