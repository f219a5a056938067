/-
  GridQuery.Session — steps taken one after another over one grid and one stack of bindings.

  Every step leaves a reply and the bindings as they are after it. `within` takes its own steps
  with one more binding and then cuts the stack back to the depth it had. A text that is no
  expression of the wanted category is a reply like any other.
-/

import GridQuery.Query.Evaluation
import GridQuery.Query.Json
import GridQuery.Query.Scope

namespace GridQuery.Session

inductive Step where
  | push (name : String) (value : Int32)
  | pop
  | clear
  | lookup (name : String)
  | isBound (name : String)
  | isEmpty
  | length
  | within (name : String) (value : Int32) (steps : List Step)
  | evaluate (query : String)
  | eval (c : Category) (expr : String)
  /-- The number of elements of a set expression. -/
  | size (expr : String)
  | check (query : String)
  | elements (kind : Kind)

inductive Reply where
  | done
  | popped (binding : Option (String × Int32))
  | found (value : Option Int32)
  | truth (b : Bool)
  | count (n : Nat)
  | steps (replies : List (Reply × Bindings))
  | outcome (result : Except Query.Error Value)
  | value (result : Except Query.Error Value)
  | checked (result : Except Query.Error Unit)
  | elements (s : Ascending Int32)
  /-- The text is no expression of the wanted category. -/
  | malformed

variable (g : Grid)

def evalExpr {c : Category} (e : Expr c) (b : Bindings) : Reply × Bindings :=
  let out := (e.eval g).outcome b
  (.value (out.result.map Value.of), out.bindings)

mutual

def Step.run (b : Bindings) : Step → Reply × Bindings
  | .push name value => (.done, b.push name value)
  | .pop => (.popped b.pop.1, b.pop.2)
  | .clear => (.done, [])
  | .lookup name => (.found (b.lookup name), b)
  | .isBound name => (.truth (b.isBound name), b)
  | .isEmpty => (.truth b.isEmpty, b)
  | .length => (.count b.length, b)
  | .within name value steps =>
    let (replies, b') := runSteps (b.push name value) steps
    (.steps replies, b'.cutTo b.length)
  | .evaluate text =>
    match Query.read? text with
    | some q =>
      let out := (q.evaluate g).outcome b
      (.outcome out.result, out.bindings)
    | none => (.malformed, b)
  | .eval c text =>
    match Expr.read? c text with
    | some e => evalExpr g e b
    | none => (.malformed, b)
  | .size text =>
    match Expr.read? .set text with
    | some e => evalExpr g e.size b
    | none => (.malformed, b)
  | .check text =>
    match Query.read? text with
    | some q => (.checked (q.check g b), b)
    | none => (.malformed, b)
  | .elements kind => (.elements (g.elements kind), b)

def runSteps (b : Bindings) : List Step → List (Reply × Bindings) × Bindings
  | [] => ([], b)
  | s :: ss =>
    let (reply, b) := s.run b
    let (replies, last) := runSteps b ss
    ((reply, b) :: replies, last)

end

end GridQuery.Session
