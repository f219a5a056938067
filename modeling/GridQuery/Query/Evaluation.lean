/-
  GridQuery.Query.Evaluation — evaluating a query over a grid.

  Operands are evaluated left to right, and both of them always, whatever the operator; an index
  is held against the grid only after all of a node's indices have values, the product's
  first. A comprehension or quantifier takes the elements of its kind in ascending order, each
  bound to its name while the predicate or body runs. A quantifier stops at the first element
  that settles it, so what the body would do for later elements is never seen.

  A run carries the bindings and the events so far, and keeps both when it fails. `withBinding`
  cuts the bindings back to the depth they had, however its body ends.
-/

import GridQuery.Bindings
import GridQuery.Query.Event

namespace GridQuery

namespace Query

structure State where
  bindings : Bindings
  events : Array Event

abbrev Run := EStateM Error State

namespace Run

def report (e : Event) : Run Unit := fun s => .ok () { s with events := s.events.push e }

def lookup (name : String) : Run Int32 := fun s =>
  match s.bindings.lookup name with
  | some n => .ok n s
  | none => .error (.unbound name) s

def lift {α : Type} : Except Error α → Run α
  | .ok a => pure a
  | .error e => throw e

def withBinding {α : Type} (name : String) (value : Int32) (body : Run α) : Run α := fun s =>
  let cut (t : State) : State := { t with bindings := t.bindings.cutTo s.bindings.length }
  match body { s with bindings := s.bindings.push name value } with
  | .ok a t => .ok a (cut t)
  | .error e t => .error e (cut t)

/-- The elements for which `test` is true. -/
def keep (name : String) (test : Run Bool) : List Int32 → Run (List Int32)
  | [] => pure []
  | x :: xs => do
    let kept ← withBinding name x test
    report (.tested name x kept)
    let rest ← keep name test xs
    pure (if kept then x :: rest else rest)

/-- The quantified truth of `test`, found at the first decisive element or after the last. -/
def settle (q : Quantifier) (name : String) (test : Run Bool) : List Int32 → Run Bool
  | [] => pure (!q.decisive)
  | x :: xs => do
    if (← withBinding name x test) = q.decisive then
      report (.settled q name x)
      pure q.decisive
    else settle q name test xs

end Run

end Query

namespace Grid

def position (g : Grid) (a : Axis) (i : Int32) : Except Query.Error (Fin (g.extent a)) :=
  match g.position? a i with
  | some p => .ok p
  | none => .error (.outOfRange a i (g.extent a))

end Grid

/-- The number of elements, as far as 32 bits reach. -/
def Ascending.size32 (s : Ascending Int32) : Int32 := Int32.ofNat (min s.size 2147483647)

open Query in
def Expr.eval (g : Grid) : {c : Category} → Expr c → Run c.Carrier
  | _, .literal n => pure n
  | _, .var name => Run.lookup name
  | _, .productTotal p => do
    let p ← p.eval g
    pure (g.productTotal (← Run.lift (g.position .product p)))
  | _, .dayTotal d => do
    let d ← d.eval g
    pure (g.dayTotal (← Run.lift (g.position .day d)))
  | _, .total => pure g.total
  | _, .figure p d => do
    let p ← p.eval g
    let d ← d.eval g
    let p ← Run.lift (g.position .product p)
    pure (g.figure p (← Run.lift (g.position .day d)))
  | _, .size s => do
    pure (← s.eval g).size32
  | _, .elements k => pure (g.elements k)
  | _, .comprehension k x p => do
    pure (.ofList (← Run.keep x (p.eval g) (g.elements k).toList))
  | _, .not f => do
    pure (!(← f.eval g))
  | _, .quantified q x k f => Run.settle q x (f.eval g) (g.elements k).toList
  | _, .binary op l r => do
    let l ← l.eval g
    let r ← r.eval g
    Run.lift (op.apply l r)

namespace Query

def evaluate (g : Grid) (q : Query) : Run Value := do
  Run.report (.begun q)
  let v := Value.of (← q.expr.eval g)
  Run.report (.finished v)
  pure v

/-- What running an evaluation from some bindings comes to. -/
structure Outcome (α : Type) where
  result : Except Error α
  bindings : Bindings
  events : List Event

def Run.outcome {α : Type} (r : Run α) (b : Bindings) : Outcome α :=
  match r ⟨b, #[]⟩ with
  | .ok a s => ⟨.ok a, s.bindings, s.events.toList⟩
  | .error e s => ⟨.error e, s.bindings, s.events.toList⟩

end Query

end GridQuery
