/-
  GridQuery.Query.Scope — what a query asks of its surroundings, and the check made from it.

  A name is free in a query where no comprehension or quantifier around it binds it. Besides
  names a query asks for the product and day numbers that stand in it as literals, in the
  order of the text. `check` refuses a query for the first free name, in the order of names,
  that has no binding, else for the first such number that the grid does not have.
-/

import GridQuery.Bindings
import GridQuery.Query

namespace GridQuery

namespace Expr

/-- The names that are not in `bound` where they stand. -/
def namesOutside (bound : List String) : {c : Category} → Expr c → List String
  | _, .literal _ => []
  | _, .var name => if name ∈ bound then [] else [name]
  | _, .productTotal p => p.namesOutside bound
  | _, .dayTotal d => d.namesOutside bound
  | _, .total => []
  | _, .figure p d => p.namesOutside bound ++ d.namesOutside bound
  | _, .size s => s.namesOutside bound
  | _, .elements _ => []
  | _, .comprehension _ x p => p.namesOutside (x :: bound)
  | _, .not f => f.namesOutside bound
  | _, .quantified _ x _ f => f.namesOutside (x :: bound)
  | _, .binary _ l r => l.namesOutside bound ++ r.namesOutside bound

def free {c : Category} (e : Expr c) : Ascending String := .ofList (e.namesOutside [])

/-- The number that an index is, when it is a literal. -/
def literal? : {c : Category} → Expr c → Option Int32
  | _, .literal n => some n
  | _, _ => none

def indexAt (axis : Axis) (i : Expr .numeric) : List (Axis × Int32) :=
  (i.literal?.map fun n => (axis, n)).toList

def literalIndices : {c : Category} → Expr c → List (Axis × Int32)
  | _, .literal _ => []
  | _, .var _ => []
  | _, .productTotal p => indexAt .product p ++ p.literalIndices
  | _, .dayTotal d => indexAt .day d ++ d.literalIndices
  | _, .total => []
  | _, .figure p d => indexAt .product p ++ p.literalIndices ++ (indexAt .day d ++ d.literalIndices)
  | _, .size s => s.literalIndices
  | _, .elements _ => []
  | _, .comprehension _ _ p => p.literalIndices
  | _, .not f => f.literalIndices
  | _, .quantified _ _ _ f => f.literalIndices
  | _, .binary _ l r => l.literalIndices ++ r.literalIndices

end Expr

namespace Query

def free (q : Query) : Ascending String := q.expr.free

def check (g : Grid) (b : Bindings) (q : Query) : Except Error Unit :=
  match q.free.toList.find? fun name => !b.isBound name with
  | some name => .error (.unbound name)
  | none =>
    match q.expr.literalIndices.find? fun (axis, i) => (g.position? axis i).isNone with
    | some (axis, i) => .error (.outOfRange axis i (g.extent axis))
    | none => .ok ()

end Query

end GridQuery
