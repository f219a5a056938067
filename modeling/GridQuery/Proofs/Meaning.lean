/-
  GridQuery.Proofs.Meaning — what a query means, apart from any evaluation.

  A valuation gives some names a number. Under it a numeric expression means a number, a set
  expression a set of numbers and a formula a proposition, if it means anything. Nothing here
  is done in steps: a quantifier is Lean's own over the whole set of its kind, a comprehension
  is the whole subset, and arithmetic is that of the integers, brought to 32 bits at the end.

  An expression means nothing when a part of it means nothing, and a part inside a binder must
  mean something for every element that the bound name may stand for (`each`). What has no
  meaning by itself: a name without a number, a division by zero, and a total or figure of a
  product or day that the grid does not have.
-/

import GridQuery.Proofs.Grid
import Mathlib.Data.Part

namespace GridQuery

abbrev Valuation := String → Option Int32

def Valuation.bind (ρ : Valuation) (name : String) (n : Int32) : Valuation := Function.update ρ name (some n)

/-- What expressions of a category mean. -/
@[reducible] def Category.Meaning : Category → Type
  | .numeric => Int32
  | .set => Set Int32
  | .formula => Prop

/-- What a value says. -/
def Category.said : {c : Category} → c.Carrier → c.Meaning
  | .numeric, n => n
  | .set, s => {x | x ∈ s}
  | .formula, t => t = true

/-- A proposition for each element of `s`, if every one of them has one. -/
def each (s : Set Int32) (P : Int32 → Part Prop) : Part (s → Prop) :=
  ⟨∀ x ∈ s, (P x).Dom, fun h x => (P x).get (h x x.2)⟩

namespace Grid

variable (g : Grid)

/-- The set of a kind. -/
def kindSet : Kind → Set Int32
  | .day => {i | 1 ≤ i.toInt ∧ i.toInt ≤ g.days}
  | .product => {i | 1 ≤ i.toInt ∧ i.toInt ≤ g.products}
  | .sale => {x | ∃ p d, g.figure p d = x}

theorem pred_lt_extent {a : Axis} {i : Int32} (h : 1 ≤ i.toInt ∧ i.toInt ≤ g.extent a) :
    i.toInt.toNat - 1 < g.extent a := by
  omega

/-- The place that a number means along an axis. -/
def place (a : Axis) (i : Int32) : Part (Fin (g.extent a)) :=
  ⟨1 ≤ i.toInt ∧ i.toInt ≤ g.extent a, fun h => ⟨i.toInt.toNat - 1, g.pred_lt_extent h⟩⟩

end Grid

def Operator.meaning : {a b : Category} → Operator a b → a.Meaning → a.Meaning → Part b.Meaning
  | _, _, .add, l, r => .some (.ofInt (l.toInt + r.toInt))
  | _, _, .sub, l, r => .some (.ofInt (l.toInt - r.toInt))
  | _, _, .mul, l, r => .some (.ofInt (l.toInt * r.toInt))
  | _, _, .div, l, r => ⟨r.toInt ≠ 0, fun _ => .ofInt (l.toInt.tdiv r.toInt)⟩
  | _, _, .union, l, r => .some (l ∪ r)
  | _, _, .difference, l, r => .some (l \ r)
  | _, _, .intersection, l, r => .some (l ∩ r)
  | _, _, .eq, l, r => .some (l.toInt = r.toInt)
  | _, _, .ne, l, r => .some (l.toInt ≠ r.toInt)
  | _, _, .lt, l, r => .some (l.toInt < r.toInt)
  | _, _, .le, l, r => .some (l.toInt ≤ r.toInt)
  | _, _, .gt, l, r => .some (l.toInt > r.toInt)
  | _, _, .ge, l, r => .some (l.toInt ≥ r.toInt)
  | _, _, .sameSet, l, r => .some (l = r)
  | _, _, .and, l, r => .some (l ∧ r)
  | _, _, .or, l, r => .some (l ∨ r)
  | _, _, .implies, l, r => .some (l → r)
  | _, _, .equiv, l, r => .some (l ↔ r)

def Quantifier.meaning {s : Set Int32} : Quantifier → (s → Prop) → Prop
  | .forSome, P => ∃ x, P x
  | .forAll, P => ∀ x, P x

noncomputable def Expr.meaning (g : Grid) : {c : Category} → Expr c → Valuation → Part c.Meaning
  | _, .literal n, _ => .some n
  | _, .var name, ρ => .ofOption (ρ name)
  | _, .productTotal p, ρ =>
    (p.meaning g ρ).bind fun i => (g.place .product i).map fun p => .ofInt (∑ d, (g.figure p d).toInt)
  | _, .dayTotal d, ρ =>
    (d.meaning g ρ).bind fun i => (g.place .day i).map fun d => .ofInt (∑ p, (g.figure p d).toInt)
  | _, .total, _ => .some (.ofInt (∑ p, ∑ d, (g.figure p d).toInt))
  | _, .figure p d, ρ =>
    (p.meaning g ρ).bind fun i => (d.meaning g ρ).bind fun j =>
      (g.place .product i).bind fun p => (g.place .day j).map fun d => g.figure p d
  | _, .size s, ρ => (s.meaning g ρ).map fun S => .ofInt (min S.ncard 2147483647 : ℕ)
  | _, .elements k, _ => .some (g.kindSet k)
  | _, .comprehension k x p, ρ =>
    (each (g.kindSet k) fun n => p.meaning g (ρ.bind x n)).map fun P => {n | ∃ h : n ∈ g.kindSet k, P ⟨n, h⟩}
  | _, .not f, ρ => (f.meaning g ρ).map Not
  | _, .quantified q x k f, ρ => (each (g.kindSet k) fun n => f.meaning g (ρ.bind x n)).map q.meaning
  | _, .binary op l r, ρ => (l.meaning g ρ).bind fun l => (r.meaning g ρ).bind fun r => op.meaning l r

end GridQuery
