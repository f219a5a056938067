/-
  GridQuery.Proofs.Rearrangement — what a query sees of a grid without asking for a place.

  A figure, the total of a product and the total of a day are asked for by number. A query in which
  nothing is (`indices`) reads three things of the grid: how many products and days it has,
  which figures occur, and what they add up to. None of these depends on where a figure
  stands (`total`, `elements`), so two grids of the same shape with the same figures, each as
  often, are the same to it: it does the same on both, step for step (`eval_rearranged`).

  The check never looks at figures, only at the shape (`check_congr`).
-/

import GridQuery.Proofs.Grid
import GridQuery.Proofs.Node

namespace GridQuery

open Query

namespace Grid

/-- Two grids of the same shape that hold the same figures, each as often, wherever they stand. -/
structure Rearranged (g h : Grid) : Prop where
  products : g.products = h.products
  days : g.days = h.days
  figures : g.rows.flatten.Perm h.rows.flatten

namespace Rearranged

variable {g h : Grid}

theorem extent (r : Rearranged g h) (a : Axis) : g.extent a = h.extent a := by
  cases a with
  | product => exact r.products
  | day => exact r.days

/-- Sums wrap on the way, and in another order elsewhere; the exact sums are the same. -/
theorem total (r : Rearranged g h) : g.total = h.total := by
  have hexact : (g.rows.flatten.map Int32.toInt).sum = (h.rows.flatten.map Int32.toInt).sum :=
    (r.figures.map Int32.toInt).sum_eq
  rw [Grid.total, Grid.total, sum_eq_ofInt, sum_eq_ofInt, hexact]

theorem elements (r : Rearranged g h) (k : Kind) : g.elements k = h.elements k := by
  cases k with
  | day => exact congrArg upTo r.days
  | product => exact congrArg upTo r.products
  | sale =>
    apply Ascending.ext
    intro x
    rw [Grid.elements, Grid.elements, Ascending.mem_ofList, Ascending.mem_ofList, r.figures.mem_iff]

end Rearranged

end Grid

/-- A query that asks for nothing by number runs the same way on rearranged grids. -/
theorem Expr.eval_rearranged {g h : Grid} (r : g.Rearranged h) {c : Category} (e : Expr c) (s : Scope)
    (he : ∀ n ∈ e.nodes s, n.expr.indices = []) : e.eval g = e.eval h := by
  induction e generalizing s with
  | literal n => rfl
  | var name => rfl
  | productTotal p => exact absurd (he _ List.mem_cons_self) (List.cons_ne_nil _ _)
  | dayTotal d => exact absurd (he _ List.mem_cons_self) (List.cons_ne_nil _ _)
  | total => rw [eval, eval, r.total]
  | figure p d => exact absurd (he _ List.mem_cons_self) (List.cons_ne_nil _ _)
  | size t ih =>
    have ht := ih s fun n hn => he n (List.mem_cons_of_mem _ hn)
    rw [eval, eval, ht]
  | elements k => rw [eval, eval, r.elements]
  | comprehension k x p ih =>
    have hp := ih ((x, k) :: s) fun n hn => he n (List.mem_cons_of_mem _ hn)
    rw [eval, eval, hp, r.elements]
  | not f ih =>
    have hf := ih s fun n hn => he n (List.mem_cons_of_mem _ hn)
    rw [eval, eval, hf]
  | quantified q x k f ih =>
    have hf := ih ((x, k) :: s) fun n hn => he n (List.mem_cons_of_mem _ hn)
    rw [eval, eval, hf, r.elements]
  | binary op l t ihl iht =>
    have hl := ihl s fun n hn => he n (List.mem_cons_of_mem _ (List.mem_append_left _ hn))
    have ht := iht s fun n hn => he n (List.mem_cons_of_mem _ (List.mem_append_right _ hn))
    rw [eval, eval, hl, ht]

/-- Literal numbers are held against the shape of the grid and nothing else. -/
theorem Query.check_congr {g h : Grid} (hshape : ∀ a, g.extent a = h.extent a) (b : Bindings) (q : Query) :
    q.check g b = q.check h b := by
  have hplace (a : Axis) (i : Int32) : (g.position? a i).isNone = (h.position? a i).isNone := by
    rw [Bool.eq_iff_iff, Option.isNone_iff_eq_none, Option.isNone_iff_eq_none, ← Option.not_isSome_iff_eq_none,
      ← Option.not_isSome_iff_eq_none, Grid.isSome_position?, Grid.isSome_position?, hshape]
  simp only [check, hplace, hshape]

/-- Two grids with as many products, as many days and the same figures, each as often, wherever they
    stand, pass the same queries in the check. A query in which no figure and no total of a
    product or day stands comes to the same value or error on both, and reports the same. -/
theorem rearranged_looks_same {g h : Grid} (r : g.Rearranged h) (b : Bindings) (q : Query) :
    q.check g b = q.check h b ∧
      ((∀ n ∈ q.expr.nodes [], n.expr.indices = []) → (q.evaluate g).outcome b = (q.evaluate h).outcome b) := by
  refine ⟨q.check_congr r.extent b, ?_⟩
  intro hq
  have heval := q.expr.eval_rearranged r [] hq
  rw [evaluate, evaluate, heval]

-- The figures of the second grid are those of the first in another order. Its totals by product are
-- others, and so would be those by day.
theorem rearranged_looks_same_shuffled :
    let g : Grid := ⟨[[2147483647, 1, 7], [1, -5, 2]], by decide⟩
    let h : Grid := ⟨[[1, 2, 1], [7, 2147483647, -5]], by decide⟩
    let q : Query := ⟨.set, .comprehension .sale "s" (.quantified .forSome "d" .day (.binary .lt
      (.binary .mul (.var "s") (.var "d")) (.binary .div .total (.size (.elements .product)))))⟩
    g.Rearranged h ∧ g.productTotalAt? 1 ≠ h.productTotalAt? 1 ∧ q.check g [] = q.check h [] ∧
      (∀ n ∈ q.expr.nodes [], n.expr.indices = []) ∧ (q.evaluate g).outcome [] = (q.evaluate h).outcome [] := by
  intro g h q
  have r : g.Rearranged h := ⟨rfl, rfl, by decide⟩
  have hq : ∀ n ∈ q.expr.nodes [], n.expr.indices = [] := by
    simp [q, Expr.nodes, Expr.indices]
  obtain ⟨hcheck, heval⟩ := rearranged_looks_same r [] q
  exact ⟨r, by decide, hcheck, hq, heval hq⟩

end GridQuery
