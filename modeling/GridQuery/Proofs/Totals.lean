/-
  GridQuery.Proofs.Totals — the sums of a grid, by products, by days and as a whole.

  As long as 32 bits reach, the elements of an axis are the numbers of its places, in order
  (`toList_upTo`), and each number leads back to its place (`position?_number`). So to take
  figures or totals by number is to take them by place (`mapM_upTo`).

  A sum wraps wherever it gets too large. Still the result is the one 32-bit number congruent to
  the exact sum (`ofInt_eq_iff`), so the figures may be summed in any order and in any
  groups: the totals of the products and those of the days add up to the same
  (`sum_productTotal`, `sum_dayTotal`).
-/

import GridQuery.Proofs.Bounds
import Mathlib.Data.Int.ModEq

namespace GridQuery

open Query Query.Run

/-! ## Exact sums and wrapped ones -/

/-- A 32-bit number is what an integer wraps around to if it is congruent to it. -/
theorem ofInt_eq_iff {x : Int} {n : Int32} : n.toInt ≡ x [ZMOD 2 ^ 32] ↔ n = .ofInt x := by
  have hn := n.toInt_lt
  have hn' := n.le_toInt
  rw [Int.ModEq, eq_comm (a := n), Int32.ofInt_eq_iff_bmod_eq_toInt, Int.bmod_def]
  split <;> omega

theorem sum_map_ofInt (xs : List Int) : (xs.map Int32.ofInt).sum = .ofInt xs.sum := by
  induction xs with
  | nil => rfl
  | cons x xs ih => rw [List.map_cons, List.sum_cons, List.sum_cons, ih, Int32.ofInt_add]

theorem sum_ofFn_ofInt {n : Nat} (f : Fin n → Int) :
    (List.ofFn fun i => Int32.ofInt (f i)).sum = .ofInt (∑ i, f i) := by
  rw [← List.sum_ofFn, ← sum_map_ofInt, List.map_ofFn]
  rfl

namespace Grid

/-! ## The numbers of an axis -/

/-- The number of the place that `i` others stand before. -/
def number (i : Nat) : Int32 := .ofNat (i + 1)

theorem toInt_number {i : Nat} (h : i < 2147483647) : (number i).toInt = i + 1 := by
  rw [number, Int32.toInt_ofNat_of_lt (by omega)]
  omega

theorem eq_number {x : Int32} (h : 1 ≤ x.toInt) : x = number (x.toInt.toNat - 1) := by
  have hx := x.toInt_lt
  rw [← Int32.toInt_inj, toInt_number (by omega)]
  omega

/-- The elements of an axis are the numbers of its places, in order. -/
theorem toList_upTo {n : Nat} (h : n ≤ 2147483647) : (upTo n).toList = List.ofFn fun i : Fin n => number i := by
  refine Ascending.eq_of_mem_iff (upTo n).pairwise (List.pairwise_ofFn.mpr fun i j hij => ?_) fun x => ?_
  · rw [Int32.lt_iff_toInt_lt, toInt_number (by omega), toInt_number (by omega)]
    have hval : i.val < j.val := hij
    omega
  · rw [Ascending.mem_toList, mem_upTo, List.mem_ofFn]
    constructor
    · intro hx
      exact ⟨⟨x.toInt.toNat - 1, by omega⟩, (eq_number hx.1).symm⟩
    · rintro ⟨i, rfl⟩
      rw [toInt_number (by omega)]
      omega

theorem size_upTo {n : Nat} (h : n ≤ 2147483647) : (upTo n).size = n := by
  rw [Ascending.size, toList_upTo h, List.length_ofFn]

theorem exists_number {n : Nat} (h : n ≤ 2147483647) {x : Int32} (hx : x ∈ upTo n) : ∃ i : Fin n, x = number i := by
  rw [← Ascending.mem_toList, toList_upTo h, List.mem_ofFn] at hx
  obtain ⟨i, hi⟩ := hx
  exact ⟨i, hi.symm⟩

/-- What is there for every number of an axis is there for every place. -/
theorem mapM_upTo {α : Type} {n : Nat} (h : n ≤ 2147483647) {f : Int32 → Option α} {value : Fin n → α}
    (hf : ∀ i : Fin n, f (number i) = some (value i)) : (upTo n).toList.mapM f = some (List.ofFn value) := by
  have hplaces : (f ∘ fun i : Fin n => number i) = fun i => pure (value i) := funext hf
  rw [toList_upTo h, List.ofFn_eq_map, List.mapM_map, hplaces, List.mapM_pure, List.ofFn_eq_map]
  rfl

variable (g : Grid)

/-- The number of a place leads back to it. -/
theorem position?_number {a : Axis} (h : g.extent a ≤ 2147483647) (p : Fin (g.extent a)) :
    g.position? a (number p) = some p := by
  have hp := p.isLt
  rw [position?_eq_some, Numbers, offset, toInt_number (by omega)]
  omega

section

variable (hp : g.products ≤ 2147483647) (hd : g.days ≤ 2147483647)

include hp

theorem productTotalAt?_number (p : Fin g.products) : g.productTotalAt? (number p) = some (g.productTotal p) := by
  rw [productTotalAt?, g.position?_number (a := .product) hp, Option.map_some]

include hd

theorem figureAt?_number (p : Fin g.products) (d : Fin g.days) :
    g.figureAt? (number p) (number d) = some (g.figure p d) := by
  rw [figureAt?, g.position?_number (a := .product) hp, g.position?_number (a := .day) hd]
  rfl

omit hp

theorem dayTotalAt?_number (d : Fin g.days) : g.dayTotalAt? (number d) = some (g.dayTotal d) := by
  rw [dayTotalAt?, g.position?_number (a := .day) hd, Option.map_some]

end

/-! ## Sums of totals -/

theorem sum_productTotal : (List.ofFn g.productTotal).sum = g.total := by
  have hexact : g.productTotal = fun p => .ofInt (∑ d, (g.figure p d).toInt) := funext g.productTotal_eq
  rw [hexact, sum_ofFn_ofInt, total_eq]

/-- By days the figures are summed in another order. -/
theorem sum_dayTotal : (List.ofFn g.dayTotal).sum = g.total := by
  have hexact : g.dayTotal = fun d => .ofInt (∑ p, (g.figure p d).toInt) := funext g.dayTotal_eq
  rw [hexact, sum_ofFn_ofInt, total_eq, Finset.sum_comm]

/-! ## Totals and figures in a query -/

theorem map_position {α : Type} {a : Axis} {i : Int32} {f : Fin (g.extent a) → α} {t : α}
    (h : (g.position? a i).map f = some t) : (g.position a i).map f = .ok t := by
  unfold position
  cases hi : g.position? a i with
  | none =>
    rw [hi] at h
    cases h
  | some p =>
    rw [hi] at h
    cases h
    rfl

variable {g} {b : Bindings} {p d : Expr .numeric} {i j t : Int32}

theorem evaluate_total : (Query.evaluate g ⟨_, .total⟩).result b = .ok (.number g.total) := by
  rw [result_evaluate, Expr.result_total]
  rfl

theorem evaluate_productTotal (hp : (p.eval g).result b = .ok i) (ht : g.productTotalAt? i = some t) :
    (Query.evaluate g ⟨_, .productTotal p⟩).result b = .ok (.number t) := by
  have htotal : ((Expr.productTotal p).eval g).result b = .ok t := by
    rw [Expr.result_productTotal, hp]
    exact g.map_position (a := .product) ht
  rw [result_evaluate, htotal]
  rfl

theorem evaluate_dayTotal (hd : (d.eval g).result b = .ok j) (ht : g.dayTotalAt? j = some t) :
    (Query.evaluate g ⟨_, .dayTotal d⟩).result b = .ok (.number t) := by
  have htotal : ((Expr.dayTotal d).eval g).result b = .ok t := by
    rw [Expr.result_dayTotal, hd]
    exact g.map_position (a := .day) ht
  rw [result_evaluate, htotal]
  rfl

theorem evaluate_figure (hp : (p.eval g).result b = .ok i) (hd : (d.eval g).result b = .ok j)
    (ht : g.figureAt? i j = some t) : (Query.evaluate g ⟨_, .figure p d⟩).result b = .ok (.number t) := by
  obtain ⟨hproduct, hday⟩ := (g.isSome_figureAt? i j).mp (Option.isSome_of_eq_some ht)
  obtain ⟨x, hx, -⟩ := exists_position? hproduct
  obtain ⟨y, hy, -⟩ := exists_position? hday
  rw [figureAt?, hx, hy] at ht
  cases ht
  rw [result_evaluate, Expr.result_figure, hp, hd, ok_bind, ok_bind, position, position, hx, hy]
  rfl

end Grid

/-- In a grid whose products and days have 32-bit numbers, the totals of the products, taken by number
    and added, come to the total of the grid, and so do those of the days. The total is the one
    32-bit number congruent to the exact sum of all figures, that of a product the one congruent to
    the exact sum of its figures on all days, and that of a day likewise, however often a sum
    wraps on the way. Queries for the totals and figures come to these numbers, whatever is bound. -/
theorem totals_agree (g : Grid) (hp : g.products ≤ 2147483647) (hd : g.days ≤ 2147483647) :
    (∃ ts, (g.elements .product).toList.mapM g.productTotalAt? = some ts ∧ ts.sum = g.total) ∧
    (∃ ts, (g.elements .day).toList.mapM g.dayTotalAt? = some ts ∧ ts.sum = g.total) ∧
    (∀ n : Int32, n.toInt ≡ (g.rows.flatten.map Int32.toInt).sum [ZMOD 2 ^ 32] ↔ n = g.total) ∧
    (∀ p ∈ g.elements .product, ∃ t cells, g.productTotalAt? p = some t ∧
      (g.elements .day).toList.mapM (g.figureAt? p ·) = some cells ∧
      ∀ n : Int32, n.toInt ≡ (cells.map Int32.toInt).sum [ZMOD 2 ^ 32] ↔ n = t) ∧
    (∀ d ∈ g.elements .day, ∃ t cells, g.dayTotalAt? d = some t ∧
      (g.elements .product).toList.mapM (g.figureAt? · d) = some cells ∧
      ∀ n : Int32, n.toInt ≡ (cells.map Int32.toInt).sum [ZMOD 2 ^ 32] ↔ n = t) ∧
    ∀ b : Bindings, (Query.evaluate g ⟨_, .total⟩).result b = .ok (.number g.total) ∧
      (∀ p i t, (p.eval g).result b = .ok i → g.productTotalAt? i = some t →
        (Query.evaluate g ⟨_, .productTotal p⟩).result b = .ok (.number t)) ∧
      (∀ d j t, (d.eval g).result b = .ok j → g.dayTotalAt? j = some t →
        (Query.evaluate g ⟨_, .dayTotal d⟩).result b = .ok (.number t)) ∧
      ∀ p d i j t, (p.eval g).result b = .ok i → (d.eval g).result b = .ok j → g.figureAt? i j = some t →
        (Query.evaluate g ⟨_, .figure p d⟩).result b = .ok (.number t) := by
  have hproducts : (g.elements .product).toList.mapM g.productTotalAt? = some (List.ofFn g.productTotal) :=
    Grid.mapM_upTo hp (g.productTotalAt?_number hp)
  have hdays : (g.elements .day).toList.mapM g.dayTotalAt? = some (List.ofFn g.dayTotal) :=
    Grid.mapM_upTo hd (g.dayTotalAt?_number hd)
  refine ⟨⟨_, hproducts, g.sum_productTotal⟩, ⟨_, hdays, g.sum_dayTotal⟩, ?_, ?_, ?_, ?_⟩
  · intro n
    rw [ofInt_eq_iff, ← sum_eq_ofInt]
    rfl
  · intro p hmem
    obtain ⟨i, rfl⟩ := Grid.exists_number hp hmem
    refine ⟨_, _, g.productTotalAt?_number hp i, Grid.mapM_upTo hd (g.figureAt?_number hp hd i), fun n => ?_⟩
    rw [ofInt_eq_iff, ← sum_eq_ofInt, ← g.row_eq_ofFn]
    rfl
  · intro d hmem
    obtain ⟨j, rfl⟩ := Grid.exists_number hd hmem
    refine ⟨_, _, g.dayTotalAt?_number hd j, Grid.mapM_upTo hp (fun i => g.figureAt?_number hp hd i j), fun n => ?_⟩
    rw [ofInt_eq_iff, ← sum_eq_ofInt]
    rfl
  · intro b
    exact ⟨Grid.evaluate_total, fun p i t => Grid.evaluate_productTotal, fun d j t => Grid.evaluate_dayTotal,
      fun p d i j t => Grid.evaluate_figure⟩

-- The first product and the first day are too large for 32 bits, the grid as a whole is not.
theorem totals_agree_wrapping :
    let g : Grid := ⟨[[2147483647, 1], [1, -5]], by decide⟩
    g.products ≤ 2147483647 ∧ g.days ≤ 2147483647 ∧ g.productTotalAt? 1 = some (-2147483648) ∧
      g.dayTotalAt? 1 = some (-2147483648) ∧
      (∃ ts, (g.elements .product).toList.mapM g.productTotalAt? = some ts ∧ ts.sum = g.total) ∧
      (∃ ts, (g.elements .day).toList.mapM g.dayTotalAt? = some ts ∧ ts.sum = g.total) ∧ 2147483644 = g.total ∧
      (Query.evaluate g ⟨_, .productTotal (.var "p")⟩).result [("p", 1)] = .ok (.number (-2147483648)) := by
  intro g
  have hp : g.products ≤ 2147483647 := by decide
  have hd : g.days ≤ 2147483647 := by decide
  obtain ⟨hproducts, hdays, htotal, -, -, hqueries⟩ := totals_agree g hp hd
  obtain ⟨-, hproduct, -⟩ := hqueries [("p", 1)]
  exact ⟨hp, hd, rfl, by decide, hproducts, hdays, (htotal 2147483644).mp (by decide), hproduct (.var "p") 1 _ rfl rfl⟩

end GridQuery
