/-
  GridQuery.Proofs.Grid — the places, sums and sets of a grid, said without lists.

  A place is found for exactly the numbers 1 to the extent (`position_eq_ok`). Each total is the
  exact sum of its figures, brought to 32 bits once (`productTotal_eq`, `dayTotal_eq`,
  `total_eq`), however often the sum wraps on the way. The sale set holds the figures at all
  places (`mem_elements_sale`).
-/

import GridQuery.Query.Evaluation
import Mathlib.Algebra.BigOperators.Fin
import Mathlib.Data.Set.Card

namespace GridQuery

/-! ## Sums -/

/-- Wrapping around at every step comes to the same as wrapping around at the end. -/
theorem sum_eq_ofInt (xs : List Int32) : xs.sum = .ofInt (xs.map Int32.toInt).sum := by
  induction xs with
  | nil => rfl
  | cons x xs ih => rw [List.sum_cons, List.map_cons, List.sum_cons, Int32.ofInt_add, Int32.ofInt_toInt, ih]

theorem sum_ofFn_eq_ofInt {n : Nat} (f : Fin n → Int32) : (List.ofFn f).sum = .ofInt (∑ i, (f i).toInt) := by
  rw [sum_eq_ofInt, List.map_ofFn, List.sum_ofFn]
  rfl

namespace Grid

variable (g : Grid)

theorem row_eq_ofFn (p : Fin g.products) : g.row p = List.ofFn (g.figure p) := by
  refine List.ext_getElem ?_ fun i h _ => ?_
  · rw [List.length_ofFn, length_row]
  · rw [List.getElem_ofFn]
    rfl

theorem rows_eq_ofFn : g.rows = List.ofFn g.row := (List.ofFn_get g.rows).symm

theorem productTotal_eq (p : Fin g.products) : g.productTotal p = .ofInt (∑ d, (g.figure p d).toInt) := by
  rw [productTotal, row_eq_ofFn, sum_ofFn_eq_ofInt]

theorem dayTotal_eq (d : Fin g.days) : g.dayTotal d = .ofInt (∑ p, (g.figure p d).toInt) := by
  rw [dayTotal, column, sum_ofFn_eq_ofInt]

theorem total_eq : g.total = .ofInt (∑ p, ∑ d, (g.figure p d).toInt) := by
  have hrow (p : Fin g.products) : ((g.row p).map Int32.toInt).sum = ∑ d, (g.figure p d).toInt := by
    rw [row_eq_ofFn, List.map_ofFn, List.sum_ofFn]
    rfl
  rw [total, sum_eq_ofInt, List.map_flatten, List.sum_flatten, List.map_map, rows_eq_ofFn, List.map_ofFn,
    List.sum_ofFn]
  exact congrArg _ (Finset.sum_congr rfl fun p _ => hrow p)

/-! ## Places -/

theorem position_eq_ok {a : Axis} {i : Int32} {p : Fin (g.extent a)} : g.position a i = .ok p ↔ i.toInt = p + 1 := by
  have hp := p.isLt
  unfold position position?
  split
  · rename_i q hq
    split at hq
    · cases hq
      simp only [Except.ok.injEq, Fin.ext_iff]
      omega
    · cases hq
  · rename_i hq
    split at hq
    · cases hq
    · constructor
      · intro h
        cases h
      · intro h
        omega

theorem position_eq_error {a : Axis} {i : Int32} {e : Query.Error} :
    g.position a i = .error e ↔ ¬ (1 ≤ i.toInt ∧ i.toInt ≤ g.extent a) ∧ e = .outOfRange a i (g.extent a) := by
  unfold position position?
  split
  · rename_i q hq
    split at hq
    · simp_all
    · cases hq
  · rename_i hq
    split at hq
    · cases hq
    · simp_all [eq_comm]

/-! ## Sets -/

theorem mem_elements_day {i : Int32} : i ∈ g.elements .day ↔ 1 ≤ i.toInt ∧ i.toInt ≤ g.days := mem_upTo

theorem mem_elements_product {i : Int32} : i ∈ g.elements .product ↔ 1 ≤ i.toInt ∧ i.toInt ≤ g.products := mem_upTo

theorem mem_elements_sale {x : Int32} : x ∈ g.elements .sale ↔ ∃ p d, g.figure p d = x := by
  simp only [elements, Ascending.mem_ofList, rows_eq_ofFn, List.mem_flatten, List.mem_ofFn]
  constructor
  · intro ⟨row, hrow, hx⟩
    obtain ⟨p, rfl⟩ := hrow
    rw [row_eq_ofFn, List.mem_ofFn] at hx
    exact ⟨p, hx⟩
  · intro ⟨p, d, hx⟩
    refine ⟨g.row p, ⟨p, rfl⟩, ?_⟩
    rw [row_eq_ofFn]
    exact List.mem_ofFn.mpr ⟨d, hx⟩

end Grid

namespace Ascending

theorem nodup (s : Ascending Int32) : s.toList.Nodup := s.pairwise.imp fun h => Int32.ne_of_lt h

theorem ncard_eq_size (s : Ascending Int32) : {x | x ∈ s}.ncard = s.size := by
  have hset : {x | x ∈ s} = (s.toList.toFinset : Set Int32) := by
    ext x
    simp
  rw [hset, Set.ncard_coe_finset, List.toFinset_card_of_nodup s.nodup]
  rfl

end Ascending

end GridQuery
