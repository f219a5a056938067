/-
  GridQuery.Proofs.Transpose — products and days are alike.

  A grid can be transposed, and a query can have its products and days exchanged (`swap`). After both
  the query comes to the same value, or still to none (`evaluate_transpose`). Which error it is
  then may change: a figure looks for its product before its day, and after the exchange for
  what was the day before what was the product. So the two evaluations are compared by their
  values alone (`SameValue`). Everything else about two such grids follows from their figures
  (`Transposed`), which is said once and for both directions.
-/

import GridQuery.Proofs.Evaluation
import GridQuery.Proofs.Grid
import GridQuery.Proofs.SameValue

namespace GridQuery

open Query Query.Run

/-! ## Exchanging products and days -/

def Axis.swap : Axis → Axis
  | .product => .day
  | .day => .product

def Kind.swap : Kind → Kind
  | .day => .product
  | .product => .day
  | .sale => .sale

def Expr.swap : {c : Category} → Expr c → Expr c
  | _, .literal n => .literal n
  | _, .var name => .var name
  | _, .productTotal p => .dayTotal p.swap
  | _, .dayTotal d => .productTotal d.swap
  | _, .total => .total
  | _, .figure p d => .figure d.swap p.swap
  | _, .size s => .size s.swap
  | _, .elements k => .elements k.swap
  | _, .comprehension k x p => .comprehension k.swap x p.swap
  | _, .not f => .not f.swap
  | _, .quantified q x k f => .quantified q x k.swap f.swap
  | _, .binary op l r => .binary op l.swap r.swap

def Query.swap (q : Query) : Query := ⟨q.category, q.expr.swap⟩

theorem width_eq {rows : List (List Int32)} {n : Nat} (hne : rows ≠ []) (h : ∀ row ∈ rows, row.length = n) :
    width rows = n := by
  cases rows with
  | nil => exact absurd rfl hne
  | cons row rows => exact h row List.mem_cons_self

namespace Grid

theorem length_of_mem_columns {g : Grid} {row : List Int32} (h : row ∈ List.ofFn g.column) :
    row.length = g.products := by
  obtain ⟨d, rfl⟩ := List.mem_ofFn.mp h
  exact List.length_ofFn

/-- The grid whose rows are the columns. -/
def transpose (g : Grid) : Grid where
  rows := List.ofFn g.column
  rectangular row hrow := by
    rw [length_of_mem_columns hrow, width_eq (List.ne_nil_of_mem hrow) fun _ => length_of_mem_columns]

/-- `h` has the figures of `g`, with products and days exchanged. -/
structure Transposed (g h : Grid) : Prop where
  products : g.products = h.days
  days : g.days = h.products
  figure (p : Fin g.products) (d : Fin g.days) : h.figure (d.cast days) (p.cast products) = g.figure p d

theorem transposed_transpose {g : Grid} (h : 0 < g.days) : Transposed g g.transpose where
  products := by
    have hne : List.ofFn g.column ≠ [] := by
      rw [Ne, List.ofFn_eq_nil_iff]
      omega
    exact (width_eq hne fun _ => length_of_mem_columns).symm
  days := List.length_ofFn.symm
  figure p d := by
    have hrow : g.transpose.row (d.cast List.length_ofFn.symm) = g.column d := List.get_ofFn g.column _
    exact (List.get_of_eq hrow _).trans (List.get_ofFn (fun p => g.figure p d) _)

namespace Transposed

variable {g h : Grid}

theorem symm (t : Transposed g h) : Transposed h g where
  products := t.days.symm
  days := t.products.symm
  figure p d := (t.figure (d.cast t.products.symm) (p.cast t.days.symm)).symm

theorem extent (t : Transposed g h) (a : Axis) : g.extent a = h.extent a.swap := by
  cases a with
  | product => exact t.products
  | day => exact t.days

theorem dayTotal (t : Transposed g h) (d : Fin g.days) : h.productTotal (d.cast t.days) = g.dayTotal d := by
  rw [productTotal_eq, dayTotal_eq]
  refine congrArg _ (Fintype.sum_equiv (finCongr t.products) _ _ fun p => ?_).symm
  rw [← t.figure p d]
  rfl

theorem productTotal (t : Transposed g h) (p : Fin g.products) : h.dayTotal (p.cast t.products) = g.productTotal p :=
  (t.symm.dayTotal (p.cast t.products)).symm

theorem total (t : Transposed g h) : h.total = g.total := by
  rw [total_eq, total_eq, Finset.sum_comm]
  refine congrArg _ (Fintype.sum_equiv (finCongr t.products) _ _ fun p => ?_).symm
  refine Fintype.sum_equiv (finCongr t.days) _ _ fun d => ?_
  rw [← t.figure p d]
  rfl

theorem elements (t : Transposed g h) (k : Kind) : h.elements k.swap = g.elements k := by
  refine Ascending.ext fun x => ?_
  cases k with
  | day => rw [mem_elements_day, t.days, Kind.swap, mem_elements_product]
  | product => rw [mem_elements_product, t.products, Kind.swap, mem_elements_day]
  | sale =>
    rw [Kind.swap, mem_elements_sale, mem_elements_sale]
    constructor
    · intro ⟨d, p, hx⟩
      exact ⟨p.cast t.products.symm, d.cast t.days.symm, (t.symm.figure d p).trans hx⟩
    · intro ⟨p, d, hx⟩
      exact ⟨d.cast t.days, p.cast t.products, (t.figure p d).trans hx⟩

/-- A number has a place along one axis if it has it along the other one of the other grid. -/
theorem exists_place (t : Transposed g h) (a : Axis) {P : Fin (h.extent a.swap) → Prop} :
    (∃ p, P p) ↔ ∃ p : Fin (g.extent a), P (p.cast (t.extent a)) :=
  ⟨fun ⟨p, hp⟩ => ⟨p.cast (t.extent a).symm, hp⟩, fun ⟨_, hp⟩ => ⟨_, hp⟩⟩

end Transposed

end Grid

/-! ## Same values on both grids -/

theorem Grid.Transposed.sameValue_place {g h : Grid} (t : Transposed g h) (a : Axis) (i : Int32)
    {f : Fin (g.extent a) → Int32} {f' : Fin (h.extent a.swap) → Int32} (hf : ∀ p, f' (p.cast (t.extent a)) = f p) :
    SameValue ((g.position a i).map f) ((h.position a.swap i).map f') := by
  intro v
  simp only [map_eq_ok, position_eq_ok]
  rw [t.exists_place]
  simp only [hf, Fin.val_cast]

namespace Expr

theorem eval_figure_eq_ok {g : Grid} {b : Bindings} {p d : Expr .numeric} {v : Int32} :
    ((figure p d).eval g).result b = .ok v ↔ ∃ (product : Fin g.products) (day : Fin g.days),
      (∃ i, (p.eval g).result b = .ok i ∧ i.toInt = product + 1) ∧
        (∃ j, (d.eval g).result b = .ok j ∧ j.toInt = day + 1) ∧ g.figure product day = v := by
  rw [result_figure]
  simp only [bind_eq_ok]
  constructor
  · intro ⟨i, hi, j, hj, product, hproduct, hmap⟩
    obtain ⟨day, hday, hv⟩ := map_eq_ok.mp hmap
    exact ⟨product, day, ⟨i, hi, g.position_eq_ok.mp hproduct⟩, ⟨j, hj, g.position_eq_ok.mp hday⟩, hv⟩
  · intro ⟨product, day, ⟨i, hi, hproduct⟩, ⟨j, hj, hday⟩, hv⟩
    exact ⟨i, hi, j, hj, product, g.position_eq_ok.mpr hproduct, map_eq_ok.mpr ⟨day, g.position_eq_ok.mpr hday, hv⟩⟩

theorem eval_swap {g h : Grid} (t : g.Transposed h) {c : Category} (e : Expr c) (b : Bindings) :
    SameValue ((e.eval g).result b) ((e.swap.eval h).result b) := by
  induction e generalizing b with
  | literal n => exact .refl _
  | var name => exact .refl _
  | productTotal p ih =>
    rw [swap, result_productTotal, result_dayTotal]
    exact (ih b).bind fun i => t.sameValue_place .product i t.productTotal
  | dayTotal d ih =>
    rw [swap, result_productTotal, result_dayTotal]
    exact (ih b).bind fun i => t.sameValue_place .day i t.dayTotal
  | total =>
    rw [swap, result_total, result_total, t.total]
    exact .refl _
  | figure p d ihp ihd =>
    intro v
    rw [swap, eval_figure_eq_ok, eval_figure_eq_ok]
    constructor
    · intro ⟨product, day, ⟨i, hi, hproduct⟩, ⟨j, hj, hday⟩, hv⟩
      exact ⟨day.cast t.days, product.cast t.products, ⟨j, (ihd b j).mp hj, hday⟩, ⟨i, (ihp b i).mp hi, hproduct⟩,
        (t.figure product day).trans hv⟩
    · intro ⟨day, product, ⟨j, hj, hday⟩, ⟨i, hi, hproduct⟩, hv⟩
      exact ⟨product.cast t.products.symm, day.cast t.days.symm, ⟨i, (ihp b i).mpr hi, hproduct⟩,
        ⟨j, (ihd b j).mpr hj, hday⟩, (t.symm.figure day product).trans hv⟩
  | size s ih =>
    rw [swap, result_size, result_size]
    exact (ih b).map
  | elements k =>
    rw [swap, result_elements, result_elements, t.elements]
    exact .refl _
  | comprehension k x p ih =>
    rw [swap, result_comprehension, result_comprehension, t.elements]
    exact (SameValue.kept (fun n => ih (b.push x n)) _).map
  | not f ih =>
    rw [swap, result_not, result_not]
    exact (ih b).map
  | quantified q x k f ih =>
    rw [swap, result_quantified, result_quantified, t.elements]
    exact .settled q (fun n => ih (b.push x n)) _
  | binary op l r ihl ihr =>
    rw [swap, result_binary, result_binary]
    exact (ihl b).bind fun v => (ihr b).bind fun w => .refl _

end Expr

/-- In a grid with products and days a query comes to a value exactly if, with products and days
    exchanged in it, it comes to that value in the transposed grid. -/
theorem evaluate_transpose (g : Grid) (hg : 0 < g.products ∧ 0 < g.days) (b : Bindings) (q : Query) (v : Value) :
    (q.evaluate g).result b = .ok v ↔ (q.swap.evaluate g.transpose).result b = .ok v := by
  rw [result_evaluate, result_evaluate]
  exact (q.expr.eval_swap (Grid.transposed_transpose hg.2) b).map v

-- Two products on three days, and the days on which one of the products sold almost alone.
theorem evaluate_transpose_oblong :
    let g : Grid := ⟨[[5, 2, 7], [1, 3, 2]], by decide⟩
    let alone : Expr .formula := .quantified .forSome "p" .product
      (.binary .gt (.figure (.var "p") (.var "d")) (.binary .sub (.dayTotal (.var "d")) (.var "n")))
    let q : Query := ⟨.set, .comprehension .day "d" alone⟩
    (q.swap.evaluate g.transpose).result [("n", 2)] = .ok (.set (.ofList [1])) := by
  intro g alone q
  have hvalue : (q.evaluate g).result [("n", 2)] = .ok (.set (.ofList [1])) := by decide +kernel
  exact (evaluate_transpose g (by decide) [("n", 2)] q (.set (.ofList [1]))).mp hvalue

end GridQuery
