/-
  GridQuery.Proofs.Bounds — a grid is read inside its rows.

  However a grid was made (`Source`), its rows are those of the source and all as long as the
  first. So a number is looked up in two steps: it is held against the extent, and then the row or
  the figure at its offset is there (`figureAt?_eq`, `productTotalAt?_eq`, `dayTotalAt?_eq`).
  For a figure in a query this means that nothing can go wrong after both of its numbers
  have been held against the grid (`figureOr_eq`).
-/

import GridQuery.Grid.File
import GridQuery.Proofs.Evaluation
import GridQuery.Proofs.Grid

namespace GridQuery

open Query Query.Run

namespace Grid

/-! ## Where grids come from -/

inductive Source where
  | ofRows (rows : List (List Int32))
  | ofJson (text : String)
  | ofText (text : String)

namespace Source

def grid? : Source → Except Error Grid
  | .ofRows rows => ofRows? rows
  | .ofJson text => ofJson? text
  | .ofText text => ofText? text

/-- The rows that a source holds, equally long or not. -/
def rows? : Source → Except Error (List (List Int32))
  | .ofRows rows => .ok rows
  | .ofJson text =>
    match (Json.read? text).bind rowsOfJson? with
    | some rows => .ok rows
    | none => .error .badJson
  | .ofText text => readRows text

theorem grid?_eq (s : Source) : s.grid? = s.rows? >>= ofRows? := by
  cases s with
  | ofRows rows => rfl
  | ofJson text =>
    simp only [grid?, rows?, ofJson?]
    cases (Json.read? text).bind rowsOfJson? <;> rfl
  | ofText text => rfl

theorem rows?_of_grid? {s : Source} {g : Grid} (h : s.grid? = .ok g) : s.rows? = .ok g.rows := by
  rw [grid?_eq] at h
  cases hrows : s.rows? with
  | error e =>
    rw [hrows] at h
    cases h
  | ok rows =>
    rw [hrows] at h
    rw [rows_of_ofRows? h]

end Source

/-! ## Numbers and offsets -/

variable (g : Grid)

/-- `i` is one of the numbers along an axis, which start at 1. -/
def Numbers (a : Axis) (i : Int32) : Prop := 1 ≤ i.toInt ∧ i.toInt ≤ g.extent a

instance (a : Axis) (i : Int32) : Decidable (g.Numbers a i) :=
  inferInstanceAs (Decidable (1 ≤ i.toInt ∧ i.toInt ≤ g.extent a))

/-- How many rows, or figures of a row, stand before the one with number `i`. -/
def offset (i : Int32) : Nat := (i.toInt - 1).toNat

theorem position?_eq_some {a : Axis} {i : Int32} {p : Fin (g.extent a)} :
    g.position? a i = some p ↔ g.Numbers a i ∧ offset i = p := by
  unfold position? Numbers offset
  split
  · rename_i h
    simp only [Option.some.injEq, Fin.ext_iff, h, and_self, true_and]
    omega
  · rename_i h
    simp [h]

theorem position?_eq_none {a : Axis} {i : Int32} : g.position? a i = none ↔ ¬ g.Numbers a i := by
  rw [← Option.not_isSome_iff_eq_none, isSome_position?]
  rfl

theorem getElem?_rows (p : Fin g.products) : g.rows[p.val]? = some (g.row p) :=
  List.getElem?_eq_getElem p.isLt

theorem getElem?_row (p : Fin g.products) (d : Fin g.days) : (g.row p)[d.val]? = some (g.figure p d) :=
  List.getElem?_eq_getElem (by rw [length_row]; exact d.isLt)

/-- No row is too short for a column. -/
theorem mapM_rows (d : Fin g.days) : g.rows.mapM (·[d.val]?) = some (g.column d) := by
  have hrow : (fun row : List Int32 => row[d.val]?) ∘ g.row = fun p => pure (g.figure p d) :=
    funext fun p => g.getElem?_row p d
  rw [rows_eq_ofFn, List.ofFn_eq_map, List.mapM_map, hrow, List.mapM_pure, column, List.ofFn_eq_map]
  rfl

/-! ## Reading by number -/

variable {g}

theorem exists_position? {a : Axis} {i : Int32} (h : g.Numbers a i) :
    ∃ p, g.position? a i = some p ∧ offset i = p := by
  obtain ⟨p, hp⟩ := Option.isSome_iff_exists.mp (g.isSome_position?.mpr h)
  exact ⟨p, hp, (g.position?_eq_some.mp hp).2⟩

variable (g)

theorem productTotalAt?_eq (p : Int32) :
    g.productTotalAt? p = if g.Numbers .product p then g.rows[offset p]?.map List.sum else none := by
  unfold productTotalAt?
  split
  · rename_i h
    obtain ⟨i, hi, hoffset⟩ := exists_position? h
    rw [hi, hoffset, getElem?_rows]
    rfl
  · rename_i h
    rw [g.position?_eq_none.mpr h]
    rfl

theorem dayTotalAt?_eq (d : Int32) :
    g.dayTotalAt? d = if g.Numbers .day d then (g.rows.mapM (·[offset d]?)).map List.sum else none := by
  unfold dayTotalAt?
  split
  · rename_i h
    obtain ⟨j, hj, hoffset⟩ := exists_position? h
    rw [hj, hoffset, mapM_rows]
    rfl
  · rename_i h
    rw [g.position?_eq_none.mpr h]
    rfl

theorem figureAt?_eq (p d : Int32) :
    g.figureAt? p d =
      if g.Numbers .product p ∧ g.Numbers .day d then g.rows[offset p]?.bind (·[offset d]?) else none := by
  unfold figureAt?
  split
  · rename_i h
    obtain ⟨i, hi, hp⟩ := exists_position? h.1
    obtain ⟨j, hj, hd⟩ := exists_position? h.2
    rw [hi, hj, hp, hd, getElem?_rows, Option.bind_some, getElem?_row]
    rfl
  · rename_i h
    by_cases hp : g.Numbers .product p
    · obtain ⟨i, hi, -⟩ := exists_position? hp
      have hd : ¬ g.Numbers .day d := fun hd => h ⟨hp, hd⟩
      rw [hi, g.position?_eq_none.mpr hd]
      rfl
    · rw [g.position?_eq_none.mpr hp]
      rfl

theorem isSome_productTotalAt? (p : Int32) : (g.productTotalAt? p).isSome ↔ g.Numbers .product p :=
  (Bool.eq_iff_iff.mp Option.isSome_map).trans g.isSome_position?

theorem isSome_dayTotalAt? (d : Int32) : (g.dayTotalAt? d).isSome ↔ g.Numbers .day d :=
  (Bool.eq_iff_iff.mp Option.isSome_map).trans g.isSome_position?

theorem isSome_figureAt? (p d : Int32) : (g.figureAt? p d).isSome ↔ g.Numbers .product p ∧ g.Numbers .day d := by
  constructor
  · intro h
    by_contra hout
    rw [figureAt?_eq, if_neg hout] at h
    cases h
  · intro ⟨hp, hd⟩
    obtain ⟨i, hi, -⟩ := exists_position? hp
    obtain ⟨j, hj, -⟩ := exists_position? hd
    rw [figureAt?, hi, hj]
    rfl

/-! ## A figure in a query -/

theorem figureAt?_of_position {g : Grid} {i j : Int32} {p : Fin (g.extent .product)} {d : Fin (g.extent .day)}
    (hp : g.position .product i = .ok p) (hd : g.position .day j = .ok d) :
    g.figureAt? i j = some (g.figure p d) := by
  have hi : g.position? .product i = some p := by
    unfold position at hp
    split at hp <;> cases hp
    assumption
  have hj : g.position? .day j = some d := by
    unfold position at hd
    split at hd <;> cases hd
    assumption
  rw [figureAt?, hi, hj]
  rfl

/-- The figure with two numbers, which are held against the grid first; `missing` is what comes of
    it if they pass and there is still no figure. -/
def figureOr (missing : Query.Error) (i j : Int32) : Except Query.Error Int32 := do
  let _ ← g.position .product i
  let _ ← g.position .day j
  match g.figureAt? i j with
  | some n => .ok n
  | none => .error missing

theorem figureOr_eq (missing : Query.Error) (i j : Int32) :
    g.figureOr missing i j = g.position .product i >>= fun p => (g.position .day j).map (g.figure p) := by
  unfold figureOr
  cases hp : g.position .product i with
  | error e => rfl
  | ok p =>
    cases hd : g.position .day j with
    | error e => rfl
    | ok d =>
      simp only [ok_bind, figureAt?_of_position hp hd]
      rfl

/-- Whatever a grid was made from, its rows are those of the source and all of one length, so what
    stands at the offset of a number of its products or days is always there: reading by
    number succeeds for exactly these numbers. In a query a figure's numbers are held against
    the grid first, and if they pass there is a figure, so that it makes no difference what a
    missing one would come to. -/
theorem read_in_bounds {s : Source} {g : Grid} (h : s.grid? = .ok g) :
    s.rows? = .ok g.rows ∧ (∀ row ∈ g.rows, row.length = g.days) ∧
    (∀ p d : Int32,
      (g.figureAt? p d =
          if g.Numbers .product p ∧ g.Numbers .day d then g.rows[offset p]?.bind (·[offset d]?) else none) ∧
        ((g.figureAt? p d).isSome ↔ g.Numbers .product p ∧ g.Numbers .day d)) ∧
    (∀ p : Int32,
      (g.productTotalAt? p = if g.Numbers .product p then g.rows[offset p]?.map List.sum else none) ∧
        ((g.productTotalAt? p).isSome ↔ g.Numbers .product p)) ∧
    (∀ d : Int32,
      (g.dayTotalAt? d = if g.Numbers .day d then (g.rows.mapM (·[offset d]?)).map List.sum else none) ∧
        ((g.dayTotalAt? d).isSome ↔ g.Numbers .day d)) ∧
    (∀ (i j : Int32) (p : Fin (g.extent .product)) (d : Fin (g.extent .day)),
      g.position .product i = .ok p → g.position .day j = .ok d → (g.figureAt? i j).isSome) ∧
    ∀ (p d : Expr .numeric) (b : Bindings) (missing : Int32 → Int32 → Query.Error),
      ((Expr.figure p d).eval g).result b =
        (p.eval g).result b >>= fun i => (d.eval g).result b >>= fun j => g.figureOr (missing i j) i j := by
  refine ⟨Source.rows?_of_grid? h, g.rectangular, fun p d => ⟨g.figureAt?_eq p d, g.isSome_figureAt? p d⟩,
    fun p => ⟨g.productTotalAt?_eq p, g.isSome_productTotalAt? p⟩,
    fun d => ⟨g.dayTotalAt?_eq d, g.isSome_dayTotalAt? d⟩, fun i j p d hp hd => ?_, fun p d b missing => ?_⟩
  · rw [figureAt?_of_position hp hd]
    rfl
  · rw [Expr.result_figure]
    simp only [figureOr_eq]

-- Two products, one day: the same grid from each source. The second number is the one out of range.
theorem read_in_bounds_oblong :
    let g : Grid := ⟨[[5], [1]], by decide⟩
    (∀ s ∈ [Source.ofRows [[5], [1]], .ofJson "[[5], [1]]", .ofText "5\n# none\n1,\n"],
      s.grid? = .ok g ∧ s.rows? = .ok [[5], [1]]) ∧
      g.figureAt? 2 1 = some 1 ∧ g.figureAt? 1 2 = none := by
  intro g
  have hsources : ∀ s ∈ [Source.ofRows [[5], [1]], .ofJson "[[5], [1]]", .ofText "5\n# none\n1,\n"],
      s.grid? = .ok g := by
    simp only [List.forall_mem_cons, List.not_mem_nil, false_imp_iff, implies_true, and_true]
    exact ⟨rfl, by decide +kernel, rfl⟩
  obtain ⟨-, -, hfigure, -⟩ := read_in_bounds (hsources (.ofRows [[5], [1]]) List.mem_cons_self)
  refine ⟨fun s hs => ⟨hsources s hs, (read_in_bounds (hsources s hs)).1⟩, ?_, ?_⟩
  · rw [(hfigure 2 1).1]
    rfl
  · rw [(hfigure 1 2).1]
    rfl

end Grid

end GridQuery
