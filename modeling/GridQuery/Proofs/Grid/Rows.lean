/-
  GridQuery.Proofs.Grid.Rows — the rows that make a grid.

  Every grid is made from its own rows (`ofRows?_rows`), so rows make a grid exactly if they are
  those of one, which is to say that they are equally long (`exists_ofRows?_iff`). Rows of
  different lengths have a first one among them that is not as long as the first of all. It is not
  the first itself, and it is what the error names (`ofRows?_eq_error`).
-/

import GridQuery.Grid

namespace GridQuery.Grid

variable {rows : List (List Int32)}

/-- Whether a numbered row is not as long as the first row. -/
def isRagged (rows : List (List Int32)) (row : List Int32 × Nat) : Bool := row.1.length != width rows

theorem isRagged_eq_false {row : List Int32 × Nat} : isRagged rows row = false ↔ row.1.length = width rows := by
  rw [isRagged, bne_eq_false_iff_eq]

/-- Making a grid is looking for a ragged row. -/
theorem ofRows?_eq_error_iff_find? {e : Error} :
    ofRows? rows = .error e ↔
      ∃ row i, (rows.zipIdx 1).find? (isRagged rows) = some (row, i) ∧ e = .ragged i (width rows) row.length := by
  unfold ofRows?
  split
  · rename_i row i hfind
    have hfind : (rows.zipIdx 1).find? (isRagged rows) = some (row, i) := hfind
    rw [hfind]
    constructor
    · intro h
      cases h
      exact ⟨row, i, rfl, rfl⟩
    · rintro ⟨row, i, h, rfl⟩
      cases h
      rfl
  · rename_i hfind
    have hfind : (rows.zipIdx 1).find? (isRagged rows) = none := hfind
    rw [hfind]
    simp

/-! ## Equally long rows -/

theorem eq_width {n : Nat} (h : ∀ row ∈ rows, row.length = n) : ∀ row ∈ rows, row.length = width rows := by
  cases rows with
  | nil => nofun
  | cons first rest =>
    intro row hrow
    rw [width, h row hrow, h first List.mem_cons_self]

/-- A grid is made from its own rows. -/
theorem ofRows?_rows (g : Grid) : ofRows? g.rows = .ok g := by
  cases h : ofRows? g.rows with
  | ok g' =>
    have hrows := rows_of_ofRows? h
    cases g
    cases g'
    cases hrows
    rfl
  | error e =>
    obtain ⟨row, i, hfind, -⟩ := ofRows?_eq_error_iff_find?.mp h
    have hragged := List.find?_some hfind
    have hlength := g.rectangular row (List.fst_mem_of_mem_zipIdx (List.mem_of_find?_eq_some hfind))
    rw [isRagged_eq_false.mpr hlength] at hragged
    cases hragged

theorem exists_ofRows?_iff : (∃ g, ofRows? rows = .ok g) ↔ ∃ n, ∀ row ∈ rows, row.length = n := by
  constructor
  · intro ⟨g, hg⟩
    rw [← rows_of_ofRows? hg]
    exact ⟨_, g.rectangular⟩
  · intro ⟨n, hn⟩
    exact ⟨_, ofRows?_rows ⟨rows, eq_width hn⟩⟩

/-! ## The first ragged row -/

/-- Row `i`, counted from 1, is the first that has not as many figures as the first row: it has `found`
    of them, and the first row `expected`. -/
structure FirstRagged (rows : List (List Int32)) (i expected found : Nat) : Prop where
  two_le : 2 ≤ i
  first : rows[0]?.map List.length = some expected
  row : rows[i - 1]?.map List.length = some found
  ne : found ≠ expected
  before : ∀ j < i - 1, rows[j]?.map List.length = some expected

theorem length_getElem?_zero {row : List Int32} {j : Nat} (h : rows[j]? = some row) :
    rows[0]?.map List.length = some (width rows) := by
  cases rows with
  | nil => cases h
  | cons first rest => rfl

theorem firstRagged_of_find? {row : List Int32} {i : Nat}
    (h : (rows.zipIdx 1).find? (isRagged rows) = some (row, i)) :
    FirstRagged rows i (width rows) row.length := by
  obtain ⟨hragged, k, hk, hrow, hbefore⟩ := List.find?_eq_some_iff_getElem.mp h
  rw [List.length_zipIdx] at hk
  rw [List.getElem_zipIdx] at hrow
  cases hrow
  have hrow : rows[k]? = some rows[k] := List.getElem?_eq_getElem hk
  have hfirst := length_getElem?_zero hrow
  have hne : rows[k].length ≠ width rows := by simpa [isRagged] using hragged
  have hpred : 1 + k - 1 = k := by omega
  refine ⟨?_, hfirst, ?_, hne, ?_⟩
  · -- The first row is as long as itself.
    by_cases hzero : k = 0
    · subst hzero
      rw [hrow] at hfirst
      exact absurd (Option.some.inj hfirst) hne
    · omega
  · rw [hpred, hrow]
    rfl
  · intro j hj
    rw [hpred] at hj
    have hregular := hbefore j hj
    rw [List.getElem_zipIdx, Bool.not_eq_true', isRagged_eq_false] at hregular
    rw [List.getElem?_eq_getElem (Nat.lt_trans hj hk), Option.map_some, hregular]

theorem find?_of_firstRagged {i expected found : Nat} (h : FirstRagged rows i expected found) :
    ∃ row, (rows.zipIdx 1).find? (isRagged rows) = some (row, i) ∧ expected = width rows ∧ found = row.length := by
  obtain ⟨row, hrow, hfound⟩ := Option.map_eq_some_iff.mp h.row
  have hexpected : some expected = some (width rows) := h.first.symm.trans (length_getElem?_zero hrow)
  cases hexpected
  obtain ⟨hk, hget⟩ := List.getElem?_eq_some_iff.mp hrow
  have htwo := h.two_le
  refine ⟨row, List.find?_eq_some_iff_getElem.mpr ⟨?_, i - 1, ?_, ?_, ?_⟩, rfl, hfound.symm⟩
  · simpa [isRagged, hfound] using h.ne
  · rwa [List.length_zipIdx]
  · rw [List.getElem_zipIdx, hget, show 1 + (i - 1) = i by omega]
  · intro j hj
    have hregular := h.before j hj
    rw [List.getElem?_eq_getElem (Nat.lt_trans hj hk), Option.map_some, Option.some_inj] at hregular
    rw [List.getElem_zipIdx, isRagged_eq_false.mpr hregular]
    rfl

/-- Rows make no grid exactly if there is a first ragged one, and the error is about that one. -/
theorem ofRows?_eq_error {e : Error} :
    ofRows? rows = .error e ↔ ∃ i expected found, e = .ragged i expected found ∧ FirstRagged rows i expected found := by
  rw [ofRows?_eq_error_iff_find?]
  constructor
  · rintro ⟨row, i, hfind, rfl⟩
    exact ⟨i, width rows, row.length, rfl, firstRagged_of_find? hfind⟩
  · rintro ⟨i, expected, found, rfl, hragged⟩
    obtain ⟨row, hfind, rfl, rfl⟩ := find?_of_firstRagged hragged
    exact ⟨row, i, hfind, rfl⟩

/-- Rows make a grid exactly if they have one length. The grid has these rows, as many products as there
    are rows and as many days as they are long; none, where there are no rows. Rows that make
    no grid are refused with the first that is not as long as the first of all: its number, which
    is 2 or more, and both lengths. -/
theorem rows_make_grid (rows : List (List Int32)) :
    ((∃ g, ofRows? rows = .ok g) ↔ ∃ n, ∀ row ∈ rows, row.length = n) ∧
      (∀ g, ofRows? rows = .ok g → g.rows = rows ∧ g.products = rows.length ∧
        (∀ row ∈ rows, row.length = g.days) ∧ (rows = [] → g.days = 0)) ∧
      ∀ e, ofRows? rows = .error e ↔
        ∃ i expected found, e = .ragged i expected found ∧ FirstRagged rows i expected found := by
  refine ⟨exists_ofRows?_iff, ?_, fun e => ofRows?_eq_error⟩
  intro g hg
  have hrows := rows_of_ofRows? hg
  subst hrows
  refine ⟨rfl, rfl, g.rectangular, ?_⟩
  intro hnil
  rw [days, hnil]
  rfl

-- An empty first row makes the next one too long, and the last one is not looked at. Without it the
-- rows that are left have no days.
theorem rows_make_grid_empty_first :
    ofRows? [[], [], [7, 8], [1]] = .error (.ragged 3 0 2) ∧ FirstRagged [[], [], [7, 8], [1]] 3 0 2 ∧
      ∃ g, ofRows? [[], []] = .ok g ∧ g.rows = [[], []] ∧ g.products = 2 ∧ g.days = 0 := by
  have hragged : FirstRagged [[], [], [7, 8], [1]] 3 0 2 :=
    ⟨by decide, rfl, rfl, by decide, by decide⟩
  obtain ⟨-, -, herror⟩ := rows_make_grid [[], [], [7, 8], [1]]
  obtain ⟨hgrid, hshape, -⟩ := rows_make_grid [[], []]
  obtain ⟨g, hg⟩ := hgrid.mpr ⟨0, by decide⟩
  obtain ⟨hrows, hproducts, hdays, -⟩ := hshape g hg
  exact ⟨(herror _).mpr ⟨3, 0, 2, rfl, hragged⟩, hragged, g, hg, hrows, hproducts,
    (hdays [] List.mem_cons_self).symm⟩

end GridQuery.Grid
