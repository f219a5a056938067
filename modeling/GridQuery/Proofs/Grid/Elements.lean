/-
  GridQuery.Proofs.Grid.Elements — the sets of a grid and the places in it.

  A number can be met in two ways: a name that ranges over the products or days takes it as an
  element, and an index is held against the grid. Both come to the same numbers, 1 to the extent, however
  large the grid is (`mem_elements_kind_iff`). A grid with more places along an axis than there
  are numbers has elements up to the largest number, and each of them has its place.

  As long as every place has a number, the figures are what names that range over the products and
  days come upon (`mem_elements_sale_iff`).
-/

import GridQuery.Proofs.Progress
import GridQuery.Proofs.Totals

namespace GridQuery.Grid

variable {g : Grid}

/-- What ranges over an axis is what has a place on it. -/
theorem mem_elements_kind_iff {a : Axis} {i : Int32} : i ∈ g.elements a.kind ↔ (g.position? a i).isSome = true :=
  mem_elements_kind.trans g.isSome_position?.symm

/-- Whatever is found by numbers, all three are elements: both numbers and the figure. -/
theorem mem_elements_of_figureAt? {p d x : Int32} (h : g.figureAt? p d = some x) :
    p ∈ g.elements .product ∧ d ∈ g.elements .day ∧ x ∈ g.elements .sale := by
  obtain ⟨i, hi, hrest⟩ := Option.bind_eq_some_iff.mp h
  obtain ⟨j, hj, hx⟩ := Option.bind_eq_some_iff.mp hrest
  have hproduct : p ∈ g.elements .product := (mem_elements_kind_iff (a := .product)).mpr (Option.isSome_of_eq_some hi)
  have hday : d ∈ g.elements .day := (mem_elements_kind_iff (a := .day)).mpr (Option.isSome_of_eq_some hj)
  exact ⟨hproduct, hday, g.mem_elements_sale.mpr ⟨i, j, Option.some.inj hx⟩⟩

theorem number_mem_elements {a : Axis} (h : g.extent a ≤ 2147483647) (p : Fin (g.extent a)) :
    number p ∈ g.elements a.kind := by
  rw [mem_elements_kind_iff, position?_number g h]
  rfl

theorem mem_elements_sale_iff (hp : g.products ≤ 2147483647) (hd : g.days ≤ 2147483647) {x : Int32} :
    x ∈ g.elements .sale ↔ ∃ p ∈ g.elements .product, ∃ d ∈ g.elements .day, g.figureAt? p d = some x := by
  constructor
  · intro hx
    obtain ⟨i, j, rfl⟩ := g.mem_elements_sale.mp hx
    have hproduct : number i ∈ g.elements .product := number_mem_elements (a := .product) hp i
    have hday : number j ∈ g.elements .day := number_mem_elements (a := .day) hd j
    exact ⟨number i, hproduct, number j, hday, figureAt?_number g hp hd i j⟩
  · rintro ⟨p, -, d, -, h⟩
    exact (mem_elements_of_figureAt? h).2.2

/-- A number is an element of the products or days exactly if it has a place on their axis, and that is if it
    is one of 1 to the extent, whatever the extent. What two numbers lead to is a figure, and if
    every product and every day has a number, each figure is what a product and a day lead to. -/
theorem elements_have_places (g : Grid) :
    (∀ (a : Axis) (i : Int32),
      (i ∈ g.elements a.kind ↔ (g.position? a i).isSome = true) ∧
        ((g.position? a i).isSome = true ↔ 1 ≤ i.toInt ∧ i.toInt ≤ g.extent a)) ∧
      (∀ p d x : Int32, g.figureAt? p d = some x →
        p ∈ g.elements .product ∧ d ∈ g.elements .day ∧ x ∈ g.elements .sale) ∧
      (g.products ≤ 2147483647 → g.days ≤ 2147483647 → ∀ x : Int32,
        x ∈ g.elements .sale ↔ ∃ p ∈ g.elements .product, ∃ d ∈ g.elements .day, g.figureAt? p d = some x) := by
  refine ⟨?_, ?_, ?_⟩
  · intro a i
    exact ⟨mem_elements_kind_iff, g.isSome_position?⟩
  · intro p d x
    exact mem_elements_of_figureAt?
  · intro hp hd x
    exact mem_elements_sale_iff hp hd

/-- Products without days. -/
def dayless (n : Nat) : Grid where
  rows := List.replicate n []
  rectangular := by
    intro row hrow
    rw [List.eq_of_mem_replicate hrow]
    cases n <;> rfl

theorem products_dayless (n : Nat) : (dayless n).products = n := List.length_replicate

theorem days_dayless (n : Nat) : (dayless n).days = 0 := by cases n <;> rfl

-- There is one product more than there are numbers, and no day.
theorem elements_have_places_beyond :
    let many := dayless 2147483648
    let g : Grid := ⟨[[5, 2, 5], [1, 3, 2]], by decide⟩
    2147483647 ∈ many.elements .product ∧ (many.position? .product 2147483647).isSome = true ∧
      ¬ 1 ∈ many.elements .day ∧
      (∃ p ∈ g.elements .product, ∃ d ∈ g.elements .day, g.figureAt? p d = some 3) := by
  intro many g
  obtain ⟨hnumbers, -⟩ := elements_have_places many
  obtain ⟨-, -, hfigures⟩ := elements_have_places g
  have hplace : (many.position? .product 2147483647).isSome = true := by
    rw [(hnumbers .product 2147483647).2]
    have hproducts : many.extent .product = 2147483648 := products_dayless _
    rw [hproducts]
    decide
  have hday : ¬ (many.position? .day 1).isSome = true := by
    rw [(hnumbers .day 1).2]
    have hdays : many.extent .day = 0 := days_dayless _
    rw [hdays]
    decide
  exact ⟨(hnumbers .product _).1.mpr hplace, hplace, fun h => hday ((hnumbers .day 1).1.mp h),
    (hfigures (by decide) (by decide) 3).mp (by decide)⟩

end GridQuery.Grid
