/-
  GridQuery.Grid — a grid of sales figures: one row per product, one figure per day.

  A grid is built from its rows (`ofRows?`), which must all be as long as the first; the first
  row that is not is the error. From outside, products and days are numbered from 1; `position?`
  turns such a number into a place in the grid, and everything that reads a figure takes places,
  so it cannot miss. `figureAt?`, `productTotalAt?` and `dayTotalAt?` take the numbers.

  Sums wrap around at 32 bits. Three sets belong to a grid: its day numbers, its product
  numbers and the figures that occur in it (`elements`).
-/

import GridQuery.Ascending
import GridQuery.Numeral

namespace GridQuery

inductive Axis where
  | product
  | day
  deriving DecidableEq, Repr

def Axis.text : Axis → String
  | .product => "Product"
  | .day => "Day"

/-- The sets that a grid brings with it. -/
inductive Kind where
  | day
  | product
  | sale
  deriving DecidableEq, Repr

def Kind.text : Kind → String
  | .day => "Day"
  | .product => "Product"
  | .sale => "Sale"

/-- The length of the first row. -/
def width : List (List Int32) → Nat
  | [] => 0
  | row :: _ => row.length

structure Grid where
  rows : List (List Int32)
  rectangular : ∀ row ∈ rows, row.length = width rows
  deriving DecidableEq

namespace Grid

inductive Error where
  /-- Row `row`, counted from 1, has `found` figures where the first has `expected`. -/
  | ragged (row expected found : Nat)
  | badFigure (line : Nat) (token : String)
  | badJson
  deriving DecidableEq, Repr

def Error.message : Error → String
  | .ragged row expected found =>
    "Ragged matrix: row " ++ Numeral.writeNat row ++ " has " ++ Numeral.writeNat found ++
      " days but expected " ++ Numeral.writeNat expected
  | .badFigure line token => "Invalid sales figure '" ++ token ++ "' on line " ++ Numeral.writeNat line
  | .badJson => "<json error>"

def ofRows? (rows : List (List Int32)) : Except Error Grid :=
  match h : (rows.zipIdx 1).find? fun (row, _) => row.length != width rows with
  | some (row, i) => .error (.ragged i (width rows) row.length)
  | none => .ok ⟨rows, fun row hrow => by
      obtain ⟨i, hi, rfl⟩ := List.mem_iff_getElem.mp hrow
      have hmem : (rows[i], 1 + i) ∈ rows.zipIdx 1 := List.mk_add_mem_zipIdx_iff_getElem?.mpr
        (List.getElem?_eq_getElem hi)
      simpa using List.find?_eq_none.mp h _ hmem⟩

theorem rows_of_ofRows? {rows : List (List Int32)} {g : Grid} (h : ofRows? rows = .ok g) : g.rows = rows := by
  unfold ofRows? at h
  split at h
  · cases h
  · cases h
    rfl

variable (g : Grid)

def products : Nat := g.rows.length

def days : Nat := width g.rows

@[reducible] def extent : Axis → Nat
  | .product => g.products
  | .day => g.days

/-! ## Places -/

/-- The place that number `i` names, when it is one of 1 to the extent. -/
def position? (a : Axis) (i : Int32) : Option (Fin (g.extent a)) :=
  if h : 1 ≤ i.toInt ∧ i.toInt ≤ g.extent a then some ⟨i.toInt.toNat - 1, by omega⟩ else none

@[simp] theorem isSome_position? {a : Axis} {i : Int32} :
    (g.position? a i).isSome ↔ 1 ≤ i.toInt ∧ i.toInt ≤ g.extent a := by
  unfold position?
  split <;> simp_all

def row (p : Fin g.products) : List Int32 := g.rows.get p

theorem length_row (p : Fin g.products) : (g.row p).length = g.days :=
  g.rectangular _ (g.rows.get_mem p)

def figure (p : Fin g.products) (d : Fin g.days) : Int32 :=
  (g.row p).get ⟨d, by rw [length_row]; exact d.isLt⟩

def column (d : Fin g.days) : List Int32 := List.ofFn fun p => g.figure p d

/-! ## Sums -/

def productTotal (p : Fin g.products) : Int32 := (g.row p).sum

def dayTotal (d : Fin g.days) : Int32 := (g.column d).sum

def total : Int32 := g.rows.flatten.sum

/-! ## By number -/

def figureAt? (product day : Int32) : Option Int32 := do
  let p ← g.position? .product product
  let d ← g.position? .day day
  some (g.figure p d)

def productTotalAt? (product : Int32) : Option Int32 := (g.position? .product product).map g.productTotal

def dayTotalAt? (day : Int32) : Option Int32 := (g.position? .day day).map g.dayTotal

/-! ## The sets of a grid -/

/-- The numbers 1 to `n`, as far as 32 bits reach. -/
def upTo (n : Nat) : Ascending Int32 :=
  .ofList ((List.range (min n 2147483647)).map fun i => Int32.ofNat (i + 1))

@[simp] theorem mem_upTo {n : Nat} {i : Int32} : i ∈ upTo n ↔ 1 ≤ i.toInt ∧ i.toInt ≤ n := by
  have reach : ∀ k < 2147483647, (Int32.ofNat (k + 1)).toInt = k + 1 := fun k hk => by
    rw [Int32.toInt_ofNat_of_lt (by omega)]
    omega
  simp only [upTo, Ascending.mem_ofList, List.mem_map, List.mem_range]
  constructor
  · rintro ⟨k, hk, rfl⟩
    rw [reach k (by omega)]
    omega
  · intro h
    have := i.toInt_lt
    refine ⟨i.toInt.toNat - 1, by omega, Int32.toInt_inj.mp ?_⟩
    rw [reach _ (by omega)]
    omega

def elements : Kind → Ascending Int32
  | .day => upTo g.days
  | .product => upTo g.products
  | .sale => .ofList g.rows.flatten

end Grid

end GridQuery
