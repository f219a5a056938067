/-
  GridQuery.Proofs.Verdict — what the check of a query reports.

  The check goes through a query with the names that are bound on the way, and picks up the names
  that are not and the literals that stand as an index. What it should find is said without
  them:
  - the free names of an expression are those of its parts, less the one that a binder binds
    (`freeNames`), and the check finds these (`mem_freeNames`);
  - the literals of an expression stand in it from left to right, each as an index on an axis or as
    something else (`literals`), and the check finds the indices among them, in this order
    (`literalIndices_eq`).
  It reports the least free name without a binding, else the first of these literals that is no
  number of its axis, else nothing (`check_reports`).
-/

import GridQuery.Proofs.Bounds
import GridQuery.Proofs.Check
import Mathlib.Data.Finset.SDiff

namespace GridQuery

open Query

theorem Grid.isNone_position? {g : Grid} {a : Axis} {i : Int32} :
    (g.position? a i).isNone = true ↔ ¬ g.Numbers a i := by
  rw [Option.isNone_iff_eq_none, position?_eq_none]

namespace Expr

/-! ## Free names -/

/-- The names that are free in an expression. -/
def freeNames : {c : Category} → Expr c → Finset String
  | _, .literal _ => ∅
  | _, .var name => {name}
  | _, .productTotal p => p.freeNames
  | _, .dayTotal d => d.freeNames
  | _, .total => ∅
  | _, .figure p d => p.freeNames ∪ d.freeNames
  | _, .size s => s.freeNames
  | _, .elements _ => ∅
  | _, .comprehension _ x p => p.freeNames \ {x}
  | _, .not f => f.freeNames
  | _, .quantified _ x _ f => f.freeNames \ {x}
  | _, .binary _ l r => l.freeNames ∪ r.freeNames

theorem mem_freeNames {c : Category} {e : Expr c} {n : String} : n ∈ e.freeNames ↔ n ∈ e.free := by
  induction e with
  | literal m => simp [freeNames, mem_free, namesOutside]
  | var name => rw [freeNames, Finset.mem_singleton, mem_free_var]
  | productTotal p ih => exact ih
  | dayTotal d ih => exact ih
  | total => simp [freeNames, mem_free, namesOutside]
  | figure p d ihp ihd =>
    rw [freeNames, Finset.mem_union, mem_free_figure]
    exact or_congr ihp ihd
  | size s ih => exact ih
  | elements k => simp [freeNames, mem_free, namesOutside]
  | comprehension k x p ih =>
    rw [freeNames, Finset.mem_sdiff, Finset.mem_singleton, mem_free_comprehension]
    exact and_congr_left' ih
  | not f ih => exact ih
  | quantified q x k f ih =>
    rw [freeNames, Finset.mem_sdiff, Finset.mem_singleton, mem_free_quantified]
    exact and_congr_left' ih
  | binary op l r ihl ihr =>
    rw [freeNames, Finset.mem_union, mem_free_binary]
    exact or_congr ihl ihr

/-! ## Literals -/

/-- The literals of an expression from left to right, each with the axis if it stands as an index on
    one. The expression itself stands as `role` says. -/
def literals : {c : Category} → Expr c → (role : Option Axis) → List (Option Axis × Int32)
  | _, .literal n, role => [(role, n)]
  | _, .var _, _ => []
  | _, .productTotal p, _ => p.literals (some .product)
  | _, .dayTotal d, _ => d.literals (some .day)
  | _, .total, _ => []
  | _, .figure p d, _ => p.literals (some .product) ++ d.literals (some .day)
  | _, .size s, _ => s.literals none
  | _, .elements _, _ => []
  | _, .comprehension _ _ p, _ => p.literals none
  | _, .not f, _ => f.literals none
  | _, .quantified _ _ _ f, _ => f.literals none
  | _, .binary _ l r, _ => l.literals none ++ r.literals none

/-- The literals that stand as an index. -/
def indexLiterals {c : Category} (e : Expr c) : List (Axis × Int32) :=
  (e.literals none).filterMap fun (role, n) => role.map fun a => (a, n)

/-- An expression that stands as an index adds itself in front if it is a literal. -/
theorem filterMap_literals {c : Category} (e : Expr c) (role : Option Axis) :
    ((e.literals role).filterMap fun (role, n) => role.map fun a => (a, n)) =
      (role.bind fun a => e.literal?.map fun n => (a, n)).toList ++ e.literalIndices := by
  induction e generalizing role with
  | literal n => cases role <;> rfl
  | productTotal p ih => simpa [literals, literalIndices, literal?, indexAt] using ih (some .product)
  | dayTotal d ih => simpa [literals, literalIndices, literal?, indexAt] using ih (some .day)
  | figure p d ihp ihd =>
    rw [literals, List.filterMap_append, ihp (some .product), ihd (some .day)]
    cases role <;> rfl
  | size s ih => simpa [literals, literalIndices, literal?] using ih none
  | comprehension k x p ih => simpa [literals, literalIndices, literal?] using ih none
  | not f ih => simpa [literals, literalIndices, literal?] using ih none
  | quantified q x k f ih => simpa [literals, literalIndices, literal?] using ih none
  | binary op l r ihl ihr =>
    rw [literals, List.filterMap_append, ihl none, ihr none]
    cases role <;> rfl
  | _ => cases role <;> rfl

theorem literalIndices_eq {c : Category} (e : Expr c) : e.literalIndices = e.indexLiterals :=
  (e.filterMap_literals none).symm

end Expr

/-! ## The report -/

namespace Query

variable {g : Grid} {b : Bindings} {q : Query}

theorem check_eq_unbound {n : String} :
    q.check g b = .error (.unbound n) ↔ (q.free.toList.find? fun m => !b.isBound m) = some n := by
  unfold check
  split
  · rename_i name hname
    simp [hname]
  · rename_i hnames
    split <;> simp [hnames]

theorem check_eq_outOfRange {a : Axis} {i : Int32} {extent : Nat} :
    q.check g b = .error (.outOfRange a i extent) ↔
      (q.free.toList.find? fun m => !b.isBound m) = none ∧ extent = g.extent a ∧
        (q.expr.literalIndices.find? fun (axis, i) => (g.position? axis i).isNone) = some (a, i) := by
  unfold check
  split
  · rename_i name hname
    simp [hname]
  · rename_i hnames
    split
    · rename_i axis j hj
      rw [hj, Option.some_inj, Prod.mk.injEq, Except.error.injEq, Error.outOfRange.injEq]
      constructor
      · intro ⟨ha, hi, hextent⟩
        subst ha
        exact ⟨hnames, hextent.symm, rfl, hi⟩
      · rintro ⟨-, hextent, ha, hi⟩
        subst ha
        exact ⟨rfl, hi, hextent.symm⟩
    · rename_i hplaces
      simp [hplaces]

/-- A check finds no fault with an operator. -/
theorem check_ne_divisionByZero : q.check g b ≠ .error .divisionByZero := by
  unfold check
  split
  · simp
  · split <;> simp

/-- The free name that is reported is the least of those without a binding. -/
theorem find?_unbound {n : String} :
    (q.free.toList.find? fun m => !b.isBound m) = some n ↔
      n ∈ q.expr.freeNames ∧ b.isBound n = false ∧ ∀ m ∈ q.expr.freeNames, m < n → b.isBound m = true := by
  simp only [Ascending.find?_eq_some_iff, Expr.mem_freeNames, Bool.not_eq_true', Bool.not_eq_false', free]

theorem find?_unbound_eq_none :
    (q.free.toList.find? fun m => !b.isBound m) = none ↔ ∀ n ∈ q.expr.freeNames, b.isBound n = true := by
  simp [List.find?_eq_none, Expr.mem_freeNames, free]

/-- The literal index that is reported is the first from the left that is no number of its axis. -/
theorem find?_misplaced {a : Axis} {i : Int32} :
    (q.expr.literalIndices.find? fun (axis, i) => (g.position? axis i).isNone) = some (a, i) ↔
      ¬ g.Numbers a i ∧ ∃ before after, q.expr.indexLiterals = before ++ (a, i) :: after ∧
        ∀ j ∈ before, g.Numbers j.1 j.2 := by
  have hplace (j : Axis × Int32) : (!(g.position? j.1 j.2).isNone) = true ↔ g.Numbers j.1 j.2 := by
    rw [Bool.not_eq_true', ← Bool.not_eq_true, Grid.isNone_position?, not_not]
  simp only [List.find?_eq_some_iff_append, Expr.literalIndices_eq, hplace, Grid.isNone_position?]

theorem served_iff :
    Served g b q.expr ↔ (∀ n ∈ q.expr.freeNames, b.isBound n = true) ∧
      ∀ i ∈ q.expr.indexLiterals, g.Numbers i.1 i.2 := by
  constructor
  · intro h
    refine ⟨fun n hn => h.bound n (Expr.mem_freeNames.mp hn), fun i hi => ?_⟩
    rw [← Expr.literalIndices_eq] at hi
    exact g.isSome_position?.mp (h.placed i hi)
  · intro ⟨hbound, hplaced⟩
    refine ⟨fun n hn => hbound n (Expr.mem_freeNames.mpr hn), fun i hi => ?_⟩
    rw [Expr.literalIndices_eq] at hi
    exact g.isSome_position?.mpr (hplaced i hi)

end Query

/-- The free names of a query are those of its parts, less those that binders take away. The check
    reports the least of them, in the order of code points, that has no binding. Where all have
    one it reports the first literal index from the left, a product before the day beside it,
    that is no number of its axis, and how many there are. Where all are, and only there, it
    lets the query through; there is nothing else that it could report. -/
theorem check_reports (g : Grid) (b : Bindings) (q : Query) :
    (∀ n, n ∈ q.free ↔ n ∈ q.expr.freeNames) ∧
      (∀ n, q.check g b = .error (.unbound n) ↔
        n ∈ q.expr.freeNames ∧ b.isBound n = false ∧ ∀ m ∈ q.expr.freeNames, m < n → b.isBound m = true) ∧
      (∀ a i extent, q.check g b = .error (.outOfRange a i extent) ↔
        (∀ n ∈ q.expr.freeNames, b.isBound n = true) ∧ extent = g.extent a ∧ ¬ g.Numbers a i ∧
          ∃ before after, q.expr.indexLiterals = before ++ (a, i) :: after ∧ ∀ j ∈ before, g.Numbers j.1 j.2) ∧
      (q.check g b = .ok () ↔
        (∀ n ∈ q.expr.freeNames, b.isBound n = true) ∧ ∀ i ∈ q.expr.indexLiterals, g.Numbers i.1 i.2) ∧
      q.check g b ≠ .error .divisionByZero := by
  refine ⟨fun n => Expr.mem_freeNames.symm, ?_, ?_, ?_, check_ne_divisionByZero⟩
  · intro n
    rw [check_eq_unbound, find?_unbound]
  · intro a i extent
    rw [check_eq_outOfRange, find?_unbound_eq_none, find?_misplaced]
  · rw [check_eq_ok, served_iff]

-- An index inside the product's comes before the day's, and a literal that is counted on is none.
example : (Expr.figure (.productTotal (.literal 3)) (.binary .add (.dayTotal (.literal 7)) (.literal 1))).indexLiterals =
    [(.product, 3), (.day, 7)] := by decide

end GridQuery
