/-
  GridQuery.Ascending — a finite set, held as its elements in strictly ascending order.

  The list is the set: two sets with the same elements have the same list (`ext`), so
  sets are compared, shown and written through it.
  - `ofList` takes elements in any order, repeated or not.
  - `union`, `difference` and `intersection` are what their names say (`mem_union`,
    `mem_difference`, `mem_intersection`).
-/

namespace GridQuery

structure Ascending (α : Type) [LT α] where
  toList : List α
  pairwise : toList.Pairwise (· < ·)
  deriving DecidableEq

namespace Ascending

variable {α : Type} [LT α]

instance : Membership α (Ascending α) := ⟨fun s x => x ∈ s.toList⟩

@[simp] theorem mem_toList {s : Ascending α} {x : α} : x ∈ s.toList ↔ x ∈ s := Iff.rfl

instance [DecidableEq α] (x : α) (s : Ascending α) : Decidable (x ∈ s) :=
  inferInstanceAs (Decidable (x ∈ s.toList))

def empty : Ascending α := ⟨[], .nil⟩

def size (s : Ascending α) : Nat := s.toList.length

def isEmpty (s : Ascending α) : Bool := s.toList.isEmpty

def filter (p : α → Bool) (s : Ascending α) : Ascending α := ⟨s.toList.filter p, s.pairwise.filter p⟩

@[simp] theorem mem_filter {p : α → Bool} {s : Ascending α} {x : α} : x ∈ s.filter p ↔ x ∈ s ∧ p x = true :=
  List.mem_filter

@[simp] theorem not_mem_empty (x : α) : ¬ x ∈ (empty : Ascending α) := List.not_mem_nil

section

variable [DecidableEq α]

def difference (s t : Ascending α) : Ascending α := s.filter fun x => !t.toList.contains x

def intersection (s t : Ascending α) : Ascending α := s.filter t.toList.contains

@[simp] theorem mem_difference {s t : Ascending α} {z : α} : z ∈ s.difference t ↔ z ∈ s ∧ ¬ z ∈ t := by
  simp [difference]

@[simp] theorem mem_intersection {s t : Ascending α} {z : α} : z ∈ s.intersection t ↔ z ∈ s ∧ z ∈ t := by
  simp [intersection]

end

/-! ## Sets from lists -/

/-- Puts `x` in its place in an ascending list, unless it is there already. -/
def place [DecidableLT α] (x : α) : List α → List α
  | [] => [x]
  | y :: ys => if x < y then x :: y :: ys else if y < x then y :: place x ys else y :: ys

variable [LE α] [Std.IsLinearOrder α] [Std.LawfulOrderLT α]

theorem eq_of_not_lt {x y : α} (h : ¬ x < y) (h' : ¬ y < x) : x = y :=
  Std.le_antisymm (Std.not_lt.mp h') (Std.not_lt.mp h)

/-- Two ascending lists with the same elements are the same list. -/
theorem eq_of_mem_iff {xs ys : List α} (hxs : xs.Pairwise (· < ·)) (hys : ys.Pairwise (· < ·))
    (h : ∀ x, x ∈ xs ↔ x ∈ ys) : xs = ys := by
  induction xs generalizing ys with
  | nil => cases ys with
    | nil => rfl
    | cons y ys => exact absurd ((h y).mpr List.mem_cons_self) List.not_mem_nil
  | cons x xs ih =>
    obtain ⟨hx, hxt⟩ := List.pairwise_cons.mp hxs
    cases ys with
    | nil => exact absurd ((h x).mp List.mem_cons_self) List.not_mem_nil
    | cons y ys =>
      obtain ⟨hy, hyt⟩ := List.pairwise_cons.mp hys
      have hxy : x = y := by
        rcases List.mem_cons.mp ((h x).mp List.mem_cons_self) with e | hxm
        · exact e
        · rcases List.mem_cons.mp ((h y).mpr List.mem_cons_self) with e | hym
          · exact e.symm
          · exact absurd (Std.lt_trans (hy x hxm) (hx y hym)) Std.lt_irrefl
      subst hxy
      refine congrArg _ (ih hxt hyt fun z => ⟨fun hz => ?_, fun hz => ?_⟩)
      · rcases List.mem_cons.mp ((h z).mp (List.mem_cons_of_mem _ hz)) with rfl | hz'
        · exact absurd (hx z hz) Std.lt_irrefl
        · exact hz'
      · rcases List.mem_cons.mp ((h z).mpr (List.mem_cons_of_mem _ hz)) with rfl | hz'
        · exact absurd (hy z hz) Std.lt_irrefl
        · exact hz'

/-- Two sets with the same elements are the same set. -/
theorem ext {s t : Ascending α} (h : ∀ x, x ∈ s ↔ x ∈ t) : s = t := by
  cases s; cases t
  congr
  exact eq_of_mem_iff ‹_› ‹_› h

/-- The first element with a property is the least one. -/
theorem le_of_find? {s : Ascending α} {p : α → Bool} {x y : α} (h : s.toList.find? p = some x) (hy : y ∈ s)
    (hp : p y = true) : x ≤ y := by
  obtain ⟨-, before, after, hs, hbefore⟩ := List.find?_eq_some_iff_append.mp h
  rw [← mem_toList, hs] at hy
  have hpairwise := s.pairwise
  rw [hs, List.pairwise_append] at hpairwise
  have hafter := (List.pairwise_cons.mp hpairwise.2.1).1
  rcases List.mem_append.mp hy with hy | hy
  · have hfalse := hbefore y hy
    rw [hp] at hfalse
    cases hfalse
  · rcases List.mem_cons.mp hy with rfl | hy
    · exact Std.le_refl _
    · exact Std.le_of_lt (hafter y hy)

/-- The first element with a property is the one with no lesser element that has it. -/
theorem find?_eq_some_iff {s : Ascending α} {p : α → Bool} {x : α} :
    s.toList.find? p = some x ↔ x ∈ s ∧ p x = true ∧ ∀ y ∈ s, y < x → p y = false := by
  have least {x : α} (h : s.toList.find? p = some x) : ∀ y ∈ s, y < x → p y = false := by
    intro y hy hlt
    by_cases hp : p y = true
    · exact absurd hlt (Std.not_lt.mpr (le_of_find? h hy hp))
    · exact eq_false_of_ne_true hp
  constructor
  · intro h
    exact ⟨List.mem_of_find?_eq_some h, List.find?_some h, least h⟩
  · intro ⟨hx, hp, hleast⟩
    cases h : s.toList.find? p with
    | none => exact absurd hp (List.find?_eq_none.mp h x hx)
    | some y =>
      have hxy : ¬ x < y := by
        intro hlt
        rw [least h x hx hlt] at hp
        cases hp
      have hyx : ¬ y < x := by
        intro hlt
        have hpy := List.find?_some h
        rw [hleast y (List.mem_of_find?_eq_some h) hlt] at hpy
        cases hpy
      rw [eq_of_not_lt hxy hyx]

variable [DecidableLT α]

theorem mem_place {x z : α} {ys : List α} : z ∈ place x ys ↔ z = x ∨ z ∈ ys := by
  induction ys with
  | nil => simp [place]
  | cons y ys ih =>
    simp only [place]
    split
    · simp
    · rename_i h
      split
      · simp [ih, or_left_comm]
      · rename_i h'
        simp [eq_of_not_lt h h']

theorem pairwise_place {x : α} {ys : List α} (h : ys.Pairwise (· < ·)) : (place x ys).Pairwise (· < ·) := by
  induction ys with
  | nil => simp [place]
  | cons y ys ih =>
    obtain ⟨hy, hys⟩ := List.pairwise_cons.mp h
    simp only [place]
    split
    · rename_i hxy
      refine List.pairwise_cons.mpr ⟨fun z hz => ?_, h⟩
      cases hz with
      | head => exact hxy
      | tail _ hz => exact Std.lt_trans hxy (hy z hz)
    · split
      · rename_i hyx
        refine List.pairwise_cons.mpr ⟨fun z hz => ?_, ih hys⟩
        rcases mem_place.mp hz with rfl | hz
        · exact hyx
        · exact hy z hz
      · exact h

def insert (x : α) (s : Ascending α) : Ascending α := ⟨place x s.toList, pairwise_place s.pairwise⟩

/-- The elements of a list, in whatever order and however often they stand there. -/
def ofList (xs : List α) : Ascending α := xs.foldr insert empty

def union (s t : Ascending α) : Ascending α := s.toList.foldr insert t

@[simp] theorem mem_insert {x z : α} {s : Ascending α} : z ∈ s.insert x ↔ z = x ∨ z ∈ s := mem_place

@[simp] theorem mem_ofList {xs : List α} {z : α} : z ∈ ofList xs ↔ z ∈ xs := by
  induction xs with
  | nil => simp [ofList]
  | cons x xs ih => simpa [ofList] using or_congr_right ih

theorem ofList_toList (s : Ascending α) : ofList s.toList = s := ext fun _ => mem_ofList

@[simp] theorem mem_union {s t : Ascending α} {z : α} : z ∈ s.union t ↔ z ∈ s ∨ z ∈ t := by
  rw [union, ← mem_toList (s := s)]
  induction s.toList with
  | nil => simp
  | cons x xs ih => simp [ih, or_assoc]

end Ascending

end GridQuery
