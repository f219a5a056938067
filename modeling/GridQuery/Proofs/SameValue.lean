/-
  GridQuery.Proofs.SameValue — results compared by their values.

  Two evaluations that do the same in another order may fail in different ways, because another error
  comes first. `SameValue` does not ask which error it is, and putting results together, one
  after another or in a loop over elements, keeps it.
-/

import GridQuery.Proofs.Run

namespace GridQuery

open Query Query.Run

/-- Two results are one value, or both are errors. -/
def SameValue {α : Type} (x y : Except Query.Error α) : Prop := ∀ v, x = .ok v ↔ y = .ok v

namespace SameValue

variable {α β : Type} {x y : Except Query.Error α}

theorem refl (x : Except Query.Error α) : SameValue x x := fun _ => Iff.rfl

theorem bind {f f' : α → Except Query.Error β} (h : SameValue x y) (hf : ∀ a, SameValue (f a) (f' a)) :
    SameValue (x >>= f) (y >>= f') := by
  intro v
  rw [bind_eq_ok, bind_eq_ok]
  exact exists_congr fun a => and_congr (h a) (hf a v)

theorem map {f : α → β} (h : SameValue x y) : SameValue (x.map f) (y.map f) := by
  intro v
  rw [map_eq_ok, map_eq_ok]
  exact exists_congr fun a => and_congr (h a) Iff.rfl

variable {test test' : Int32 → Except Query.Error Bool}

theorem kept (h : ∀ x, SameValue (test x) (test' x)) (xs : List Int32) :
    SameValue (Run.kept test xs) (Run.kept test' xs) := by
  induction xs with
  | nil => exact refl _
  | cons x xs ih => exact (h x).bind fun hit => ih.bind fun rest => refl _

theorem settled (q : Quantifier) (h : ∀ x, SameValue (test x) (test' x)) (xs : List Int32) :
    SameValue (Run.settled q test xs) (Run.settled q test' xs) := by
  induction xs with
  | nil => exact refl _
  | cons x xs ih =>
    refine (h x).bind fun hit => ?_
    by_cases hq : hit = q.decisive
    · rw [if_pos hq, if_pos hq]
      exact refl _
    · rw [if_neg hq, if_neg hq]
      exact ih

end SameValue

end GridQuery
