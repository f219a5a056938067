/-
  GridQuery.Proofs.Settling — which element decides a quantifier.

  A quantifier goes on from an element for which its body comes to the other value than the
  decisive one, and stops at every other: at the decisive value, and at an error. It comes to
  what its body comes to for the first element that stops it. The elements stand in ascending
  order, so the first of them is the least (`find?_stopsAt`), and of those above it nothing is
  ever seen (`settled_congr_below`). The three ways in which a quantifier can end are read off
  this (`quantifier_settles`).
-/

import GridQuery.Proofs.Evaluation

namespace GridQuery

open Query Query.Run

namespace Query.Run

variable {q : Quantifier} {test test' : Int32 → Except Error Bool} {s : Ascending Int32}

/-- The first element that stops a quantifier is the one with none less that stops it. -/
theorem find?_stopsAt {x : Int32} :
    (s.toList.find? fun y => stopsAt q (test y)) = some x ↔
      x ∈ s ∧ stopsAt q (test x) = true ∧ ∀ y ∈ s, y < x → test y = .ok (!q.decisive) := by
  simp only [Ascending.find?_eq_some_iff, stopsAt_eq_false]

/-- A quantifier ends in something that stops it where its body does so for an element, and for no
    lesser one. -/
theorem settled_eq_iff {o : Except Error Bool} (ho : stopsAt q o = true) :
    settled q test s.toList = o ↔ ∃ x ∈ s, test x = o ∧ ∀ y ∈ s, y < x → test y = .ok (!q.decisive) := by
  rw [settled_eq_find?]
  constructor
  · intro h
    cases hfind : s.toList.find? fun x => stopsAt q (test x) with
    | none =>
      rw [hfind] at h
      subst h
      cases q <;> cases ho
    | some x =>
      obtain ⟨hx, -, hbelow⟩ := find?_stopsAt.mp hfind
      rw [hfind] at h
      exact ⟨x, hx, h, hbelow⟩
  · intro ⟨x, hx, htest, hbelow⟩
    rw [find?_stopsAt.mpr ⟨hx, htest ▸ ho, hbelow⟩]
    exact htest

/-- A quantifier ends in the other value where its body has that value for every element. -/
theorem settled_eq_not_decisive_iff :
    settled q test s.toList = .ok (!q.decisive) ↔ ∀ x ∈ s, test x = .ok (!q.decisive) := by
  rw [settled_eq_find?]
  constructor
  · intro h x hx
    cases hfind : s.toList.find? fun x => stopsAt q (test x) with
    | none =>
      rw [← stopsAt_eq_false]
      exact eq_false_of_ne_true (List.find?_eq_none.mp hfind x hx)
    | some y =>
      obtain ⟨-, hstop, -⟩ := find?_stopsAt.mp hfind
      rw [hfind] at h
      have hgoes : stopsAt q (test y) = false := stopsAt_eq_false.mpr h
      rw [hgoes] at hstop
      cases hstop
  · intro h
    have hnone : (s.toList.find? fun x => stopsAt q (test x)) = none := by
      apply List.find?_eq_none.mpr
      intro x hx
      rw [stopsAt_eq_false.mpr (h x hx)]
      exact Bool.false_ne_true
    rw [hnone]
    rfl

/-- Beyond an element that stops a quantifier its body may come to anything. -/
theorem settled_congr_below {n : Int32} (hn : n ∈ s) (hstop : stopsAt q (test n) = true)
    (h : ∀ m ∈ s, m ≤ n → test' m = test m) : settled q test' s.toList = settled q test s.toList := by
  cases hfind : s.toList.find? fun x => stopsAt q (test x) with
  | none => exact absurd hstop (List.find?_eq_none.mp hfind n hn)
  | some x =>
    have hxn : x ≤ n := Ascending.le_of_find? hfind hn hstop
    obtain ⟨hx, hstopx, hbelow⟩ := find?_stopsAt.mp hfind
    have htestx := h x hx hxn
    have hfind' : (s.toList.find? fun y => stopsAt q (test' y)) = some x := by
      refine find?_stopsAt.mpr ⟨hx, htestx ▸ hstopx, ?_⟩
      intro y hy hlt
      rw [h y hy (Std.le_of_lt (Std.lt_of_lt_of_le hlt hxn))]
      exact hbelow y hy hlt
    rw [settled_eq_find?, settled_eq_find?, hfind, hfind']
    exact htestx

end Query.Run

/-- A quantifier comes to its decisive value, or to an error, where its body does so for some element
    and comes to the other value for every lesser one; and it comes to the other value where its
    body does for every element, so also over no elements. Beyond an element for which the body
    does not come to the other value, nothing counts: a body that is the same up to there and
    comes to anything or fails above makes no difference. -/
theorem quantifier_settles (g : Grid) (b : Bindings) (q : Quantifier) (v : String) (k : Kind) (f : Expr .formula) :
    let r (f : Expr .formula) (n : Int32) := (f.eval g).result (b.push v n)
    let whole (f : Expr .formula) := ((Expr.quantified q v k f).eval g).result b
    (whole f = .ok q.decisive ↔ ∃ n ∈ g.elements k, r f n = .ok q.decisive ∧
        ∀ m ∈ g.elements k, m < n → r f m = .ok (!q.decisive)) ∧
      (∀ x, whole f = .error x ↔ ∃ n ∈ g.elements k, r f n = .error x ∧
        ∀ m ∈ g.elements k, m < n → r f m = .ok (!q.decisive)) ∧
      (whole f = .ok (!q.decisive) ↔ ∀ n ∈ g.elements k, r f n = .ok (!q.decisive)) ∧
      ∀ n ∈ g.elements k, r f n ≠ .ok (!q.decisive) →
        ∀ f', (∀ m ∈ g.elements k, m ≤ n → r f' m = r f m) → whole f' = whole f := by
  intro r whole
  have hwhole (f : Expr .formula) : whole f = settled q (r f) (g.elements k).toList := Expr.result_quantified b q v k f
  refine ⟨?_, ?_, ?_, ?_⟩
  · rw [hwhole]
    exact settled_eq_iff (beq_self_eq_true q.decisive)
  · intro x
    rw [hwhole]
    exact settled_eq_iff rfl
  · rw [hwhole]
    exact settled_eq_not_decisive_iff
  · intro n hn hstop f' h
    rw [hwhole, hwhole]
    refine settled_congr_below hn ?_ h
    by_cases hs : stopsAt q (r f n) = true
    · exact hs
    · exact absurd (stopsAt_eq_false.mp (eq_false_of_ne_true hs)) hstop

-- The first element goes on, the second decides, and for the third the body would fail, as there are
-- two products. Another body, that fails nowhere, does as well.
theorem quantifier_settles_unseen :
    let g : Grid := ⟨[[1, 2], [3, 3]], by decide⟩
    let f : Expr .formula := .binary .gt (.figure (.var "s") (.literal 1)) (.literal 2)
    let f' : Expr .formula := .binary .eq (.var "s") (.literal 2)
    (f.eval g).result [("s", 3)] = .error (.outOfRange .product 3 2) ∧
      ((Expr.quantified .forSome "s" .sale f).eval g).result [] = .ok true ∧
      ((Expr.quantified .forSome "s" .sale f').eval g).result [] =
        ((Expr.quantified .forSome "s" .sale f).eval g).result [] := by
  intro g f f'
  have helements (m : Int32) (hm : m ∈ g.elements .sale) : m = 1 ∨ m = 2 ∨ m = 3 := by
    have hlist : m ∈ ([1, 2, 3] : List Int32) := hm
    simpa using hlist
  obtain ⟨hdecisive, -, -, hunseen⟩ := quantifier_settles g [] .forSome "s" .sale f
  refine ⟨rfl, hdecisive.mpr ⟨2, by decide, rfl, ?_⟩, hunseen 2 (by decide) nofun f' ?_⟩
  · intro m hm hlt
    rcases helements m hm with rfl | rfl | rfl
    · rfl
    · exact absurd hlt (by decide)
    · exact absurd hlt (by decide)
  · intro m hm hle
    rcases helements m hm with rfl | rfl | rfl
    · rfl
    · rfl
    · exact absurd hle (by decide)

end GridQuery
