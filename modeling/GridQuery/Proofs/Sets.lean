/-
  GridQuery.Proofs.Sets — the sets that queries come to.

  A set is held as its elements in ascending order. There is one such list for a set, so whether
  two expressions come to the same elements can be told from the lists. This holds for all results
  alike: the elements of a kind, what a comprehension selects of them, and what an operator
  keeps of two sets (`mem_of_apply`).

  No operator keeps an element that is in neither set, and a comprehension selects from its kind. So
  an element of the result belongs to one of the kinds that stand in the expression, and those in
  predicates do not count (`mem_elements_of_result`).
-/

import GridQuery.Proofs.Comprehension
import GridQuery.Proofs.Grid

namespace GridQuery

open Query Query.Run

namespace Operator

/-- Whether a set operator keeps an element, by whether it is in the left set and in the right one. -/
def keeps : Operator .set .set → Prop → Prop → Prop
  | .union, l, r => l ∨ r
  | .difference, l, r => l ∧ ¬ r
  | .intersection, l, r => l ∧ r

theorem or_of_keeps {op : Operator .set .set} {l r : Prop} (h : op.keeps l r) : l ∨ r := by
  cases op with
  | union => exact h
  | difference => exact .inl h.1
  | intersection => exact .inl h.1

theorem mem_of_apply {op : Operator .set .set} {s t u : Ascending Int32} (h : op.apply t u = .ok s) (x : Int32) :
    x ∈ s ↔ op.keeps (x ∈ t) (x ∈ u) := by
  cases op with
  | union =>
    cases h
    exact Ascending.mem_union
  | difference =>
    cases h
    exact Ascending.mem_difference
  | intersection =>
    cases h
    exact Ascending.mem_intersection

end Operator

namespace Expr

/-- The kinds that stand in a set expression, those in predicates aside. -/
def kinds : {c : Category} → Expr c → List Kind
  | _, .elements k => [k]
  | _, .comprehension k _ _ => [k]
  | .set, .binary _ l r => l.kinds ++ r.kinds
  | _, _ => []

/-- A set expression is a kind, a comprehension, or a set operator between two set expressions. -/
@[elab_as_elim]
theorem set_induction {motive : Expr .set → Prop} (elements : ∀ k, motive (.elements k))
    (comprehension : ∀ k x p, motive (.comprehension k x p))
    (binary : ∀ (op : Operator .set .set) l r, motive l → motive r → motive (.binary op l r)) :
    (e : Expr .set) → motive e
  | .elements k => elements k
  | .comprehension k x p => comprehension k x p
  | .binary (a := .set) op l r =>
    binary op l r (set_induction elements comprehension binary l) (set_induction elements comprehension binary r)

variable {g : Grid} {b : Bindings}

theorem operands_of_result {op : Operator .set .set} {l r : Expr .set} {s : Ascending Int32}
    (h : ((binary op l r).eval g).result b = .ok s) :
    ∃ t u, (l.eval g).result b = .ok t ∧ (r.eval g).result b = .ok u ∧ ∀ x, x ∈ s ↔ op.keeps (x ∈ t) (x ∈ u) := by
  rw [result_binary] at h
  obtain ⟨t, ht, hrest⟩ := bind_eq_ok.mp h
  obtain ⟨u, hu, happly⟩ := bind_eq_ok.mp hrest
  exact ⟨t, u, ht, hu, op.mem_of_apply happly⟩

theorem mem_elements_of_result {e : Expr .set} {s : Ascending Int32} (h : (e.eval g).result b = .ok s) {x : Int32}
    (hx : x ∈ s) : ∃ k ∈ e.kinds, x ∈ g.elements k := by
  induction e using set_induction generalizing s with
  | elements k =>
    rw [result_elements] at h
    cases h
    exact ⟨k, List.mem_singleton_self k, hx⟩
  | comprehension k y p =>
    rw [result_selected] at h
    exact ⟨k, List.mem_singleton_self k, ((mem_of_selected h x).mp hx).1⟩
  | binary op l r ihl ihr =>
    obtain ⟨t, u, ht, hu, hkeeps⟩ := operands_of_result h
    rcases Operator.or_of_keeps ((hkeeps x).mp hx) with hleft | hright
    · obtain ⟨k, hk, hxk⟩ := ihl ht hleft
      exact ⟨k, List.mem_append_left _ hk, hxk⟩
    · obtain ⟨k, hk, hxk⟩ := ihr hu hright
      exact ⟨k, List.mem_append_right _ hk, hxk⟩

theorem result_sameSet {l r : Expr .set} {t u : Ascending Int32} (hl : (l.eval g).result b = .ok t)
    (hr : (r.eval g).result b = .ok u) : ((binary .sameSet l r).eval g).result b = .ok (decide (t = u)) :=
  result_binary_of_ok hl hr

end Expr

/-- What a set expression comes to has its elements in strictly ascending order, none twice, and no
    other such list has the same elements. Each of them belongs to a kind that stands in the expression
    outside of predicates. The result of a set operator has the elements that the operator keeps,
    by whether they are in the result of the left operand and in that of the right one. So two
    set expressions that come to sets compare as the same exactly if every number is in both
    sets or in neither. -/
theorem set_results_canonical (g : Grid) (b : Bindings) :
    (∀ (e : Expr .set) (s : Ascending Int32), (e.eval g).result b = .ok s →
      s.toList.Pairwise (· < ·) ∧ s.toList.Nodup ∧
        (∀ xs : List Int32, xs.Pairwise (· < ·) → (∀ x, x ∈ xs ↔ x ∈ s) → xs = s.toList) ∧
        ∀ x ∈ s, ∃ k ∈ e.kinds, x ∈ g.elements k) ∧
    (∀ (op : Operator .set .set) (l r : Expr .set) (s : Ascending Int32),
      ((Expr.binary op l r).eval g).result b = .ok s →
      ∃ t u, (l.eval g).result b = .ok t ∧ (r.eval g).result b = .ok u ∧ ∀ x, x ∈ s ↔ op.keeps (x ∈ t) (x ∈ u)) ∧
    ∀ (l r : Expr .set) (t u : Ascending Int32), (l.eval g).result b = .ok t → (r.eval g).result b = .ok u →
      ∃ same, ((Expr.binary .sameSet l r).eval g).result b = .ok same ∧ (same = true ↔ ∀ x, x ∈ t ↔ x ∈ u) := by
  refine ⟨?_, ?_, ?_⟩
  · intro e s h
    refine ⟨s.pairwise, s.nodup, ?_, fun x => Expr.mem_elements_of_result h⟩
    intro xs hxs hmem
    exact Ascending.eq_of_mem_iff hxs s.pairwise hmem
  · intro op l r s h
    exact Expr.operands_of_result h
  · intro l r t u hl hr
    refine ⟨_, Expr.result_sameSet hl hr, ?_⟩
    rw [decide_eq_true_iff]
    constructor
    · rintro rfl x
      exact Iff.rfl
    · exact Ascending.ext

-- The products and the figures above 2, without the days, are 5 and 7. So are the figures above 3.
theorem set_results_canonical_restated :
    let g : Grid := ⟨[[5, 2, 7], [1, 3, 2]], by decide⟩
    let above (n : Int32) : Expr .set := .comprehension .sale "s" (.binary .gt (.var "s") (.literal n))
    let e : Expr .set := .binary .difference (.binary .union (.elements .product) (above 2)) (.elements .day)
    (e.eval g).result [] = .ok (.ofList [7, 5]) ∧ ((above 3).eval g).result [] = .ok (.ofList [5, 7]) ∧
      (∀ x ∈ Ascending.ofList [7, (5 : Int32)], ∃ k ∈ e.kinds, x ∈ g.elements k) ∧
      ((Expr.binary .sameSet e (above 3)).eval g).result [] = .ok true := by
  intro g above e
  have he : (e.eval g).result [] = .ok (.ofList [7, 5]) := rfl
  have habove : ((above 3).eval g).result [] = .ok (.ofList [5, 7]) := rfl
  obtain ⟨hresult, -, hsame⟩ := set_results_canonical g []
  obtain ⟨-, -, -, hkinds⟩ := hresult e _ he
  obtain ⟨same, hsame, hiff⟩ := hsame e (above 3) _ _ he habove
  have htrue : same = true := hiff.mpr fun x => by simp [or_comm]
  exact ⟨he, habove, hkinds, htrue ▸ hsame⟩

end GridQuery
