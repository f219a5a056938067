/-
  GridQuery.Proofs.Comprehension — what a comprehension says of its predicate.

  A comprehension tests every element of its kind. It comes to a set if its predicate has a truth
  value for every element, and the set says which: the predicate is true for the elements in it and
  false for the others (`selected_eq_ok`). It comes to an error if the predicate fails for some
  element, and to the error for the least of these (`selected_eq_error`).

  From these two follow
  - the quantifiers with the same predicate: they ask whether the set has elements and whether it has
    all of them, and where they fail the comprehension fails in the same way
    (`comprehension_decides`);
  - the connectives in the predicate: they are the set operators between comprehensions
    (`comprehension_distributes`).
-/

import GridQuery.Proofs.Logic
import GridQuery.Proofs.SameValue
import GridQuery.Proofs.Settling

namespace GridQuery

open Query Query.Run

namespace Ascending

variable {s : Ascending Int32}

theorem isEmpty_eq_false : s.isEmpty = false ↔ ∃ x, x ∈ s := List.isEmpty_eq_false_iff_exists_mem

/-- A subset is the whole set if no element is missing. -/
theorem eq_iff_of_subset {t : Ascending Int32} (h : ∀ x ∈ t, x ∈ s) : t = s ↔ ∀ x ∈ s, x ∈ t := by
  constructor
  · intro e
    subst e
    exact h
  · intro hall
    exact ext fun x => ⟨h x, hall x⟩

end Ascending

namespace Query.Run

variable {test : Int32 → Except Error Bool} {s t : Ascending Int32}

/-! ## The selected elements -/

/-- The elements for which `test` is true, as a set. -/
def selected (test : Int32 → Except Error Bool) (s : Ascending Int32) : Except Error (Ascending Int32) :=
  (kept test s.toList).map .ofList

theorem exists_selected_iff : (∃ t, selected test s = .ok t) ↔ ∀ x ∈ s, ∃ hit, test x = .ok hit := by
  simp only [← Ascending.mem_toList, ← exists_kept_iff, selected, map_eq_ok]
  constructor
  · rintro ⟨t, xs, hxs, -⟩
    exact ⟨xs, hxs⟩
  · rintro ⟨xs, hxs⟩
    exact ⟨_, xs, hxs, rfl⟩

theorem mem_of_selected (h : selected test s = .ok t) (x : Int32) : x ∈ t ↔ x ∈ s ∧ test x = .ok true := by
  obtain ⟨xs, hxs, rfl⟩ := map_eq_ok.mp h
  rw [Ascending.mem_ofList, mem_of_kept hxs, Ascending.mem_toList]

/-- A set is selected if it is a subset and the tests come to whether an element is in it. -/
theorem selected_eq_ok :
    selected test s = .ok t ↔ (∀ x ∈ t, x ∈ s) ∧ ∀ x ∈ s, test x = .ok (decide (x ∈ t)) := by
  constructor
  · intro h
    refine ⟨fun x hx => ((mem_of_selected h x).mp hx).1, ?_⟩
    intro x hx
    obtain ⟨hit, hhit⟩ := exists_selected_iff.mp ⟨t, h⟩ x hx
    have hdecide : hit = true ↔ x ∈ t := by
      rw [mem_of_selected h x, hhit, Except.ok.injEq]
      exact ⟨fun e => ⟨hx, e⟩, fun e => e.2⟩
    rw [hhit, Except.ok.injEq, Bool.eq_iff_iff, hdecide, decide_eq_true_iff]
  · intro ⟨hsub, htest⟩
    obtain ⟨u, hu⟩ := exists_selected_iff.mpr fun x hx => ⟨_, htest x hx⟩
    have heq : u = t := by
      apply Ascending.ext
      intro x
      rw [mem_of_selected hu x]
      constructor
      · intro ⟨hx, hit⟩
        rw [htest x hx, Except.ok.injEq] at hit
        exact of_decide_eq_true hit
      · intro hx
        exact ⟨hsub x hx, by rw [htest x (hsub x hx), decide_eq_true hx]⟩
    rw [hu, heq]

/-- Whether a test comes to no truth value. -/
def fails : Except Error Bool → Bool
  | .ok _ => false
  | .error _ => true

theorem fails_eq_true {o : Except Error Bool} : fails o = true ↔ ∃ e, o = .error e := by
  cases o <;> simp [fails]

theorem fails_eq_false {o : Except Error Bool} : fails o = false ↔ ∃ hit, o = .ok hit := by
  cases o <;> simp [fails]

/-- A loop that tests all elements comes to the error of the first that fails. -/
theorem kept_eq_error {xs : List Int32} {e : Error} :
    kept test xs = .error e ↔ ∃ x, (xs.find? fun x => fails (test x)) = some x ∧ test x = .error e := by
  induction xs with
  | nil => simp [kept]
  | cons x xs ih =>
    rw [kept, List.find?_cons]
    cases hx : test x with
    | error e' => simp [fails, hx]
    | ok hit =>
      rw [fails, ← ih, ok_bind, bind_eq_error]
      simp

/-- Tests that do not all come to a truth value come to the error of the least element with one. -/
theorem selected_eq_error {e : Error} :
    selected test s = .error e ↔ ∃ x ∈ s, test x = .error e ∧ ∀ y ∈ s, y < x → ∃ hit, test y = .ok hit := by
  rw [selected, map_eq_error, kept_eq_error]
  simp only [Ascending.find?_eq_some_iff, fails_eq_true, fails_eq_false]
  constructor
  · rintro ⟨x, ⟨hx, -, hbelow⟩, hfail⟩
    exact ⟨x, hx, hfail, hbelow⟩
  · intro ⟨x, hx, hfail, hbelow⟩
    exact ⟨x, ⟨hx, ⟨e, hfail⟩, hbelow⟩, hfail⟩

/-! ## The quantifiers -/

/-- Where all tests come to a truth value, so does a quantifier, and it is the decisive one if the
    selection shows it for some element. -/
theorem settled_of_selected (q : Quantifier) (h : selected test s = .ok t) :
    ∃ hit, settled q test s.toList = .ok hit ∧ (hit = q.decisive ↔ ∃ x ∈ s, decide (x ∈ t) = q.decisive) := by
  obtain ⟨-, htest⟩ := selected_eq_ok.mp h
  obtain ⟨hit, hhit, hdecisive⟩ := settled_of_ok q fun x hx => ⟨_, htest x hx⟩
  refine ⟨hit, hhit, hdecisive.trans (exists_congr fun x => and_congr_right fun hx => ?_)⟩
  rw [htest x hx, Except.ok.injEq]

theorem settled_forSome (h : selected test s = .ok t) : settled .forSome test s.toList = .ok (!t.isEmpty) := by
  obtain ⟨hsub, -⟩ := selected_eq_ok.mp h
  obtain ⟨hit, hhit, hdecisive⟩ := settled_of_selected .forSome h
  rw [hhit, Except.ok.injEq, Bool.eq_iff_iff, Bool.not_eq_true', Ascending.isEmpty_eq_false]
  refine hdecisive.trans ?_
  constructor
  · rintro ⟨x, -, hx⟩
    exact ⟨x, of_decide_eq_true hx⟩
  · intro ⟨x, hx⟩
    exact ⟨x, hsub x hx, decide_eq_true hx⟩

theorem settled_forAll (h : selected test s = .ok t) : settled .forAll test s.toList = .ok (decide (t = s)) := by
  obtain ⟨hsub, -⟩ := selected_eq_ok.mp h
  obtain ⟨hit, hhit, hdecisive⟩ := settled_of_selected .forAll h
  have hmissing : hit = false ↔ ¬ t = s := by
    rw [Ascending.eq_iff_of_subset hsub]
    refine hdecisive.trans ?_
    constructor
    · intro ⟨x, hx, hout⟩ hall
      exact of_decide_eq_false hout (hall x hx)
    · intro hnot
      obtain ⟨x, hx⟩ := Classical.not_forall.mp hnot
      obtain ⟨hs, hout⟩ := Classical.not_imp.mp hx
      exact ⟨x, hs, decide_eq_false hout⟩
  rw [hhit, Except.ok.injEq]
  by_cases hts : t = s
  · rw [decide_eq_true hts]
    exact eq_true_of_ne_false fun h => hmissing.mp h hts
  · rw [decide_eq_false hts]
    exact hmissing.mpr hts

/-- Where a quantifier fails, the selection with its test fails in the same way. -/
theorem selected_of_settled_error {q : Quantifier} {e : Error} (h : settled q test s.toList = .error e) :
    selected test s = .error e := by
  obtain ⟨x, hx, hfail, hbelow⟩ := (settled_eq_iff rfl).mp h
  exact selected_eq_error.mpr ⟨x, hx, hfail, fun y hy hlt => ⟨_, hbelow y hy hlt⟩⟩

/-- Where a selection fails, a quantifier with its test does so too, if it does not settle before. -/
theorem settled_of_selected_error (q : Quantifier) {e : Error} (h : selected test s = .error e) :
    settled q test s.toList = .error e ∨ settled q test s.toList = .ok q.decisive := by
  cases hq : settled q test s.toList with
  | error e' =>
    rw [selected_of_settled_error hq] at h
    cases h
    exact .inl rfl
  | ok hit =>
    right
    by_cases hd : hit = q.decisive
    · rw [hd]
    · have hgoes : hit = !q.decisive := Bool.eq_not_of_ne hd
      obtain ⟨x, hx, hfail, -⟩ := selected_eq_error.mp h
      rw [hgoes, settled_eq_not_decisive_iff] at hq
      rw [hq x hx] at hfail
      cases hfail

/-! ## The connectives -/

theorem both_eq_ok {f : Bool → Bool → Bool} {x y : Except Error Bool} {hit : Bool} :
    both f x y = .ok hit ↔ ∃ l r, x = .ok l ∧ y = .ok r ∧ f l r = hit := by
  simp only [both, bind_eq_ok, Except.ok.injEq]
  constructor
  · rintro ⟨l, hl, r, hr, hf⟩
    exact ⟨l, r, hl, hr, hf⟩
  · rintro ⟨l, r, hl, hr, hf⟩
    exact ⟨l, hl, r, hr, hf⟩

section

variable {f : Bool → Bool → Bool} {test' : Int32 → Except Error Bool} {u w : Ascending Int32}

theorem selected_both_of_ok (hnone : f false false = false) (ht : selected test s = .ok t) (hu : selected test' s = .ok u)
    (hmem : ∀ x, x ∈ w ↔ f (decide (x ∈ t)) (decide (x ∈ u)) = true) :
    selected (fun x => both f (test x) (test' x)) s = .ok w := by
  obtain ⟨htsub, htest⟩ := selected_eq_ok.mp ht
  obtain ⟨husub, htest'⟩ := selected_eq_ok.mp hu
  refine selected_eq_ok.mpr ⟨?_, ?_⟩
  · intro x hx
    by_cases hxs : x ∈ s
    · exact hxs
    · have hxt : ¬ x ∈ t := fun h => hxs (htsub x h)
      have hxu : ¬ x ∈ u := fun h => hxs (husub x h)
      have hfalse := (hmem x).mp hx
      rw [decide_eq_false hxt, decide_eq_false hxu, hnone] at hfalse
      cases hfalse
  · intro x hx
    refine both_eq_ok.mpr ⟨_, _, htest x hx, htest' x hx, ?_⟩
    rw [Bool.eq_iff_iff, decide_eq_true_iff]
    exact (hmem x).symm

/-- The elements for which a truth function of two tests is true are put together from those for
    which each of them is. The one side tests both for an element before it goes on, the other
    side all elements with the one test before the other, so they may meet different errors. -/
theorem selected_both {op : Ascending Int32 → Ascending Int32 → Except Error (Ascending Int32)}
    (hnone : f false false = false)
    (hop : ∀ t u, ∃ w, op t u = .ok w ∧ ∀ x, x ∈ w ↔ f (decide (x ∈ t)) (decide (x ∈ u)) = true) :
    SameValue (selected (fun x => both f (test x) (test' x)) s)
      (selected test s >>= fun t => selected test' s >>= fun u => op t u) := by
  intro v
  simp only [bind_eq_ok]
  constructor
  · intro h
    have hparts (x : Int32) (hx : x ∈ s) : (∃ l, test x = .ok l) ∧ ∃ r, test' x = .ok r := by
      obtain ⟨l, r, hl, hr, -⟩ := both_eq_ok.mp ((selected_eq_ok.mp h).2 x hx)
      exact ⟨⟨l, hl⟩, r, hr⟩
    obtain ⟨t, ht⟩ := exists_selected_iff.mpr fun x hx => (hparts x hx).1
    obtain ⟨u, hu⟩ := exists_selected_iff.mpr fun x hx => (hparts x hx).2
    obtain ⟨w, hw, hmem⟩ := hop t u
    rw [selected_both_of_ok hnone ht hu hmem] at h
    cases h
    exact ⟨t, ht, u, hu, hw⟩
  · rintro ⟨t, ht, u, hu, hv⟩
    obtain ⟨w, hw, hmem⟩ := hop t u
    rw [hw] at hv
    cases hv
    exact selected_both_of_ok hnone ht hu hmem

end

/-- The elements for which a test is not true are the others, if each of them is one or the other. -/
theorem selected_not : selected (fun x => (test x).map Bool.not) s = (selected test s).map s.difference := by
  cases h : selected test s with
  | ok t =>
    obtain ⟨-, htest⟩ := selected_eq_ok.mp h
    refine selected_eq_ok.mpr ⟨fun x hx => (Ascending.mem_difference.mp hx).1, ?_⟩
    intro x hx
    have hmem : decide (x ∈ s.difference t) = !decide (x ∈ t) := by
      simp [hx]
    rw [htest x hx, hmem]
    rfl
  | error e =>
    obtain ⟨x, hx, hfail, hbelow⟩ := selected_eq_error.mp h
    refine selected_eq_error.mpr ⟨x, hx, map_eq_error.mpr hfail, ?_⟩
    intro y hy hlt
    obtain ⟨hit, hhit⟩ := hbelow y hy hlt
    exact ⟨!hit, map_eq_ok.mpr ⟨hit, hhit, rfl⟩⟩

end Query.Run

/-! ## Comprehensions in an expression -/

namespace Expr

variable {g : Grid} (b : Bindings) (k : Kind) (v : String)

theorem result_selected (p : Expr .formula) :
    ((comprehension k v p).eval g).result b = selected (fun n => (p.eval g).result (b.push v n)) (g.elements k) :=
  result_comprehension b k v p

theorem sameValue_connective {op : Operator .formula .formula} {op' : Operator .set .set} (p q : Expr .formula)
    (hnone : op.truth false false = false)
    (hop : ∀ t u, ∃ w, op'.apply t u = .ok w ∧ ∀ x, x ∈ w ↔ op.truth (decide (x ∈ t)) (decide (x ∈ u)) = true) :
    SameValue (((comprehension k v (binary op p q)).eval g).result b)
      (((binary op' (comprehension k v p) (comprehension k v q)).eval g).result b) := by
  have hboth (n : Int32) := result_connective (g := g) (b.push v n) op p q
  rw [result_selected, funext hboth, result_binary, result_selected, result_selected]
  exact selected_both hnone hop

theorem result_selected_not (p : Expr .formula) :
    ((comprehension k v (Expr.not p)).eval g).result b =
      ((binary .difference (elements k) (comprehension k v p)).eval g).result b := by
  have hnot (n : Int32) := result_not (g := g) (b.push v n) p
  rw [result_selected, funext hnot, selected_not, result_binary, result_elements, result_selected]
  cases selected (fun n => (p.eval g).result (b.push v n)) (g.elements k) <;> rfl

theorem sameValue_and (p q : Expr .formula) :
    SameValue (((comprehension k v (binary .and p q)).eval g).result b)
      (((binary .intersection (comprehension k v p) (comprehension k v q)).eval g).result b) := by
  refine sameValue_connective b k v p q rfl ?_
  intro t u
  exact ⟨t.intersection u, rfl, fun x => by simp [Operator.truth]⟩

theorem sameValue_or (p q : Expr .formula) :
    SameValue (((comprehension k v (binary .or p q)).eval g).result b)
      (((binary .union (comprehension k v p) (comprehension k v q)).eval g).result b) := by
  refine sameValue_connective b k v p q rfl ?_
  intro t u
  exact ⟨t.union u, rfl, fun x => by simp [Operator.truth]⟩

/-- An implication is a disjunction with the negation, and that is what is left of all elements. -/
theorem sameValue_implies (p q : Expr .formula) :
    SameValue (((comprehension k v (binary .implies p q)).eval g).result b)
      (((binary .union (binary .difference (elements k) (comprehension k v p)) (comprehension k v q)).eval g).result b) := by
  have himplies (n : Int32) := result_implies (g := g) (b.push v n) p q
  have h := sameValue_or (g := g) b k v (Expr.not p) q
  rw [result_binary, result_selected_not, ← result_binary] at h
  rw [result_selected, funext himplies, ← result_selected]
  exact h

end Expr

/-- A comprehension comes to a set exactly if its predicate comes to a truth value for every element
    of its kind. The set then has the elements for which that is true, the predicate holds for
    some element if the set has one, and for every element if the set has them all. Otherwise the
    comprehension comes to the error of the predicate for the least element with one, and either
    quantifier to that error or to its decisive value. So where a quantifier fails, the
    comprehension fails in the same way. -/
theorem comprehension_decides (g : Grid) (b : Bindings) (v : String) (k : Kind) (p : Expr .formula) :
    let r (n : Int32) := (p.eval g).result (b.push v n)
    let set := ((Expr.comprehension k v p).eval g).result b
    let quantified (q : Quantifier) := ((Expr.quantified q v k p).eval g).result b
    ((∃ s, set = .ok s) ↔ ∀ n ∈ g.elements k, ∃ t, r n = .ok t) ∧
      (∀ s, set = .ok s → (∀ n, n ∈ s ↔ n ∈ g.elements k ∧ r n = .ok true) ∧
        quantified .forSome = .ok (!s.isEmpty) ∧ quantified .forAll = .ok (decide (s = g.elements k))) ∧
      (∀ x, set = .error x ↔ ∃ n ∈ g.elements k, r n = .error x ∧
        ∀ m ∈ g.elements k, m < n → ∃ t, r m = .ok t) ∧
      (∀ x, set = .error x → ∀ q, quantified q = .error x ∨ quantified q = .ok q.decisive) ∧
      ∀ q x, quantified q = .error x → set = .error x := by
  intro r set quantified
  have hset : set = selected r (g.elements k) := Expr.result_selected b k v p
  have hquantified (q : Quantifier) : quantified q = settled q r (g.elements k).toList :=
    Expr.result_quantified b q v k p
  simp only [hset, hquantified]
  refine ⟨exists_selected_iff, ?_, fun x => selected_eq_error, fun x h q => settled_of_selected_error q h,
    fun q x => selected_of_settled_error⟩
  intro s h
  exact ⟨mem_of_selected h, settled_forSome h, settled_forAll h⟩

-- For the days the predicates have truth values. Among the figures they fail for 3: for the first one
-- only after `forSome` has stopped at 2, for the second one before `forAll` could stop.
theorem comprehension_decides_below :
    let g : Grid := ⟨[[5, 2], [1, 3]], by decide⟩
    let p (n : Int32) : Expr .formula :=
      .binary .lt (.binary .div (.literal 6) (.binary .sub (.var "s") (.literal 3))) (.literal n)
    ((Expr.quantified .forSome "s" .day (p (-4))).eval g).result [] = .ok (!(Ascending.ofList [(2 : Int32)]).isEmpty) ∧
      ((Expr.quantified .forAll "s" .day (p (-4))).eval g).result [] =
        .ok (decide (Ascending.ofList [(2 : Int32)] = g.elements .day)) ∧
      (((Expr.quantified .forSome "s" .sale (p (-4))).eval g).result [] = .error .divisionByZero ∨
        ((Expr.quantified .forSome "s" .sale (p (-4))).eval g).result [] = .ok true) ∧
      ((Expr.comprehension .sale "s" (p 0)).eval g).result [] = .error .divisionByZero := by
  intro g p
  obtain ⟨-, hvalue, -, -, -⟩ := comprehension_decides g [] "s" .day (p (-4))
  obtain ⟨-, -, -, hfail, -⟩ := comprehension_decides g [] "s" .sale (p (-4))
  obtain ⟨-, -, -, -, hsame⟩ := comprehension_decides g [] "s" .sale (p 0)
  obtain ⟨-, hsome, hall⟩ := hvalue (.ofList [2]) rfl
  exact ⟨hsome, hall, hfail .divisionByZero rfl .forSome, hsame .forAll .divisionByZero rfl⟩

/-- Connectives in the predicate of a comprehension are set operators between comprehensions: both
    sides come to the same set, or both fail. A negation is the difference from all elements,
    and there even the errors are the same. -/
theorem comprehension_distributes (g : Grid) (b : Bindings) (v : String) (k : Kind) (p q : Expr .formula) :
    let all : Expr .set := .elements k
    let those (f : Expr .formula) : Expr .set := .comprehension k v f
    let r (s : Expr .set) := (s.eval g).result b
    SameValue (r (those (.binary .and p q))) (r (.binary .intersection (those p) (those q))) ∧
      SameValue (r (those (.binary .or p q))) (r (.binary .union (those p) (those q))) ∧
      r (those (.not p)) = r (.binary .difference all (those p)) ∧
      SameValue (r (those (.binary .implies p q))) (r (.binary .union (.binary .difference all (those p)) (those q))) := by
  intro all those r
  exact ⟨Expr.sameValue_and b k v p q, Expr.sameValue_or b k v p q, Expr.result_selected_not b k v p,
    Expr.sameValue_implies b k v p q⟩

end GridQuery
