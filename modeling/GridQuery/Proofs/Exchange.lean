/-
  GridQuery.Proofs.Exchange — a quantifier inside another of the same kind.

  Two such quantifiers go through the pairs of their elements, those of the outer one first, and stop
  at the first pair that stops the inner one (`exists_stops`). Exchanged they go through the same
  pairs in the other order. Nothing about the bindings tells the two apart: the names are
  distinct, so it does not matter which is pushed first.

  If no pair stops the one, none stops the other. Otherwise they may stop at different pairs. These
  then cross: each of the two gets to its own pair first, so neither sees the pair of the other
  (`Stops.lt_of_ne`). What they come to can differ only there, and not if both are truth values,
  because a truth value that stops is the decisive one (`like_quantifiers_exchange`).
-/

import GridQuery.Proofs.Settling
import GridQuery.Proofs.Substitution

namespace GridQuery

open Query Query.Run

namespace Query.Run

/-- What a quantifier over `s` comes to around another one of its kind over `t`. -/
def nested (q : Quantifier) (test : Int32 → Int32 → Except Error Bool) (s t : Ascending Int32) : Except Error Bool :=
  settled q (fun n => settled q (test n) t.toList) s.toList

/-- The quantifiers stop at the pair of `n` and `m` first: no pair `above` it stops them, with a lesser
    outer element, and none `before` it, with the same outer element and a lesser inner one. -/
structure Stops (q : Quantifier) (test : Int32 → Int32 → Except Error Bool) (s t : Ascending Int32) (n m : Int32) :
    Prop where
  outer : n ∈ s
  inner : m ∈ t
  stops : test n m ≠ .ok (!q.decisive)
  above : ∀ n' ∈ s, n' < n → ∀ m' ∈ t, test n' m' = .ok (!q.decisive)
  before : ∀ m' ∈ t, m' < m → test n m' = .ok (!q.decisive)

variable {q : Quantifier} {test : Int32 → Int32 → Except Error Bool} {s t : Ascending Int32}

theorem nested_eq_not_decisive :
    nested q test s t = .ok (!q.decisive) ↔ ∀ n ∈ s, ∀ m ∈ t, test n m = .ok (!q.decisive) := by
  rw [nested, settled_eq_not_decisive_iff]
  exact forall₂_congr fun n _ => settled_eq_not_decisive_iff

theorem exists_stops (h : nested q test s t ≠ .ok (!q.decisive)) :
    ∃ n m, Stops q test s t n m ∧ nested q test s t = test n m := by
  obtain ⟨n, hn, hinner, habove⟩ := (settled_eq_iff (stopsAt_iff.mpr h)).mp rfl
  have hstops : settled q (test n) t.toList ≠ .ok (!q.decisive) := by
    rw [hinner]
    exact h
  obtain ⟨m, hm, htest, hbefore⟩ := (settled_eq_iff (stopsAt_iff.mpr hstops)).mp rfl
  refine ⟨n, m, ⟨hn, hm, ?_, ?_, hbefore⟩, (htest.trans hinner).symm⟩
  · rw [htest]
    exact hstops
  · intro n' hn' hlt
    exact settled_eq_not_decisive_iff.mp (habove n' hn' hlt)

namespace Stops

variable {n n' m m' : Int32}

/-- Pairs at which the two orders stop with different results are different pairs, and each order meets
    its own pair before that of the other. For the outer elements this is said here, for the
    inner ones it is the same with the orders exchanged. -/
theorem lt_of_ne (h : Stops q test s t n m) (h' : Stops q (fun m n => test n m) t s m' n')
    (hne : test n m ≠ test n' m') : n < n' := by
  by_cases hlt : n < n'
  · exact hlt
  exfalso
  by_cases hgt : n' < n
  · exact h'.stops (h.above n' h'.inner hgt m' h'.outer)
  have hn : n = n' := Ascending.eq_of_not_lt hlt hgt
  subst hn
  by_cases hm : m < m'
  · exact h.stops (h'.above m h.inner hm n h.outer)
  by_cases hm' : m' < m
  · exact h'.stops (h.before m' h'.outer hm')
  exact hne (congrArg (test n) (Ascending.eq_of_not_lt hm hm'))

end Stops

/-- The exchanged quantifiers go through all pairs as well where nothing stops them. -/
theorem nested_exchange_iff :
    nested q test s t = .ok (!q.decisive) ↔ nested q (fun m n => test n m) t s = .ok (!q.decisive) := by
  rw [nested_eq_not_decisive, nested_eq_not_decisive]
  constructor
  · intro h m hm n hn
    exact h n hn m hm
  · intro h n hn m hm
    exact h m hm n hn

/-- A truth value is the decisive one or the other, so two of which neither or both are the other are equal. -/
theorem ok_unique {o o' : Except Error Bool} (h : o = .ok (!q.decisive) ↔ o' = .ok (!q.decisive)) {v v' : Bool}
    (ho : o = .ok v) (ho' : o' = .ok v') : v = v' := by
  rw [ho, ho', Except.ok.injEq, Except.ok.injEq] at h
  by_cases hv : v = !q.decisive
  · rw [hv, h.mp hv]
  · have hv' : v' ≠ !q.decisive := fun e => hv (h.mpr e)
    rw [Bool.eq_not_of_ne hv, Bool.eq_not_of_ne hv']

theorem exists_error_of_ne {o o' : Except Error Bool} (h : o = .ok (!q.decisive) ↔ o' = .ok (!q.decisive)) (hne : o ≠ o') :
    (∃ e, o = .error e) ∨ ∃ e, o' = .error e := by
  cases ho : o with
  | error e => exact .inl ⟨e, rfl⟩
  | ok v =>
    cases ho' : o' with
    | error e => exact .inr ⟨e, rfl⟩
    | ok v' =>
      rw [ho, ho', ok_unique h ho ho'] at hne
      exact absurd rfl hne

theorem nested_exchange_ne (hne : nested q test s t ≠ nested q (fun m n => test n m) t s) :
    ∃ n ∈ s, ∃ n' ∈ s, ∃ m ∈ t, ∃ m' ∈ t, n < n' ∧ m' < m ∧
      nested q test s t = test n m ∧ nested q (fun m n => test n m) t s = test n' m' := by
  have hone : nested q test s t ≠ .ok (!q.decisive) := fun h => hne (h.trans (nested_exchange_iff.mp h).symm)
  have hother : nested q (fun m n => test n m) t s ≠ .ok (!q.decisive) := fun h => hone (nested_exchange_iff.mpr h)
  obtain ⟨n, m, h, htest⟩ := exists_stops hone
  obtain ⟨m', n', h', htest'⟩ := exists_stops hother
  have hdiffer : test n m ≠ test n' m' := by
    rw [htest, htest'] at hne
    exact hne
  exact ⟨n, h.outer, n', h'.inner, m, h.inner, m', h'.outer, h.lt_of_ne h' hdiffer, h'.lt_of_ne h hdiffer.symm,
    htest, htest'⟩

end Query.Run

namespace Expr

variable {g : Grid} (b : Bindings) (q : Quantifier) (x y : String) (j k : Kind) (f : Expr .formula)

theorem result_nested :
    ((quantified q x j (quantified q y k f)).eval g).result b =
      nested q (fun n m => (f.eval g).result ((b.push x n).push y m)) (g.elements j) (g.elements k) := by
  have hinner (n : Int32) := result_quantified (g := g) (b.push x n) q y k f
  rw [result_quantified, funext hinner]
  rfl

/-- The bindings of distinct names may be pushed in the other order. -/
theorem result_nested_exchanged (hxy : x ≠ y) :
    ((quantified q y k (quantified q x j f)).eval g).result b =
      nested q (fun m n => (f.eval g).result ((b.push x n).push y m)) (g.elements k) (g.elements j) := by
  have hpush (m n : Int32) : (f.eval g).result ((b.push y m).push x n) = (f.eval g).result ((b.push x n).push y m) :=
    f.eval_congr g fun z _ => b.lookup_push_comm y x z m n hxy.symm
  rw [result_nested]
  simp only [hpush]

end Expr

/-- Quantifiers of the same kind over distinct names, one right inside the other, can be exchanged: the
    one order comes to the value that is not decisive exactly if the other does, and truth values
    that both come to are equal. The orders come to different results only if each stops at a pair
    of elements before it gets to the one at which the other stops, and one of them fails there. -/
theorem like_quantifiers_exchange (g : Grid) (b : Bindings) {x y : String} (hxy : x ≠ y) (j k : Kind) (q : Quantifier)
    (f : Expr .formula) :
    let r (n m : Int32) := (f.eval g).result ((b.push x n).push y m)
    let one := ((Expr.quantified q x j (.quantified q y k f)).eval g).result b
    let other := ((Expr.quantified q y k (.quantified q x j f)).eval g).result b
    (one = .ok (!q.decisive) ↔ other = .ok (!q.decisive)) ∧
      (∀ v v', one = .ok v → other = .ok v' → v = v') ∧
      (one ≠ other → ∃ n ∈ g.elements j, ∃ n' ∈ g.elements j, ∃ m ∈ g.elements k, ∃ m' ∈ g.elements k,
        n < n' ∧ m' < m ∧ one = r n m ∧ other = r n' m' ∧ ((∃ e, one = .error e) ∨ ∃ e, other = .error e)) := by
  intro r one other
  have hone : one = nested q r (g.elements j) (g.elements k) := Expr.result_nested b q x y j k f
  have hother : other = nested q (fun m n => r n m) (g.elements k) (g.elements j) :=
    Expr.result_nested_exchanged b q x y j k f hxy
  have hiff : one = .ok (!q.decisive) ↔ other = .ok (!q.decisive) := by
    rw [hone, hother]
    exact nested_exchange_iff
  refine ⟨hiff, fun v v' => ok_unique hiff, ?_⟩
  intro hne
  have herror := exists_error_of_ne hiff hne
  rw [hone, hother] at hne ⊢
  obtain ⟨n, hn, n', hn', m, hm, m', hm', hlt, hlt', h, h'⟩ := nested_exchange_ne hne
  exact ⟨n, hn, n', hn', m, hm, m', hm', hlt, hlt', h, h', hone ▸ hother ▸ herror⟩

-- A product that sold nothing on the second day makes the one order fail. The other order stops at
-- the second product on the first day and never gets there.
theorem like_quantifiers_exchange_unsold :
    let g : Grid := ⟨[[1, 0], [5, 1]], by decide⟩
    let f : Expr .formula :=
      .binary .eq (.binary .div (.literal 5) (.figure (.var "p") (.var "d"))) (.literal 1)
    let one := ((Expr.quantified .forSome "p" .product (.quantified .forSome "d" .day f)).eval g).result [("d", 7)]
    let other := ((Expr.quantified .forSome "d" .day (.quantified .forSome "p" .product f)).eval g).result [("d", 7)]
    "p" ≠ "d" ∧ one = .error .divisionByZero ∧ other = .ok true ∧ (one = .ok false ↔ other = .ok false) ∧
      ∃ n ∈ g.elements .product, ∃ n' ∈ g.elements .product, ∃ m ∈ g.elements .day, ∃ m' ∈ g.elements .day,
        n < n' ∧ m' < m ∧ one = (f.eval g).result [("d", m), ("p", n), ("d", 7)] ∧
          other = (f.eval g).result [("d", m'), ("p", n'), ("d", 7)] ∧
          ((∃ e, one = .error e) ∨ ∃ e, other = .error e) := by
  intro g f one other
  have hnames : "p" ≠ "d" := by decide
  have hone : one = .error .divisionByZero := by
    unfold one f g
    rfl
  have hother : other = .ok true := by
    unfold other f g
    rfl
  have hne : one ≠ other := by
    rw [hone, hother]
    nofun
  obtain ⟨hiff, -, hcross⟩ := like_quantifiers_exchange g [("d", 7)] hnames .product .day .forSome f
  exact ⟨hnames, hone, hother, hiff, hcross hne⟩

end GridQuery
