/-
  GridQuery.Proofs.Progress — queries that cannot fail.

  A query that passes the check, divides nowhere and has no index but literals and names that
  range over the numbers of the index's own axis comes to a value (`evaluate_progress`). For the
  error of a failed evaluation would come from a node (`Query.evaluate_arises`), and nothing
  is missing there: the free names have bindings, the literals were held against the
  grid, and a name bound inside is one of the numbers of its axis.
-/

import GridQuery.Proofs.Blame

namespace GridQuery

open Query Query.Run

/-- The kind whose elements are the numbers along an axis. -/
def Axis.kind : Axis → Kind
  | .product => .product
  | .day => .day

/-- Whether the scope that an index on an axis stands in shows that it has a place there, if
    literals do: it is a literal, or a name whose innermost binder ranges over the axis. -/
def Scope.shows (s : Scope) (a : Axis) : Expr .numeric → Bool
  | .literal _ => true
  | .var x => s.lookup x = some a.kind
  | _ => false

theorem Grid.mem_elements_kind {g : Grid} {a : Axis} {i : Int32} :
    i ∈ g.elements a.kind ↔ 1 ≤ i.toInt ∧ i.toInt ≤ g.extent a := by
  cases a with
  | product => exact g.mem_elements_product
  | day => exact g.mem_elements_day

/-- Where the scope shows it and literals have places, an index has a place. -/
theorem Scope.position_of_shows {g : Grid} {b b' : Bindings} {s : Scope} {a : Axis} {i : Expr .numeric} {n : Int32}
    (hb : Under g b s b') (hs : s.shows a i = true) (hn : (i.eval g).result b' = .ok n)
    (hliteral : i = .literal n → (g.position? a n).isSome = true) : 1 ≤ n.toInt ∧ n.toInt ≤ g.extent a := by
  cases i with
  | literal m =>
    cases hn
    exact g.isSome_position?.mp (hliteral rfl)
  | var x =>
    obtain ⟨m, hm, hx⟩ := hb.lookup_bound (of_decide_eq_true hs)
    rw [Expr.result_var, meant, hx] at hn
    cases hn
    exact Grid.mem_elements_kind.mp hm
  | _ => cases hs

/-- A query comes to a value if it passes the check, has no division, and each of its indices is
    a literal or a name whose innermost binder ranges over the numbers of the index's axis. -/
theorem evaluate_progress (g : Grid) (b : Bindings) (q : Query) (hcheck : q.check g b = .ok ())
    (hdivision : ∀ node ∈ q.expr.nodes [], node.expr.isDivision = false)
    (hindex : ∀ node ∈ q.expr.nodes [], ∀ i ∈ node.expr.indices, node.scope.shows i.1 i.2 = true) :
    ∃ v : q.category.Carrier, (q.evaluate g).result b = .ok (Value.of v) := by
  rw [result_evaluate]
  cases hresult : (q.expr.eval g).result b with
  | ok v => exact ⟨v, rfl⟩
  | error x =>
    exfalso
    have harises := q.expr.eval_arises .outside hresult
    cases x with
    | unbound name =>
      obtain ⟨hfree, hname⟩ := harises.unbound
      obtain ⟨m, -, hm⟩ := check_unbound (g := g) hfree hname
      rw [hcheck] at hm
      cases hm
    | divisionByZero =>
      obtain ⟨node, hnode, hdiv⟩ := harises.division
      rw [hdivision node hnode] at hdiv
      cases hdiv
    | outOfRange a i extent =>
      obtain ⟨⟨s, c, e⟩, hnode, b', hb, ho⟩ := harises
      cases ho with
      | index hi hn hx =>
        obtain ⟨hout, he⟩ := g.position_eq_error.mp hx
        cases he
        refine hout (Scope.position_of_shows hb (hindex _ hnode _ hi) hn fun hliteral => ?_)
        exact (check_eq_ok.mp hcheck).placed (a, i) ((q.expr.mem_literalIndices [] a i).mpr ⟨_, hnode, hliteral ▸ hi⟩)

-- The best-selling products of those that sold more than "n" on the second day. The "x" bound
-- outside is no product, but inside it is hidden.
theorem evaluate_progress_best :
    let g : Grid := ⟨[[5, 2], [1, 3]], by decide⟩
    let x : Expr .numeric := .var "x"
    let best : Expr .formula :=
      .quantified .forAll "y" .product (.binary .le (.productTotal (.var "y")) (.productTotal x))
    let q : Query :=
      ⟨.set, .comprehension .product "x" (.binary .and (.binary .gt (.figure x (.literal 2)) (.var "n")) best)⟩
    ∃ v : Ascending Int32, (q.evaluate g).result [("x", 9), ("n", 1)] = .ok (.set v) := by
  intro g x best q
  exact evaluate_progress g [("x", 9), ("n", 1)] q rfl (by decide) (by decide)

end GridQuery
