/-
  GridQuery.Proofs.Blame — where the error of an evaluation comes from.

  An evaluation that fails has failed at one node. There the parts had their values and the
  node itself could not go on (`Origin`): a name without a binding, a divisor of zero, or
  an index that the grid does not have. The bindings at that node are those at the start with
  the names of its scope on top, each bound to an element of its kind (`Under`). Both are
  carried through every expression by one induction (`eval_arises`), and every rule about
  errors is read off the node that is to blame (`evaluate_blames`).
-/

import GridQuery.Proofs.Check
import GridQuery.Proofs.Node

namespace GridQuery

open Query Query.Run

/-! ## The bindings inside a scope -/

/-- `b'` is `b` with the names of a scope on top, each bound to an element of its kind. -/
inductive Under (g : Grid) (b : Bindings) : Scope → Bindings → Prop
  | outside : Under g b [] b
  | inside {s : Scope} {b' : Bindings} {x : String} {k : Kind} {n : Int32} :
      Under g b s b' → n ∈ g.elements k → Under g b ((x, k) :: s) (b'.push x n)

namespace Under

variable {g : Grid} {b b' : Bindings} {s : Scope} {x : String}

/-- A name that a scope binds stands for an element of the kind its innermost binder ranges over. -/
theorem lookup_bound (h : Under g b s b') {k : Kind} (hk : s.lookup x = some k) :
    ∃ n ∈ g.elements k, b'.lookup x = some n := by
  induction h with
  | outside => cases hk
  | @inside s b' y k' n _ hn ih =>
    rw [List.lookup_cons] at hk
    rw [Bindings.lookup_push]
    by_cases hxy : x = y
    · rw [if_pos hxy]
      simp only [hxy, beq_self_eq_true, Option.some_inj] at hk
      exact ⟨n, hk ▸ hn, rfl⟩
    · rw [if_neg hxy]
      simp only [beq_false_of_ne hxy] at hk
      exact ih hk

/-- A name without a binding inside is bound neither by the scope nor outside. -/
theorem unbound_outside (h : Under g b s b') (hx : b'.lookup x = none) : ¬ x ∈ s.names ∧ b.lookup x = none := by
  induction h with
  | outside => exact ⟨List.not_mem_nil, hx⟩
  | @inside s b' y k' n _ hn ih =>
    rw [Bindings.lookup_push] at hx
    split at hx
    · cases hx
    · rename_i hxy
      obtain ⟨hs, hb⟩ := ih hx
      refine ⟨?_, hb⟩
      rw [Scope.names_cons, List.mem_cons, not_or]
      exact ⟨hxy, hs⟩

end Under

/-! ## The node to blame -/

/-- How an expression fails under `b` when its parts have values. -/
inductive Origin (g : Grid) (b : Bindings) : {c : Category} → Expr c → Query.Error → Prop
  | unbound {name : String} : b.lookup name = none → Origin g b (.var name) (.unbound name)
  | division {l r : Expr .numeric} : (r.eval g).result b = .ok 0 → Origin g b (.binary .div l r) .divisionByZero
  | index {c : Category} {e : Expr c} {a : Axis} {i : Expr .numeric} {n : Int32} {x : Query.Error} :
      (a, i) ∈ e.indices → (i.eval g).result b = .ok n → g.position a n = .error x → Origin g b e x

/-- Of the nodes of an expression that is evaluated under `b`, one fails with `x`. -/
def Arises (g : Grid) (b : Bindings) (x : Query.Error) (nodes : List Node) : Prop :=
  ∃ node ∈ nodes, ∃ b', Under g b node.scope b' ∧ Origin g b' node.expr x

namespace Arises

variable {g : Grid} {b : Bindings} {x : Query.Error} {node : Node} {ns ms : List Node}

theorem head {b' : Bindings} (hb : Under g b node.scope b') (h : Origin g b' node.expr x) : Arises g b x (node :: ns) :=
  ⟨node, List.mem_cons_self, b', hb, h⟩

theorem mono (h : Arises g b x ns) (hsub : ∀ node ∈ ns, node ∈ ms) : Arises g b x ms := by
  obtain ⟨node, hnode, hrest⟩ := h
  exact ⟨node, hsub node hnode, hrest⟩

theorem tail (h : Arises g b x ns) : Arises g b x (node :: ns) := h.mono fun _ => List.mem_cons_of_mem _

theorem left (h : Arises g b x ns) : Arises g b x (node :: (ns ++ ms)) :=
  h.mono fun _ hn => List.mem_cons_of_mem _ (List.mem_append_left _ hn)

theorem right (h : Arises g b x ms) : Arises g b x (node :: (ns ++ ms)) :=
  h.mono fun _ hn => List.mem_cons_of_mem _ (List.mem_append_right _ hn)

end Arises

theorem meant_eq_error {name : String} {b : Bindings} {x : Query.Error} (h : meant name b = .error x) :
    b.lookup name = none ∧ x = .unbound name := by
  unfold meant at h
  split at h
  · cases h
  · rename_i hname
    cases h
    exact ⟨hname, rfl⟩

theorem Operator.apply_div (l r : Int32) :
    Operator.div.apply l r = if r = 0 then .error .divisionByZero else .ok (l / r) := rfl

/-- Division is the one operator that fails, and a divisor of zero is all that it fails for. -/
theorem origin_of_apply {g : Grid} {b : Bindings} {a c : Category} {op : Operator a c} {l r : Expr a}
    {v w : a.Carrier} {x : Query.Error} (hr : (r.eval g).result b = .ok w) (h : op.apply v w = .error x) :
    Origin g b (.binary op l r) x := by
  cases op
  case div =>
    rw [Operator.apply_div] at h
    split at h
    · rename_i hw
      cases h
      exact .division (hw ▸ hr)
    · cases h
  all_goals cases h

theorem Expr.eval_arises {g : Grid} {b : Bindings} {x : Query.Error} {c : Category} (e : Expr c) {s : Scope}
    {b' : Bindings} (hb : Under g b s b') (h : (e.eval g).result b' = .error x) : Arises g b x (e.nodes s) := by
  induction e generalizing s b' with
  | literal n => cases h
  | var name =>
    rw [result_var] at h
    obtain ⟨hname, rfl⟩ := meant_eq_error h
    exact .head hb (.unbound hname)
  | productTotal p ih =>
    rw [result_productTotal] at h
    rcases bind_eq_error.mp h with hp | ⟨i, hi, hmap⟩
    · exact (ih hb hp).tail
    · exact .head hb (.index List.mem_cons_self hi (map_eq_error.mp hmap))
  | dayTotal d ih =>
    rw [result_dayTotal] at h
    rcases bind_eq_error.mp h with hd | ⟨i, hi, hmap⟩
    · exact (ih hb hd).tail
    · exact .head hb (.index List.mem_cons_self hi (map_eq_error.mp hmap))
  | total => cases h
  | figure p d ihp ihd =>
    rw [result_figure] at h
    rcases bind_eq_error.mp h with hp | ⟨i, hi, hrest⟩
    · exact (ihp hb hp).left
    rcases bind_eq_error.mp hrest with hd | ⟨j, hj, hplaces⟩
    · exact (ihd hb hd).right
    rcases bind_eq_error.mp hplaces with hproduct | ⟨product, -, hmap⟩
    · exact .head hb (.index List.mem_cons_self hi hproduct)
    · exact .head hb (.index (List.mem_cons_of_mem _ List.mem_cons_self) hj (map_eq_error.mp hmap))
  | size t ih =>
    rw [result_size] at h
    exact (ih hb (map_eq_error.mp h)).tail
  | elements k => cases h
  | comprehension k y p ih =>
    rw [result_comprehension] at h
    obtain ⟨n, hn, hp⟩ := test_of_kept_error (map_eq_error.mp h)
    exact (ih (hb.inside hn) hp).tail
  | not f ih =>
    rw [result_not] at h
    exact (ih hb (map_eq_error.mp h)).tail
  | quantified q y k f ih =>
    rw [result_quantified] at h
    obtain ⟨n, hn, hf⟩ := test_of_settled_error h
    exact (ih (hb.inside hn) hf).tail
  | binary op l r ihl ihr =>
    rw [result_binary] at h
    rcases bind_eq_error.mp h with hl | ⟨v, -, hrest⟩
    · exact (ihl hb hl).left
    rcases bind_eq_error.mp hrest with hr | ⟨w, hw, happly⟩
    · exact (ihr hb hr).right
    · exact .head hb (origin_of_apply hw happly)

/-- An evaluation that fails has failed at one of the nodes of the query. -/
theorem Query.evaluate_arises {g : Grid} {b : Bindings} {q : Query} {x : Error}
    (h : (q.evaluate g).result b = .error x) : Arises g b x (q.expr.nodes []) := by
  rw [result_evaluate] at h
  exact q.expr.eval_arises .outside (map_eq_error.mp h)

/-! ## What each error says -/

namespace Arises

variable {g : Grid} {b : Bindings} {q : Query}

theorem unbound {n : String} (h : Arises g b (.unbound n) (q.expr.nodes [])) : n ∈ q.free ∧ b.lookup n = none := by
  obtain ⟨⟨s, c, e⟩, hnode, b', hb, ho⟩ := h
  cases ho with
  | unbound hn =>
    obtain ⟨hs, hout⟩ := hb.unbound_outside hn
    exact ⟨Expr.mem_free_iff.mpr ⟨s, hnode, hs⟩, hout⟩
  | index _ _ hx =>
    obtain ⟨-, he⟩ := g.position_eq_error.mp hx
    cases he

theorem outOfRange {a : Axis} {i : Int32} {extent : Nat} (h : Arises g b (.outOfRange a i extent) (q.expr.nodes [])) :
    extent = g.extent a ∧ ¬ (1 ≤ i.toInt ∧ i.toInt ≤ extent) ∧
      ∃ node ∈ q.expr.nodes [], ∃ e, (a, e) ∈ node.expr.indices := by
  obtain ⟨⟨s, c, e⟩, hnode, b', hb, ho⟩ := h
  cases ho with
  | index hindex _ hx =>
    obtain ⟨hplace, he⟩ := g.position_eq_error.mp hx
    cases he
    exact ⟨rfl, hplace, _, hnode, _, hindex⟩

theorem division (h : Arises g b .divisionByZero (q.expr.nodes [])) :
    ∃ node ∈ q.expr.nodes [], node.expr.isDivision = true := by
  obtain ⟨⟨s, c, e⟩, hnode, b', hb, ho⟩ := h
  cases ho with
  | division _ => exact ⟨_, hnode, rfl⟩
  | index _ _ hx =>
    obtain ⟨-, he⟩ := g.position_eq_error.mp hx
    cases he

end Arises

/-- An unbound name makes the check fail, for that name or an earlier one. -/
theorem Query.check_unbound {g : Grid} {b : Bindings} {q : Query} {n : String} (hn : n ∈ q.free)
    (hb : b.lookup n = none) : ∃ m, m ≤ n ∧ q.check g b = .error (.unbound m) := by
  have hunbound : (!b.isBound n) = true := by
    rw [Bindings.isBound, hb]
    rfl
  unfold check
  split
  · rename_i m hm
    exact ⟨m, Ascending.le_of_find? hm hn hunbound, rfl⟩
  · rename_i hnone
    exact absurd hunbound (List.find?_eq_none.mp hnone n hn)

/-- The error of an evaluation says what is wrong with the query. The name that it gives is free and
    has no binding, so the check would have failed for that name or an earlier one. The number
    that it gives is out of the range that it gives, which is that of the grid, and the query
    has an index on that axis. A division by zero is a division of the query. So what passes
    the check has no unbound names. -/
theorem evaluate_blames (g : Grid) (b : Bindings) (q : Query) :
    (∀ n, (q.evaluate g).result b = .error (.unbound n) →
        n ∈ q.free ∧ b.lookup n = none ∧ ∃ m, m ≤ n ∧ q.check g b = .error (.unbound m)) ∧
      (∀ a i extent, (q.evaluate g).result b = .error (.outOfRange a i extent) →
        extent = g.extent a ∧ ¬ (1 ≤ i.toInt ∧ i.toInt ≤ extent) ∧
          ∃ node ∈ q.expr.nodes [], ∃ e, (a, e) ∈ node.expr.indices) ∧
      ((q.evaluate g).result b = .error .divisionByZero →
        ∃ node ∈ q.expr.nodes [], node.expr.isDivision = true) ∧
      (q.check g b = .ok () → ∀ n, (q.evaluate g).result b ≠ .error (.unbound n)) := by
  have hunbound (n : String) (h : (q.evaluate g).result b = .error (.unbound n)) :
      n ∈ q.free ∧ b.lookup n = none ∧ ∃ m, m ≤ n ∧ q.check g b = .error (.unbound m) := by
    obtain ⟨hfree, hb⟩ := (evaluate_arises h).unbound
    exact ⟨hfree, hb, check_unbound hfree hb⟩
  refine ⟨hunbound, fun a i extent h => (evaluate_arises h).outOfRange, fun h => (evaluate_arises h).division, ?_⟩
  intro hcheck n h
  obtain ⟨-, -, m, -, hm⟩ := hunbound n h
  rw [hcheck] at hm
  cases hm

-- Evaluation meets "x" first and the check "a". A day that is counted and not a literal is out of
-- range, and a divisor becomes zero, only inside.
theorem evaluate_blames_inside :
    let g : Grid := ⟨[[5, 2], [1, 3]], by decide⟩
    let sum : Query := ⟨.numeric, .binary .add (.var "x") (.var "a")⟩
    let busy : Query := ⟨.set, .comprehension .day "d"
      (.binary .gt (.dayTotal (.binary .add (.var "d") (.literal 1))) (.literal 0))⟩
    let few : Query := ⟨.formula, .quantified .forAll "d" .day
      (.binary .lt (.binary .div (.literal 4) (.binary .sub (.var "d") (.literal 2))) (.literal 9))⟩
    let sold : Query := ⟨.numeric, .productTotal (.var "y")⟩
    ((sum.evaluate g).result [("y", 1)] = .error (.unbound "x") ∧ "x" ∈ sum.free ∧
        Bindings.lookup [("y", 1)] "x" = none ∧ ∃ m, m ≤ "x" ∧ sum.check g [("y", 1)] = .error (.unbound m)) ∧
      ((busy.evaluate g).result [] = .error (.outOfRange .day 3 2) ∧
        ∃ node ∈ busy.expr.nodes [], ∃ e, (Axis.day, e) ∈ node.expr.indices) ∧
      ((few.evaluate g).result [] = .error .divisionByZero ∧
        ∃ node ∈ few.expr.nodes [], node.expr.isDivision = true) ∧
      sold.check g [("y", 3)] = .ok () ∧ (sold.evaluate g).result [("y", 3)] ≠ .error (.unbound "y") := by
  intro g sum busy few sold
  have hsum : (sum.evaluate g).result [("y", 1)] = .error (.unbound "x") := rfl
  have hbusy : (busy.evaluate g).result [] = .error (.outOfRange .day 3 2) := rfl
  have hfew : (few.evaluate g).result [] = .error .divisionByZero := rfl
  have hsold : sold.check g [("y", 3)] = .ok () := rfl
  obtain ⟨hname, -⟩ := evaluate_blames g [("y", 1)] sum
  obtain ⟨-, hrange, -⟩ := evaluate_blames g [] busy
  obtain ⟨-, -, hdivision, -⟩ := evaluate_blames g [] few
  obtain ⟨-, -, -, hchecked⟩ := evaluate_blames g [("y", 3)] sold
  exact ⟨⟨hsum, hname "x" hsum⟩, ⟨hbusy, (hrange .day 3 2 hbusy).2.2⟩, ⟨hfew, hdivision hfew⟩, hsold, hchecked hsold "y"⟩

end GridQuery
