/-
  GridQuery.Proofs.Evaluation — what evaluating an expression comes to.

  Evaluating is steady for every expression (`eval_steady`, by induction on the expression:
  each node puts together the steady runs of its parts). So no evaluation leaves a trace in the
  bindings, however it ends (`evaluation_restores_bindings`), and the result of a node follows
  from the results of its parts under bindings that can be written down: one equation a node,
  which is all that other proofs know of `eval`.
-/

import GridQuery.Proofs.Run

namespace GridQuery

open Query Query.Run

namespace Expr

instance eval_steady (g : Grid) {c : Category} (e : Expr c) : Steady (e.eval g) := by
  induction e <;> (unfold eval; infer_instance)

-- The same for the type that a known category's values have.
instance (g : Grid) (e : Expr .numeric) : Steady (e.eval g) := eval_steady g e
instance (g : Grid) (e : Expr .set) : Steady (e.eval g) := eval_steady g e
instance (g : Grid) (e : Expr .formula) : Steady (e.eval g) := eval_steady g e

/-! ## One equation a node -/

variable {g : Grid} (b : Bindings)

theorem result_literal (n : Int32) : ((literal n).eval g).result b = .ok n := result_pure n b

theorem result_var (name : String) : ((var name).eval g).result b = meant name b := result_lookup name b

theorem result_productTotal (p : Expr .numeric) :
    ((productTotal p).eval g).result b =
      (p.eval g).result b >>= fun i => (g.position .product i).map g.productTotal := by
  simp only [eval, result_bind, result_pure, result_lift]
  refine congrArg _ (funext fun i => ?_)
  cases g.position .product i <;> rfl

theorem result_dayTotal (d : Expr .numeric) :
    ((dayTotal d).eval g).result b =
      (d.eval g).result b >>= fun i => (g.position .day i).map g.dayTotal := by
  simp only [eval, result_bind, result_pure, result_lift]
  refine congrArg _ (funext fun i => ?_)
  cases g.position .day i <;> rfl

theorem result_total : (total.eval g).result b = .ok g.total := result_pure g.total b

theorem result_figure (p d : Expr .numeric) :
    ((figure p d).eval g).result b =
      (p.eval g).result b >>= fun i => (d.eval g).result b >>= fun j =>
        g.position .product i >>= fun i => (g.position .day j).map (g.figure i) := by
  simp only [eval, result_bind, result_pure, result_lift]
  refine congrArg _ (funext fun i => congrArg _ (funext fun j => congrArg _ (funext fun i => ?_)))
  cases g.position .day j <;> rfl

theorem result_size (s : Expr .set) :
    ((size s).eval g).result b = ((s.eval g).result b).map Ascending.size32 := by
  simp only [eval, result_bind, result_pure]
  cases (s.eval g).result b <;> rfl

theorem result_elements (k : Kind) : ((elements k).eval g).result b = .ok (g.elements k) := result_pure _ b

theorem result_comprehension (k : Kind) (x : String) (p : Expr .formula) :
    ((comprehension k x p).eval g).result b =
      (kept (fun n => (p.eval g).result (b.push x n)) (g.elements k).toList).map .ofList := by
  simp only [eval, result_bind, result_keep, result_pure]
  cases kept _ _ <;> rfl

theorem result_not (f : Expr .formula) :
    ((not f).eval g).result b = ((f.eval g).result b).map Bool.not := by
  simp only [eval, result_bind, result_pure]
  cases (f.eval g).result b <;> rfl

theorem result_quantified (q : Quantifier) (x : String) (k : Kind) (f : Expr .formula) :
    ((quantified q x k f).eval g).result b =
      settled q (fun n => (f.eval g).result (b.push x n)) (g.elements k).toList :=
  result_settle x (f.eval g) q _ b

theorem result_binary {a c : Category} (op : Operator a c) (l r : Expr a) :
    ((binary op l r).eval g).result b =
      (l.eval g).result b >>= fun l => (r.eval g).result b >>= fun r => op.apply l r := by
  simp only [eval, result_bind, result_lift]

/-! ## Once the results of the parts are known -/

variable {b}

theorem result_size_of_ok {e : Expr .set} {s : Ascending Int32} (h : (e.eval g).result b = .ok s) :
    ((size e).eval g).result b = .ok s.size32 := by
  rw [result_size, h]
  rfl

theorem result_size_of_error {s : Expr .set} {e : Error} (h : (s.eval g).result b = .error e) :
    ((size s).eval g).result b = .error e := by
  rw [result_size, h]
  rfl

variable {a c : Category} {l r : Expr a}

theorem result_binary_of_ok {op : Operator a c} {v w : a.Carrier} (hl : (l.eval g).result b = .ok v)
    (hr : (r.eval g).result b = .ok w) : ((binary op l r).eval g).result b = op.apply v w := by
  rw [result_binary, hl, hr, ok_bind, ok_bind]

/-- Whatever the operator, it fails as its operands do, one after the other. -/
theorem result_binary_of_error (op : Operator a c) {e : Error}
    (h : ((l.eval g).result b >>= fun _ => (r.eval g).result b) = .error e) :
    ((binary op l r).eval g).result b = .error e := by
  rw [result_binary]
  rcases bind_eq_error.mp h with hl | ⟨v, hl, hr⟩
  · rw [hl, error_bind]
  · rw [hl, hr, ok_bind, error_bind]

end Expr

namespace Query

instance evaluate_steady (g : Grid) (q : Query) : Steady (q.evaluate g) := by
  unfold evaluate
  infer_instance

theorem result_evaluate (g : Grid) (q : Query) (b : Bindings) :
    (q.evaluate g).result b = ((q.expr.eval g).result b).map Value.of := by
  simp only [evaluate, result_bind, result_report, result_pure]
  cases (q.expr.eval g).result b <;> rfl

end Query

/-- Evaluating gives the bindings back as it took them, whether it ends in a value or an error,
    and whatever was bound: a query as a whole, and an expression of any category. -/
theorem evaluation_restores_bindings (g : Grid) (b : Bindings) :
    (∀ q : Query, ((q.evaluate g).outcome b).bindings = b) ∧
      ∀ {c : Category} (e : Expr c), ((e.eval g).outcome b).bindings = b :=
  ⟨fun _ => outcome_bindings _ b, fun _ => outcome_bindings _ b⟩

end GridQuery
