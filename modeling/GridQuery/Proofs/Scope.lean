/-
  GridQuery.Proofs.Scope — the names that a query asks of its surroundings.

  Which names are free is said once for each node (`mem_free_comprehension` and its like): a
  binder takes its own name away from those of its body, and every other node has the names of
  its parts. No order and no list of bound names is left in that.

  A result depends on the bindings through the free names only (`eval_congr`, by induction on
  the expression). Under a binder the bindings of both runs are pushed alike, so they agree on
  its name whatever they said of it before.
-/

import GridQuery.Proofs.Evaluation
import GridQuery.Query.Scope

namespace GridQuery

open Query Query.Run

namespace Expr

/-! ## Free names -/

/-- Leaving bound names out on the way comes to the same as taking them away at the end. -/
theorem mem_namesOutside {c : Category} (e : Expr c) (bound : List String) (n : String) :
    n ∈ e.namesOutside bound ↔ n ∈ e.namesOutside [] ∧ ¬ n ∈ bound := by
  induction e generalizing bound with
  | literal m => simp [namesOutside]
  | var name =>
    by_cases hb : name ∈ bound
    · have hn : n = name → n ∈ bound := by
        intro h
        rw [h]
        exact hb
      simpa [namesOutside, hb] using hn
    · have hn : n = name → ¬ n ∈ bound := by
        intro h
        rw [h]
        exact hb
      simpa [namesOutside, hb] using hn
  | productTotal p ih => exact ih bound
  | dayTotal d ih => exact ih bound
  | total => simp [namesOutside]
  | figure p d ihp ihd =>
    simp only [namesOutside, List.mem_append]
    rw [ihp bound, ihd bound, or_and_right]
  | size s ih => exact ih bound
  | elements k => simp [namesOutside]
  | comprehension k x p ih =>
    simp only [namesOutside]
    rw [ih (x :: bound), ih [x]]
    simp [and_assoc]
  | not f ih => exact ih bound
  | quantified q x k f ih =>
    simp only [namesOutside]
    rw [ih (x :: bound), ih [x]]
    simp [and_assoc]
  | binary op l r ihl ihr =>
    simp only [namesOutside, List.mem_append]
    rw [ihl bound, ihr bound, or_and_right]

theorem mem_free {c : Category} {e : Expr c} {n : String} : n ∈ e.free ↔ n ∈ e.namesOutside [] := Ascending.mem_ofList

variable {n : String}

theorem mem_free_var {name : String} : n ∈ (var name).free ↔ n = name := by
  simp [mem_free, namesOutside]

theorem mem_free_productTotal {p : Expr .numeric} : n ∈ (productTotal p).free ↔ n ∈ p.free := Iff.rfl

theorem mem_free_dayTotal {d : Expr .numeric} : n ∈ (dayTotal d).free ↔ n ∈ d.free := Iff.rfl

theorem mem_free_figure {p d : Expr .numeric} : n ∈ (figure p d).free ↔ n ∈ p.free ∨ n ∈ d.free := by
  simp only [mem_free, namesOutside, List.mem_append]

theorem mem_free_size {s : Expr .set} : n ∈ (size s).free ↔ n ∈ s.free := Iff.rfl

theorem mem_free_comprehension {k : Kind} {x : String} {p : Expr .formula} :
    n ∈ (comprehension k x p).free ↔ n ∈ p.free ∧ n ≠ x := by
  rw [mem_free, namesOutside, mem_namesOutside, ← mem_free, List.mem_singleton]

theorem mem_free_not {f : Expr .formula} : n ∈ (not f).free ↔ n ∈ f.free := Iff.rfl

theorem mem_free_quantified {q : Quantifier} {x : String} {k : Kind} {f : Expr .formula} :
    n ∈ (quantified q x k f).free ↔ n ∈ f.free ∧ n ≠ x := by
  rw [mem_free, namesOutside, mem_namesOutside, ← mem_free, List.mem_singleton]

theorem mem_free_binary {a c : Category} {op : Operator a c} {l r : Expr a} :
    n ∈ (binary op l r).free ↔ n ∈ l.free ∨ n ∈ r.free := by
  simp only [mem_free, namesOutside, List.mem_append]

end Expr

/-! ## What a result depends on -/

theorem meant_congr {name : String} {b b' : Bindings} (h : b.lookup name = b'.lookup name) :
    meant name b = meant name b' := by
  unfold meant
  rw [h]

/-- Pushed alike, bindings that agree on all names but one agree on that one too. -/
theorem lookup_push_congr {names : String → Prop} {b b' : Bindings} {x : String}
    (h : ∀ n, names n ∧ n ≠ x → b.lookup n = b'.lookup n) (m : Int32) (n : String) (hn : names n) :
    (b.push x m).lookup n = (b'.push x m).lookup n := by
  rw [Bindings.lookup_push, Bindings.lookup_push]
  by_cases hx : n = x
  · rw [if_pos hx, if_pos hx]
  · rw [if_neg hx, if_neg hx]
    exact h n ⟨hn, hx⟩

theorem Expr.eval_congr (g : Grid) {c : Category} (e : Expr c) {b b' : Bindings}
    (h : ∀ n ∈ e.free, b.lookup n = b'.lookup n) : (e.eval g).result b = (e.eval g).result b' := by
  induction e generalizing b b' with
  | literal m => rfl
  | var name =>
    rw [result_var, result_var]
    exact meant_congr (h name (mem_free_var.mpr rfl))
  | productTotal p ih => rw [result_productTotal, result_productTotal, ih h]
  | dayTotal d ih => rw [result_dayTotal, result_dayTotal, ih h]
  | total => rfl
  | figure p d ihp ihd =>
    have hp := ihp fun n hn => h n (mem_free_figure.mpr (.inl hn))
    have hd := ihd fun n hn => h n (mem_free_figure.mpr (.inr hn))
    rw [result_figure, result_figure, hp, hd]
  | size s ih => rw [result_size, result_size, ih h]
  | elements k => rfl
  | comprehension k x p ih =>
    have hp (m : Int32) : (p.eval g).result (b.push x m) = (p.eval g).result (b'.push x m) :=
      ih (lookup_push_congr (fun n hn => h n (mem_free_comprehension.mpr hn)) m)
    rw [result_comprehension, result_comprehension, funext hp]
  | not f ih => rw [result_not, result_not, ih h]
  | quantified q x k f ih =>
    have hf (m : Int32) : (f.eval g).result (b.push x m) = (f.eval g).result (b'.push x m) :=
      ih (lookup_push_congr (fun n hn => h n (mem_free_quantified.mpr hn)) m)
    rw [result_quantified, result_quantified, funext hf]
  | binary op l r ihl ihr =>
    have hl := ihl fun n hn => h n (mem_free_binary.mpr (.inl hn))
    have hr := ihr fun n hn => h n (mem_free_binary.mpr (.inr hn))
    rw [result_binary, result_binary, hl, hr]

/-- Under bindings that agree on its free names a query comes to one value, or to one error. What
    else is bound, in which order and how often, does not matter; and without free names nothing
    that is bound does. -/
theorem evaluate_coincides (g : Grid) (q : Query) :
    (∀ b b' : Bindings, (∀ n ∈ q.free, b.lookup n = b'.lookup n) →
        (q.evaluate g).result b = (q.evaluate g).result b') ∧
      (q.free = .empty → ∀ b : Bindings, (q.evaluate g).result b = (q.evaluate g).result []) := by
  have hcongr (b b' : Bindings) (h : ∀ n ∈ q.free, b.lookup n = b'.lookup n) :
      (q.evaluate g).result b = (q.evaluate g).result b' := by
    rw [result_evaluate, result_evaluate, q.expr.eval_congr g h]
  refine ⟨hcongr, fun hfree b => hcongr b [] fun n hn => ?_⟩
  rw [hfree] at hn
  exact absurd hn (Ascending.not_mem_empty n)

-- The name free in the query is bound alike. The one bound in it is not, outside.
theorem evaluate_coincides_shadowed :
    let g : Grid := ⟨[[5, 2], [1, 3]], by decide⟩
    let q : Query := ⟨.formula, .quantified .forSome "d" .day (.binary .eq (.var "d") (.var "x"))⟩
    (q.evaluate g).result [("x", 2), ("d", 7), ("x", 9)] = (q.evaluate g).result [("d", 1), ("x", 2)] := by
  intro g q
  obtain ⟨hagree, -⟩ := evaluate_coincides g q
  refine hagree [("x", 2), ("d", 7), ("x", 9)] [("d", 1), ("x", 2)] fun n hn => ?_
  obtain ⟨hbody, hd⟩ := Expr.mem_free_quantified.mp hn
  rcases Expr.mem_free_binary.mp hbody with hl | hr
  · exact absurd (Expr.mem_free_var.mp hl) hd
  · rw [Expr.mem_free_var.mp hr]
    rfl

end GridQuery
