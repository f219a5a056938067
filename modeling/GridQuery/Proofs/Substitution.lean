/-
  GridQuery.Proofs.Substitution — putting an expression where a name stands.

  `e.subst x r` is `e` with `r` wherever `x` stands free. Nothing is renamed on the way, so a binder
  in `e` must not catch a name of `r`. Where none of these names stands in `e`, evaluating what
  it gives is evaluating `e` with `x` bound to the value of `r` (`eval_subst`, by induction on
  `e`). Under a binder of another name the two bindings are pushed the other way round, and
  under one of the same name the outer binding is hidden; neither shows in a lookup, and a
  result depends on lookups alone.

  Two laws are cases of this:
  - a literal has no names to be caught, so binding a name to a number is writing the number in
    its place, and a loop over elements evaluates its body's instances (`binding_substitutes`);
  - a name that stands nowhere in a body can take the place of the one bound around it
    (`binder_renames`).
-/

import GridQuery.Proofs.Scope

namespace GridQuery

open Query Query.Run

namespace Bindings

variable (b : Bindings) (x y z : String) (m n : Int32)

/-- An older binding of a name is hidden by a newer one. -/
theorem lookup_push_hidden : ((b.push x m).push x n).lookup z = (b.push x n).lookup z := by
  rw [lookup_push, lookup_push, lookup_push]
  by_cases hz : z = x <;> simp [hz]

/-- Bindings of two names may be pushed in either order. -/
theorem lookup_push_comm (hxy : x ≠ y) :
    ((b.push x m).push y n).lookup z = ((b.push y n).push x m).lookup z := by
  rw [lookup_push, lookup_push, lookup_push, lookup_push]
  by_cases hzx : z = x
  · have hzy : z ≠ y := by
      intro h
      exact hxy (hzx.symm.trans h)
    rw [if_neg hzy, if_pos hzx, if_pos hzx]
  · rw [if_neg hzx, if_neg hzx]

end Bindings

namespace Expr

/-- An expression with `r` wherever `x` stands free in it. -/
def subst : {c : Category} → Expr c → (x : String) → (r : Expr .numeric) → Expr c
  | _, .literal n, _, _ => .literal n
  | _, .var name, x, r => if name = x then r else .var name
  | _, .productTotal p, x, r => .productTotal (p.subst x r)
  | _, .dayTotal d, x, r => .dayTotal (d.subst x r)
  | _, .total, _, _ => .total
  | _, .figure p d, x, r => .figure (p.subst x r) (d.subst x r)
  | _, .size s, x, r => .size (s.subst x r)
  | _, .elements k, _, _ => .elements k
  | _, .comprehension k y p, x, r => .comprehension k y (if y = x then p else p.subst x r)
  | _, .not f, x, r => .not (f.subst x r)
  | _, .quantified q y k f, x, r => .quantified q y k (if y = x then f else f.subst x r)
  | _, .binary op l r', x, r => .binary op (l.subst x r) (r'.subst x r)

/-- The names that stand anywhere in an expression, where they are used and where they are bound. -/
def names : {c : Category} → Expr c → List String
  | _, .literal _ => []
  | _, .var name => [name]
  | _, .productTotal p => p.names
  | _, .dayTotal d => d.names
  | _, .total => []
  | _, .figure p d => p.names ++ d.names
  | _, .size s => s.names
  | _, .elements _ => []
  | _, .comprehension _ y p => y :: p.names
  | _, .not f => f.names
  | _, .quantified _ y _ f => y :: f.names
  | _, .binary _ l r => l.names ++ r.names

theorem mem_names_of_mem_free {c : Category} {e : Expr c} {z : String} (h : z ∈ e.free) : z ∈ e.names := by
  induction e with
  | literal n => cases h
  | var name => exact List.mem_singleton.mpr (mem_free_var.mp h)
  | productTotal p ih => exact ih h
  | dayTotal d ih => exact ih h
  | total => cases h
  | figure p d ihp ihd =>
    rcases mem_free_figure.mp h with h | h
    · exact List.mem_append_left _ (ihp h)
    · exact List.mem_append_right _ (ihd h)
  | size s ih => exact ih h
  | elements k => cases h
  | comprehension k y p ih => exact List.mem_cons_of_mem _ (ih (mem_free_comprehension.mp h).1)
  | not f ih => exact ih h
  | quantified q y k f ih => exact List.mem_cons_of_mem _ (ih (mem_free_quantified.mp h).1)
  | binary op l r ihl ihr =>
    rcases mem_free_binary.mp h with h | h
    · exact List.mem_append_left _ (ihl h)
    · exact List.mem_append_right _ (ihr h)

/-! ## The value after a substitution -/

section

variable {g : Grid} {x y : String} {r : Expr .numeric} {n : Int32}

/-- The body of a binder of `y`, if the law holds of it by itself. -/
theorem eval_subst_body {p : Expr .formula} {b : Bindings} (hr : (r.eval g).result b = .ok n) (hy : ¬ y ∈ r.free)
    (ih : ∀ {b : Bindings}, (r.eval g).result b = .ok n →
      ((p.subst x r).eval g).result b = (p.eval g).result (b.push x n)) (m : Int32) :
    ((if y = x then p else p.subst x r).eval g).result (b.push y m) = (p.eval g).result ((b.push x n).push y m) := by
  by_cases hyx : y = x
  -- The substitution goes no further, and the binding of `x` is hidden.
  · subst hyx
    rw [if_pos rfl]
    exact p.eval_congr g fun z _ => (b.lookup_push_hidden y z n m).symm
  -- `r` has the same value under the binder, because `y` is no name of it.
  · have hkept : (r.eval g).result (b.push y m) = .ok n := by
      rw [← hr]
      apply r.eval_congr g
      intro z hz
      have hzy : z ≠ y := by
        intro h
        exact hy (h ▸ hz)
      rw [Bindings.lookup_push, if_neg hzy]
    rw [if_neg hyx, ih hkept]
    exact p.eval_congr g fun z _ => b.lookup_push_comm y x z m n hyx

/-- An expression in which no name of `r` stands comes with `r` in the place of `x` to what it comes to
    with `x` bound to the value of `r`. -/
theorem eval_subst {c : Category} (e : Expr c) {b : Bindings} (hr : (r.eval g).result b = .ok n)
    (hnames : ∀ y ∈ r.free, ¬ y ∈ e.names) : ((e.subst x r).eval g).result b = (e.eval g).result (b.push x n) := by
  induction e generalizing b with
  | literal m => rfl
  | var name =>
    rw [result_var, meant, Bindings.lookup_push, subst]
    by_cases hx : name = x
    · rw [if_pos hx, if_pos hx, hr]
    · rw [if_neg hx, if_neg hx, result_var, meant]
  | productTotal p ih => rw [subst, result_productTotal, result_productTotal, ih hr hnames]
  | dayTotal d ih => rw [subst, result_dayTotal, result_dayTotal, ih hr hnames]
  | total => rfl
  | figure p d ihp ihd =>
    have hp := ihp hr fun y hy h => hnames y hy (List.mem_append_left _ h)
    have hd := ihd hr fun y hy h => hnames y hy (List.mem_append_right _ h)
    rw [subst, result_figure, result_figure, hp, hd]
  | size s ih => rw [subst, result_size, result_size, ih hr hnames]
  | elements k => rfl
  | comprehension k y p ih =>
    have hy : ¬ y ∈ r.free := fun h => hnames y h List.mem_cons_self
    have hp := eval_subst_body hr hy fun h => ih h fun z hz hmem => hnames z hz (List.mem_cons_of_mem _ hmem)
    rw [subst, result_comprehension, result_comprehension, funext hp]
  | not f ih => rw [subst, result_not, result_not, ih hr hnames]
  | quantified q y k f ih =>
    have hy : ¬ y ∈ r.free := fun h => hnames y h List.mem_cons_self
    have hf := eval_subst_body hr hy fun h => ih h fun z hz hmem => hnames z hz (List.mem_cons_of_mem _ hmem)
    rw [subst, result_quantified, result_quantified, funext hf]
  | binary op l r' ihl ihr =>
    have hl := ihl hr fun y hy h => hnames y hy (List.mem_append_left _ h)
    have hr' := ihr hr fun y hy h => hnames y hy (List.mem_append_right _ h)
    rw [subst, result_binary, result_binary, hl, hr']

/-! ## The names after a substitution -/

variable {z : String}

/-- The names that a binder of `y` leaves free, if the law holds of its body by itself. -/
theorem mem_free_subst_body {p : Expr .formula} (hy : ¬ y ∈ r.free)
    (ih : z ∈ (p.subst x r).free ↔ z ∈ p.free ∧ z ≠ x ∨ x ∈ p.free ∧ z ∈ r.free) :
    z ∈ (if y = x then p else p.subst x r).free ∧ z ≠ y ↔
      (z ∈ p.free ∧ z ≠ y) ∧ z ≠ x ∨ (x ∈ p.free ∧ x ≠ y) ∧ z ∈ r.free := by
  by_cases hyx : y = x
  · subst hyx
    simp
  · have hxy : x ≠ y := fun h => hyx h.symm
    rw [if_neg hyx, ih]
    constructor
    · intro ⟨h, hzy⟩
      rcases h with ⟨hp, hzx⟩ | ⟨hx, hr⟩
      · exact .inl ⟨⟨hp, hzy⟩, hzx⟩
      · exact .inr ⟨⟨hx, hxy⟩, hr⟩
    · intro h
      rcases h with ⟨⟨hp, hzy⟩, hzx⟩ | ⟨⟨hx, -⟩, hr⟩
      · exact ⟨.inl ⟨hp, hzx⟩, hzy⟩
      · refine ⟨.inr ⟨hx, hr⟩, ?_⟩
        intro hzy
        exact hy (hzy ▸ hr)

/-- With `r` in the place of `x`, the names of `r` are free where `x` was. -/
theorem mem_free_subst {c : Category} (e : Expr c) (hnames : ∀ y ∈ r.free, ¬ y ∈ e.names) :
    z ∈ (e.subst x r).free ↔ z ∈ e.free ∧ z ≠ x ∨ x ∈ e.free ∧ z ∈ r.free := by
  have none {c : Category} {e : Expr c} (h : ∀ y, ¬ y ∈ e.free) :
      z ∈ e.free ↔ z ∈ e.free ∧ z ≠ x ∨ x ∈ e.free ∧ z ∈ r.free := by
    simp [h]
  induction e with
  | literal m => exact none nofun
  | var name =>
    rw [subst, mem_free_var, mem_free_var]
    by_cases hx : name = x
    · subst hx
      simp
    · have hxn : x ≠ name := fun h => hx h.symm
      rw [if_neg hx, mem_free_var]
      constructor
      · intro hz
        exact .inl ⟨hz, fun h => hx (hz.symm.trans h)⟩
      · intro h
        rcases h with ⟨hz, -⟩ | ⟨hz, -⟩
        · exact hz
        · exact absurd hz hxn
  | productTotal p ih => exact ih hnames
  | dayTotal d ih => exact ih hnames
  | total => exact none nofun
  | figure p d ihp ihd =>
    have hp := ihp fun y hy h => hnames y hy (List.mem_append_left _ h)
    have hd := ihd fun y hy h => hnames y hy (List.mem_append_right _ h)
    rw [subst, mem_free_figure, mem_free_figure, mem_free_figure, or_and_right, or_and_right, or_or_or_comm]
    exact or_congr hp hd
  | size s ih => exact ih hnames
  | elements k => exact none nofun
  | comprehension k y p ih =>
    have hy : ¬ y ∈ r.free := fun h => hnames y h List.mem_cons_self
    have hp := ih fun z hz hmem => hnames z hz (List.mem_cons_of_mem _ hmem)
    rw [subst, mem_free_comprehension, mem_free_comprehension, mem_free_comprehension]
    exact mem_free_subst_body hy hp
  | not f ih => exact ih hnames
  | quantified q y k f ih =>
    have hy : ¬ y ∈ r.free := fun h => hnames y h List.mem_cons_self
    have hf := ih fun z hz hmem => hnames z hz (List.mem_cons_of_mem _ hmem)
    rw [subst, mem_free_quantified, mem_free_quantified, mem_free_quantified]
    exact mem_free_subst_body hy hf
  | binary op l r' ihl ihr =>
    have hl := ihl fun y hy h => hnames y hy (List.mem_append_left _ h)
    have hr := ihr fun y hy h => hnames y hy (List.mem_append_right _ h)
    rw [subst, mem_free_binary, mem_free_binary, mem_free_binary, or_and_right, or_and_right, or_or_or_comm]
    exact or_congr hl hr

end

/-! ## A name for another -/

section

variable {v w : String} {f : Expr .formula}

theorem not_mem_names_of_mem_free_var (hw : ¬ w ∈ f.names) : ∀ y ∈ (var w).free, ¬ y ∈ f.names := by
  intro y hy
  rw [mem_free_var.mp hy]
  exact hw

/-- With `w` for `v` in a body, binding `w` does what binding `v` did. -/
theorem eval_rename (g : Grid) (b : Bindings) (hw : ¬ w ∈ f.names) (m : Int32) :
    ((f.subst v (.var w)).eval g).result (b.push w m) = (f.eval g).result (b.push v m) := by
  have hvalue : ((var w).eval g).result (b.push w m) = .ok m := by
    rw [result_var, meant, Bindings.lookup_push, if_pos rfl]
  rw [eval_subst f hvalue (not_mem_names_of_mem_free_var hw)]
  -- What is left of the new name is a binding under that of `v`, and the body does not look for it.
  apply f.eval_congr g
  intro z hz
  have hzw : z ≠ w := by
    intro h
    exact hw (h ▸ mem_names_of_mem_free hz)
  rw [Bindings.lookup_push, Bindings.lookup_push, Bindings.lookup_push, if_neg hzw]

theorem mem_free_rename (hw : ¬ w ∈ f.names) (z : String) :
    z ∈ (f.subst v (.var w)).free ∧ z ≠ w ↔ z ∈ f.free ∧ z ≠ v := by
  rw [mem_free_subst f (not_mem_names_of_mem_free_var hw), mem_free_var]
  constructor
  · intro ⟨h, hzw⟩
    rcases h with h | ⟨-, hz⟩
    · exact h
    · exact absurd hz hzw
  · intro h
    refine ⟨.inl h, ?_⟩
    intro hzw
    exact hw (hzw ▸ mem_names_of_mem_free h.1)

end

end Expr

/-! ## The two laws -/

/-- Within a binding of a name to a number, an expression comes to what it comes to without it when
    the number stands wherever the name was free: to the same value, or to the same error. So the
    loops of quantifiers and comprehensions test, one element after another, the instance of the
    body with that element in the place of the name. -/
theorem binding_substitutes (g : Grid) (b : Bindings) :
    (∀ {c : Category} (e : Expr c) (x : String) (n : Int32),
        (Run.withBinding x n (e.eval g)).result b = ((e.subst x (.literal n)).eval g).result b) ∧
      (∀ (q : Quantifier) (x : String) (k : Kind) (f : Expr .formula),
        ((Expr.quantified q x k f).eval g).result b =
          settled q (fun n => ((f.subst x (.literal n)).eval g).result b) (g.elements k).toList) ∧
      ∀ (k : Kind) (x : String) (p : Expr .formula),
        ((Expr.comprehension k x p).eval g).result b =
          (kept (fun n => ((p.subst x (.literal n)).eval g).result b) (g.elements k).toList).map .ofList := by
  have hinstance {c : Category} (e : Expr c) (x : String) (n : Int32) :
      ((e.subst x (.literal n)).eval g).result b = (e.eval g).result (b.push x n) :=
    Expr.eval_subst e (Expr.result_literal b n) fun _ h => nomatch h
  refine ⟨?_, ?_, ?_⟩
  · intro c e x n
    rw [result_withBinding, hinstance]
  · intro q x k f
    rw [Expr.result_quantified, funext (hinstance f x)]
  · intro k x p
    rw [Expr.result_comprehension, funext (hinstance p x)]

/-- A quantifier or a comprehension may bind any other name instead of its own that stands nowhere in
    its body, put there wherever its own was free. It comes to the same value or the same error,
    also where one of the two names or both are bound outside, and asks for the same names. -/
theorem binder_renames (g : Grid) (b : Bindings) {v w : String} {f : Expr .formula} (k : Kind) (hw : ¬ w ∈ f.names) :
    (∀ q : Quantifier,
        ((Expr.quantified q w k (f.subst v (.var w))).eval g).result b = ((Expr.quantified q v k f).eval g).result b ∧
          (Expr.quantified q w k (f.subst v (.var w))).free = (Expr.quantified q v k f).free) ∧
      ((Expr.comprehension k w (f.subst v (.var w))).eval g).result b = ((Expr.comprehension k v f).eval g).result b ∧
      (Expr.comprehension k w (f.subst v (.var w))).free = (Expr.comprehension k v f).free := by
  have hbody := funext (Expr.eval_rename (v := v) g b hw)
  refine ⟨fun q => ⟨?_, ?_⟩, ?_, ?_⟩
  · rw [Expr.result_quantified, Expr.result_quantified, hbody]
  · apply Ascending.ext
    intro z
    rw [Expr.mem_free_quantified, Expr.mem_free_quantified, Expr.mem_free_rename hw]
  · rw [Expr.result_comprehension, Expr.result_comprehension, hbody]
  · apply Ascending.ext
    intro z
    rw [Expr.mem_free_comprehension, Expr.mem_free_comprehension, Expr.mem_free_rename hw]

-- Both names are bound outside, and the old one once more inside the body.
theorem binder_renames_shadowed :
    let g : Grid := ⟨[[5, 2], [1, 3]], by decide⟩
    let b : Bindings := [("e", 9), ("d", 7), ("x", 5)]
    let f : Expr .formula := .binary .and (.binary .gt (.dayTotal (.var "d")) (.literal 4))
      (.quantified .forSome "d" .day (.binary .gt (.dayTotal (.var "d")) (.var "x")))
    let f' : Expr .formula := .binary .and (.binary .gt (.dayTotal (.var "e")) (.literal 4))
      (.quantified .forSome "d" .day (.binary .gt (.dayTotal (.var "d")) (.var "x")))
    ¬ "e" ∈ f.names ∧ f.subst "d" (.var "e") = f' ∧
      ((Expr.quantified .forAll "e" .day f').eval g).result b = ((Expr.quantified .forAll "d" .day f).eval g).result b ∧
      ((Expr.comprehension .day "e" f').eval g).result b = ((Expr.comprehension .day "d" f).eval g).result b ∧
      (Expr.comprehension .day "e" f').free = (Expr.comprehension .day "d" f).free := by
  intro g b f f'
  have hw : ¬ "e" ∈ f.names := by decide
  obtain ⟨hquantified, hcomprehension, hfree⟩ := binder_renames g b (v := "d") .day hw
  exact ⟨hw, rfl, (hquantified .forAll).1, hcomprehension, hfree⟩

end GridQuery
