/-
  GridQuery.Proofs.Logic — laws of logic that hold for results.

  A formula comes to a truth value or to an error, and two formulas that have the same truth value by
  a law of logic come to the same error as well (`Restates`, `eval_restates`). There are two reasons:
  - a connective evaluates its left operand and then its right one, whatever comes out, so it is a
    truth function between two results (`both`), of which the first error wins. An operand that
    the other side of a law evaluates once more fails there no earlier;
  - a quantifier and its dual stop at the same element, one for a body and one for its negation
    (`stopsAt_dual`).

  Formulas that come to the same result under all bindings can stand for each other in any place of a
  larger expression (`eval_fill_congr`, by induction on the place), also inside binders that catch
  names of theirs. So a law may be used anywhere in a query (`restating_keeps_result`).
-/

import GridQuery.Proofs.Evaluation

namespace GridQuery

open Query Query.Run

/-! ## Opposites -/

def Quantifier.dual : Quantifier → Quantifier
  | .forSome => .forAll
  | .forAll => .forSome

theorem Quantifier.decisive_dual (q : Quantifier) : q.dual.decisive = !q.decisive := by
  cases q <;> rfl

/-- The relation that holds exactly where the other does not. -/
def Operator.complement : Operator .numeric .formula → Operator .numeric .formula
  | .eq => .ne
  | .ne => .eq
  | .lt => .ge
  | .ge => .lt
  | .le => .gt
  | .gt => .le

theorem Operator.apply_complement (op : Operator .numeric .formula) (l r : Int32) :
    op.complement.apply l r = (op.apply l r).map Bool.not := by
  cases op <;> simp only [complement, apply, Except.map, ← decide_not, ne_eq, Decidable.not_not, Int32.not_lt, Int32.not_le]

/-- The truth function of a connective. -/
def Operator.truth : Operator .formula .formula → Bool → Bool → Bool
  | .and, l, r => l && r
  | .or, l, r => l || r
  | .implies, l, r => !l || r
  | .equiv, l, r => l == r

theorem Operator.apply_connective (op : Operator .formula .formula) (l r : Bool) :
    op.apply l r = .ok (op.truth l r) := by
  cases op <;> rfl

namespace Query.Run

/-! ## Two results and a truth function -/

/-- A truth function of two results, or the error of the first that is one. -/
def both (f : Bool → Bool → Bool) (x y : Except Error Bool) : Except Error Bool := do
  let l ← x
  let r ← y
  .ok (f l r)

variable {f h k : Bool → Bool → Bool} {x y : Except Error Bool}

theorem map_both (n : Bool → Bool) : (both f x y).map n = both (fun l r => n (f l r)) x y := by
  cases x with
  | error e => rfl
  | ok l => cases y <;> rfl

theorem both_map_left (n : Bool → Bool) : both f (x.map n) y = both (fun l r => f (n l) r) x y := by
  cases x <;> rfl

theorem both_map_right (n : Bool → Bool) : both f x (y.map n) = both (fun l r => f l (n r)) x y := by
  cases x with
  | error e => rfl
  | ok l => cases y <;> rfl

/-- Looking at both results a second time, in whatever order, brings up no other error. -/
theorem both_both : both f (both h x y) (both k y x) = both (fun l r => f (h l r) (k r l)) x y := by
  cases x with
  | error e => rfl
  | ok l => cases y <;> rfl

/-! ## A quantifier and its dual -/

theorem stopsAt_dual (q : Quantifier) (o : Except Error Bool) : stopsAt q.dual (o.map Bool.not) = stopsAt q o := by
  cases o with
  | error e => rfl
  | ok t => cases q <;> cases t <;> rfl

theorem settled_dual (q : Quantifier) (test : Int32 → Except Error Bool) (xs : List Int32) :
    settled q.dual (fun n => (test n).map Bool.not) xs = (settled q test xs).map Bool.not := by
  rw [settled_eq_find?, settled_eq_find?, Quantifier.decisive_dual]
  simp only [stopsAt_dual]
  cases xs.find? fun n => stopsAt q (test n) <;> rfl

end Query.Run

/-! ## The laws -/

/-- The second formula says what the first does, by one of the laws of logic. -/
inductive Restates : Expr .formula → Expr .formula → Prop
  /-- Not for some is for all not, and not for all is for some not. -/
  | notQuantified (q : Quantifier) (v : String) (k : Kind) (a : Expr .formula) :
      Restates (.not (.quantified q v k a)) (.quantified q.dual v k (.not a))
  | notAnd (a b : Expr .formula) : Restates (.not (.binary .and a b)) (.binary .or (.not a) (.not b))
  | notOr (a b : Expr .formula) : Restates (.not (.binary .or a b)) (.binary .and (.not a) (.not b))
  | implies (a b : Expr .formula) : Restates (.binary .implies a b) (.binary .or (.not a) b)
  | equiv (a b : Expr .formula) :
      Restates (.binary .equiv a b) (.binary .and (.binary .implies a b) (.binary .implies b a))
  | notRelation (op : Operator .numeric .formula) (l r : Expr .numeric) :
      Restates (.not (.binary op l r)) (.binary op.complement l r)

namespace Expr

variable {g : Grid} (b : Bindings)

theorem result_connective (op : Operator .formula .formula) (l r : Expr .formula) :
    ((binary op l r).eval g).result b = both op.truth ((l.eval g).result b) ((r.eval g).result b) := by
  rw [result_binary]
  exact congrArg _ (funext fun l => congrArg _ (funext fun r => op.apply_connective l r))

theorem result_not_quantified (q : Quantifier) (v : String) (k : Kind) (a : Expr .formula) :
    ((Expr.not (quantified q v k a)).eval g).result b = ((quantified q.dual v k (Expr.not a)).eval g).result b := by
  have hnot (n : Int32) := result_not (g := g) (b.push v n) a
  rw [result_not, result_quantified, result_quantified, ← settled_dual, funext hnot]

/-- A negation goes to both operands of a connective if that takes the one truth function to the other. -/
theorem result_not_connective {op op' : Operator .formula .formula} (l r : Expr .formula)
    (h : ∀ t u, (!op.truth t u) = op'.truth (!t) (!u)) :
    ((Expr.not (binary op l r)).eval g).result b = ((binary op' (Expr.not l) (Expr.not r)).eval g).result b := by
  rw [result_not, result_connective, result_connective, result_not, result_not, map_both, both_map_left, both_map_right]
  exact congrArg (both · _ _) (funext fun t => funext fun u => h t u)

theorem result_implies (l r : Expr .formula) :
    ((binary .implies l r).eval g).result b = ((binary .or (Expr.not l) r).eval g).result b := by
  rw [result_connective, result_connective, result_not, both_map_left]
  rfl

theorem result_equiv (l r : Expr .formula) :
    ((binary .equiv l r).eval g).result b =
      ((binary .and (binary .implies l r) (binary .implies r l)).eval g).result b := by
  rw [result_connective, result_connective, result_connective, result_connective, both_both]
  refine congrArg (both · _ _) (funext fun t => funext fun u => ?_)
  cases t <;> cases u <;> rfl

theorem result_not_relation (op : Operator .numeric .formula) (l r : Expr .numeric) :
    ((Expr.not (binary op l r)).eval g).result b = ((binary op.complement l r).eval g).result b := by
  rw [result_not, result_binary, result_binary]
  simp only [Operator.apply_complement]
  cases (l.eval g).result b with
  | error e => rfl
  | ok m => cases (r.eval g).result b <;> rfl

end Expr

theorem eval_restates {g : Grid} {f f' : Expr .formula} (h : Restates f f') (b : Bindings) :
    (f.eval g).result b = (f'.eval g).result b := by
  cases h with
  | notQuantified q v k a => exact Expr.result_not_quantified b q v k a
  | notAnd l r => exact Expr.result_not_connective b l r Bool.not_and
  | notOr l r => exact Expr.result_not_connective b l r Bool.not_or
  | implies l r => exact Expr.result_implies b l r
  | equiv l r => exact Expr.result_equiv b l r
  | notRelation op l r => exact Expr.result_not_relation b op l r

/-! ## Places in an expression -/

/-- An expression with a place in it that a formula can be put in. -/
inductive Context : Category → Type where
  | here : Context .formula
  | productTotal (product : Context .numeric) : Context .numeric
  | dayTotal (day : Context .numeric) : Context .numeric
  | figureProduct (product : Context .numeric) (day : Expr .numeric) : Context .numeric
  | figureDay (product : Expr .numeric) (day : Context .numeric) : Context .numeric
  | size (s : Context .set) : Context .numeric
  | comprehension (source : Kind) (name : String) (predicate : Context .formula) : Context .set
  | not (f : Context .formula) : Context .formula
  | quantified (q : Quantifier) (name : String) (source : Kind) (body : Context .formula) : Context .formula
  | left {a c : Category} (op : Operator a c) (left : Context a) (right : Expr a) : Context c
  | right {a c : Category} (op : Operator a c) (left : Expr a) (right : Context a) : Context c

namespace Context

def fill (f : Expr .formula) : {c : Category} → Context c → Expr c
  | _, .here => f
  | _, .productTotal p => .productTotal (p.fill f)
  | _, .dayTotal d => .dayTotal (d.fill f)
  | _, .figureProduct p d => .figure (p.fill f) d
  | _, .figureDay p d => .figure p (d.fill f)
  | _, .size s => .size (s.fill f)
  | _, .comprehension k x p => .comprehension k x (p.fill f)
  | _, .not e => .not (e.fill f)
  | _, .quantified q x k e => .quantified q x k (e.fill f)
  | _, .left op l r => .binary op (l.fill f) r
  | _, .right op l r => .binary op l (r.fill f)

/-- Formulas with the same result under all bindings do the same in any place. -/
theorem eval_fill_congr {g : Grid} {f f' : Expr .formula} (h : ∀ b, (f.eval g).result b = (f'.eval g).result b)
    {c : Category} (C : Context c) (b : Bindings) : ((C.fill f).eval g).result b = ((C.fill f').eval g).result b := by
  induction C generalizing b with
  | here => exact h b
  | productTotal p ih => rw [fill, fill, Expr.result_productTotal, Expr.result_productTotal, ih]
  | dayTotal d ih => rw [fill, fill, Expr.result_dayTotal, Expr.result_dayTotal, ih]
  | figureProduct p d ih => rw [fill, fill, Expr.result_figure, Expr.result_figure, ih]
  | figureDay p d ih => rw [fill, fill, Expr.result_figure, Expr.result_figure, ih]
  | size s ih => rw [fill, fill, Expr.result_size, Expr.result_size, ih]
  | comprehension k x p ih =>
    -- The place is under a binding now, and the formulas agree there as well.
    have hp (n : Int32) := ih (b.push x n)
    rw [fill, fill, Expr.result_comprehension, Expr.result_comprehension, funext hp]
  | not e ih => rw [fill, fill, Expr.result_not, Expr.result_not, ih]
  | quantified q x k e ih =>
    have he (n : Int32) := ih (b.push x n)
    rw [fill, fill, Expr.result_quantified, Expr.result_quantified, funext he]
  | left op l r ih => rw [fill, fill, Expr.result_binary, Expr.result_binary, ih]
  | right op l r ih => rw [fill, fill, Expr.result_binary, Expr.result_binary, ih]

end Context

/-- Formulas of which one restates the other by a law of logic come to the same truth value or to the
    same error, whatever is bound. In any place of a query the one can stand for the other, and the
    query comes to the same value or to the same error. -/
theorem restating_keeps_result (g : Grid) {f f' : Expr .formula} (h : Restates f f') :
    (∀ b : Bindings, (f.eval g).result b = (f'.eval g).result b) ∧
      ∀ {c : Category} (C : Context c) (b : Bindings),
        ((Query.mk c (C.fill f)).evaluate g).result b = ((Query.mk c (C.fill f')).evaluate g).result b := by
  refine ⟨eval_restates h, ?_⟩
  intro c C b
  rw [result_evaluate, result_evaluate, C.eval_fill_congr (eval_restates h)]

-- With 2 for "x" the quantifier stops on the first day, before the divisor of the second is zero.
-- In the query "x" is caught by the comprehension around, and for 1 the first day fails at once.
theorem restating_keeps_result_caught :
    let g : Grid := ⟨[[5, 2], [1, 3]], by decide⟩
    let a : Expr .formula :=
      .binary .lt (.binary .div (.dayTotal (.var "d")) (.binary .sub (.var "d") (.var "x"))) (.literal 3)
    let f : Expr .formula := .not (.quantified .forSome "d" .day a)
    let f' : Expr .formula := .quantified .forAll "d" .day (.not a)
    Restates f f' ∧ (f.eval g).result [("x", 2)] = (f'.eval g).result [("x", 2)] ∧
      ((Query.mk .numeric (.size (.comprehension .product "x" (.binary .and f f)))).evaluate g).result [("x", 2)] =
        ((Query.mk .numeric (.size (.comprehension .product "x" (.binary .and f f')))).evaluate g).result [("x", 2)] := by
  intro g a f f'
  have h : Restates f f' := .notQuantified .forSome "d" .day a
  obtain ⟨hformula, hquery⟩ := restating_keeps_result g h
  exact ⟨h, hformula _, hquery (.size (.comprehension .product "x" (.right .and f .here))) _⟩

end GridQuery
