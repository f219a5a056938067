/-
  GridQuery.Proofs.Polynomial — sums, differences and products, brought to 32 bits once.

  Where an expression adds, subtracts or multiplies, it is a polynomial in the largest parts that do
  none of this, its terms (`terms`, `polynomial`). Evaluation wraps around at every node of the
  polynomial. That comes to the same as computing it in the integers and wrapping around at
  the end, because numbers may be wrapped before any of the three operators or after it
  (`Operator.Exact.apply_ofInt`). So nothing shows of what has wrapped on the way
  (`result_of_terms`).

  None of the three operators fails, so nothing in the polynomial fails but its terms. They are
  evaluated from left to right, and the first that fails is the last to be evaluated
  (`first_failing_term`).
-/

import GridQuery.Proofs.Totals
import Mathlib.Algebra.MvPolynomial.Eval

namespace GridQuery

open Query Query.Run

/-- What an operator that does not divide does to integers. -/
inductive Operator.Exact : Operator .numeric .numeric → (Int → Int → Int) → Prop
  | add : Exact .add (· + ·)
  | sub : Exact .sub (· - ·)
  | mul : Exact .mul (· * ·)

/-- What has wrapped before may as well wrap afterwards. -/
theorem Operator.Exact.apply_ofInt {op : Operator .numeric .numeric} {f : Int → Int → Int} (h : op.Exact f)
    (x y : Int) : op.apply (.ofInt x) (.ofInt y) = .ok (.ofInt (f x y)) := by
  cases h with
  | add => exact congrArg _ (Int32.ofInt_add x y).symm
  | sub => exact congrArg _ (Int32.ofInt_sub x y).symm
  | mul => exact congrArg _ (Int32.ofInt_mul x y).symm

namespace Expr

/-! ## Terms and the polynomial in them -/

/-- The largest parts that are no sum, difference or product, from left to right. -/
def terms : {c : Category} → Expr c → List (Expr c)
  | _, .binary .add l r => l.terms ++ r.terms
  | _, .binary .sub l r => l.terms ++ r.terms
  | _, .binary .mul l r => l.terms ++ r.terms
  | _, e => [e]

/-- The expression as a polynomial over the integers, with its terms as the unknowns. -/
noncomputable def polynomial : {c : Category} → Expr c → MvPolynomial (Expr c) Int
  | _, .binary .add l r => l.polynomial + r.polynomial
  | _, .binary .sub l r => l.polynomial - r.polynomial
  | _, .binary .mul l r => l.polynomial * r.polynomial
  | _, e => .X e

section

variable {op : Operator .numeric .numeric} {f : Int → Int → Int} (h : op.Exact f) (l r : Expr .numeric)

include h

theorem terms_binary : (binary op l r).terms = l.terms ++ r.terms := by
  cases h <;> rfl

theorem eval_polynomial (value : Expr .numeric → Int) :
    (binary op l r).polynomial.eval value = f (l.polynomial.eval value) (r.polynomial.eval value) := by
  cases h with
  | add => exact map_add _ _ _
  | sub => exact map_sub _ _ _
  | mul => exact map_mul _ _ _

end

/-- A numeric expression is a term, or made of two by one of the operators that do not divide. -/
@[elab_as_elim]
theorem term_induction {motive : Expr .numeric → Prop}
    (term : ∀ e : Expr .numeric, e.terms = [e] → e.polynomial = .X e → motive e)
    (binary : ∀ {op : Operator .numeric .numeric} {f}, op.Exact f →
      ∀ l r, motive l → motive r → motive (.binary op l r)) : (e : Expr .numeric) → motive e
  | .literal n => term (.literal n) rfl rfl
  | .var name => term (.var name) rfl rfl
  | .productTotal p => term (.productTotal p) rfl rfl
  | .dayTotal d => term (.dayTotal d) rfl rfl
  | .total => term .total rfl rfl
  | .figure p d => term (.figure p d) rfl rfl
  | .size s => term (.size s) rfl rfl
  | .binary .add l r => binary .add l r (term_induction term binary l) (term_induction term binary r)
  | .binary .sub l r => binary .sub l r (term_induction term binary l) (term_induction term binary r)
  | .binary .mul l r => binary .mul l r (term_induction term binary l) (term_induction term binary r)
  | .binary .div l r => term (.binary .div l r) rfl rfl

/-! ## What a polynomial comes to -/

variable {g : Grid} {b : Bindings} {e : Expr .numeric}

/-- However often it wraps on the way, the result is the exact one, wrapped once. -/
theorem result_of_terms {value : Expr .numeric → Int32} (h : ∀ t ∈ e.terms, (t.eval g).result b = .ok (value t)) :
    (e.eval g).result b = .ok (.ofInt (e.polynomial.eval fun t => (value t).toInt)) := by
  induction e using term_induction with
  | term e hterms hpolynomial =>
    rw [hterms] at h
    rw [h e List.mem_cons_self, hpolynomial, MvPolynomial.eval_X, Int32.ofInt_toInt]
  | binary hop l r ihl ihr =>
    rw [terms_binary hop, List.forall_mem_append] at h
    rw [result_binary, ihl h.1, ihr h.2, ok_bind, ok_bind, hop.apply_ofInt, eval_polynomial hop]

theorem exists_result_of_terms (h : ∀ t ∈ e.terms, ∃ n, (t.eval g).result b = .ok n) :
    ∃ n, (e.eval g).result b = .ok n := by
  choose! value hvalue using h
  exact ⟨_, result_of_terms hvalue⟩

/-- If terms fail, the first of them is what the whole fails with. -/
theorem first_failing_term (h : ∃ t ∈ e.terms, ∃ x, (t.eval g).result b = .error x) :
    ∃ before t after x, e.terms = before ++ t :: after ∧ (∀ u ∈ before, ∃ n, (u.eval g).result b = .ok n) ∧
      (t.eval g).result b = .error x ∧ (e.eval g).result b = .error x := by
  induction e using term_induction with
  | term e hterms hpolynomial =>
    obtain ⟨t, ht, x, hx⟩ := h
    rw [hterms, List.mem_singleton] at ht
    subst ht
    exact ⟨[], t, [], x, hterms, nofun, hx, hx⟩
  | binary hop l r ihl ihr =>
    rw [terms_binary hop] at h ⊢
    rw [result_binary]
    by_cases hl : ∃ t ∈ l.terms, ∃ x, (t.eval g).result b = .error x
    · obtain ⟨before, t, after, x, hterms, hbefore, ht, hfail⟩ := ihl hl
      refine ⟨before, t, after ++ r.terms, x, ?_, hbefore, ht, ?_⟩
      · rw [hterms, List.append_assoc, List.cons_append]
      · rw [hfail, error_bind]
    · have hleft : ∀ t ∈ l.terms, ∃ n, (t.eval g).result b = .ok n := by
        intro t ht
        cases hresult : (t.eval g).result b with
        | ok n => exact ⟨n, rfl⟩
        | error x => exact absurd ⟨t, ht, x, hresult⟩ hl
      obtain ⟨t, ht, hfails⟩ := h
      have hright : t ∈ r.terms := by
        rcases List.mem_append.mp ht with ht | ht
        · exact absurd ⟨t, ht, hfails⟩ hl
        · exact ht
      obtain ⟨before, t, after, x, hterms, hbefore, ht, hfail⟩ := ihr ⟨t, hright, hfails⟩
      obtain ⟨n, hn⟩ := exists_result_of_terms hleft
      refine ⟨l.terms ++ before, t, after, x, ?_, ?_, ht, ?_⟩
      · rw [hterms, List.append_assoc]
      · exact List.forall_mem_append.mpr ⟨hleft, hbefore⟩
      · rw [hn, hfail, ok_bind, error_bind]

end Expr

/-- An expression is a polynomial in the largest of its parts that are no sum, difference or product.
    If all of these have values, it comes to the one 32-bit number that is congruent to the
    polynomial at these values, computed in the integers, however much wraps on the way. If some of
    them fail, it fails with the error of the leftmost. -/
theorem wrapping_once_suffices (g : Grid) (b : Bindings) (e : Expr .numeric) :
    let r (t : Expr .numeric) := (t.eval g).result b
    (∀ value : Expr .numeric → Int32, (∀ t ∈ e.terms, r t = .ok (value t)) →
        ∃ n, r e = .ok n ∧ ∀ m : Int32, m.toInt ≡ e.polynomial.eval (fun t => (value t).toInt) [ZMOD 2 ^ 32] ↔ m = n) ∧
      ((∃ t ∈ e.terms, ∃ x, r t = .error x) →
        ∃ before t after x, e.terms = before ++ t :: after ∧ (∀ u ∈ before, ∃ n, r u = .ok n) ∧
          r t = .error x ∧ r e = .error x) := by
  intro r
  refine ⟨?_, Expr.first_failing_term⟩
  intro value hvalue
  exact ⟨_, Expr.result_of_terms hvalue, fun m => ofInt_eq_iff⟩

-- The square of the largest number is added to a total that has wrapped as well, and taken away again.
-- In the other expression two terms fail, the name first.
theorem wrapping_once_suffices_square :
    let g : Grid := ⟨[[2147483647, 2], [1, 3]], by decide⟩
    let b : Bindings := [("x", 2147483647)]
    let square : Expr .numeric := .binary .mul (.var "x") (.var "x")
    let e : Expr .numeric := .binary .sub (.binary .add square .total) square
    let e' : Expr .numeric :=
      .binary .add (.binary .sub square (.var "y")) (.binary .mul (.binary .div .total (.literal 0)) (.var "z"))
    let value (t : Expr .numeric) : Int32 := if t = .total then -2147483643 else 2147483647
    (∀ t ∈ e.terms, (t.eval g).result b = .ok (value t)) ∧ (e.eval g).result b = .ok (-2147483643) ∧
      (∃ t ∈ e'.terms, ∃ x, (t.eval g).result b = .error x) ∧
      ∃ before t after x, e'.terms = before ++ t :: after ∧ (∀ u ∈ before, ∃ n, (u.eval g).result b = .ok n) ∧
        (t.eval g).result b = .error x ∧ (e'.eval g).result b = .error x := by
  intro g b square e e' value
  have hvalue : ∀ t ∈ e.terms, (t.eval g).result b = .ok (value t) := by
    have hterms : e.terms = [.var "x", .var "x", .total, .var "x", .var "x"] := rfl
    simp only [hterms, List.forall_mem_cons, List.not_mem_nil, false_imp_iff, implies_true, and_true]
    exact ⟨rfl, rfl, rfl, rfl, rfl⟩
  have hpolynomial : e.polynomial.eval (fun t => (value t).toInt) = -2147483643 := by
    simp [e, square, Expr.polynomial, value]
  have hfails : ∃ t ∈ e'.terms, ∃ x, (t.eval g).result b = .error x := ⟨.var "y", by decide, _, rfl⟩
  obtain ⟨hexact, -⟩ := wrapping_once_suffices g b e
  obtain ⟨-, hfail⟩ := wrapping_once_suffices g b e'
  obtain ⟨n, hn, hunique⟩ := hexact value hvalue
  have hresult : -2147483643 = n := (hunique (-2147483643)).mp (by rw [hpolynomial]; rfl)
  exact ⟨hvalue, hresult ▸ hn, hfails, hfail hfails⟩

end GridQuery
