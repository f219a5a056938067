/-
  GridQuery.Proofs.Division — division, and how a query asks whether a number divides another.

  A division drops the fraction: the quotient times the divisor misses the dividend by less than
  the divisor, on the side of zero (`Truncates`). Of two 32-bit numbers this quotient is again a
  32-bit number, but for one pair: the least number divided by -1 would be one more than the
  largest, and wraps around to the least again (`truncates_div_iff`).

  To ask whether a number divides another a query divides, multiplies back and compares. What comes
  back lies between the dividend and zero, so it is exact for all pairs of numbers, also where
  the quotient is not (`toInt_div_mul`). It is the dividend if the division has dropped nothing,
  and that is to divide (`div_mul_eq_iff`).
-/

import GridQuery.Proofs.Evaluation
import Mathlib.Algebra.Order.Group.Unbundled.Int

namespace GridQuery

open Query Query.Run

/-! ## Quotients without a fraction -/

/-- `q` is `a` divided by `b` without the fraction: what is left is less than `b`, and it is nothing or
    has the sign of `a`. -/
def Truncates (a b q : Int) : Prop := ∃ r, a = q * b + r ∧ |r| < |b| ∧ (r = 0 ∨ r.sign = a.sign)

theorem abs_tmod_lt (a : Int) {b : Int} (hb : b ≠ 0) : |a.tmod b| < |b| := by
  rw [Int.abs_eq_natAbs, Int.abs_eq_natAbs, Int.natAbs_tmod, Int.ofNat_lt]
  exact Nat.mod_lt _ (Int.natAbs_pos.mpr hb)

/-- There is one such quotient. -/
theorem truncates_iff {a b q : Int} (hb : b ≠ 0) : Truncates a b q ↔ q = a.tdiv b := by
  constructor
  · intro ⟨r, ha, hr, hsign⟩
    have hsum : r + b * q = a := by rw [ha, mul_comm, add_comm]
    rw [Int.abs_eq_natAbs b, abs_lt] at hr
    rcases le_total 0 a with hpos | hneg
    · have hside : 0 ≤ r := by
        rcases hsign with rfl | hsign
        · exact le_rfl
        · rwa [← Int.sign_nonneg_iff, hsign, Int.sign_nonneg_iff]
      exact ((Int.tdiv_tmod_unique hpos hb).mpr ⟨hsum, hside, hr.2⟩).1.symm
    · have hside : r ≤ 0 := by
        rcases hsign with rfl | hsign
        · exact le_rfl
        · rwa [← Int.sign_nonpos_iff, hsign, Int.sign_nonpos_iff]
      exact ((Int.tdiv_tmod_unique' hneg hb).mpr ⟨hsum, hr.1, hside⟩).1.symm
  · intro hq
    subst hq
    refine ⟨a.tmod b, (Int.tdiv_mul_add_tmod a b).symm, abs_tmod_lt a hb, ?_⟩
    rw [Int.sign_tmod, ← Int.dvd_iff_tmod_eq_zero]
    by_cases hdvd : b ∣ a
    · exact .inl hdvd
    · exact .inr (if_neg hdvd)

section

variable (m n : Int32)

theorem toInt_eq_zero_iff : n.toInt = 0 ↔ n = 0 := by
  rw [← Int32.toInt_zero, Int32.toInt_inj]

/-- The quotient of two 32-bit numbers wraps for one pair alone. -/
theorem truncates_div_iff (hn : n ≠ 0) :
    Truncates m.toInt n.toInt (m / n).toInt ↔ ¬ (m = Int32.minValue ∧ n = -1) := by
  rw [truncates_iff fun h => hn ((toInt_eq_zero_iff n).mp h)]
  constructor
  · rintro hexact ⟨rfl, rfl⟩
    exact absurd hexact (by decide)
  · intro hpair
    by_cases hm : m = Int32.minValue
    · exact Int32.toInt_div_of_ne_right m n fun hn => hpair ⟨hm, hn⟩
    · exact Int32.toInt_div_of_ne_left m n hm

/-! ## Multiplying back -/

/-- To divide and multiply back never gets out of range as a whole, even where the division does. -/
theorem toInt_div_mul : (m / n * n).toInt = m.toInt.tdiv n.toInt * n.toInt := by
  have hm := m.toInt_lt
  have hm' := m.le_toInt
  have hsum := Int.tdiv_mul_add_tmod m.toInt n.toInt
  have hsize : (m.toInt.tmod n.toInt).natAbs ≤ m.toInt.natAbs := by
    rw [Int.natAbs_tmod]
    exact Nat.mod_le _ _
  rw [Int32.toInt_mul, Int32.toInt_div, Int.bmod_mul_bmod]
  rcases le_total 0 m.toInt with hpos | hneg
  · have hside := Int.tmod_nonneg n.toInt hpos
    exact Int.bmod_eq_of_le (by omega) (by omega)
  · have hside := Int.tmod_nonneg n.toInt (Int.neg_nonneg_of_nonpos hneg)
    rw [Int.neg_tmod] at hside
    exact Int.bmod_eq_of_le (by omega) (by omega)

theorem div_mul_eq_iff : m / n * n = m ↔ n.toInt ∣ m.toInt := by
  have hsum := Int.tdiv_mul_add_tmod m.toInt n.toInt
  rw [← Int32.toInt_inj, toInt_div_mul, Int.dvd_iff_tmod_eq_zero]
  omega

end

/-! ## In a query -/

namespace Expr

variable {g : Grid} {b : Bindings} {s k : Expr .numeric} {m n : Int32}

theorem result_div (hs : (s.eval g).result b = .ok m) (hk : (k.eval g).result b = .ok n) :
    ((binary .div s k).eval g).result b = if n = 0 then .error .divisionByZero else .ok (m / n) :=
  result_binary_of_ok hs hk

theorem result_multiple (hs : (s.eval g).result b = .ok m) (hk : (k.eval g).result b = .ok n) :
    ((binary .eq (binary .mul (binary .div s k) k) s).eval g).result b =
      if n = 0 then .error .divisionByZero else .ok (decide (n.toInt ∣ m.toInt)) := by
  rw [result_binary, result_binary, result_div hs hk, hs, hk]
  by_cases hn : n = 0
  · rw [if_pos hn, if_pos hn]
    rfl
  · rw [if_neg hn, if_neg hn]
    simp only [ok_bind, Operator.apply, div_mul_eq_iff]

end Expr

/-- The quotient of two expressions fails exactly if the divisor is zero, and so does the formula that
    multiplies it by the divisor and compares it with the dividend. Else the quotient is that of
    the integers without the fraction, but for the least number divided by -1, where it is the
    least number itself; and the formula says whether the divisor divides the dividend in
    the integers, for these two as for all others. -/
theorem division_decides_divisibility (g : Grid) (b : Bindings) {s k : Expr .numeric} {m n : Int32}
    (hs : (s.eval g).result b = .ok m) (hk : (k.eval g).result b = .ok n) :
    let quotient := ((Expr.binary .div s k).eval g).result b
    let formula := ((Expr.binary .eq (.binary .mul (.binary .div s k) k) s).eval g).result b
    (quotient = .error .divisionByZero ↔ n = 0) ∧ (formula = .error .divisionByZero ↔ n = 0) ∧
      (n ≠ 0 → ∃ q, quotient = .ok q ∧ (Truncates m.toInt n.toInt q.toInt ↔ ¬ (m = Int32.minValue ∧ n = -1)) ∧
        (m = Int32.minValue ∧ n = -1 → q = Int32.minValue)) ∧
      (n ≠ 0 → (formula = .ok true ↔ n.toInt ∣ m.toInt) ∧ (formula = .ok false ↔ ¬ n.toInt ∣ m.toInt)) := by
  intro quotient formula
  have hquotient : quotient = if n = 0 then .error .divisionByZero else .ok (m / n) := Expr.result_div hs hk
  have hformula : formula = if n = 0 then .error .divisionByZero else .ok (decide (n.toInt ∣ m.toInt)) :=
    Expr.result_multiple hs hk
  rw [hquotient, hformula]
  by_cases hn : n = 0
  · simp [hn]
  · rw [if_neg hn, if_neg hn]
    refine ⟨by simp [hn], by simp [hn], ?_, by simp⟩
    intro _
    refine ⟨m / n, rfl, truncates_div_iff m n hn, ?_⟩
    rintro ⟨rfl, rfl⟩
    rfl

-- The pair whose quotient wraps, and one with a remainder on the side of zero.
theorem division_decides_divisibility_wrapping :
    let g : Grid := ⟨[[-2147483648]], by decide⟩
    let b : Bindings := [("k", -1), ("s", -7), ("n", 2)]
    let quotient (s k : Expr .numeric) := ((Expr.binary .div s k).eval g).result b
    let formula (s k : Expr .numeric) := ((Expr.binary .eq (.binary .mul (.binary .div s k) k) s).eval g).result b
    (Expr.total.eval g).result b = .ok Int32.minValue ∧ ((Expr.var "k").eval g).result b = .ok (-1) ∧
      quotient .total (.var "k") = .ok Int32.minValue ∧ formula .total (.var "k") = .ok true ∧
      (∃ q, quotient (.var "s") (.var "n") = .ok q ∧ Truncates (-7) 2 q.toInt) ∧
      formula (.var "s") (.var "n") = .ok false := by
  intro g b quotient formula
  have htotal : (Expr.total.eval g).result b = .ok Int32.minValue := rfl
  have hk : ((Expr.var "k").eval g).result b = .ok (-1) := rfl
  obtain ⟨-, -, hquotient, hformula⟩ := division_decides_divisibility g b htotal hk
  obtain ⟨q, hq, -, hleast⟩ := hquotient (by decide)
  obtain ⟨-, -, hquotient', hformula'⟩ :=
    division_decides_divisibility g b (s := .var "s") (k := .var "n") (m := -7) (n := 2) rfl rfl
  obtain ⟨q', hq', htruncates, -⟩ := hquotient' (by decide)
  exact ⟨htotal, hk, hleast ⟨rfl, rfl⟩ ▸ hq, (hformula (by decide)).1.mpr (by decide),
    ⟨q', hq', htruncates.mpr (by decide)⟩, (hformula' (by decide)).2.mpr (by decide)⟩

end GridQuery
