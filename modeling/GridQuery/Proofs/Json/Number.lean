/-
  GridQuery.Proofs.Json.Number — written numbers.

  The digits of a number are read as the number, up to where they end: a digit, a point or an
  exponent after them would still belong to it (`next?_write_append`). After a comma, a bracket that
  closes, space or nothing, none of those follows (`Ends`).
-/

import GridQuery.Json.Token

namespace GridQuery.Json.Token

/-- What may follow a number in a text: a comma, a bracket that closes, space, or nothing. -/
inductive Ends : List Char → Prop
  | text : Ends []
  | comma (rest : List Char) : Ends (',' :: rest)
  | array (rest : List Char) : Ends (']' :: rest)
  | object (rest : List Char) : Ends ('\x7d' :: rest)
  | space {c : Char} (h : isSpace c = true) (rest : List Char) : Ends (c :: rest)

theorem isSpace_iff {c : Char} : isSpace c = true ↔ c = ' ' ∨ c = '\t' ∨ c = '\n' ∨ c = '\r' := by
  simp only [isSpace, Bool.or_eq_true, beq_iff_eq, or_assoc]

theorem Ends.takeWhile_isDigit {rest : List Char} (h : Ends rest) : rest.takeWhile Char.isDigit = [] := by
  cases h with
  | space hc => rcases isSpace_iff.mp hc with rfl | rfl | rfl | rfl <;> rfl
  | _ => rfl

theorem Ends.afterFraction? {rest : List Char} (h : Ends rest) : afterFraction? rest = some rest := by
  cases h with
  | space hc => rcases isSpace_iff.mp hc with rfl | rfl | rfl | rfl <;> rfl
  | _ => rfl

theorem Ends.afterExponent? {rest : List Char} (h : Ends rest) : afterExponent? rest = some rest := by
  cases h with
  | space hc => rcases isSpace_iff.mp hc with rfl | rfl | rfl | rfl <;> rfl
  | _ => rfl

theorem Ends.goesOn {rest : List Char} (h : Ends rest) : goesOn rest = false := by
  cases h with
  | space hc => rcases isSpace_iff.mp hc with rfl | rfl | rfl | rfl <;> rfl
  | _ => rfl

theorem dropWhile_isDigit {rest : List Char} (h : rest.takeWhile Char.isDigit = []) :
    rest.dropWhile Char.isDigit = rest := by
  have hsplit := List.takeWhile_append_dropWhile (p := Char.isDigit) (l := rest)
  rwa [h, List.nil_append] at hsplit

theorem takeWhile_isDigit_append {ds rest : List Char} (hds : ∀ d ∈ ds, d.isDigit = true)
    (h : rest.takeWhile Char.isDigit = []) : (ds ++ rest).takeWhile Char.isDigit = ds := by
  rw [List.takeWhile_append_of_pos hds, h, List.append_nil]

theorem dropWhile_isDigit_append {ds rest : List Char} (hds : ∀ d ∈ ds, d.isDigit = true)
    (h : rest.takeWhile Char.isDigit = []) : (ds ++ rest).dropWhile Char.isDigit = rest := by
  rw [List.dropWhile_append_of_pos hds, dropWhile_isDigit h]

theorem head?_toDigits_ne {n : Nat} (hn : n ≠ 0) : (Nat.toDigits 10 n).head? ≠ some '0' := by
  induction n using Nat.strongRecOn with
  | ind n ih =>
    have digit : ∀ k < 10, k ≠ 0 → Nat.digitChar k ≠ '0' := by decide
    rw [Nat.toDigits_eq_if (by decide)]
    split
    · rename_i hlt
      rw [List.head?_cons, Ne, Option.some_inj]
      exact digit n hlt hn
    · obtain ⟨d, ds, hd⟩ := List.exists_cons_of_ne_nil (Nat.toDigits_ne_nil (b := 10) (n := n / 10))
      have hhead := ih (n / 10) (by omega) (by omega)
      rw [hd] at hhead ⊢
      exact hhead

/-- The digits of a number have no zero in front. -/
theorem toDigits_ne_zero_cons (n : Nat) (d : Char) (ds : List Char) : Nat.toDigits 10 n ≠ '0' :: d :: ds := by
  intro h
  by_cases hn : n = 0
  · rw [hn, Nat.toDigits_zero] at h
    cases h
  · refine head?_toDigits_ne hn ?_
    rw [h]
    rfl

theorem digits?_toDigits (n : Nat) {rest : List Char} (h : rest.takeWhile Char.isDigit = []) :
    digits? (Nat.toDigits 10 n ++ rest) = some (n, rest) := by
  have hdigits : ∀ d ∈ Nat.toDigits 10 n, d.isDigit = true := fun _ => Numeral.isDigit_of_mem_toDigits
  unfold digits?
  rw [takeWhile_isDigit_append hdigits h, dropWhile_isDigit_append hdigits h]
  split
  · rename_i hnil
    exact absurd hnil Nat.toDigits_ne_nil
  · rename_i hzero
    exact absurd hzero (toDigits_ne_zero_cons n _ _)
  · rw [Nat.ofDigitChars_ten_toDigits]

/-- `tail` is what follows the digits of a number, and `rest` what follows the number. -/
theorem unsigned?_toDigits (value : Nat → Option Int) (n : Nat) {tail rest : List Char}
    (hdigits : tail.takeWhile Char.isDigit = []) (htail : (afterFraction? tail).bind afterExponent? = some rest) :
    unsigned? value (Nat.toDigits 10 n ++ tail) = some (.num (if goesOn tail then none else value n), rest) := by
  simp only [unsigned?, digits?_toDigits n hdigits, htail, Option.bind_eq_bind, Option.bind_some]

theorem ne_of_isDigit {c d : Char} (hc : c.isDigit = true) (hd : d.isDigit = false) : c ≠ d := by
  intro h
  rw [h, hd] at hc
  cases hc

/-- A digit starts a number and nothing else. -/
theorem next?_of_isDigit {c : Char} (hc : c.isDigit = true) (cs : List Char) :
    next? (c :: cs) = unsigned? (fun n => some n) (c :: cs) := by
  have hspace : isSpace c = false := by
    simp [isSpace, ne_of_isDigit hc]
  have hfirst : first? (c :: cs) = number? (c :: cs) := by
    refine first?.eq_11 _ ?_ ?_ ?_ ?_ ?_ ?_ ?_ ?_ ?_ ?_
    all_goals
      intro rest h
      exact absurd (List.cons.inj h).1 (ne_of_isDigit hc rfl)
  have hnumber : number? (c :: cs) = unsigned? (fun n => some n) (c :: cs) :=
    number?.eq_2 _ fun rest h => absurd (List.cons.inj h).1 (ne_of_isDigit hc rfl)
  rw [next?, List.dropWhile_cons_of_neg (by simp [hspace]), hfirst, hnumber]

theorem next?_toDigits (n : Nat) {tail rest : List Char} (hdigits : tail.takeWhile Char.isDigit = [])
    (htail : (afterFraction? tail).bind afterExponent? = some rest) :
    next? (Nat.toDigits 10 n ++ tail) = some (.num (if goesOn tail then none else some n), rest) := by
  rw [← unsigned?_toDigits (fun n => some n) n hdigits htail]
  obtain ⟨c, cs, hcs⟩ := List.exists_cons_of_ne_nil (Nat.toDigits_ne_nil (b := 10) (n := n))
  have hc : c ∈ Nat.toDigits 10 n := by
    rw [hcs]
    exact List.mem_cons_self
  rw [hcs]
  exact next?_of_isDigit (Numeral.isDigit_of_mem_toDigits hc) _

theorem next?_write_append (n : Int) {tail rest : List Char} (hdigits : tail.takeWhile Char.isDigit = [])
    (htail : (afterFraction? tail).bind afterExponent? = some rest) :
    next? ((Numeral.write n).toList ++ tail) = some (.num (if goesOn tail then none else some n), rest) := by
  unfold Numeral.write
  split
  · have hminus : ("-" ++ Numeral.writeNat n.natAbs).toList ++ tail = '-' :: (Nat.toDigits 10 n.natAbs ++ tail) := by
      simp
    rw [hminus]
    show unsigned? (fun m => if m = 0 then none else some (-m)) (Nat.toDigits 10 n.natAbs ++ tail) = _
    have hvalue : (if n.natAbs = 0 then none else some (-(n.natAbs : Int))) = some n := by
      rw [if_neg (by omega), Option.some_inj]
      omega
    rw [unsigned?_toDigits _ _ hdigits htail, hvalue]
  · have hvalue : (n.natAbs : Int) = n := by omega
    rw [Numeral.toList_writeNat, next?_toDigits _ hdigits htail, hvalue]

end GridQuery.Json.Token
