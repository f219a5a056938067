/-
  GridQuery.Numeral — whole numbers in decimal digits.

  - `write` puts a minus sign before a negative number and no zero in front.
  - `read?` takes one sign or none, then one digit or more, zeros in front included.
  - `word?` is the 32-bit number a whole number fits into, if it fits.

  Reading what was written gives the number back (`read?_write`), and a 32-bit number is the
  word of its own value and of no other (`word?_eq_some`).
-/

namespace GridQuery.Numeral

/-- The number a run of digits writes; none if it is empty or holds anything but `0` to `9`. -/
def digits? (cs : List Char) : Option Nat :=
  if cs ≠ [] ∧ cs.all Char.isDigit then some (Nat.ofDigitChars 10 cs 0) else none

def read? : List Char → Option Int
  | '+' :: cs => (digits? cs).map Int.ofNat
  | '-' :: cs => (digits? cs).map Int.negOfNat
  | cs => (digits? cs).map Int.ofNat

def writeNat (n : Nat) : String := .ofList (Nat.toDigits 10 n)

def write (n : Int) : String := if n < 0 then "-" ++ writeNat n.natAbs else writeNat n.natAbs

def word? (n : Int) : Option Int32 :=
  if -2147483648 ≤ n ∧ n ≤ 2147483647 then some (Int32.ofInt n) else none

def writeWord (n : Int32) : String := write n.toInt

/-! ## Reading what was written -/

theorem isDigit_of_mem_toDigits {c : Char} {n : Nat} (h : c ∈ Nat.toDigits 10 n) : c.isDigit := by
  induction n using Nat.strongRecOn with
  | ind n ih =>
    rw [Nat.toDigits_eq_if (by decide)] at h
    have digit : ∀ k < 10, (Nat.digitChar k).isDigit := by decide
    split at h
    · simp only [List.mem_singleton] at h
      exact h ▸ digit n ‹_›
    · rcases List.mem_append.mp h with h | h
      · exact ih _ (by omega) h
      · simp only [List.mem_singleton] at h
        exact h ▸ digit _ (Nat.mod_lt _ (by decide))

@[simp] theorem toList_writeNat (n : Nat) : (writeNat n).toList = Nat.toDigits 10 n := by simp [writeNat]

theorem mem_write {n : Int} {c : Char} (h : c ∈ (write n).toList) : c = '-' ∨ c.isDigit := by
  unfold write at h
  split at h
  · rw [String.toList_append, toList_writeNat] at h
    rcases List.mem_append.mp h with h | h
    · exact .inl (List.mem_singleton.mp h)
    · exact .inr (isDigit_of_mem_toDigits h)
  · rw [toList_writeNat] at h
    exact .inr (isDigit_of_mem_toDigits h)

theorem digits?_toDigits (n : Nat) : digits? (Nat.toDigits 10 n) = some n := by
  rw [digits?, if_pos ⟨Nat.toDigits_ne_nil, List.all_eq_true.mpr fun _ => isDigit_of_mem_toDigits⟩,
    Nat.ofDigitChars_ten_toDigits]

theorem read?_toDigits (n : Nat) : read? (Nat.toDigits 10 n) = some (Int.ofNat n) := by
  have hd : ∀ c ∈ Nat.toDigits 10 n, c.isDigit := fun _ => isDigit_of_mem_toDigits
  have h := digits?_toDigits n
  revert hd h
  generalize Nat.toDigits 10 n = cs
  intro hd h
  unfold read?
  split
  · exact absurd (hd '+' List.mem_cons_self) (by decide)
  · exact absurd (hd '-' List.mem_cons_self) (by decide)
  · simp [h]

theorem read?_write (n : Int) : read? (write n).toList = some n := by
  unfold write
  split
  · have minus : "-".toList = ['-'] := rfl
    rw [String.toList_append, toList_writeNat, minus, List.singleton_append, read?, digits?_toDigits, Option.map_some,
      Int.negOfNat_eq, Option.some_inj, Int.ofNat_eq_natCast]
    omega
  · rw [toList_writeNat, read?_toDigits, Option.some_inj, Int.ofNat_eq_natCast]
    omega

theorem word?_toInt (n : Int32) : word? n.toInt = some n := by
  have := n.toInt_lt; have := n.le_toInt
  rw [word?, if_pos (by omega), Int32.ofInt_toInt]

theorem word?_eq_some {m : Int} {n : Int32} : word? m = some n ↔ n.toInt = m := by
  constructor
  · intro h
    unfold word? at h
    split at h
    · rename_i hrange
      cases h
      exact Int32.toInt_ofInt_of_le (by omega) (by omega)
    · cases h
  · intro h
    rw [← h, word?_toInt]

end GridQuery.Numeral
