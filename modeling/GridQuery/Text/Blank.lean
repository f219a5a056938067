/-
  GridQuery.Text.Blank — the characters that count as blank space, and cutting text at them.

  They are the 25 characters with the Unicode property White_Space. `pieces` are the runs
  between separators, empty runs included; `words` leaves those out.
-/

namespace GridQuery.Text

def isBlank (c : Char) : Bool :=
  let n := c.toNat
  (0x9 ≤ n && n ≤ 0xD) || n == 0x20 || n == 0x85 || n == 0xA0 || n == 0x1680 ||
    (0x2000 ≤ n && n ≤ 0x200A) || n == 0x2028 || n == 0x2029 || n == 0x202F || n == 0x205F || n == 0x3000

def pieces (sep : Char → Bool) : List Char → List (List Char)
  | [] => [[]]
  | c :: cs =>
    if sep c then [] :: pieces sep cs
    else match pieces sep cs with
      | [] => [[c]]
      | p :: ps => (c :: p) :: ps

def lines (cs : List Char) : List (List Char) := pieces (· == '\n') cs

def words (sep : Char → Bool) (cs : List Char) : List (List Char) := (pieces sep cs).filter (!·.isEmpty)

theorem pieces_ne_nil (sep : Char → Bool) (cs : List Char) : pieces sep cs ≠ [] := by
  cases cs with
  | nil => simp [pieces]
  | cons c cs =>
    simp only [pieces]
    split
    · simp
    · split <;> simp

end GridQuery.Text
