/-
  GridQuery.Json.Token — the tokens of JSON text, and the token that a text starts with.

  `next?` takes the longest token after any space and leaves the rest, which is shorter
  (`length_of_next?`).
  - A string ends at its first unescaped quote. Inside stands any character from U+0020 on, and
    after a backslash one of eight letters or `u` and four hexadecimal digits. Two escapes that
    are the halves of a surrogate pair are one character; a half without its other half leaves
    the string without text.
  - A number is a sign or none, digits without a zero in front, and then a fraction, an exponent,
    both or neither. Without those two it is whole, except `-0`.
-/

import GridQuery.Json

namespace GridQuery.Json

inductive Token where
  | openArray
  | closeArray
  | openObject
  | closeObject
  | comma
  | colon
  | null
  | bool (b : Bool)
  | num (n : Option Int)
  | str (s : Option String)
  deriving DecidableEq, Repr

def isSpace (c : Char) : Bool := c == ' ' || c == '\t' || c == '\n' || c == '\r'

namespace Token

/-! ## Strings -/

def hexDigit? (c : Char) : Option Nat :=
  if '0' ≤ c ∧ c ≤ '9' then some (c.toNat - '0'.toNat)
  else if 'a' ≤ c ∧ c ≤ 'f' then some (c.toNat - 'a'.toNat + 10)
  else if 'A' ≤ c ∧ c ≤ 'F' then some (c.toNat - 'A'.toNat + 10)
  else none

def hex? (cs : List Char) : Option Nat :=
  cs.foldlM (fun n c => (hexDigit? c).map (16 * n + ·)) 0

def unescape? : Char → Option Char
  | '"' => some '"'
  | '\\' => some '\\'
  | '/' => some '/'
  | 'b' => some '\x08'
  | 'f' => some '\x0c'
  | 'n' => some '\n'
  | 'r' => some '\r'
  | 't' => some '\t'
  | _ => none

def also (n : Nat) (read : List Nat × List Char) : List Nat × List Char := (n :: read.1, read.2)

/-- The code points up to the closing quote, with every half of a surrogate pair apart. -/
def codes? : List Char → Option (List Nat × List Char)
  | [] => none
  | '"' :: cs => some ([], cs)
  | '\\' :: 'u' :: a :: b :: c :: d :: cs => (hex? [a, b, c, d]).bind fun n => (codes? cs).map (also n)
  | '\\' :: c :: cs => (unescape? c).bind fun e => (codes? cs).map (also e.toNat)
  | c :: cs => if c = '\\' ∨ c.toNat < 0x20 then none else (codes? cs).map (also c.toNat)

def isHighHalf (n : Nat) : Bool := 0xD800 ≤ n && n < 0xDC00

def isLowHalf (n : Nat) : Bool := 0xDC00 ≤ n && n < 0xE000

/-- The characters of some code points; none if a half of a surrogate pair stands alone. -/
def chars? : List Nat → Option (List Char)
  | [] => some []
  | n :: ns =>
    if isHighHalf n then
      match ns with
      | m :: ns =>
        if isLowHalf m then (chars? ns).map (Char.ofNat (0x10000 + 0x400 * (n - 0xD800) + (m - 0xDC00)) :: ·)
        else none
      | [] => none
    else if isLowHalf n then none
    else (chars? ns).map (Char.ofNat n :: ·)

def string? (cs : List Char) : Option (Token × List Char) :=
  (codes? cs).map fun (ns, cs) => (.str ((chars? ns).map String.ofList), cs)

/-! ## Numbers -/

/-- What follows a run of one digit or more. -/
def afterDigits? (cs : List Char) : Option (List Char) :=
  if cs.takeWhile Char.isDigit = [] then none else some (cs.dropWhile Char.isDigit)

def afterFraction? : List Char → Option (List Char)
  | '.' :: cs => afterDigits? cs
  | cs => some cs

def afterSign : List Char → List Char
  | '+' :: cs => cs
  | '-' :: cs => cs
  | cs => cs

def afterExponent? : List Char → Option (List Char)
  | 'e' :: cs => afterDigits? (afterSign cs)
  | 'E' :: cs => afterDigits? (afterSign cs)
  | cs => some cs

/-- Whether the digits of a number are followed by a fraction or an exponent. -/
def goesOn : List Char → Bool
  | '.' :: _ => true
  | 'e' :: _ => true
  | 'E' :: _ => true
  | _ => false

def digits? (cs : List Char) : Option (Nat × List Char) :=
  match cs.takeWhile Char.isDigit with
  | [] => none
  | '0' :: _ :: _ => none
  | ds => some (Nat.ofDigitChars 10 ds 0, cs.dropWhile Char.isDigit)

def unsigned? (value : Nat → Option Int) (cs : List Char) : Option (Token × List Char) := do
  let (n, cs) ← digits? cs
  let rest ← (afterFraction? cs).bind afterExponent?
  some (.num (if goesOn cs then none else value n), rest)

def number? : List Char → Option (Token × List Char)
  | '-' :: cs => unsigned? (fun n => if n = 0 then none else some (-n)) cs
  | cs => unsigned? (fun n => some n) cs

/-! ## The first token -/

def first? : List Char → Option (Token × List Char)
  | '[' :: cs => some (.openArray, cs)
  | ']' :: cs => some (.closeArray, cs)
  | '\x7b' :: cs => some (.openObject, cs)
  | '\x7d' :: cs => some (.closeObject, cs)
  | ',' :: cs => some (.comma, cs)
  | ':' :: cs => some (.colon, cs)
  | 'n' :: 'u' :: 'l' :: 'l' :: cs => some (.null, cs)
  | 't' :: 'r' :: 'u' :: 'e' :: cs => some (.bool true, cs)
  | 'f' :: 'a' :: 'l' :: 's' :: 'e' :: cs => some (.bool false, cs)
  | '"' :: cs => string? cs
  | cs => number? cs

/-! ### What is left is shorter -/

theorem length_of_codes? {cs rest : List Char} {ns : List Nat} (h : codes? cs = some (ns, rest)) :
    rest.length < cs.length := by
  fun_induction codes? cs generalizing ns rest with
  | case1 => cases h
  | case2 cs => cases h; simp
  | case3 a b c d cs ih =>
    simp only [Option.bind_eq_some_iff, Option.map_eq_some_iff] at h
    obtain ⟨_, _, ⟨ms, tail⟩, hc, he⟩ := h
    have := ih hc
    cases he
    simp only [List.length_cons]
    omega
  | case4 c cs _ ih =>
    simp only [Option.bind_eq_some_iff, Option.map_eq_some_iff] at h
    obtain ⟨_, _, ⟨ms, tail⟩, hc, he⟩ := h
    have := ih hc
    cases he
    simp only [List.length_cons]
    omega
  | case5 => cases h
  | case6 c cs _ _ _ _ ih =>
    simp only [Option.map_eq_some_iff] at h
    obtain ⟨⟨ms, tail⟩, hc, he⟩ := h
    have := ih hc
    cases he
    simp only [List.length_cons]
    omega

theorem length_dropWhile_le (p : Char → Bool) (cs : List Char) : (cs.dropWhile p).length ≤ cs.length :=
  (List.dropWhile_sublist p).length_le

theorem length_of_afterDigits? {cs rest : List Char} (h : afterDigits? cs = some rest) : rest.length ≤ cs.length := by
  unfold afterDigits? at h
  split at h
  · cases h
  · cases h
    exact length_dropWhile_le _ _

theorem length_afterSign (cs : List Char) : (afterSign cs).length ≤ cs.length := by
  unfold afterSign
  split <;> simp

theorem length_of_afterFraction? {cs rest : List Char} (h : afterFraction? cs = some rest) :
    rest.length ≤ cs.length := by
  unfold afterFraction? at h
  split at h
  · have := length_of_afterDigits? h
    simp; omega
  · cases h
    exact Nat.le_refl _

theorem length_of_afterExponent? {cs rest : List Char} (h : afterExponent? cs = some rest) :
    rest.length ≤ cs.length := by
  unfold afterExponent? at h
  split at h
  · have := length_of_afterDigits? h
    have := length_afterSign ‹List Char›
    simp only [List.length_cons]
    omega
  · have := length_of_afterDigits? h
    have := length_afterSign ‹List Char›
    simp only [List.length_cons]
    omega
  · cases h
    exact Nat.le_refl _

theorem length_of_digits? {cs rest : List Char} {n : Nat} (h : digits? cs = some (n, rest)) :
    rest.length < cs.length := by
  have hcs := congrArg List.length (List.takeWhile_append_dropWhile (p := Char.isDigit) (l := cs))
  rw [List.length_append] at hcs
  unfold digits? at h
  split at h
  · cases h
  · cases h
  · rename_i hne _
    cases h
    have := List.length_pos_iff.mpr hne
    omega

theorem length_of_unsigned? {cs rest : List Char} {value : Nat → Option Int} {t : Token}
    (h : unsigned? value cs = some (t, rest)) : rest.length < cs.length := by
  simp only [unsigned?, bind, Option.bind_eq_some_iff] at h
  obtain ⟨⟨n, tail⟩, hd, last, ⟨mid, hf, he⟩, hr⟩ := h
  cases hr
  have := length_of_digits? hd
  have : mid.length ≤ tail.length := length_of_afterFraction? hf
  have := length_of_afterExponent? he
  omega

theorem length_of_number? {cs rest : List Char} {t : Token} (h : number? cs = some (t, rest)) :
    rest.length < cs.length := by
  unfold number? at h
  split at h
  · have := length_of_unsigned? h
    simp only [List.length_cons]
    omega
  · exact length_of_unsigned? h

theorem length_of_first? {cs rest : List Char} {t : Token} (h : first? cs = some (t, rest)) :
    rest.length < cs.length := by
  unfold first? at h
  split at h
  case h_10 =>
    simp only [string?, Option.map_eq_some_iff] at h
    obtain ⟨⟨ns, tail⟩, hc, he⟩ := h
    cases he
    exact Nat.lt_trans (length_of_codes? hc) (by simp)
  case h_11 => exact length_of_number? h
  all_goals (cases h; simp only [List.length_cons]; omega)

/-- The first token after any space. -/
def next? (cs : List Char) : Option (Token × List Char) := first? (cs.dropWhile isSpace)

theorem length_of_next? {cs rest : List Char} {t : Token} (h : next? cs = some (t, rest)) :
    rest.length < cs.length :=
  Nat.lt_of_lt_of_le (length_of_first? h) (length_dropWhile_le _ _)

end Token

end GridQuery.Json
