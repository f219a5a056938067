/-
  GridQuery.Proofs.Json.Lexeme — all the ways to write a token.

  Most tokens have one spelling. A number may have a fraction and an exponent. A character of a
  string may stand as itself or as an escape, and one beyond U+FFFF also as two escapes, the
  halves of a surrogate pair; a string with half a pair in it is a string of no text. Whichever
  lexeme of a token a text starts with, that token is what is read from it (`next?_lexeme`), if
  nothing follows a number that would belong to it.
-/

import GridQuery.Proofs.Json.Number

namespace GridQuery.Json.Token

/-! ## Numbers -/

/-- One digit or more. -/
def Digits (ds : List Char) : Prop := ds ≠ [] ∧ ∀ d ∈ ds, d.isDigit = true

inductive Fraction : List Char → Prop
  | absent : Fraction []
  | present {ds : List Char} : Digits ds → Fraction ('.' :: ds)

inductive Exponent : List Char → Prop
  | absent : Exponent []
  | present {e : Char} {sign ds : List Char} :
      e = 'e' ∨ e = 'E' → sign = [] ∨ sign = ['+'] ∨ sign = ['-'] → Digits ds → Exponent (e :: (sign ++ ds))

/-- A number in front of its fraction and exponent. A minus zero has no whole number of its own. -/
inductive IntegerPart : Option Int → List Char → Prop
  | whole (n : Int) : IntegerPart (some n) (Numeral.write n).toList
  | minusZero : IntegerPart none ['-', '0']

/-- A number with a fraction or an exponent counts as not whole, whatever its value. -/
inductive Number : Option Int → List Char → Prop
  | integer {n : Option Int} {cs : List Char} : IntegerPart n cs → Number n cs
  | real {n : Option Int} {cs fraction exponent : List Char} :
      IntegerPart n cs → Fraction fraction → Exponent exponent → fraction ++ exponent ≠ [] →
        Number none (cs ++ (fraction ++ exponent))

theorem afterDigits?_append {ds rest : List Char} (h : Digits ds) (hrest : rest.takeWhile Char.isDigit = []) :
    afterDigits? (ds ++ rest) = some rest := by
  rw [afterDigits?, takeWhile_isDigit_append h.2 hrest, dropWhile_isDigit_append h.2 hrest, if_neg h.1]

theorem afterSign_digits {ds rest : List Char} (h : Digits ds) : afterSign (ds ++ rest) = ds ++ rest := by
  obtain ⟨d, ds', rfl⟩ := List.exists_cons_of_ne_nil h.1
  have hd : d.isDigit = true := h.2 d List.mem_cons_self
  refine afterSign.eq_3 _ ?_ ?_
  all_goals
    intro cs hcs
    exact absurd (List.cons.inj hcs).1 (ne_of_isDigit hd rfl)

theorem Exponent.afterExponent?_append {exponent rest : List Char} (h : Exponent exponent) (hrest : Ends rest) :
    afterExponent? (exponent ++ rest) = some rest := by
  cases h with
  | absent => exact hrest.afterExponent?
  | @present e sign ds he hsign hds =>
    have hdigits : afterDigits? (ds ++ rest) = some rest := afterDigits?_append hds hrest.takeWhile_isDigit
    have hafter : afterDigits? (afterSign (sign ++ ds ++ rest)) = some rest := by
      rcases hsign with rfl | rfl | rfl
      · rw [List.nil_append, afterSign_digits hds, hdigits]
      · exact hdigits
      · exact hdigits
    rcases he with rfl | rfl <;> exact hafter

/-- No digit of the number is left in front of its exponent, and no fraction after it. -/
theorem Exponent.stops {exponent rest : List Char} (h : Exponent exponent) (hrest : Ends rest) :
    (exponent ++ rest).takeWhile Char.isDigit = [] ∧ afterFraction? (exponent ++ rest) = some (exponent ++ rest) := by
  cases h with
  | absent => exact ⟨hrest.takeWhile_isDigit, hrest.afterFraction?⟩
  | present he => rcases he with rfl | rfl <;> exact ⟨rfl, rfl⟩

theorem Fraction.afterFraction?_append {fraction rest : List Char} (h : Fraction fraction)
    (hdigits : rest.takeWhile Char.isDigit = []) (hrest : afterFraction? rest = some rest) :
    afterFraction? (fraction ++ rest) = some rest := by
  cases h with
  | absent => exact hrest
  | present hds => exact afterDigits?_append hds hdigits

theorem next?_integerPart {n : Option Int} {cs tail rest : List Char} (h : IntegerPart n cs)
    (hdigits : tail.takeWhile Char.isDigit = []) (htail : (afterFraction? tail).bind afterExponent? = some rest) :
    next? (cs ++ tail) = some (.num (if goesOn tail then none else n), rest) := by
  cases h with
  | whole n => exact next?_write_append n hdigits htail
  | minusZero =>
    show unsigned? (fun m => if m = 0 then none else some (-m)) (Nat.toDigits 10 0 ++ tail) = _
    rw [unsigned?_toDigits _ _ hdigits htail, if_pos rfl]

theorem goesOn_append {fraction exponent rest : List Char} (hf : Fraction fraction) (he : Exponent exponent)
    (hne : fraction ++ exponent ≠ []) : goesOn (fraction ++ exponent ++ rest) = true := by
  cases hf with
  | present _ => rfl
  | absent =>
    cases he with
    | present h => rcases h with rfl | rfl <;> rfl
    | absent => exact absurd rfl hne

theorem next?_number {n : Option Int} {cs rest : List Char} (h : Number n cs) (hrest : Ends rest) :
    next? (cs ++ rest) = some (.num n, rest) := by
  cases h with
  | integer hi =>
    have htail : (Token.afterFraction? rest).bind Token.afterExponent? = some rest := by
      rw [hrest.afterFraction?, Option.bind_some, hrest.afterExponent?]
    rw [next?_integerPart hi hrest.takeWhile_isDigit htail, hrest.goesOn, if_neg Bool.false_ne_true]
  | @real n cs fraction exponent hi hf he hne =>
    obtain ⟨hdigits, hfraction⟩ := he.stops hrest
    have htail : (Token.afterFraction? (fraction ++ exponent ++ rest)).bind Token.afterExponent? = some rest := by
      rw [List.append_assoc, hf.afterFraction?_append hdigits hfraction, Option.bind_some,
        he.afterExponent?_append hrest]
    have hstart : (fraction ++ exponent ++ rest).takeWhile Char.isDigit = [] := by
      cases hf with
      | present _ => rfl
      | absent => exact hdigits
    rw [List.append_assoc, next?_integerPart hi hstart htail, goesOn_append hf he hne, if_pos rfl]

/-! ## Strings -/

def IsHexDigit (k : Nat) (c : Char) : Prop := k < 16 ∧ (c = Nat.digitChar k ∨ c = (Nat.digitChar k).toUpper)

/-- Four hexadecimal digits, capitals or not. -/
inductive Hex : Nat → List Char → Prop
  | digits {i j k l : Nat} {a b c d : Char} : IsHexDigit i a → IsHexDigit j b → IsHexDigit k c → IsHexDigit l d →
      Hex (16 * (16 * (16 * i + j) + k) + l) [a, b, c, d]

/-- The letters that stand for a character after a backslash. -/
def letters : List (Char × Char) :=
  [('"', '"'), ('\\', '\\'), ('/', '/'), ('b', '\x08'), ('f', '\x0c'), ('n', '\n'), ('r', '\r'), ('t', '\t')]

/-- A character or an escape in a string, by its code point or, for half of a surrogate pair, that. -/
inductive Piece : Nat → List Char → Prop
  | plain {c : Char} : c ≠ '"' → c ≠ '\\' → 0x20 ≤ c.toNat → Piece c.toNat [c]
  | letter {l c : Char} : (l, c) ∈ letters → Piece c.toNat ['\\', l]
  | hex {n : Nat} {cs : List Char} : Hex n cs → Piece n ('\\' :: 'u' :: cs)

inductive Pieces : List Nat → List Char → Prop
  | nil : Pieces [] []
  | cons {n : Nat} {ns : List Nat} {piece cs : List Char} :
      Piece n piece → Pieces ns cs → Pieces (n :: ns) (piece ++ cs)

/-- The codes that the characters of a string may have: each its own, or the two halves of a surrogate pair. -/
inductive Codes : List Char → List Nat → Prop
  | nil : Codes [] []
  | one {c : Char} {cs : List Char} {ns : List Nat} : Codes cs ns → Codes (c :: cs) (c.toNat :: ns)
  | pair {c : Char} {cs : List Char} {high low : Nat} {ns : List Nat} :
      0xD800 ≤ high → high < 0xDC00 → 0xDC00 ≤ low → low < 0xE000 →
      c.toNat = 0x10000 + 0x400 * (high - 0xD800) + (low - 0xDC00) →
      Codes cs ns → Codes (c :: cs) (high :: low :: ns)

theorem hexDigit?_of_isHexDigit {k : Nat} {c : Char} (h : IsHexDigit k c) : hexDigit? c = some k := by
  have hdigit : ∀ k < 16, hexDigit? (Nat.digitChar k) = some k ∧ hexDigit? (Nat.digitChar k).toUpper = some k := by
    decide
  obtain ⟨hk, rfl | rfl⟩ := h
  · exact (hdigit k hk).1
  · exact (hdigit k hk).2

theorem hex?_of_hex {n : Nat} {cs : List Char} (h : Hex n cs) : hex? cs = some n := by
  cases h with
  | digits ha hb hc hd =>
    simp only [hex?, List.foldlM_cons, List.foldlM_nil, hexDigit?_of_isHexDigit ha, hexDigit?_of_isHexDigit hb,
      hexDigit?_of_isHexDigit hc, hexDigit?_of_isHexDigit hd, Option.map_some, Option.bind_eq_bind, Option.bind_some,
      Nat.mul_zero, Nat.zero_add]
    rfl

theorem unescape?_of_mem {l c : Char} (h : (l, c) ∈ letters) : unescape? l = some c := by
  have hletters : ∀ p ∈ letters, unescape? p.1 = some p.2 := by decide
  exact hletters _ h

/-- However a character is written, it counts as its code. -/
theorem codes?_piece {n : Nat} {piece : List Char} (h : Piece n piece) (cs : List Char) :
    codes? (piece ++ cs) = (codes? cs).map (also n) := by
  cases h with
  | @plain c hquote hslash hlow =>
    rw [List.singleton_append, codes?.eq_5 _ _ hquote (fun _ _ _ _ _ h _ => hslash h) (fun _ _ h _ => hslash h),
      if_neg]
    rintro (h | h)
    · exact hslash h
    · omega
  | @letter l c hl =>
    have hu : l ≠ 'u' := by
      rintro rfl
      revert hl
      simp [letters]
    show codes? ('\\' :: l :: cs) = _
    rw [codes?.eq_4 _ _ (fun _ _ _ _ _ h _ => hu h), unescape?_of_mem hl]
    rfl
  | hex hn =>
    cases hn with
    | digits ha hb hc hd =>
      show codes? ('\\' :: 'u' :: _ :: _ :: _ :: _ :: cs) = _
      rw [codes?.eq_3, hex?_of_hex (.digits ha hb hc hd)]
      rfl

theorem codes?_pieces {ns : List Nat} {body : List Char} (h : Pieces ns body) (rest : List Char) :
    codes? (body ++ '"' :: rest) = some (ns, rest) := by
  induction h with
  | nil => rfl
  | cons hpiece _ ih =>
    rw [List.append_assoc, codes?_piece hpiece, ih]
    rfl

/-- No character is half of a surrogate pair. -/
theorem not_half (c : Char) : isHighHalf c.toNat = false ∧ isLowHalf c.toNat = false := by
  have hvalid : c.toNat < 0xD800 ∨ 0xDFFF < c.toNat ∧ c.toNat < 0x110000 := c.valid
  simp only [isHighHalf, isLowHalf, Bool.and_eq_false_iff, decide_eq_false_iff_not]
  omega

theorem chars?_of_codes {cs : List Char} {ns : List Nat} (h : Codes cs ns) : chars? ns = some cs := by
  induction h with
  | nil => rfl
  | @one c cs ns _ ih =>
    obtain ⟨hhigh, hlow⟩ := not_half c
    rw [chars?.eq_def]
    simp only [hhigh, hlow, Bool.false_eq_true, if_false, ih, Option.map_some, Char.ofNat_toNat]
  | @pair c cs high low ns h1 h2 h3 h4 hc _ ih =>
    have hhigh : isHighHalf high = true := by simp [isHighHalf, h1, h2]
    have hlow : isLowHalf low = true := by simp [isLowHalf, h3, h4]
    rw [chars?.eq_def]
    simp only [hhigh, hlow, if_true, ih, Option.map_some, ← hc, Char.ofNat_toNat]

theorem lt_of_piece {n : Nat} {piece : List Char} (h : Piece n piece) : n < 0x110000 := by
  cases h with
  | @plain c _ _ _ =>
    have hvalid : c.toNat < 0xD800 ∨ 0xDFFF < c.toNat ∧ c.toNat < 0x110000 := c.valid
    omega
  | @letter l c _ =>
    have hvalid : c.toNat < 0xD800 ∨ 0xDFFF < c.toNat ∧ c.toNat < 0x110000 := c.valid
    omega
  | hex h =>
    cases h with
    | digits ha hb hc hd =>
      have := ha.1; have := hb.1; have := hc.1; have := hd.1
      omega

theorem toNat_ofNat {n : Nat} (h : n.isValidChar) : (Char.ofNat n).toNat = n := by
  have hchar : Char.ofNat n = Char.ofNatAux n h := dif_pos h
  rw [hchar]
  rfl

theorem codes_of_chars? {ns : List Nat} {cs : List Char} (hns : ∀ n ∈ ns, n < 0x110000) (h : chars? ns = some cs) :
    Codes cs ns := by
  fun_induction chars? ns generalizing cs with
  | case1 =>
    cases h
    exact .nil
  | case2 high hhigh low ns hlow ih =>
    obtain ⟨cs, hcs, rfl⟩ := Option.map_eq_some_iff.mp h
    simp only [isHighHalf, isLowHalf, Bool.and_eq_true, decide_eq_true_eq] at hhigh hlow
    refine .pair hhigh.1 hhigh.2 hlow.1 hlow.2 ?_ (ih (fun n hn => hns n (by simp [hn])) hcs)
    exact toNat_ofNat (by unfold Nat.isValidChar; omega)
  | case3 => cases h
  | case4 => cases h
  | case5 => cases h
  | case6 n ns hhigh hlow ih =>
    obtain ⟨cs, hcs, rfl⟩ := Option.map_eq_some_iff.mp h
    obtain ⟨hn, hns⟩ := List.forall_mem_cons.mp hns
    simp only [isHighHalf, isLowHalf, Bool.and_eq_true, decide_eq_true_eq] at hhigh hlow
    have hvalid : n.isValidChar := by unfold Nat.isValidChar; omega
    have hone := Codes.one (c := Char.ofNat n) (ih hns hcs)
    rwa [toNat_ofNat hvalid] at hone

theorem lt_of_pieces {ns : List Nat} {body : List Char} (h : Pieces ns body) : ∀ n ∈ ns, n < 0x110000 := by
  induction h with
  | nil => nofun
  | cons hpiece _ ih => exact List.forall_mem_cons.mpr ⟨lt_of_piece hpiece, ih⟩

theorem chars?_eq_none {ns : List Nat} {body : List Char} (h : Pieces ns body) (hnone : ∀ cs, ¬ Codes cs ns) :
    chars? ns = none := by
  cases hcs : chars? ns with
  | none => rfl
  | some cs => exact absurd (codes_of_chars? (lt_of_pieces h) hcs) (hnone cs)

/-! ## Tokens -/

inductive Lexeme : Token → List Char → Prop
  | openArray : Lexeme .openArray ['[']
  | closeArray : Lexeme .closeArray [']']
  | openObject : Lexeme .openObject ['\x7b']
  | closeObject : Lexeme .closeObject ['\x7d']
  | comma : Lexeme .comma [',']
  | colon : Lexeme .colon [':']
  | null : Lexeme .null ['n', 'u', 'l', 'l']
  | true : Lexeme (.bool true) ['t', 'r', 'u', 'e']
  | false : Lexeme (.bool false) ['f', 'a', 'l', 's', 'e']
  | num {n : Option Int} {cs : List Char} : Number n cs → Lexeme (.num n) cs
  | str {s : String} {ns : List Nat} {body : List Char} :
      Pieces ns body → Codes s.toList ns → Lexeme (.str (some s)) ('"' :: (body ++ ['"']))
  /-- A half of a surrogate pair stands alone. -/
  | halves {ns : List Nat} {body : List Char} :
      Pieces ns body → (∀ cs, ¬ Codes cs ns) → Lexeme (.str none) ('"' :: (body ++ ['"']))

theorem next?_string {ns : List Nat} {body : List Char} (h : Pieces ns body) (rest : List Char) :
    next? ('"' :: (body ++ ['"']) ++ rest) = some (.str ((chars? ns).map String.ofList), rest) := by
  have htext : '"' :: (body ++ ['"']) ++ rest = '"' :: (body ++ '"' :: rest) := by
    simp
  rw [htext]
  show string? (body ++ '"' :: rest) = _
  rw [string?, codes?_pieces h]
  rfl

theorem next?_lexeme {t : Token} {lexeme rest : List Char} (h : Lexeme t lexeme) (hends : ∀ n, t = .num n → Ends rest) :
    next? (lexeme ++ rest) = some (t, rest) := by
  cases h with
  | num hn => exact next?_number hn (hends _ rfl)
  | str hbody hs => rw [next?_string hbody, chars?_of_codes hs, Option.map_some, String.ofList_toList]
  | halves hbody hnone => rw [next?_string hbody, chars?_eq_none hbody hnone, Option.map_none]
  | _ => rfl

end GridQuery.Json.Token
