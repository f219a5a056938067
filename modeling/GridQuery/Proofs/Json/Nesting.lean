/-
  GridQuery.Proofs.Json.Nesting — how many brackets are open at once.

  In a text they are counted by going through it (`mostOpen`); a bracket inside a string is none,
  and a quote after a backslash does not end the string. In a value the same number is the
  depth to which arrays and objects stand in one another, whichever of its texts it has
  (`mostOpen_of_text`).
-/

import GridQuery.Proofs.Json.Layout

namespace GridQuery.Json

/-! ## In a text -/

/-- Where in a text a character stands. -/
inductive Position where
  | outside
  | string
  /-- Right after a backslash in a string. -/
  | escape

/-- The most brackets open at once in what is left of a text, `n` being open already. -/
def peak : Position → Nat → List Char → Nat
  | _, n, [] => n
  | .outside, n, c :: cs =>
    if c = '"' then peak .string n cs
    else if c = '[' ∨ c = '\x7b' then peak .outside (n + 1) cs
    else if c = ']' ∨ c = '\x7d' then max n (peak .outside (n - 1) cs)
    else peak .outside n cs
  | .string, n, c :: cs =>
    if c = '"' then peak .outside n cs
    else if c = '\\' then peak .escape n cs
    else peak .string n cs
  | .escape, n, _ :: cs => peak .string n cs

def mostOpen (text : String) : Nat := peak .outside 0 text.toList

/-- A character that is no bracket and no quote. -/
def isPlain (c : Char) : Bool := !(['"', '[', ']', '\x7b', '\x7d'].contains c)

theorem peak_plain {cs : List Char} (h : ∀ c ∈ cs, isPlain c = true) (n : Nat) (rest : List Char) :
    peak .outside n (cs ++ rest) = peak .outside n rest := by
  induction cs with
  | nil => rfl
  | cons c cs ih =>
    obtain ⟨hc, hcs⟩ := List.forall_mem_cons.mp h
    simp only [isPlain, List.contains_eq_mem, List.mem_cons, List.not_mem_nil, or_false, Bool.not_eq_true',
      decide_eq_false_iff_not, not_or] at hc
    simp only [List.cons_append, peak, hc, or_self, if_false]
    exact ih hcs

theorem peak_string_cons {c : Char} (hquote : c ≠ '"') (hslash : c ≠ '\\') (n : Nat) (rest : List Char) :
    peak .string n (c :: rest) = peak .string n rest := by
  rw [peak, if_neg hquote, if_neg hslash]

theorem isPlain_of_isDigit {c : Char} (h : c.isDigit = true) : isPlain c = true := by
  simp [isPlain, Token.ne_of_isDigit h]

theorem isPlain_of_mem_write {n : Int} {c : Char} (h : c ∈ (Numeral.write n).toList) : isPlain c = true := by
  rcases Numeral.mem_write h with rfl | hdigit
  · rfl
  · exact isPlain_of_isDigit hdigit

/-! ## In a value -/

mutual

/-- How deep arrays and objects stand in one another. -/
def depth : Json → Nat
  | .arr items => itemsDepth items + 1
  | .obj members => membersDepth members + 1
  | _ => 0

def itemsDepth : List Json → Nat
  | [] => 0
  | v :: vs => max v.depth (itemsDepth vs)

def membersDepth : List (Option String × Json) → Nat
  | [] => 0
  | m :: ms => max (memberDepth m) (membersDepth ms)

def memberDepth : Option String × Json → Nat
  | (_, v) => v.depth

end

/-! ## The same number -/

/-- The most brackets open at once while some tokens go by, `n` being open before them. -/
def tokenPeak (n : Nat) : List Token → Nat
  | [] => n
  | .openArray :: ts => tokenPeak (n + 1) ts
  | .openObject :: ts => tokenPeak (n + 1) ts
  | .closeArray :: ts => max n (tokenPeak (n - 1) ts)
  | .closeObject :: ts => max n (tokenPeak (n - 1) ts)
  | _ :: ts => tokenPeak n ts

theorem le_tokenPeak (n : Nat) (ts : List Token) : n ≤ tokenPeak n ts := by
  fun_induction tokenPeak n ts <;> omega

theorem isPlain_of_mem_number {n : Option Int} {cs : List Char} (h : Token.Number n cs) :
    ∀ c ∈ cs, isPlain c = true := by
  have hinteger {n : Option Int} {cs : List Char} (h : Token.IntegerPart n cs) : ∀ c ∈ cs, isPlain c = true := by
    cases h with
    | whole n => exact fun _ => isPlain_of_mem_write
    | minusZero => exact List.all_eq_true.mp rfl
  have hdigits {ds : List Char} (h : Token.Digits ds) : ∀ c ∈ ds, isPlain c = true :=
    fun c hc => isPlain_of_isDigit (h.2 c hc)
  cases h with
  | integer h => exact hinteger h
  | real h hf he _ =>
    refine List.forall_mem_append.mpr ⟨hinteger h, List.forall_mem_append.mpr ⟨?_, ?_⟩⟩
    · cases hf with
      | absent => exact nofun
      | present hds => exact List.forall_mem_cons.mpr ⟨rfl, hdigits hds⟩
    · cases he with
      | absent => exact nofun
      | present he hsign hds =>
        refine List.forall_mem_cons.mpr ⟨?_, List.forall_mem_append.mpr ⟨?_, hdigits hds⟩⟩
        · rcases he with rfl | rfl <;> rfl
        · rcases hsign with rfl | rfl | rfl <;> exact List.all_eq_true.mp rfl

/-- No escape leaves the string that it stands in. -/
theorem peak_piece {code : Nat} {piece : List Char} (h : Token.Piece code piece) (n : Nat) (rest : List Char) :
    peak .string n (piece ++ rest) = peak .string n rest := by
  cases h with
  | plain hquote hslash _ => exact peak_string_cons hquote hslash n rest
  | letter _ => rfl
  | hex hn =>
    cases hn with
    | digits ha hb hc hd =>
      have hdigit : ∀ k < 16, (Nat.digitChar k ≠ '"' ∧ Nat.digitChar k ≠ '\\') ∧
          (Nat.digitChar k).toUpper ≠ '"' ∧ (Nat.digitChar k).toUpper ≠ '\\' := by decide
      have hplain {k : Nat} {c : Char} (h : Token.IsHexDigit k c) : c ≠ '"' ∧ c ≠ '\\' := by
        obtain ⟨hk, rfl | rfl⟩ := h
        · exact (hdigit k hk).1
        · exact (hdigit k hk).2
      show peak .string n (_ :: _ :: _ :: _ :: rest) = _
      rw [peak_string_cons (hplain ha).1 (hplain ha).2, peak_string_cons (hplain hb).1 (hplain hb).2,
        peak_string_cons (hplain hc).1 (hplain hc).2, peak_string_cons (hplain hd).1 (hplain hd).2]

theorem peak_string {codes : List Nat} {body : List Char} (h : Token.Pieces codes body) (n : Nat) (rest : List Char) :
    peak .outside n ('"' :: (body ++ ['"']) ++ rest) = peak .outside n rest := by
  have hbody : peak .string n (body ++ '"' :: rest) = peak .outside n rest := by
    induction h with
    | nil => rfl
    | cons hpiece _ ih => rw [List.append_assoc, peak_piece hpiece, ih]
  rw [List.cons_append, List.append_assoc, peak, if_pos rfl]
  exact hbody

theorem peak_laid {ts : List Token} {cs : List Char} (h : Laid ts cs) (n : Nat) :
    peak .outside n cs = tokenPeak n ts := by
  induction h generalizing n with
  | done => rfl
  | @space c ts cs hc _ ih =>
    have hplain : ∀ d ∈ [c], isPlain d = true := by
      refine List.forall_mem_singleton.mpr ?_
      rcases Token.isSpace_iff.mp hc with rfl | rfl | rfl | rfl <;> rfl
    rw [← List.singleton_append, peak_plain hplain, ih]
  | token hl _ ih =>
    cases hl with
    | openArray => exact ih (n + 1)
    | openObject => exact ih (n + 1)
    | closeArray => exact congrArg (max n) (ih (n - 1))
    | closeObject => exact congrArg (max n) (ih (n - 1))
    | num hn => exact (peak_plain (isPlain_of_mem_number hn) n _).trans (ih n)
    | str hbody _ => exact (peak_string hbody n _).trans (ih n)
    | halves hbody _ => exact (peak_string hbody n _).trans (ih n)
    | _ => exact ih n

mutual

theorem tokenPeak_tokens : (j : Json) → (n : Nat) → (us : List Token) →
    tokenPeak n (j.tokens ++ us) = max (n + j.depth) (tokenPeak n us)
  | .null, n, us => (Nat.max_eq_right (le_tokenPeak n us)).symm
  | .bool _, n, us => (Nat.max_eq_right (le_tokenPeak n us)).symm
  | .num _, n, us => (Nat.max_eq_right (le_tokenPeak n us)).symm
  | .str _, n, us => (Nat.max_eq_right (le_tokenPeak n us)).symm
  | .arr [], n, us => rfl
  | .arr (v :: vs), n, us => by
    rw [tokens, List.cons_append, List.append_assoc]
    show tokenPeak (n + 1) (v.tokens ++ (furtherItemTokens vs ++ us)) = max (n + (itemsDepth (v :: vs) + 1)) _
    rw [tokenPeak_tokens v, tokenPeak_furtherItems vs, itemsDepth]
    omega
  | .obj [], n, us => rfl
  | .obj ((key, v) :: ms), n, us => by
    rw [tokens, memberTokens, List.cons_append, List.cons_append, List.cons_append, List.append_assoc]
    show tokenPeak (n + 1) (v.tokens ++ (furtherMemberTokens ms ++ us)) =
      max (n + (max v.depth (membersDepth ms) + 1)) _
    rw [tokenPeak_tokens v, tokenPeak_furtherMembers ms]
    omega

theorem tokenPeak_furtherItems : (vs : List Json) → (n : Nat) → (us : List Token) →
    tokenPeak (n + 1) (furtherItemTokens vs ++ us) = max (n + 1 + itemsDepth vs) (tokenPeak n us)
  | [], n, us => rfl
  | v :: vs, n, us => by
    rw [furtherItemTokens, List.cons_append, List.append_assoc]
    show tokenPeak (n + 1) (v.tokens ++ (furtherItemTokens vs ++ us)) = _
    rw [tokenPeak_tokens v, tokenPeak_furtherItems vs, itemsDepth]
    omega

theorem tokenPeak_furtherMembers : (ms : List (Option String × Json)) → (n : Nat) → (us : List Token) →
    tokenPeak (n + 1) (furtherMemberTokens ms ++ us) = max (n + 1 + membersDepth ms) (tokenPeak n us)
  | [], n, us => rfl
  | (key, v) :: ms, n, us => by
    rw [furtherMemberTokens, memberTokens, List.cons_append, List.cons_append, List.cons_append, List.append_assoc]
    show tokenPeak (n + 1) (v.tokens ++ (furtherMemberTokens ms ++ us)) = max (n + 1 + max v.depth (membersDepth ms)) _
    rw [tokenPeak_tokens v, tokenPeak_furtherMembers ms]
    omega

end

/-- Whatever text a value has, as many brackets are open in it at once as the value is deep. -/
theorem mostOpen_of_text {j : Json} {text : String} (h : Text j text) : mostOpen text = j.depth := by
  have htokens := tokenPeak_tokens j 0 []
  rw [List.append_nil] at htokens
  rw [mostOpen, peak_laid h, htokens, Nat.zero_add]
  exact Nat.max_eq_left (Nat.zero_le _)

theorem mostOpen_written {j : Json} (h : HasText j) : mostOpen j.written = j.depth := mostOpen_of_text (text_written h)

end GridQuery.Json
