/-
  GridQuery.Proofs.Json.Accepted — nothing is read as a value but its texts.

  What is cut off the front of a text as a token is one of the token's lexemes, with any space in front
  of it (`lexeme_of_next?`). Whatever has been read so far stands in the frames that are open and in
  what is being read in the innermost of them, so the tokens that led there can be written down
  from that alone (`Partial.taken`), and each further token comes to stand at their end
  (`Partial.taken_of_feed`). At a whole value with nothing open around it, they are the tokens of the
  value.

  So a text that is read as a value is one of its texts, laid out in some way, and all of these are read
  as the value (`read?_eq_some_iff`).
-/

import GridQuery.Proofs.Json.Layout
import Mathlib.Data.List.Induction
import Mathlib.Data.List.TakeWhile

namespace GridQuery.Json

namespace Token

/-! ## Numbers -/

theorem toDigits_of_isDigit {d : Char} (h : d.isDigit = true) :
    d.toNat - '0'.toNat < 10 ∧ Nat.toDigits 10 (d.toNat - '0'.toNat) = [d] := by
  have hdigit : ∀ n < 58, 48 ≤ n → n - 48 < 10 ∧ Nat.toDigits 10 (n - 48) = [Char.ofNat n] := by decide
  obtain ⟨hle, hge⟩ : 48 ≤ d.toNat ∧ d.toNat ≤ 57 := Char.isDigit_iff_toNat.mp h
  have hd := hdigit d.toNat (by omega) hle
  rwa [Char.ofNat_toNat] at hd

/-- Digits with no zero in front are those of the number they write. -/
theorem eq_toDigits {ds : List Char} (hds : Digits ds) (hzero : ∀ d rest, ds ≠ '0' :: d :: rest) :
    ds = Nat.toDigits 10 (Nat.ofDigitChars 10 ds 0) := by
  induction ds using List.reverseRecOn with
  | nil => exact absurd rfl hds.1
  | append_singleton ds d ih =>
    obtain ⟨hall, hd⟩ := List.forall_mem_append.mp hds.2
    obtain ⟨hlt, hdigit⟩ := toDigits_of_isDigit (hd d List.mem_cons_self)
    rw [Nat.ofDigitChars_append, Nat.ofDigitChars_cons, Nat.ofDigitChars_nil]
    by_cases hnil : ds = []
    · subst hnil
      rw [Nat.ofDigitChars_nil, Nat.mul_zero, Nat.zero_add, hdigit]
      rfl
    · have hinit : ∀ c rest, ds ≠ '0' :: c :: rest := by
        rintro c rest rfl
        exact hzero c (rest ++ [d]) rfl
      have hds := ih ⟨hnil, hall⟩ hinit
      have hpos : 0 < Nat.ofDigitChars 10 ds 0 := by
        by_contra hzero'
        rw [Nat.eq_zero_of_not_pos hzero', Nat.toDigits_zero] at hds
        rw [hds] at hzero
        exact hzero d [] rfl
      rw [← Nat.toDigits_append_toDigits (by decide) hpos hlt, hdigit, ← hds]

theorem digits_takeWhile {cs : List Char} (h : cs.takeWhile Char.isDigit ≠ []) : Digits (cs.takeWhile Char.isDigit) :=
  ⟨h, fun _ hd => List.mem_takeWhile_imp hd⟩

theorem eq_of_digits? {cs rest : List Char} {n : Nat} (h : digits? cs = some (n, rest)) :
    cs = Nat.toDigits 10 n ++ rest := by
  have hsplit := List.takeWhile_append_dropWhile (p := Char.isDigit) (l := cs)
  unfold digits? at h
  split at h
  · cases h
  · cases h
  · rename_i hne hzero
    cases h
    rw [← eq_toDigits (digits_takeWhile hne) fun d ds => hzero d ds]
    exact hsplit.symm

theorem digits_of_afterDigits? {cs rest : List Char} (h : afterDigits? cs = some rest) :
    ∃ ds, Digits ds ∧ cs = ds ++ rest := by
  unfold afterDigits? at h
  split at h
  · cases h
  · rename_i hne
    cases h
    exact ⟨_, digits_takeWhile hne, List.takeWhile_append_dropWhile.symm⟩

theorem sign_afterSign (cs : List Char) :
    ∃ sign, (sign = [] ∨ sign = ['+'] ∨ sign = ['-']) ∧ cs = sign ++ afterSign cs := by
  unfold afterSign
  split
  · exact ⟨['+'], .inr (.inl rfl), rfl⟩
  · exact ⟨['-'], .inr (.inr rfl), rfl⟩
  · exact ⟨[], .inl rfl, rfl⟩

theorem exponent_of_afterSign {e : Char} {cs rest : List Char} (he : e = 'e' ∨ e = 'E')
    (h : afterDigits? (afterSign cs) = some rest) :
    ∃ exponent, Exponent exponent ∧ exponent ≠ [] ∧ e :: cs = exponent ++ rest := by
  obtain ⟨sign, hsign, hcs⟩ := sign_afterSign cs
  obtain ⟨ds, hds, hafter⟩ := digits_of_afterDigits? h
  refine ⟨e :: (sign ++ ds), .present he hsign hds, List.cons_ne_nil _ _, ?_⟩
  rw [List.cons_append, List.append_assoc, ← hafter, ← hcs]

theorem exponent_of_afterExponent? {cs rest : List Char} (h : afterExponent? cs = some rest) :
    ∃ exponent, Exponent exponent ∧ cs = exponent ++ rest := by
  unfold afterExponent? at h
  split at h
  · obtain ⟨exponent, hexponent, -, hcs⟩ := exponent_of_afterSign (.inl rfl) h
    exact ⟨exponent, hexponent, hcs⟩
  · obtain ⟨exponent, hexponent, -, hcs⟩ := exponent_of_afterSign (.inr rfl) h
    exact ⟨exponent, hexponent, hcs⟩
  · cases h
    exact ⟨[], .absent, rfl⟩

/-- What follows the digits of a number, up to its end: nothing, or a fraction, an exponent or both. -/
theorem tail_of_after {tail rest : List Char} (h : (afterFraction? tail).bind afterExponent? = some rest) :
    ∃ fraction exponent, Fraction fraction ∧ Exponent exponent ∧ tail = fraction ++ exponent ++ rest ∧
      (goesOn tail = true ↔ fraction ++ exponent ≠ []) := by
  have hexponent {e : Char} {cs : List Char} (he : e = 'e' ∨ e = 'E') (h : afterDigits? (afterSign cs) = some rest)
      (hgoes : goesOn (e :: cs) = true) :
      ∃ fraction exponent, Fraction fraction ∧ Exponent exponent ∧ e :: cs = fraction ++ exponent ++ rest ∧
        (goesOn (e :: cs) = true ↔ fraction ++ exponent ≠ []) := by
    obtain ⟨exponent, hexponent, hne, hcs⟩ := exponent_of_afterSign he h
    exact ⟨[], exponent, .absent, hexponent, hcs, iff_of_true hgoes hne⟩
  unfold goesOn
  split
  · rename_i cs
    obtain ⟨mid, hmid, hrest⟩ := Option.bind_eq_some_iff.mp h
    obtain ⟨ds, hds, hcs⟩ := digits_of_afterDigits? hmid
    obtain ⟨exponent, hexponent, hafter⟩ := exponent_of_afterExponent? hrest
    refine ⟨'.' :: ds, exponent, .present hds, hexponent, ?_, iff_of_true rfl (List.cons_ne_nil _ _)⟩
    rw [List.cons_append, List.cons_append, List.append_assoc, ← hafter, ← hcs]
  · exact hexponent (.inl rfl) h rfl
  · exact hexponent (.inr rfl) h rfl
  · rename_i hpoint he hE
    rw [afterFraction?.eq_2 _ hpoint, Option.bind_some, afterExponent?.eq_3 _ he hE] at h
    cases h
    exact ⟨[], [], .absent, .absent, rfl, iff_of_false Bool.false_ne_true (fun h => h rfl)⟩

/-- A number with what may stand in front of its digits, from the whole number that these are taken for. -/
theorem number_of_unsigned? (sign : List Char) {value : Nat → Option Int} {cs rest : List Char} {t : Token}
    (hvalue : ∀ n, IntegerPart (value n) (sign ++ Nat.toDigits 10 n)) (h : unsigned? value cs = some (t, rest)) :
    ∃ n lexeme, t = .num n ∧ Number n lexeme ∧ sign ++ cs = lexeme ++ rest := by
  simp only [unsigned?, bind, Option.bind_eq_some_iff] at h
  obtain ⟨⟨n, tail⟩, hdigits, last, htail, hlast⟩ := h
  have hafter : (afterFraction? tail).bind afterExponent? = some last := Option.bind_eq_some_iff.mpr htail
  obtain ⟨fraction, exponent, hfraction, hexponent, hparts, hgoes⟩ := tail_of_after hafter
  have hcs := eq_of_digits? hdigits
  cases hlast
  by_cases hmore : goesOn tail = true
  · rw [if_pos hmore]
    refine ⟨none, _, rfl, .real (hvalue n) hfraction hexponent (hgoes.mp hmore), ?_⟩
    rw [hcs, hparts]
    simp only [List.append_assoc]
  · rw [if_neg hmore]
    have hnil : fraction ++ exponent = [] := by
      by_contra hne
      exact hmore (hgoes.mpr hne)
    refine ⟨value n, _, rfl, .integer (hvalue n), ?_⟩
    rw [hcs, hparts, hnil, List.nil_append, List.append_assoc]

theorem integerPart_natAbs {n : Int} (h : 0 ≤ n) : IntegerPart (some n) (Nat.toDigits 10 n.natAbs) := by
  have hwhole := IntegerPart.whole n
  rwa [Numeral.write, if_neg (Int.not_lt.mpr h), Numeral.toList_writeNat] at hwhole

theorem integerPart_minus (n : Nat) :
    IntegerPart (if n = 0 then none else some (-n)) ('-' :: Nat.toDigits 10 n) := by
  by_cases hn : n = 0
  · subst hn
    exact .minusZero
  · have hwhole := IntegerPart.whole (-n)
    rw [Numeral.write, if_pos (by omega), String.toList_append, Numeral.toList_writeNat, Int.natAbs_neg,
      Int.natAbs_natCast] at hwhole
    rwa [if_neg hn]

theorem number_of_number? {cs rest : List Char} {t : Token} (h : number? cs = some (t, rest)) :
    ∃ n lexeme, t = .num n ∧ Number n lexeme ∧ cs = lexeme ++ rest := by
  unfold number? at h
  split at h
  · exact number_of_unsigned? ['-'] integerPart_minus h
  · refine number_of_unsigned? [] (fun n => ?_) h
    exact integerPart_natAbs (Int.natCast_nonneg n)

/-! ## Strings -/

theorem lt_of_hexDigit? {c : Char} {k : Nat} (h : hexDigit? c = some k) : c.toNat < 103 := by
  have hle {d : Char} (h : c ≤ d) : c.toNat ≤ d.toNat := UInt32.le_iff_toNat_le.mp h
  unfold hexDigit? at h
  split at h
  · rename_i hrange
    exact Nat.lt_of_le_of_lt (hle hrange.2) (by decide)
  · split at h
    · rename_i hrange
      exact Nat.lt_of_le_of_lt (hle hrange.2) (by decide)
    · split at h
      · rename_i hrange
        exact Nat.lt_of_le_of_lt (hle hrange.2) (by decide)
      · cases h

theorem isHexDigit_of_hexDigit? {c : Char} {k : Nat} (h : hexDigit? c = some k) : IsHexDigit k c := by
  have hdigit : ∀ n < 103, ∀ k ∈ hexDigit? (Char.ofNat n),
      k < 16 ∧ (Char.ofNat n = Nat.digitChar k ∨ Char.ofNat n = (Nat.digitChar k).toUpper) := by
    decide
  have hc := hdigit c.toNat (lt_of_hexDigit? h)
  rw [Char.ofNat_toNat] at hc
  exact hc k h

theorem hex_of_hex? {a b c d : Char} {n : Nat} (h : hex? [a, b, c, d] = some n) : Hex n [a, b, c, d] := by
  simp only [hex?, List.foldlM_cons, List.foldlM_nil, Option.bind_eq_bind, Option.bind_eq_some_iff,
    Option.map_eq_some_iff, Option.pure_def, Option.some_inj] at h
  obtain ⟨_, ⟨i, ha, rfl⟩, _, ⟨j, hb, rfl⟩, _, ⟨k, hc, rfl⟩, _, ⟨l, hd, rfl⟩, rfl⟩ := h
  rw [Nat.mul_zero, Nat.zero_add]
  exact .digits (isHexDigit_of_hexDigit? ha) (isHexDigit_of_hexDigit? hb) (isHexDigit_of_hexDigit? hc)
    (isHexDigit_of_hexDigit? hd)

theorem mem_letters_of_unescape? {l c : Char} (h : unescape? l = some c) : (l, c) ∈ letters := by
  unfold unescape? at h
  split at h
  case h_9 => cases h
  all_goals
    cases h
    decide

/-- One more piece in front of what is a string's end. -/
theorem pieces_cons {n : Nat} {ns : List Nat} {piece cs rest : List Char} (hpiece : Piece n piece)
    (hcs : ∀ {ms after}, codes? cs = some (ms, after) → ∃ body, Pieces ms body ∧ cs = body ++ '"' :: after)
    (h : (codes? cs).map (also n) = some (ns, rest)) : ∃ body, Pieces ns body ∧ piece ++ cs = body ++ '"' :: rest := by
  obtain ⟨⟨ms, after⟩, hcodes, hread⟩ := Option.map_eq_some_iff.mp h
  cases hread
  obtain ⟨body, hbody, hsplit⟩ := hcs hcodes
  refine ⟨piece ++ body, .cons hpiece hbody, ?_⟩
  rw [hsplit, List.append_assoc]

theorem pieces_of_codes? {cs rest : List Char} {ns : List Nat} (h : codes? cs = some (ns, rest)) :
    ∃ body, Pieces ns body ∧ cs = body ++ '"' :: rest := by
  fun_induction codes? cs generalizing ns rest with
  | case1 => cases h
  | case2 cs =>
    cases h
    exact ⟨[], .nil, rfl⟩
  | case3 a b c d cs ih =>
    obtain ⟨n, hn, hrest⟩ := Option.bind_eq_some_iff.mp h
    exact pieces_cons (.hex (hex_of_hex? hn)) ih hrest
  | case4 l cs _ ih =>
    obtain ⟨c, hc, hrest⟩ := Option.bind_eq_some_iff.mp h
    exact pieces_cons (.letter (mem_letters_of_unescape? hc)) ih hrest
  | case5 => cases h
  | case6 c cs hquote _ _ hplain ih =>
    exact pieces_cons (.plain hquote (fun hc => hplain (.inl hc)) (by omega)) ih h

theorem lexeme_of_string? {cs rest : List Char} {t : Token} (h : string? cs = some (t, rest)) :
    ∃ lexeme, Lexeme t lexeme ∧ '"' :: cs = lexeme ++ rest := by
  obtain ⟨⟨ns, after⟩, hcodes, hread⟩ := Option.map_eq_some_iff.mp h
  cases hread
  obtain ⟨body, hbody, hcs⟩ := pieces_of_codes? hcodes
  refine ⟨'"' :: (body ++ ['"']), ?_, ?_⟩
  · cases hchars : chars? ns with
    | none =>
      refine .halves hbody fun chars hcodes => ?_
      rw [chars?_of_codes hcodes] at hchars
      cases hchars
    | some chars =>
      refine .str hbody ?_
      rw [String.toList_ofList]
      exact codes_of_chars? (lt_of_pieces hbody) hchars
  · rw [hcs, List.cons_append, List.append_assoc]
    rfl

/-! ## The first token -/

theorem lexeme_of_first? {cs rest : List Char} {t : Token} (h : first? cs = some (t, rest)) :
    ∃ lexeme, Lexeme t lexeme ∧ cs = lexeme ++ rest := by
  unfold first? at h
  split at h
  case h_10 => exact lexeme_of_string? h
  case h_11 =>
    obtain ⟨n, lexeme, rfl, hnumber, hcs⟩ := number_of_number? h
    exact ⟨lexeme, .num hnumber, hcs⟩
  case h_1 => cases h; exact ⟨_, .openArray, rfl⟩
  case h_2 => cases h; exact ⟨_, .closeArray, rfl⟩
  case h_3 => cases h; exact ⟨_, .openObject, rfl⟩
  case h_4 => cases h; exact ⟨_, .closeObject, rfl⟩
  case h_5 => cases h; exact ⟨_, .comma, rfl⟩
  case h_6 => cases h; exact ⟨_, .colon, rfl⟩
  case h_7 => cases h; exact ⟨_, .null, rfl⟩
  case h_8 => cases h; exact ⟨_, .true, rfl⟩
  case h_9 => cases h; exact ⟨_, .false, rfl⟩

theorem lexeme_of_next? {cs rest : List Char} {t : Token} (h : next? cs = some (t, rest)) :
    ∃ spaces lexeme, (∀ c ∈ spaces, isSpace c = true) ∧ Lexeme t lexeme ∧ cs = spaces ++ (lexeme ++ rest) := by
  obtain ⟨lexeme, hlexeme, hcs⟩ := lexeme_of_first? h
  refine ⟨cs.takeWhile isSpace, lexeme, fun c hc => List.mem_takeWhile_imp hc, hlexeme, ?_⟩
  rw [← hcs, List.takeWhile_append_dropWhile]

end Token

/-! ## A text and its tokens -/

theorem Laid.spaces {spaces cs : List Char} {ts : List Token} (hspaces : ∀ c ∈ spaces, isSpace c = true)
    (h : Laid ts cs) : Laid ts (spaces ++ cs) := by
  induction spaces with
  | nil => exact h
  | cons c spaces ih =>
    obtain ⟨hc, hspaces⟩ := List.forall_mem_cons.mp hspaces
    exact .space hc (ih hspaces)

theorem laid_of_spells {cs : List Char} {ts : List Token} (h : Spells cs ts) : Laid ts cs := by
  induction h with
  | @done cs _ hspace =>
    have hlaid := Laid.done.spaces (List.all_eq_true.mp hspace)
    rwa [List.append_nil] at hlaid
  | token hnext _ ih =>
    obtain ⟨spaces, lexeme, hspaces, hlexeme, rfl⟩ := Token.lexeme_of_next? hnext
    exact (Laid.token hlexeme ih).spaces hspaces

/-- What is read from a text comes of feeding the tokens that the text is read as. -/
theorem Partial.spells_of_read? {p : Partial} {cs : List Char} {j : Json} (h : p.read? cs = some j) :
    ∃ ts, Spells cs ts ∧ (p.feedAll ts).bind finished? = some j := by
  fun_induction Partial.read? p cs with
  | case1 p cs hnext hspace => exact ⟨[], .done hnext hspace, h⟩
  | case2 => cases h
  | case3 => cases h
  | case4 p cs t rest hnext q hfeed ih =>
    obtain ⟨ts, hspells, hts⟩ := ih h
    refine ⟨t :: ts, .token hnext hspells, ?_⟩
    rw [feedAll_cons hfeed, hts]

/-! ## What led to a place -/

/-- The tokens of some parts, with a comma after each part. -/
def withCommas {α : Type} (tokensOf : α → List Token) (parts : List α) : List Token :=
  parts.flatMap fun part => tokensOf part ++ [.comma]

/-- The tokens from the start of the text to what is being read inside some frames. -/
def framesTaken : List Frame → List Token
  | [] => []
  | .array items :: fs => framesTaken fs ++ .openArray :: withCommas tokens items.reverse
  | .object members key :: fs =>
    framesTaken fs ++ .openObject :: (withCommas memberTokens members.reverse ++ [.str key, .colon])

namespace Partial

/-- The tokens that have been fed, from the start of the text. -/
def taken : Partial → List Token
  | .value fs => framesTaken fs
  | .firstItem fs => framesTaken fs ++ [.openArray]
  | .firstMember fs => framesTaken fs ++ [.openObject]
  | .name members fs => framesTaken fs ++ .openObject :: withCommas memberTokens members.reverse
  | .colon members key fs => framesTaken fs ++ .openObject :: (withCommas memberTokens members.reverse ++ [.str key])
  | .whole v fs => framesTaken fs ++ v.tokens

end Partial

theorem furtherItemTokens_concat (vs : List Json) (v : Json) :
    furtherItemTokens (vs ++ [v]) = .comma :: (withCommas tokens vs ++ (v.tokens ++ [.closeArray])) := by
  induction vs with
  | nil => simp [furtherItemTokens, withCommas]
  | cons w vs ih => simp [furtherItemTokens, withCommas, ih]

theorem tokens_arr_concat (vs : List Json) (v : Json) :
    tokens (.arr (vs ++ [v])) = .openArray :: (withCommas tokens vs ++ (v.tokens ++ [.closeArray])) := by
  cases vs with
  | nil => simp [tokens, furtherItemTokens, withCommas]
  | cons w vs => simp [tokens, furtherItemTokens_concat, withCommas]

theorem furtherMemberTokens_concat (ms : List (Option String × Json)) (m : Option String × Json) :
    furtherMemberTokens (ms ++ [m]) = .comma :: (withCommas memberTokens ms ++ (memberTokens m ++ [.closeObject])) := by
  induction ms with
  | nil => simp [furtherMemberTokens, withCommas]
  | cons n ms ih => simp [furtherMemberTokens, withCommas, ih]

theorem tokens_obj_concat (ms : List (Option String × Json)) (m : Option String × Json) :
    tokens (.obj (ms ++ [m])) = .openObject :: (withCommas memberTokens ms ++ (memberTokens m ++ [.closeObject])) := by
  cases ms with
  | nil => simp [tokens, furtherMemberTokens, withCommas]
  | cons n ms => simp [tokens, furtherMemberTokens_concat, withCommas]

namespace Partial

theorem eq_whole_of_finished? {p : Partial} {j : Json} (h : p.finished? = some j) : p = .whole j [] := by
  unfold finished? at h
  split at h <;> cases h
  rfl

theorem taken_of_start {fs : List Frame} {t : Token} {q : Partial} (h : start fs t = some q) :
    q.taken = framesTaken fs ++ [t] := by
  unfold start at h
  split at h
  case h_7 => cases h
  all_goals
    cases h
    simp [taken, tokens]

theorem taken_of_feed {p q : Partial} {t : Token} (h : p.feed t = some q) : q.taken = p.taken ++ [t] := by
  unfold feed at h
  split at h
  case h_1 => exact taken_of_start h
  case h_3 =>
    rw [taken_of_start h]
    simp [taken, framesTaken, withCommas]
  case h_12 => cases h
  all_goals
    cases h
    simp [taken, framesTaken, withCommas, tokens, memberTokens, tokens_arr_concat, tokens_obj_concat]

theorem taken_of_feedAll {p q : Partial} {ts : List Token} (h : p.feedAll ts = some q) : q.taken = p.taken ++ ts := by
  induction ts generalizing p with
  | nil =>
    cases h
    rw [List.append_nil]
  | cons t ts ih =>
    obtain ⟨r, hr, hq⟩ := Option.bind_eq_some_iff.mp h
    rw [ih hq, taken_of_feed hr, List.append_assoc]
    rfl

end Partial

/-- A text is read as a value exactly if it is one of the texts of the value. -/
theorem read?_eq_some_iff {text : String} {j : Json} : read? text = some j ↔ Text j text := by
  constructor
  · intro h
    obtain ⟨ts, hspells, hts⟩ := Partial.spells_of_read? h
    obtain ⟨q, hq, hfinished⟩ := Option.bind_eq_some_iff.mp hts
    have htaken := Partial.taken_of_feedAll hq
    rw [Partial.eq_whole_of_finished? hfinished] at htaken
    have htokens : j.tokens = ts := htaken
    rw [← htokens] at hspells
    exact laid_of_spells hspells
  · exact read?_of_text

end GridQuery.Json
