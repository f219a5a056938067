/-
  GridQuery.Proofs.Json.Layout — all the texts of a value.

  A text of a value is made of its tokens, each written as one of its lexemes, with any space before,
  between and after them (`Text`). The value is read from every one of them
  (`read?_of_text`). The compact text is one (`text_written`), as far as the value has one: half a
  surrogate pair and a number that is not whole have none (`HasText`).
-/

import GridQuery.Proofs.Json.Lexeme
import GridQuery.Json.Written
import GridQuery.Proofs.Json.Reading

namespace GridQuery.Json

open Token (Lexeme Ends Piece Pieces Codes)

/-- Some tokens laid out, with space in front of any of them and at the end. -/
inductive Laid : List Token → List Char → Prop
  | done : Laid [] []
  | space {c : Char} {ts : List Token} {cs : List Char} : isSpace c = true → Laid ts cs → Laid ts (c :: cs)
  | token {t : Token} {lexeme : List Char} {ts : List Token} {cs : List Char} :
      Lexeme t lexeme → Laid ts cs → Laid (t :: ts) (lexeme ++ cs)

def Text (j : Json) (text : String) : Prop := Laid j.tokens text.toList

/-! ## Reading -/

/-- What may follow a number. -/
def endsNumber : List Token → Bool
  | [] => true
  | .comma :: _ => true
  | .closeArray :: _ => true
  | .closeObject :: _ => true
  | _ => false

/-- No number runs into what follows it. -/
def parted : List Token → Bool
  | [] => true
  | .num _ :: ts => endsNumber ts && parted ts
  | _ :: ts => parted ts

theorem endsNumber_furtherItems (vs : List Json) (us : List Token) :
    endsNumber (furtherItemTokens vs ++ us) = true := by
  cases vs <;> rfl

theorem endsNumber_furtherMembers (ms : List (Option String × Json)) (us : List Token) :
    endsNumber (furtherMemberTokens ms ++ us) = true := by
  cases ms <;> rfl

mutual

theorem parted_tokens : (j : Json) → {us : List Token} → endsNumber us = true → parted us = true →
    parted (j.tokens ++ us) = true
  | .null, _, _, h => h
  | .bool _, _, _, h => h
  | .num _, _, hends, h => Bool.and_eq_true_iff.mpr ⟨hends, h⟩
  | .str _, _, _, h => h
  | .arr [], _, _, h => h
  | .arr (v :: vs), us, _, h => by
    rw [tokens, List.cons_append, List.append_assoc]
    exact parted_tokens v (endsNumber_furtherItems vs us) (parted_furtherItems vs h)
  | .obj [], _, _, h => h
  | .obj ((key, v) :: ms), us, _, h => by
    rw [tokens, memberTokens, List.cons_append, List.append_assoc]
    exact parted_tokens v (endsNumber_furtherMembers ms us) (parted_furtherMembers ms h)

theorem parted_furtherItems : (vs : List Json) → {us : List Token} → parted us = true →
    parted (furtherItemTokens vs ++ us) = true
  | [], _, h => h
  | v :: vs, us, h => by
    rw [furtherItemTokens, List.cons_append, List.append_assoc]
    exact parted_tokens v (endsNumber_furtherItems vs us) (parted_furtherItems vs h)

theorem parted_furtherMembers : (ms : List (Option String × Json)) → {us : List Token} → parted us = true →
    parted (furtherMemberTokens ms ++ us) = true
  | [], _, h => h
  | (key, v) :: ms, us, h => by
    rw [furtherMemberTokens, memberTokens, List.cons_append, List.append_assoc]
    exact parted_tokens v (endsNumber_furtherMembers ms us) (parted_furtherMembers ms h)

end

theorem Laid.ends {ts : List Token} {cs : List Char} (h : Laid ts cs) (hts : endsNumber ts = true) : Ends cs := by
  cases h with
  | done => exact .text
  | space hc _ => exact .space hc _
  | token hl _ =>
    cases hl with
    | closeArray => exact .array _
    | closeObject => exact .object _
    | comma => exact .comma _
    | _ => cases hts

theorem Spells.space {c : Char} {cs : List Char} {ts : List Token} (hc : isSpace c = true) (h : Spells cs ts) :
    Spells (c :: cs) ts := by
  have hnext : Token.next? (c :: cs) = Token.next? cs := by
    rw [Token.next?, List.dropWhile_cons_of_pos hc, Token.next?]
  cases h with
  | done hnone hspace =>
    refine .done (hnext.trans hnone) ?_
    rw [List.all_cons, hc, hspace, Bool.and_self]
  | token hsome hrest => exact .token (hnext.trans hsome) hrest

theorem spells_of_laid {ts : List Token} {cs : List Char} (h : Laid ts cs) (hts : parted ts = true) : Spells cs ts := by
  induction h with
  | done => exact spells_nil
  | space hc _ ih => exact (ih hts).space hc
  | @token t lexeme ts cs hl hlaid ih =>
    cases t with
    | num n =>
      obtain ⟨hends, hrest⟩ := Bool.and_eq_true_iff.mp hts
      exact .token (Token.next?_lexeme hl fun _ _ => hlaid.ends hends) (ih hrest)
    | _ => exact .token (Token.next?_lexeme hl nofun) (ih hts)

/-- A value is read from every text that it has. -/
theorem read?_of_text {j : Json} {text : String} (h : Text j text) : read? text = some j := by
  have hparted : parted j.tokens = true := by
    have hnil : parted (j.tokens ++ []) = true := parted_tokens j rfl rfl
    rwa [List.append_nil] at hnil
  exact read?_of_spells (spells_of_laid h hparted)

/-! ## The written text -/

/-- Everything in a value has a text of its own. -/
inductive HasText : Json → Prop
  | null : HasText .null
  | bool (b : Bool) : HasText (.bool b)
  | num (n : Int) : HasText (.num (some n))
  | str (s : String) : HasText (.str (some s))
  | arr {vs : List Json} : (∀ v ∈ vs, HasText v) → HasText (.arr vs)
  | obj {ms : List (Option String × Json)} :
      (∀ m ∈ ms, m.1.isSome = true) → (∀ m ∈ ms, HasText m.2) → HasText (.obj ms)

theorem HasText.tagged {name : String} {content : Json} (h : HasText content) : HasText (tagged name content) :=
  .obj (List.forall_mem_singleton.mpr rfl) (List.forall_mem_singleton.mpr h)

theorem Laid.append {ts us : List Token} {cs ds : List Char} (h : Laid ts cs) (h' : Laid us ds) :
    Laid (ts ++ us) (cs ++ ds) := by
  induction h with
  | done => exact h'
  | space hc _ ih => exact .space hc ih
  | token hl _ ih =>
    rw [List.append_assoc]
    exact .token hl ih

theorem piece_escape (c : Char) : Piece c.toNat (escape c) := by
  unfold escape
  split
  case h_8 hquote hslash _ _ _ _ _ =>
    split
    · rename_i hlow
      have hdigit {k : Nat} (hk : k < 16) : Token.IsHexDigit k (Nat.digitChar k) := ⟨hk, .inl rfl⟩
      have hhex := Token.Hex.digits (hdigit (k := 0) (by decide)) (hdigit (k := 0) (by decide))
        (hdigit (k := c.toNat / 16) (by omega)) (hdigit (k := c.toNat % 16) (by omega))
      have hcode : 16 * (16 * (16 * 0 + 0) + c.toNat / 16) + c.toNat % 16 = c.toNat := by omega
      rw [hcode] at hhex
      exact .hex hhex
    · rename_i hlow
      exact .plain hquote hslash (by omega)
  all_goals exact .letter (by decide)

theorem lexeme_quote (s : String) : Lexeme (.str (some s)) (quote s).toList := by
  have hpieces (cs : List Char) : Pieces (cs.map Char.toNat) (cs.flatMap escape) := by
    induction cs with
    | nil => exact .nil
    | cons c cs ih => exact .cons (piece_escape c) ih
  have hcodes (cs : List Char) : Codes cs (cs.map Char.toNat) := by
    induction cs with
    | nil => exact .nil
    | cons c cs ih => exact .one ih
  rw [quote, String.toList_ofList]
  exact .str (hpieces s.toList) (hcodes s.toList)

theorem laid_single {t : Token} {text : String} (h : Lexeme t text.toList) : Laid [t] text.toList := by
  have hlaid := Laid.token h .done
  rwa [List.append_nil] at hlaid

theorem laid_furtherItems {vs : List Json} (h : ∀ v ∈ vs, Laid v.tokens v.written.toList) :
    Laid (furtherItemTokens vs) (furtherItems vs).toList := by
  induction vs with
  | nil => exact laid_single .closeArray
  | cons v vs ih =>
    obtain ⟨hv, hvs⟩ := List.forall_mem_cons.mp h
    rw [furtherItems, String.toList_append, String.toList_append, List.append_assoc]
    exact .token .comma (hv.append (ih hvs))

theorem laid_member {m : Option String × Json} (hkey : m.1.isSome = true) (h : Laid m.2.tokens m.2.written.toList) :
    Laid (memberTokens m) (member m).toList := by
  obtain ⟨key, v⟩ := m
  obtain ⟨key, rfl⟩ := Option.isSome_iff_exists.mp hkey
  rw [member, Option.getD_some, String.toList_append, String.toList_append, List.append_assoc]
  exact .token (lexeme_quote key) (.token .colon h)

theorem laid_furtherMembers {ms : List (Option String × Json)} (h : ∀ m ∈ ms, Laid (memberTokens m) (member m).toList) :
    Laid (furtherMemberTokens ms) (furtherMembers ms).toList := by
  induction ms with
  | nil => exact laid_single .closeObject
  | cons m ms ih =>
    obtain ⟨hm, hms⟩ := List.forall_mem_cons.mp h
    rw [furtherMembers, String.toList_append, String.toList_append, List.append_assoc]
    exact .token .comma (hm.append (ih hms))

theorem laid_written {j : Json} (h : HasText j) : Laid j.tokens j.written.toList := by
  induction h with
  | null => exact laid_single .null
  | bool b =>
    cases b with
    | true => exact laid_single .true
    | false => exact laid_single .false
  | num n => exact laid_single (.num (.integer (.whole n)))
  | str s => exact laid_single (lexeme_quote s)
  | @arr vs _ ih =>
    cases vs with
    | nil => exact .token .openArray (.token .closeArray .done)
    | cons v vs =>
      obtain ⟨hv, hvs⟩ := List.forall_mem_cons.mp ih
      rw [written, String.toList_append, String.toList_append, List.append_assoc]
      exact .token .openArray (hv.append (laid_furtherItems hvs))
  | @obj ms hkeys _ ih =>
    have hlaid : ∀ m ∈ ms, Laid (memberTokens m) (member m).toList := fun m hm => laid_member (hkeys m hm) (ih m hm)
    cases ms with
    | nil => exact .token .openObject (.token .closeObject .done)
    | cons m ms =>
      obtain ⟨hm, hms⟩ := List.forall_mem_cons.mp hlaid
      rw [written, String.toList_append, String.toList_append, List.append_assoc]
      exact .token .openObject (hm.append (laid_furtherMembers hms))

/-- The compact text of a value is one of its texts. -/
theorem text_written {j : Json} (h : HasText j) : Text j j.written := laid_written h

theorem read?_written {j : Json} (h : HasText j) : read? j.written = some j := read?_of_text (text_written h)

end GridQuery.Json
