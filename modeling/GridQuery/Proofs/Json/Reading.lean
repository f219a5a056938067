/-
  GridQuery.Proofs.Json.Reading — from the tokens of a text to its value.

  Between a value and its text stand its tokens. Fed to any place where a value may stand, they
  lead to that value (`feedAll_tokens`). So a text that is read as just those tokens is read
  as the value (`read?_of_spells`).
-/

import GridQuery.Json.Partial

namespace GridQuery.Json

/-! ## From tokens to the value -/

mutual

def tokens : Json → List Token
  | .null => [.null]
  | .bool b => [.bool b]
  | .num n => [.num n]
  | .str s => [.str s]
  | .arr [] => [.openArray, .closeArray]
  | .arr (v :: vs) => .openArray :: (v.tokens ++ furtherItemTokens vs)
  | .obj [] => [.openObject, .closeObject]
  | .obj (m :: ms) => .openObject :: (memberTokens m ++ furtherMemberTokens ms)

def furtherItemTokens : List Json → List Token
  | [] => [.closeArray]
  | v :: vs => .comma :: (v.tokens ++ furtherItemTokens vs)

def furtherMemberTokens : List (Option String × Json) → List Token
  | [] => [.closeObject]
  | m :: ms => .comma :: (memberTokens m ++ furtherMemberTokens ms)

def memberTokens : Option String × Json → List Token
  | (name, v) => .str name :: .colon :: v.tokens

end

namespace Partial

def feedAll (p : Partial) (ts : List Token) : Option Partial := ts.foldlM feed p

theorem feedAll_cons {p q : Partial} {t : Token} (h : p.feed t = some q) (ts : List Token) :
    p.feedAll (t :: ts) = q.feedAll ts := by
  rw [feedAll, List.foldlM_cons, h]
  rfl

theorem feedAll_append {p q : Partial} {ts : List Token} (h : p.feedAll ts = some q) (us : List Token) :
    p.feedAll (ts ++ us) = q.feedAll us := by
  rw [feedAll, List.foldlM_append, ← feedAll, h]
  rfl

/-- At `p` a value may stand, with `fs` open around it. -/
def Awaits (p : Partial) (fs : List Frame) : Prop := ∀ t, t ≠ .closeArray → p.feed t = start fs t

theorem awaits_value (fs : List Frame) : Awaits (.value fs) fs := fun _ _ => rfl

theorem awaits_firstItem (fs : List Frame) : Awaits (.firstItem fs) (.array [] :: fs) := by
  intro t ht
  cases t with
  | closeArray => exact absurd rfl ht
  | _ => rfl

mutual

/-- The tokens of a value lead to the value, wherever one may stand. -/
theorem feedAll_tokens : (j : Json) → {p : Partial} → {fs : List Frame} → Awaits p fs →
    p.feedAll j.tokens = some (.whole j fs)
  | .null, _, _, h => feedAll_cons (h .null nofun) []
  | .bool b, _, _, h => feedAll_cons (h (.bool b) nofun) []
  | .num n, _, _, h => feedAll_cons (h (.num n) nofun) []
  | .str s, _, _, h => feedAll_cons (h (.str s) nofun) []
  | .arr [], _, _, h => feedAll_cons (h .openArray nofun) _
  | .arr (v :: vs), p, fs, h => by
    rw [tokens, feedAll_cons (h .openArray nofun), feedAll_append (feedAll_tokens v (awaits_firstItem fs))]
    exact feedAll_furtherItems vs v [] fs
  | .obj [], _, _, h => feedAll_cons (h .openObject nofun) _
  | .obj ((key, v) :: ms), p, fs, h => by
    rw [tokens, memberTokens, feedAll_cons (h .openObject nofun), List.cons_append, List.cons_append,
      feedAll_cons (q := .colon [] key fs) rfl, feedAll_cons (q := .value (.object [] key :: fs)) rfl,
      feedAll_append (feedAll_tokens v (awaits_value _))]
    exact feedAll_furtherMembers ms key v [] fs

theorem feedAll_furtherItems : (vs : List Json) → (v : Json) → (before : List Json) → (fs : List Frame) →
    feedAll (.whole v (.array before :: fs)) (furtherItemTokens vs) =
      some (.whole (.arr ((v :: before).reverse ++ vs)) fs)
  | [], v, before, fs => by
    rw [List.append_nil]
    rfl
  | w :: vs, v, before, fs => by
    rw [furtherItemTokens, feedAll_cons (q := .value (.array (v :: before) :: fs)) rfl,
      feedAll_append (feedAll_tokens w (awaits_value _)), feedAll_furtherItems vs w (v :: before) fs]
    simp

theorem feedAll_furtherMembers : (ms : List (Option String × Json)) → (key : Option String) → (v : Json) →
    (before : List (Option String × Json)) → (fs : List Frame) →
    feedAll (.whole v (.object before key :: fs)) (furtherMemberTokens ms) =
      some (.whole (.obj (((key, v) :: before).reverse ++ ms)) fs)
  | [], key, v, before, fs => by
    rw [List.append_nil]
    rfl
  | (key', w) :: ms, key, v, before, fs => by
    rw [furtherMemberTokens, memberTokens, feedAll_cons (q := .name ((key, v) :: before) fs) rfl, List.cons_append,
      List.cons_append, feedAll_cons (q := .colon ((key, v) :: before) key' fs) rfl,
      feedAll_cons (q := .value (.object ((key, v) :: before) key' :: fs)) rfl,
      feedAll_append (feedAll_tokens w (awaits_value _)), feedAll_furtherMembers ms key' w ((key, v) :: before) fs]
    simp

end

end Partial

/-! ## From the text to tokens -/

/-- The tokens that a text is read as. -/
inductive Spells : List Char → List Token → Prop
  | done {cs : List Char} : Token.next? cs = none → cs.all isSpace = true → Spells cs []
  | token {cs rest : List Char} {t : Token} {ts : List Token} :
      Token.next? cs = some (t, rest) → Spells rest ts → Spells cs (t :: ts)

theorem spells_nil : Spells [] [] := .done rfl rfl

/-- Reading a text is feeding its tokens. -/
theorem Partial.read?_of_spells {cs : List Char} {ts : List Token} (h : Spells cs ts) (p : Partial) :
    p.read? cs = (p.feedAll ts).bind finished? := by
  induction h generalizing p with
  | done hnext hspace =>
    rw [read?]
    split
    · rw [if_pos hspace]
      rfl
    · rename_i hsome
      rw [hnext] at hsome
      cases hsome
  | token hnext _ ih =>
    rw [read?]
    split
    · rename_i hnone
      rw [hnext] at hnone
      cases hnone
    · rename_i t rest hsome
      rw [hnext] at hsome
      cases hsome
      rw [feedAll, List.foldlM_cons]
      split
      · rename_i hfeed
        rw [hfeed]
        rfl
      · rename_i q hfeed
        rw [hfeed, ih]
        rfl

/-- A text that is read as a value's tokens is read as the value. -/
theorem read?_of_spells {text : String} {j : Json} (h : Spells text.toList j.tokens) : read? text = some j := by
  rw [read?, Partial.read?_of_spells h, Partial.feedAll_tokens j (Partial.awaits_value [])]
  rfl

end GridQuery.Json
