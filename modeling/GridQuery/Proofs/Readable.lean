/-
  GridQuery.Proofs.Readable — the readable form of a query tells which query it is.

  The readable form can be read back. It is cut into words and marks, the marks being the blank, the
  comma, the parentheses and the braces, and these are taken one after the other from the last
  to the first onto a pile. A word or a mark that finds on the pile what belongs to it makes a
  query of it, and any other one waits there. From this end nothing has to be tried out: when the word
  that opens a form is met, all parts of the form are on the pile as queries.

  On the text of an expression this leaves the expression on the pile, whatever lies under it
  (`read_text`, by induction on the expression). So two queries with one text are one query, the
  category included (`text_tells_queries_apart`). It takes names that cannot be mistaken for a number,
  for something between marks or for a word of a form.
-/

import GridQuery.Proofs.Substitution

namespace GridQuery

/-! ## Names -/

namespace Readable

/-- The words that stand in readable forms. -/
def reserved : List String :=
  ["not", "exists", "forall", "in", "and", "or", "union", "minus", "inter", "size", "sales_of_product", "sales_on_day",
    "sales_at", "sales_total", "Day", "Product", "Sale"]

/-- Letters, digits and underscores, at least one of them, and no digit first. -/
def isIdentifier (name : String) : Bool :=
  (name.toList.head?.any fun c => !c.isDigit) && name.toList.all fun c => c.isAlphanum || c == '_'

def IsName (name : String) : Prop := isIdentifier name = true ∧ name ∉ reserved

instance (name : String) : Decidable (IsName name) := inferInstanceAs (Decidable (_ ∧ _))

theorem isIdentifier_of_mem_reserved {w : String} (h : w ∈ reserved) : isIdentifier w = true := by
  revert w
  decide

/-! ## Words and marks -/

/-- A word, a mark, or a query that has been read. -/
inductive Item where
  | word (w : String)
  | mark (c : Char)
  | query (q : Query)

def marks : List Char := [' ', ',', '(', ')', '\x7b', '\x7d']

/-- Puts a character before the first word, if there is one at the front. -/
def spell (c : Char) : List Item → List Item
  | .word w :: items => .word (.ofList (c :: w.toList)) :: items
  | items => .word (.ofList [c]) :: items

def scan : List Char → List Item
  | [] => []
  | c :: cs => if c ∈ marks then .mark c :: scan cs else spell c (scan cs)

def IsWord (w : String) : Prop := w.toList ≠ [] ∧ ∀ c ∈ w.toList, c ∉ marks

instance (w : String) : Decidable (IsWord w) :=
  decidable_of_iff (w.toList ≠ [] ∧ (w.toList.all fun c => c ∉ marks) = true) (by simp [IsWord])

/-- Whether a word would end before this. -/
def Ends : List Char → Prop
  | [] => True
  | c :: _ => c ∈ marks

theorem ends {c : Char} (hc : c ∈ marks) (rest : List Char) : Ends (c :: rest) := hc

theorem scan_mark {c : Char} (hc : c ∈ marks) (rest : List Char) : scan (c :: rest) = .mark c :: scan rest := by
  rw [scan, if_pos hc]

theorem spell_of_ends {rest : List Char} (h : Ends rest) (c : Char) :
    spell c (scan rest) = .word (.ofList [c]) :: scan rest := by
  cases rest with
  | nil => rfl
  | cons d rest =>
    rw [scan_mark h]
    rfl

theorem scan_append {cs rest : List Char} (hne : cs ≠ []) (hcs : ∀ c ∈ cs, c ∉ marks) (hrest : Ends rest) :
    scan (cs ++ rest) = .word (.ofList cs) :: scan rest := by
  induction cs with
  | nil => exact absurd rfl hne
  | cons c cs ih =>
    obtain ⟨hc, hcs⟩ := List.forall_mem_cons.mp hcs
    rw [List.cons_append, scan, if_neg hc]
    cases cs with
    | nil => exact spell_of_ends hrest c
    | cons d cs =>
      rw [ih (List.cons_ne_nil d cs) hcs, spell, String.toList_ofList]

theorem isWord_of_isIdentifier {w : String} (h : isIdentifier w = true) : IsWord w := by
  have hmarks : (marks.all fun c => !(c.isAlphanum || c == '_')) = true := rfl
  obtain ⟨hhead, hall⟩ := Bool.and_eq_true_iff.mp h
  constructor
  · intro hnil
    rw [hnil] at hhead
    cases hhead
  · intro c hc hmark
    have hletter := List.all_eq_true.mp hmarks c hmark
    rw [List.all_eq_true.mp hall c hc] at hletter
    cases hletter

/-! ## Numerals -/

theorem isWord_writeWord (n : Int32) : IsWord (Numeral.writeWord n) := by
  have hmarks : (marks.all fun c => !(c == '-' || c.isDigit)) = true := rfl
  constructor
  · intro hnil
    have hread := Numeral.read?_write n.toInt
    rw [Numeral.writeWord] at hnil
    rw [hnil] at hread
    cases hread
  · intro c hc hmark
    have hdigit := List.all_eq_true.mp hmarks c hmark
    rcases Numeral.mem_write hc with rfl | h
    · cases hdigit
    · rw [h, Bool.or_true] at hdigit
      cases hdigit

theorem isIdentifier_writeWord (n : Int32) : isIdentifier (Numeral.writeWord n) = false := by
  cases hcs : (Numeral.writeWord n).toList with
  | nil => exact absurd hcs (isWord_writeWord n).1
  | cons c cs =>
    have hmem : c ∈ (Numeral.writeWord n).toList := hcs ▸ List.mem_cons_self
    rw [isIdentifier, hcs, List.head?_cons, Option.any_some, List.all_cons]
    rcases Numeral.mem_write hmem with rfl | h
    · rfl
    · rw [h, Bool.not_true, Bool.false_and]

/-! ## Reading -/

/-- The operator on a category that a symbol stands for. -/
def operator? (a : Category) (symbol : String) : Option ((b : Category) × Operator a b) :=
  ([Category.numeric, .set, .formula].flatMap fun b => (Operator.all a b).map (Sigma.mk b)).find? (·.2.symbol == symbol)

theorem operator?_symbol {a b : Category} (op : Operator a b) : operator? a op.symbol = some ⟨b, op⟩ := by
  cases op <;> rfl

def binary? (symbol : String) (l r : Query) : Option Query :=
  if h : r.category = l.category then
    (operator? l.category symbol).map fun op => ⟨op.1, .binary op.2 l.expr (h ▸ r.expr)⟩
  else none

theorem binary?_symbol {a b : Category} (op : Operator a b) (l r : Expr a) :
    binary? op.symbol ⟨a, l⟩ ⟨a, r⟩ = some ⟨b, .binary op l r⟩ := by
  rw [binary?, dif_pos rfl, operator?_symbol]
  rfl

/-- A name or a numeral by itself. -/
def single? (w : String) : Option Query :=
  if isIdentifier w then some ⟨_, .var w⟩
  else ((Numeral.read? w.toList).bind Numeral.word?).map fun n => ⟨_, .literal n⟩

def quantified? (q : Quantifier) : List Item → Option (List Item)
  | .query ⟨_, .var x⟩ :: .word "in" :: .query ⟨_, .elements k⟩ :: .word "." :: .query ⟨.formula, f⟩ :: items =>
    some (.query ⟨_, .quantified q x k f⟩ :: items)
  | _ => none

/-- What a reserved word makes of the items after it. -/
def form? : String → List Item → Option (List Item)
  | "sales_of_product", .mark '(' :: .query ⟨.numeric, p⟩ :: .mark ')' :: items =>
    some (.query ⟨_, .productTotal p⟩ :: items)
  | "sales_on_day", .mark '(' :: .query ⟨.numeric, d⟩ :: .mark ')' :: items => some (.query ⟨_, .dayTotal d⟩ :: items)
  | "sales_total", items => some (.query ⟨_, .total⟩ :: items)
  | "sales_at", .mark '(' :: .query ⟨.numeric, p⟩ :: .mark ',' :: .query ⟨.numeric, d⟩ :: .mark ')' :: items =>
    some (.query ⟨_, .figure p d⟩ :: items)
  | "size", .mark '(' :: .query ⟨.set, s⟩ :: .mark ')' :: items => some (.query ⟨_, .size s⟩ :: items)
  | "Day", items => some (.query ⟨_, .elements .day⟩ :: items)
  | "Product", items => some (.query ⟨_, .elements .product⟩ :: items)
  | "Sale", items => some (.query ⟨_, .elements .sale⟩ :: items)
  | "not", .query ⟨.formula, f⟩ :: items => some (.query ⟨_, .not f⟩ :: items)
  | "exists", items => quantified? .forSome items
  | "forall", items => quantified? .forAll items
  | _, _ => none

def word? (w : String) (items : List Item) : Option (List Item) :=
  if w ∈ reserved then form? w items else (single? w).map (.query · :: items)

/-- What a mark makes of the items after it. -/
def mark? : Char → List Item → Option (List Item)
  | ' ', items => some items
  | '(', .query l :: .word w :: .query r :: .mark ')' :: items => (binary? w l r).map (.query · :: items)
  | '\x7b', .query ⟨_, .var x⟩ :: .word "in" :: .query ⟨_, .elements k⟩ :: .word "|" :: .query ⟨.formula, p⟩ ::
      .mark '\x7d' :: items => some (.query ⟨_, .comprehension k x p⟩ :: items)
  | _, _ => none

def step (item : Item) (items : List Item) : List Item :=
  let made := match item with
    | .word w => word? w items
    | .mark c => mark? c items
    | .query _ => none
  made.getD (item :: items)

def read (cs : List Char) : List Item := (scan cs).foldr step []

theorem read_mark {c : Char} (hc : c ∈ marks) (rest : List Char) : read (c :: rest) = step (.mark c) (read rest) := by
  rw [read, scan_mark hc]
  rfl

theorem read_word {w : String} {rest : List Char} (hw : IsWord w) (hrest : Ends rest) :
    read (w.toList ++ rest) = step (.word w) (read rest) := by
  rw [read, ← String.ofList_toList (s := w), String.toList_ofList, scan_append hw.1 hw.2 hrest]
  rfl

theorem step_single {w : String} {q : Query} (hw : w ∉ reserved) (h : single? w = some q) (items : List Item) :
    step (.word w) items = .query q :: items := by
  rw [step, word?, if_neg hw, h]
  rfl

theorem step_symbol {a b : Category} (op : Operator a b) (items : List Item) :
    step (.word op.symbol) items = .word op.symbol :: items := by
  cases op <;> rfl

theorem step_open {a b : Category} (op : Operator a b) (l r : Expr a) (items : List Item) :
    step (.mark '(') (.query ⟨a, l⟩ :: .word op.symbol :: .query ⟨a, r⟩ :: .mark ')' :: items) =
      .query ⟨b, .binary op l r⟩ :: items := by
  show ((binary? op.symbol ⟨a, l⟩ ⟨a, r⟩).map (.query · :: items)).getD _ = _
  rw [binary?_symbol]
  rfl

theorem isWord_symbol {a b : Category} (op : Operator a b) : IsWord op.symbol := by cases op <;> decide

theorem isWord_kind (k : Kind) : IsWord k.text := by cases k <;> decide

theorem isWord_quantifier (q : Quantifier) : IsWord q.text := by cases q <;> decide

theorem step_kind (k : Kind) (items : List Item) : step (.word k.text) items = .query ⟨_, .elements k⟩ :: items := by
  cases k <;> rfl

theorem read_name {x : String} (h : IsName x) {rest : List Char} (hrest : Ends rest) :
    read (x.toList ++ rest) = .query ⟨_, .var x⟩ :: read rest := by
  rw [read_word (isWord_of_isIdentifier h.1) hrest, step_single h.2 (if_pos h.1)]

theorem read_kind (k : Kind) {rest : List Char} (hrest : Ends rest) :
    read (k.text.toList ++ rest) = .query ⟨_, .elements k⟩ :: read rest := by
  rw [read_word (isWord_kind k) hrest, step_kind]

theorem read_literal (n : Int32) {rest : List Char} (hrest : Ends rest) :
    read ((Numeral.writeWord n).toList ++ rest) = .query ⟨_, .literal n⟩ :: read rest := by
  have hidentifier := isIdentifier_writeWord n
  have hreserved : Numeral.writeWord n ∉ reserved := by
    intro h
    rw [isIdentifier_of_mem_reserved h] at hidentifier
    cases hidentifier
  have hsingle : single? (Numeral.writeWord n) = some ⟨_, .literal n⟩ := by
    have hread : Numeral.read? (Numeral.writeWord n).toList = some n.toInt := Numeral.read?_write n.toInt
    rw [single?, hidentifier, hread, Option.bind_some, Numeral.word?_toInt]
    rfl
  rw [read_word (isWord_writeWord n) hrest, step_single hreserved hsingle]

theorem read_blank (rest : List Char) : read (' ' :: rest) = read rest := read_mark (by decide) rest

/-- A name that ranges over a kind, up to the formula after the word `w`. -/
theorem read_range {x w : String} {k : Kind} (hx : IsName x) (hw : IsWord w)
    (hstep : ∀ items, step (.word w) items = .word w :: items) (rest : List Char) :
    read (x.toList ++ ' ' :: ("in".toList ++ ' ' :: (k.text.toList ++ ' ' :: (w.toList ++ ' ' :: rest)))) =
      .query ⟨_, .var x⟩ :: .word "in" :: .query ⟨_, .elements k⟩ :: .word w :: read rest := by
  rw [read_name hx (ends (by decide) _), read_blank, read_word (by decide) (ends (by decide) _), read_blank,
    read_kind k (ends (by decide) _), read_blank, read_word hw (ends (by decide) _), read_blank, hstep]
  rfl

/-- A word with one argument. -/
theorem read_argument {w : String} {q : Query} {cs rest : List Char} (hw : IsWord w)
    (h : read (cs ++ ')' :: rest) = .query q :: read (')' :: rest)) :
    read (w.toList ++ '(' :: (cs ++ ')' :: rest)) =
      step (.word w) (.mark '(' :: .query q :: .mark ')' :: read rest) := by
  rw [read_word hw (ends (by decide) _), read_mark (by decide), h, read_mark (by decide)]
  rfl

/-- Reading the text of an expression leaves the expression on top of what was read before. -/
theorem read_text {c : Category} (e : Expr c) (hnames : ∀ x ∈ e.names, IsName x) {rest : List Char}
    (hrest : Ends rest) : read (e.text.toList ++ rest) = .query ⟨c, e⟩ :: read rest := by
  induction e generalizing rest with
  | literal n => exact read_literal n hrest
  | var name => exact read_name (hnames name List.mem_cons_self) hrest
  | productTotal p ih =>
    have htext : (Expr.productTotal p).text.toList ++ rest =
        "sales_of_product".toList ++ '(' :: (p.text.toList ++ ')' :: rest) := by
      show ("sales_of_product(" ++ p.text ++ ")").toList ++ rest = _
      simp
    rw [htext, read_argument (by decide) (ih hnames (ends (by decide) _))]
    rfl
  | dayTotal d ih =>
    have htext : (Expr.dayTotal d).text.toList ++ rest =
        "sales_on_day".toList ++ '(' :: (d.text.toList ++ ')' :: rest) := by
      show ("sales_on_day(" ++ d.text ++ ")").toList ++ rest = _
      simp
    rw [htext, read_argument (by decide) (ih hnames (ends (by decide) _))]
    rfl
  | total => exact read_word (w := "sales_total") (by decide) hrest
  | figure p d ihp ihd =>
    obtain ⟨hp, hd⟩ := List.forall_mem_append.mp hnames
    have htext : (Expr.figure p d).text.toList ++ rest =
        "sales_at".toList ++ '(' :: (p.text.toList ++ ',' :: ' ' :: (d.text.toList ++ ')' :: rest)) := by
      show ("sales_at(" ++ p.text ++ ", " ++ d.text ++ ")").toList ++ rest = _
      simp
    rw [htext, read_word (by decide) (ends (by decide) _), read_mark (by decide), ihp hp (ends (by decide) _),
      read_mark (by decide), read_blank, ihd hd (ends (by decide) _), read_mark (by decide)]
    rfl
  | size s ih =>
    have htext : (Expr.size s).text.toList ++ rest = "size".toList ++ '(' :: (s.text.toList ++ ')' :: rest) := by
      show ("size(" ++ s.text ++ ")").toList ++ rest = _
      simp
    rw [htext, read_argument (by decide) (ih hnames (ends (by decide) _))]
    rfl
  | elements k => exact read_kind k hrest
  | comprehension k x p ih =>
    obtain ⟨hx, hp⟩ := List.forall_mem_cons.mp hnames
    have htext : (Expr.comprehension k x p).text.toList ++ rest =
        '\x7b' :: (x.toList ++ ' ' :: ("in".toList ++ ' ' :: (k.text.toList ++ ' ' :: ("|".toList ++ ' ' ::
          (p.text.toList ++ '\x7d' :: rest))))) := by
      show ("\x7b" ++ x ++ " in " ++ k.text ++ " | " ++ p.text ++ "\x7d").toList ++ rest = _
      simp
    rw [htext, read_mark (by decide), read_range hx (by decide) (fun _ => rfl), ih hp (ends (by decide) _),
      read_mark (by decide)]
    rfl
  | not f ih =>
    have htext : (Expr.not f).text.toList ++ rest = "not".toList ++ ' ' :: (f.text.toList ++ rest) := by
      show ("not " ++ f.text).toList ++ rest = _
      simp
    rw [htext, read_word (by decide) (ends (by decide) _), read_blank, ih hnames hrest]
    rfl
  | quantified q x k f ih =>
    obtain ⟨hx, hf⟩ := List.forall_mem_cons.mp hnames
    have htext : (Expr.quantified q x k f).text.toList ++ rest =
        q.text.toList ++ ' ' :: (x.toList ++ ' ' :: ("in".toList ++ ' ' :: (k.text.toList ++ ' ' ::
          (".".toList ++ ' ' :: (f.text.toList ++ rest))))) := by
      show (q.text ++ " " ++ x ++ " in " ++ k.text ++ " . " ++ f.text).toList ++ rest = _
      simp
    rw [htext, read_word (isWord_quantifier q) (ends (by decide) _), read_blank,
      read_range hx (by decide) (fun _ => rfl), ih hf hrest]
    cases q <;> rfl
  | binary op l r ihl ihr =>
    obtain ⟨hl, hr⟩ := List.forall_mem_append.mp hnames
    have htext : (Expr.binary op l r).text.toList ++ rest =
        '(' :: (l.text.toList ++ ' ' :: (op.symbol.toList ++ ' ' :: (r.text.toList ++ ')' :: rest))) := by
      show ("(" ++ l.text ++ " " ++ op.symbol ++ " " ++ r.text ++ ")").toList ++ rest = _
      simp
    rw [htext, read_mark (by decide), ihl hl (ends (by decide) _), read_blank,
      read_word (isWord_symbol op) (ends (by decide) _), read_blank, ihr hr (ends (by decide) _), read_mark (by decide),
      step_symbol]
    exact step_open op l r (read rest)

def query? (text : String) : Option Query :=
  match read text.toList with
  | [.query q] => some q
  | _ => none

theorem query?_text (q : Query) (hnames : ∀ x ∈ q.expr.names, IsName x) : query? q.text = some q := by
  have hread : read (q.expr.text.toList ++ []) = .query q :: read [] := read_text q.expr hnames trivial
  rw [List.append_nil] at hread
  rw [query?, Query.text, hread]
  rfl

end Readable

/-- Two queries have one readable form only if they are one query, of one category, as far as all names in
    them are identifiers and none of them is a word of the readable form itself. -/
theorem text_tells_queries_apart (q q' : Query) (hq : ∀ x ∈ q.expr.names, Readable.IsName x)
    (hq' : ∀ x ∈ q'.expr.names, Readable.IsName x) : q.text = q'.text ↔ q = q' := by
  constructor
  · intro htext
    have hread := Readable.query?_text q hq
    rw [htext, Readable.query?_text q' hq'] at hread
    exact (Option.some.inj hread).symm
  · intro h
    rw [h]

-- The second part of the conjunction stands in the body of the quantifier, or beside the quantifier.
theorem text_tells_queries_apart_by_parenthesis :
    let one : Expr .formula := .binary .eq (.var "x") (.literal 1)
    let few : Expr .formula := .binary .lt (.size (.elements .sale)) (.var "limit_2")
    let q : Query := ⟨_, .quantified .forSome "x" .day (.binary .and one few)⟩
    let q' : Query := ⟨_, .binary .and (.quantified .forSome "x" .day one) few⟩
    q.text = "exists x in Day . ((x = 1) and (size(Sale) < limit_2))" ∧
      q'.text = "(exists x in Day . (x = 1) and (size(Sale) < limit_2))" ∧ q.text ≠ q'.text := by
  intro one few q q'
  have hq : ∀ x ∈ q.expr.names, Readable.IsName x := by decide
  have hq' : ∀ x ∈ q'.expr.names, Readable.IsName x := by decide
  refine ⟨by decide, by decide, ?_⟩
  intro htext
  exact absurd ((text_tells_queries_apart q q' hq hq').mp htext) (by decide)

-- A name that is a word of the readable form is not told from that word.
example : (⟨_, .var "Day"⟩ : Query).text = (⟨_, .elements .day⟩ : Query).text := rfl

end GridQuery
