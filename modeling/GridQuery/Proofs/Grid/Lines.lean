/-
  GridQuery.Proofs.Grid.Lines — what is read from a text, whatever it holds.

  A text has numbered lines, which end with `\n` or `\r\n`. Trimmed at both ends, a line is passed
  over if nothing is left or what is left starts with `#`, and the others are products. Their
  pieces stand between blanks and commas (`productLines`, `piecesOf`).
  - If a piece is no figure, the first such piece and the number of its line are the error; no
    row is looked at as part of a grid before that.
  - If all are figures, the text is read as their rows are.
  There is no third case (`text_read_exactly`).

  Reading neither trims a line nor takes the carriage return off its end. Both are blank, so they
  are cut at like any blank (`words_trim`), and a line that is passed over stays one
  (`isRow_eq_trim`).
-/

import GridQuery.Proofs.Grid.Forms
import Mathlib.Data.List.DropRight
import Mathlib.Data.List.Forall2

namespace GridQuery

namespace Text

/-! ## Lines and pieces of a text -/

def withoutReturn (line : List Char) : List Char :=
  if line.getLast? = some '\r' then line.dropLast else line

/-- The lines that some pieces between newlines are. The last piece has no newline after it; it is a
    line if it is not empty. -/
def endedLines : List (List Char) → List (List Char)
  | [] => []
  | [last] => if last = [] then [] else [last]
  | line :: rest => withoutReturn line :: endedLines rest

def trim (line : List Char) : List Char := (line.dropWhile isBlank).rdropWhile isBlank

variable {sep blank : Char → Bool}

/-! ## Blanks at the ends -/

theorem pieces_concat {c : Char} (hc : sep c = true) (cs : List Char) :
    pieces sep (cs ++ [c]) = pieces sep cs ++ [[]] := by
  induction cs with
  | nil => simp [pieces, hc]
  | cons d cs ih =>
    rw [List.cons_append, pieces, pieces, ih]
    split
    · rfl
    · cases h : pieces sep cs with
      | nil => exact absurd h (pieces_ne_nil sep cs)
      | cons p ps => rfl

theorem words_concat {c : Char} (hc : sep c = true) (cs : List Char) : words sep (cs ++ [c]) = words sep cs := by
  rw [words, pieces_concat hc, List.filter_append]
  exact List.append_nil _

theorem words_dropWhile (h : ∀ c, blank c = true → sep c = true) (cs : List Char) :
    words sep (cs.dropWhile blank) = words sep cs := by
  have hgap : ∀ c ∈ cs.takeWhile blank, sep c = true := fun c hc => h c (List.mem_takeWhile_imp hc)
  rw [← words_gap hgap, List.takeWhile_append_dropWhile]

theorem words_rdropWhile (h : ∀ c, blank c = true → sep c = true) (cs : List Char) :
    words sep (cs.rdropWhile blank) = words sep cs := by
  induction cs using List.reverseRecOn with
  | nil => rfl
  | append_singleton cs c ih =>
    rw [List.rdropWhile_concat]
    split
    · rename_i hc
      rw [ih, words_concat (h c hc)]
    · rfl

theorem trim_concat {c : Char} (hc : isBlank c = true) (cs : List Char) : trim (cs ++ [c]) = trim cs := by
  rw [trim, trim, List.dropWhile_append]
  split
  · rename_i hnil
    rw [List.isEmpty_iff.mp hnil, List.dropWhile_cons_of_pos hc]
    rfl
  · exact List.rdropWhile_concat_pos _ _ _ hc

/-- A carriage return at the end of a line goes with the blanks there. -/
theorem trim_withoutReturn (line : List Char) : trim (withoutReturn line) = trim line := by
  unfold withoutReturn
  split
  · rename_i hlast
    obtain ⟨cs, rfl⟩ := List.getLast?_eq_some_iff.mp hlast
    rw [List.dropLast_concat, trim_concat rfl]
  · rfl

end Text

namespace Grid

open Json.Token (Digits)

/-! ## The lines of products -/

def isProduct (line : List Char × Nat) : Bool := line.1 ≠ [] ∧ line.1.head? ≠ some '#'

def piecesOf (line : List Char) : List (List Char) := (line.splitOnP isSeparator).filter (· ≠ [])

/-- The products' lines of a text in pieces, with their numbers among all lines. -/
def productLines (cs : List Char) : List (List (List Char) × Nat) :=
  let lines := (Text.endedLines (cs.splitOnP (· == '\n'))).map Text.trim
  ((lines.zipIdx 1).filter isProduct).map (Prod.map piecesOf id)

theorem isSeparator_of_isBlank {c : Char} (h : Text.isBlank c = true) : isSeparator c = true := by
  rw [isSeparator, h, Bool.true_or]

theorem words_trim (line : List Char) : Text.words isSeparator (Text.trim line) = Text.words isSeparator line := by
  have hblank (c : Char) (h : Text.isBlank c = true) : isSeparator c = true := isSeparator_of_isBlank h
  rw [Text.trim, Text.words_rdropWhile hblank, Text.words_dropWhile hblank]

theorem piecesOf_trim (line : List Char) : piecesOf (Text.trim line) = Text.words isSeparator line := by
  rw [← words_trim, Text.words, Text.pieces_eq_splitOnP, piecesOf]
  congr 1
  funext p
  cases p <;> rfl

/-- A line is a product's if what is left after trimming starts with something, and not with `#`. -/
theorem isRow_eq_trim (line : List Char) :
    isRow line = decide (Text.trim line ≠ [] ∧ (Text.trim line).head? ≠ some '#') := by
  rw [isRow, Text.trim]
  cases h : line.dropWhile Text.isBlank with
  | nil => rfl
  | cons c rest =>
    have hc : Text.isBlank c = false := by
      have hhead := List.head?_dropWhile_not Text.isBlank line
      rwa [h] at hhead
    have hne : (c :: rest).rdropWhile Text.isBlank ≠ [] := by
      intro hnil
      have hall := List.rdropWhile_eq_nil_iff.mp hnil c List.mem_cons_self
      rw [hc] at hall
      cases hall
    obtain ⟨after, hafter⟩ := List.rdropWhile_prefix Text.isBlank (c :: rest)
    obtain ⟨d, ds, hds⟩ := List.exists_cons_of_ne_nil hne
    rw [hds] at hafter ⊢
    cases hafter
    by_cases hhash : c = '#'
    · subst hhash
      rfl
    · simp [hhash]

theorem map_trim_endedLines (ps : List (List Char)) :
    ∃ after, (∀ line ∈ after, line = []) ∧ ps.map Text.trim = (Text.endedLines ps).map Text.trim ++ after := by
  induction ps using Text.endedLines.induct with
  | case1 => exact ⟨[], by simp, rfl⟩
  | case2 => exact ⟨[[]], by simp, rfl⟩
  | case3 last hlast => exact ⟨[], by simp, by rw [Text.endedLines, if_neg hlast, List.append_nil]⟩
  | case4 line rest hrest ih =>
    obtain ⟨after, hafter, hmap⟩ := ih
    refine ⟨after, hafter, ?_⟩
    rw [Text.endedLines.eq_3 _ _ hrest, List.map_cons, List.map_cons, Text.trim_withoutReturn, hmap, List.cons_append]

/-- The lines that are read are those of products, with the same numbers and the same pieces. -/
theorem map_filter_isRow (cs : List Char) :
    (((Text.lines cs).zipIdx 1).filter fun line => isRow line.1).map (Prod.map (Text.words isSeparator) id) =
      productLines cs := by
  obtain ⟨after, hafter, hmap⟩ := map_trim_endedLines (Text.lines cs)
  have hnone (number : Nat) : (after.zipIdx number).filter isProduct = [] := by
    rw [List.filter_eq_nil_iff]
    rintro ⟨line, i⟩ hline
    rw [hafter line (List.fst_mem_of_mem_zipIdx hline)]
    exact Bool.false_ne_true
  have hrow : (fun line : List Char × Nat => isRow line.1) = isProduct ∘ Prod.map Text.trim id :=
    funext fun line => isRow_eq_trim line.1
  have hpieces : Prod.map (Text.words isSeparator) id = Prod.map piecesOf id ∘ Prod.map Text.trim (id : Nat → Nat) :=
    funext fun line => congrArg (·, line.2) (piecesOf_trim line.1).symm
  rw [hrow, hpieces, ← List.map_map, ← List.filter_map, ← List.zipIdx_map, hmap, List.zipIdx_append, List.filter_append,
    hnone, List.append_nil, productLines, ← Text.pieces_eq_splitOnP]
  rfl

/-! ## Figures -/

theorem digits?_eq_some {ds : List Char} {m : Nat} :
    Numeral.digits? ds = some m ↔ Digits ds ∧ Nat.ofDigitChars 10 ds 0 = m := by
  unfold Numeral.digits?
  split
  · rename_i h
    have hdigits : Digits ds := ⟨h.1, List.all_eq_true.mp h.2⟩
    simp [hdigits]
  · rename_i h
    have hdigits : ¬ Digits ds := fun hds => h ⟨hds.1, List.all_eq_true.mpr hds.2⟩
    simp [hdigits]

/-- A figure is read from just the texts that it has. -/
theorem figureOf?_eq_some {piece : List Char} {n : Int32} : figureOf? piece = some n ↔ Figure n piece := by
  constructor
  · intro h
    obtain ⟨m, hread, hword⟩ := Option.bind_eq_some_iff.mp h
    rw [Numeral.word?_eq_some] at hword
    unfold Numeral.read? at hread
    split at hread
    all_goals
      obtain ⟨k, hk, rfl⟩ := Option.map_eq_some_iff.mp hread
      obtain ⟨hds, rfl⟩ := digits?_eq_some.mp hk
    · exact .plus hds hword
    · rw [Int.negOfNat_eq] at hword
      exact .minus hds hword
    · exact .unsigned hds hword
  · intro h
    rw [figureOf?, read?_of_figure h, Option.bind_some, Numeral.word?_toInt]

theorem readFigure_eq_ok {number : Nat} {piece : List Char} {n : Int32} :
    readFigure number piece = .ok n ↔ Figure n piece := by
  rw [readFigure, ← figureOf?_eq_some]
  cases figureOf? piece <;> simp

theorem readFigure_eq_error {number : Nat} {piece : List Char} {e : Error} :
    readFigure number piece = .error e ↔ (∀ n, ¬ Figure n piece) ∧ e = .badFigure number (.ofList piece) := by
  rw [readFigure]
  simp only [← figureOf?_eq_some]
  cases figureOf? piece <;> simp [eq_comm]

/-! ## The first error -/

def errorOf {α : Type} : Except Error α → Option Error
  | .ok _ => none
  | .error e => some e

section

variable {α β : Type} {f : α → Except Error β}

theorem mapM_eq_ok {xs : List α} {ys : List β} : xs.mapM f = .ok ys ↔ List.Forall₂ (fun y x => f x = .ok y) ys xs := by
  induction xs generalizing ys with
  | nil =>
    rw [List.mapM_nil, List.forall₂_nil_right_iff]
    exact ⟨fun h => (Except.ok.inj h).symm, fun h => h ▸ rfl⟩
  | cons x xs ih =>
    rw [List.mapM_cons, List.forall₂_cons_right_iff]
    simp only [← ih]
    cases hx : f x with
    | error e => simp [bind, Except.bind]
    | ok y =>
      cases hxs : xs.mapM f with
      | error e => simp [bind, Except.bind]
      | ok zs => simp [bind, Except.bind, pure, Except.pure, eq_comm]

/-- What fails one after another fails with the first error. -/
theorem errorOf_mapM (xs : List α) : errorOf (xs.mapM f) = xs.findSome? fun x => errorOf (f x) := by
  induction xs with
  | nil => rfl
  | cons x xs ih =>
    rw [List.mapM_cons, List.findSome?_cons, ← ih]
    cases f x with
    | error e => rfl
    | ok y => cases xs.mapM f <;> rfl

theorem findSome?_flatMap {γ : Type} (xs : List α) (parts : α → List β) (p : β → Option γ) :
    (xs.flatMap parts).findSome? p = xs.findSome? fun x => (parts x).findSome? p := by
  induction xs with
  | nil => rfl
  | cons x xs ih =>
    rw [List.flatMap_cons, List.findSome?_append, List.findSome?_cons, ih]
    cases (parts x).findSome? p <;> rfl

end

theorem eq_error_iff {α : Type} {x : Except Error α} {e : Error} : x = .error e ↔ errorOf x = some e := by
  cases x <;> simp [errorOf]

/-! ## What is read from a text -/

/-- All pieces of a text in reading order, with the numbers of their lines. -/
def numberedPieces (text : String) : List (List Char × Nat) :=
  (productLines text.toList).flatMap fun line => line.1.map (·, line.2)

/-- The first piece of a text that is no figure is `piece`, on line `number`. -/
def FirstBad (text : String) (piece : List Char) (number : Nat) : Prop :=
  ∃ before after, numberedPieces text = before ++ (piece, number) :: after ∧
    (∀ p ∈ before, ∃ n, Figure n p.1) ∧ ∀ n, ¬ Figure n piece

/-- The pieces of a text are the figures of some rows, a line a row. -/
def HasRows (text : String) (rows : List (List Int32)) : Prop :=
  List.Forall₂ (fun row line => List.Forall₂ Figure row line.1) rows (productLines text.toList)

theorem readRows_eq (text : String) :
    readRows text = (productLines text.toList).mapM fun line => line.1.mapM (readFigure line.2) := by
  rw [← map_filter_isRow, List.mapM_map]
  rfl

theorem readRows_eq_ok {text : String} {rows : List (List Int32)} : readRows text = .ok rows ↔ HasRows text rows := by
  simp only [readRows_eq, mapM_eq_ok, readFigure_eq_ok, HasRows]

theorem readRows_eq_error {text : String} {e : Error} :
    readRows text = .error e ↔ ∃ piece number, FirstBad text piece number ∧ e = .badFigure number (.ofList piece) := by
  have herror (p : List Char × Nat) :
      errorOf (readFigure p.2 p.1) = some e ↔ (∀ n, ¬ Figure n p.1) ∧ e = .badFigure p.2 (.ofList p.1) := by
    rw [← eq_error_iff, readFigure_eq_error]
  have hnone (p : List Char × Nat) : errorOf (readFigure p.2 p.1) = none ↔ ∃ n, Figure n p.1 := by
    have hok (n : Int32) : readFigure p.2 p.1 = .ok n ↔ Figure n p.1 := readFigure_eq_ok
    simp only [← hok]
    cases readFigure p.2 p.1 <;> simp [errorOf]
  have hpieces : errorOf (readRows text) = (numberedPieces text).findSome? fun p => errorOf (readFigure p.2 p.1) := by
    rw [readRows_eq, errorOf_mapM, numberedPieces, findSome?_flatMap]
    simp only [errorOf_mapM, List.findSome?_map]
    rfl
  rw [eq_error_iff, hpieces, List.findSome?_eq_some_iff]
  simp only [herror, hnone]
  constructor
  · rintro ⟨before, ⟨piece, number⟩, after, htext, ⟨hbad, he⟩, hbefore⟩
    exact ⟨piece, number, ⟨before, after, htext, hbefore, hbad⟩, he⟩
  · rintro ⟨piece, number, ⟨before, after, htext, hbefore, hbad⟩, he⟩
    exact ⟨before, (piece, number), after, htext, ⟨hbad, he⟩, hbefore⟩

/-- Every text is read in one of two ways. If a piece of it is no figure, the first such piece in reading
    order is the error, with the number of its line, whatever the rows before it are like. Else
    its lines are rows of figures, and it is read as these rows are. -/
theorem text_read_exactly (text : String) :
    (∀ piece number, FirstBad text piece number → ofText? text = .error (.badFigure number (.ofList piece))) ∧
      (∀ rows, HasRows text rows → ofText? text = ofRows? rows) ∧
      ((∃ piece number, FirstBad text piece number) ∨ ∃ rows, HasRows text rows) := by
  refine ⟨?_, ?_, ?_⟩
  · intro piece number hbad
    rw [ofText?, readRows_eq_error.mpr ⟨piece, number, hbad, rfl⟩]
    rfl
  · intro rows hrows
    rw [ofText?, readRows_eq_ok.mpr hrows]
    rfl
  · cases h : readRows text with
    | ok rows => exact .inr ⟨rows, readRows_eq_ok.mp h⟩
    | error e =>
      obtain ⟨piece, number, hbad, -⟩ := readRows_eq_error.mp h
      exact .inl ⟨piece, number, hbad⟩

-- In the one text the second row is too short, and a piece of the fourth line is still the error. The
-- other one has the same second row and only figures.
theorem text_read_exactly_ragged :
    let bad := "1 -0\r\n,\n \u00a0# none\n+3\tfour 5-\n"
    let ragged := "007,\r\n,\n"
    FirstBad bad "four".toList 4 ∧ ofText? bad = .error (.badFigure 4 "four") ∧
      HasRows ragged [[7], []] ∧ ofText? ragged = .error (.ragged 2 1 0) := by
  intro bad ragged
  have hfigure {piece : List Char} {n : Int32} (h : figureOf? piece = some n) : ∃ n, Figure n piece :=
    ⟨n, figureOf?_eq_some.mp h⟩
  have hfirst : FirstBad bad "four".toList 4 := by
    refine ⟨[("1".toList, 1), ("-0".toList, 1), ("+3".toList, 4)], [("5-".toList, 4)], by decide +kernel, ?_, ?_⟩
    · simp only [List.forall_mem_cons, List.not_mem_nil, false_imp_iff, implies_true, and_true]
      exact ⟨hfigure (n := 1) rfl, hfigure (n := 0) rfl, hfigure (n := 3) rfl⟩
    · intro n h
      cases figureOf?_eq_some.mpr h
  have hrows : HasRows ragged [[7], []] := by
    have hlines : productLines ragged.toList = [(["007".toList], 1), ([], 2)] := by decide +kernel
    rw [HasRows, hlines]
    exact .cons (.cons (figureOf?_eq_some.mp rfl) .nil) (.cons .nil .nil)
  refine ⟨hfirst, (text_read_exactly bad).1 _ 4 hfirst, hrows, ?_⟩
  rw [(text_read_exactly ragged).2.1 _ hrows]
  rfl

end Grid

end GridQuery
