/-
  GridQuery.Proofs.Grid.Forms — the texts and the JSON of some rows, and the grid that is read from them.

  Some rows have many texts (`TextForm`): a figure may have a sign and zeros in front, any blanks
  and commas stand between and around figures, and lines that are blank or start with `#` stand
  anywhere. They have many texts in JSON too, which differ in space only. Reading any of them
  gives what the rows themselves give, be it their grid or the error of the first row that is not
  as long as the first (`readers_agree`).

  A line's words are its figures, since no figure holds a separator (`readRow_of_rowText`); and a
  row is never passed over, since it holds something that is not blank and no `#`
  (`isRow_of_mem`).
-/

import GridQuery.Grid.File
import GridQuery.Proofs.Json.Layout
import Mathlib.Data.List.TakeWhile

namespace GridQuery

/-! ## Cutting at separators -/

namespace Text

variable {sep : Char → Bool}

theorem pieces_eq_splitOnP (cs : List Char) : pieces sep cs = cs.splitOnP sep := by
  induction cs with
  | nil => rfl
  | cons c cs ih =>
    rw [pieces, List.splitOnP_cons_eq_if_modifyHead, ih]
    split
    · rfl
    · cases h : cs.splitOnP sep with
      | nil => exact absurd h (List.splitOnP_ne_nil sep cs)
      | cons p ps => rfl

theorem pieces_append {p : List Char} {c : Char} (hp : ∀ d ∈ p, sep d = false) (hc : sep c = true) (rest : List Char) :
    pieces sep (p ++ c :: rest) = p :: pieces sep rest := by
  rw [pieces_eq_splitOnP, List.splitOnP_append_cons_of_forall_mem hp _ hc, pieces_eq_splitOnP]

theorem pieces_of_forall {p : List Char} (hp : ∀ d ∈ p, sep d = false) : pieces sep p = [p] := by
  rw [pieces_eq_splitOnP, List.splitOnP_eq_singleton hp]

theorem words_gap {gap : List Char} (h : ∀ c ∈ gap, sep c = true) (cs : List Char) :
    words sep (gap ++ cs) = words sep cs := by
  induction gap with
  | nil => rfl
  | cons c gap ih =>
    obtain ⟨hc, hgap⟩ := List.forall_mem_cons.mp h
    rw [List.cons_append, words, pieces, if_pos hc, List.filter_cons_of_neg (by simp)]
    exact ih hgap

/-- A run without separators is a word, if a separator or nothing comes after it. -/
theorem words_append {word rest : List Char} (hne : word ≠ []) (hword : ∀ c ∈ word, sep c = false)
    (hrest : ∀ c ∈ rest.head?, sep c = true) : words sep (word ++ rest) = word :: words sep rest := by
  have hkeep : (!word.isEmpty) = true := by simpa using hne
  cases rest with
  | nil =>
    rw [List.append_nil, words, pieces_of_forall hword, List.filter_cons, if_pos hkeep]
    rfl
  | cons c rest =>
    have hc : sep c = true := hrest c rfl
    rw [words, pieces_append hword hc, List.filter_cons, if_pos hkeep, words, pieces, if_pos hc, List.filter_cons,
      if_neg (by simp)]

end Text

namespace Grid

open Json.Token (Digits)

/-! ## The texts of a figure and of a row -/

/-- A figure in decimal digits, with or without a sign, zeros in front or not. -/
inductive Figure (n : Int32) : List Char → Prop
  | unsigned {ds : List Char} : Digits ds → n.toInt = Nat.ofDigitChars 10 ds 0 → Figure n ds
  | plus {ds : List Char} : Digits ds → n.toInt = Nat.ofDigitChars 10 ds 0 → Figure n ('+' :: ds)
  | minus {ds : List Char} : Digits ds → n.toInt = -Nat.ofDigitChars 10 ds 0 → Figure n ('-' :: ds)

/-- Blanks and commas in a line. -/
def Gap (cs : List Char) : Prop := ∀ c ∈ cs, isSeparator c = true ∧ c ≠ '\n'

/-- Some figures from the first one on, with gaps between them and after the last. -/
inductive Figures : List Int32 → List Char → Prop
  | last {n : Int32} {figure gap : List Char} : Figure n figure → Gap gap → Figures [n] (figure ++ gap)
  | more {n : Int32} {ns : List Int32} {figure gap cs : List Char} :
      Figure n figure → gap ≠ [] → Gap gap → Figures ns cs → Figures (n :: ns) (figure ++ (gap ++ cs))

inductive RowText : List Int32 → List Char → Prop
  | figures {row : List Int32} {gap cs : List Char} : Gap gap → Figures row cs → RowText row (gap ++ cs)
  /-- A comma at least marks a row without figures. -/
  | commas {gap : List Char} : Gap gap → ',' ∈ gap → RowText [] gap

theorem isSeparator_of_isDigit {c : Char} (h : c.isDigit = true) : isSeparator c = false := by
  have hcode : 48 ≤ c.toNat ∧ c.toNat ≤ 57 := by
    simpa [Char.isDigit, UInt32.le_iff_toNat_le] using h
  have hcomma : c ≠ ',' := Json.Token.ne_of_isDigit h rfl
  simp only [isSeparator, Text.isBlank, Bool.or_eq_false_iff, Bool.and_eq_false_iff, decide_eq_false_iff_not,
    beq_eq_false_iff_ne]
  refine ⟨?_, hcomma⟩
  omega

theorem mem_figure {n : Int32} {cs : List Char} (h : Figure n cs) {c : Char} (hc : c ∈ cs) :
    c.isDigit = true ∨ c = '+' ∨ c = '-' := by
  cases h with
  | unsigned hds _ => exact .inl (hds.2 c hc)
  | plus hds _ =>
    rcases List.mem_cons.mp hc with rfl | hc
    · exact .inr (.inl rfl)
    · exact .inl (hds.2 c hc)
  | minus hds _ =>
    rcases List.mem_cons.mp hc with rfl | hc
    · exact .inr (.inr rfl)
    · exact .inl (hds.2 c hc)

/-- No character of a figure is a separator. -/
theorem not_sep_of_figure {n : Int32} {cs : List Char} (h : Figure n cs) : ∀ c ∈ cs, isSeparator c = false := by
  intro c hc
  rcases mem_figure h hc with hdigit | rfl | rfl
  · exact isSeparator_of_isDigit hdigit
  · decide
  · decide

theorem ne_nil_of_figure {n : Int32} {cs : List Char} (h : Figure n cs) : cs ≠ [] := by
  cases h with
  | unsigned hds _ => exact hds.1
  | plus _ _ => exact List.cons_ne_nil _ _
  | minus _ _ => exact List.cons_ne_nil _ _

theorem digits?_of_digits {ds : List Char} (h : Digits ds) : Numeral.digits? ds = some (Nat.ofDigitChars 10 ds 0) := by
  rw [Numeral.digits?, if_pos ⟨h.1, List.all_eq_true.mpr h.2⟩]

theorem read?_of_figure {n : Int32} {cs : List Char} (h : Figure n cs) : Numeral.read? cs = some n.toInt := by
  cases h with
  | unsigned hds hn =>
    have hsign {c : Char} (hc : c.isDigit = false) (ds : List Char) : cs ≠ c :: ds := by
      rintro rfl
      exact Json.Token.ne_of_isDigit (hds.2 c List.mem_cons_self) hc rfl
    rw [Numeral.read?.eq_3 _ (hsign rfl) (hsign rfl), digits?_of_digits hds, hn]
    rfl
  | plus hds hn =>
    rw [Numeral.read?, digits?_of_digits hds, hn]
    rfl
  | minus hds hn =>
    rw [Numeral.read?, digits?_of_digits hds, hn, Option.map_some, Int.negOfNat_eq]
    rfl

theorem readFigure_of_figure {n : Int32} {cs : List Char} (h : Figure n cs) (number : Nat) :
    readFigure number cs = .ok n := by
  rw [readFigure, figureOf?, read?_of_figure h, Option.bind_some, Numeral.word?_toInt]

theorem Gap.words_append {gap : List Char} (h : Gap gap) (cs : List Char) :
    Text.words isSeparator (gap ++ cs) = Text.words isSeparator cs :=
  Text.words_gap (fun c hc => (h c hc).1) cs

theorem Gap.words {gap : List Char} (h : Gap gap) : Text.words isSeparator gap = [] := by
  have hwords := h.words_append []
  rwa [List.append_nil] at hwords

theorem readRow_of_figures {row : List Int32} {cs : List Char} (h : Figures row cs) (number : Nat) :
    readRow cs number = .ok row := by
  induction h with
  | @last n figure gap hfigure hgap =>
    have hhead : ∀ c ∈ gap.head?, isSeparator c = true := fun c hc => (hgap c (List.mem_of_mem_head? hc)).1
    rw [readRow, Text.words_append (ne_nil_of_figure hfigure) (not_sep_of_figure hfigure) hhead, hgap.words,
      List.mapM_cons, readFigure_of_figure hfigure]
    rfl
  | @more n ns figure gap cs hfigure hne hgap _ ih =>
    have hhead : ∀ c ∈ (gap ++ cs).head?, isSeparator c = true := by
      obtain ⟨d, gap, rfl⟩ := List.exists_cons_of_ne_nil hne
      intro c hc
      cases hc
      exact (hgap d List.mem_cons_self).1
    rw [readRow] at ih
    rw [readRow, Text.words_append (ne_nil_of_figure hfigure) (not_sep_of_figure hfigure) hhead, hgap.words_append,
      List.mapM_cons, readFigure_of_figure hfigure, ih]
    rfl

theorem readRow_of_rowText {row : List Int32} {cs : List Char} (h : RowText row cs) (number : Nat) :
    readRow cs number = .ok row := by
  cases h with
  | figures hgap hcs =>
    rw [readRow, hgap.words_append]
    exact readRow_of_figures hcs number
  | commas hgap _ =>
    rw [readRow, hgap.words]
    rfl

/-! ## The texts of some rows -/

/-- A line of a text without its end, and the row that it is; a line that is passed over is none. -/
inductive Line : Option (List Int32) → List Char → Prop
  | blank {cs : List Char} : (∀ c ∈ cs, Text.isBlank c = true ∧ c ≠ '\n') → Line none cs
  | remark {blanks cs : List Char} :
      (∀ c ∈ blanks, Text.isBlank c = true ∧ c ≠ '\n') → '\n' ∉ cs → Line none (blanks ++ '#' :: cs)
  | row {row : List Int32} {cs : List Char} : RowText row cs → Line (some row) cs

inductive TextForm : List (List Int32) → List Char → Prop
  /-- What stands after the last end of a line, be it nothing. -/
  | last {row? : Option (List Int32)} {cs : List Char} : Line row? cs → TextForm row?.toList cs
  | line {row? : Option (List Int32)} {rows : List (List Int32)} {cs ending rest : List Char} :
      Line row? cs → ending = ['\n'] ∨ ending = ['\r', '\n'] → TextForm rows rest →
        TextForm (row?.toList ++ rows) (cs ++ (ending ++ rest))

theorem ne_of_mem_gap {gap : List Char} (h : Gap gap) : ∀ c ∈ gap, c ≠ '\n' ∧ c ≠ '#' := by
  intro c hc
  refine ⟨(h c hc).2, ?_⟩
  rintro rfl
  exact Bool.noConfusion (h '#' hc).1

theorem ne_of_mem_figure {n : Int32} {cs : List Char} (h : Figure n cs) : ∀ c ∈ cs, c ≠ '\n' ∧ c ≠ '#' := by
  intro c hc
  rcases mem_figure h hc with hdigit | rfl | rfl
  · exact ⟨Json.Token.ne_of_isDigit hdigit rfl, Json.Token.ne_of_isDigit hdigit rfl⟩
  · decide
  · decide

theorem ne_of_mem_figures {row : List Int32} {cs : List Char} (h : Figures row cs) :
    ∀ c ∈ cs, c ≠ '\n' ∧ c ≠ '#' := by
  induction h with
  | last hfigure hgap => exact List.forall_mem_append.mpr ⟨ne_of_mem_figure hfigure, ne_of_mem_gap hgap⟩
  | more hfigure _ hgap _ ih =>
    exact List.forall_mem_append.mpr
      ⟨ne_of_mem_figure hfigure, List.forall_mem_append.mpr ⟨ne_of_mem_gap hgap, ih⟩⟩

theorem ne_of_mem_rowText {row : List Int32} {cs : List Char} (h : RowText row cs) :
    ∀ c ∈ cs, c ≠ '\n' ∧ c ≠ '#' := by
  cases h with
  | figures hgap hcs => exact List.forall_mem_append.mpr ⟨ne_of_mem_gap hgap, ne_of_mem_figures hcs⟩
  | commas hgap _ => exact ne_of_mem_gap hgap

theorem not_newline_of_line {row? : Option (List Int32)} {cs : List Char} (h : Line row? cs) :
    ∀ c ∈ cs, (c == '\n') = false := by
  have hne : ∀ c ∈ cs, c ≠ '\n' := by
    cases h with
    | blank hblank => exact fun c hc => (hblank c hc).2
    | remark hblank hcs =>
      refine List.forall_mem_append.mpr ⟨fun c hc => (hblank c hc).2, List.forall_mem_cons.mpr ⟨by decide, ?_⟩⟩
      rintro c hc rfl
      exact hcs hc
    | row h => exact fun c hc => (ne_of_mem_rowText h c hc).1
  exact fun c hc => beq_eq_false_iff_ne.mpr (hne c hc)

theorem Gap.carriageReturn {gap : List Char} (h : Gap gap) : Gap (gap ++ ['\r']) :=
  List.forall_mem_append.mpr ⟨h, List.forall_mem_singleton.mpr (by decide)⟩

theorem Figures.carriageReturn {row : List Int32} {cs : List Char} (h : Figures row cs) :
    Figures row (cs ++ ['\r']) := by
  induction h with
  | last hfigure hgap =>
    rw [List.append_assoc]
    exact .last hfigure hgap.carriageReturn
  | more hfigure hne hgap _ ih =>
    rw [List.append_assoc, List.append_assoc]
    exact .more hfigure hne hgap ih

/-- A carriage return is blank, so a line stays what it is with one at its end. -/
theorem Line.carriageReturn {row? : Option (List Int32)} {cs : List Char} (h : Line row? cs) :
    Line row? (cs ++ ['\r']) := by
  cases h with
  | blank hblank => exact .blank (List.forall_mem_append.mpr ⟨hblank, List.forall_mem_singleton.mpr (by decide)⟩)
  | remark hblank hcs =>
    rw [List.append_assoc]
    exact .remark hblank (by simpa using hcs)
  | row hrow =>
    cases hrow with
    | figures hgap hcs =>
      rw [List.append_assoc]
      exact .row (.figures hgap hcs.carriageReturn)
    | commas hgap hcomma => exact .row (.commas hgap.carriageReturn (List.mem_append_left _ hcomma))

/-- A line with anything that is not blank is a row, if there is no `#` in it. -/
theorem isRow_of_mem {cs : List Char} {c : Char} (hc : c ∈ cs) (hblank : Text.isBlank c = false) (hremark : '#' ∉ cs) :
    isRow cs = true := by
  unfold isRow
  split
  · rename_i hnil
    have hall := List.dropWhile_eq_nil_iff.mp hnil c hc
    rw [hblank] at hall
    cases hall
  · rename_i rest hrest
    have hmem : '#' ∈ cs.dropWhile Text.isBlank := by
      rw [hrest]
      exact List.mem_cons_self
    exact absurd ((List.dropWhile_sublist _).subset hmem) hremark
  · rfl

theorem exists_not_sep {row : List Int32} {cs : List Char} (h : Figures row cs) : ∃ c ∈ cs, isSeparator c = false := by
  have hhead {n : Int32} {figure : List Char} (h : Figure n figure) (rest : List Char) :
      ∃ c ∈ figure ++ rest, isSeparator c = false := by
    obtain ⟨c, _, rfl⟩ := List.exists_cons_of_ne_nil (ne_nil_of_figure h)
    exact ⟨c, List.mem_cons_self, not_sep_of_figure h c List.mem_cons_self⟩
  cases h with
  | last hfigure _ => exact hhead hfigure _
  | more hfigure _ _ _ => exact hhead hfigure _

theorem isRow_of_line {row? : Option (List Int32)} {cs : List Char} (h : Line row? cs) : isRow cs = row?.isSome := by
  cases h with
  | blank hblank =>
    rw [isRow, List.dropWhile_eq_nil_iff.mpr fun c hc => (hblank c hc).1]
    rfl
  | remark hblank _ =>
    rw [isRow, List.dropWhile_append_of_pos fun c hc => (hblank c hc).1]
    rfl
  | @row row cs hrow =>
    have hremark : '#' ∉ cs := fun hc => (ne_of_mem_rowText hrow '#' hc).2 rfl
    cases hrow with
    | @figures _ gap _ _ hcs =>
      obtain ⟨c, hc, hsep⟩ := exists_not_sep hcs
      have hblank : Text.isBlank c = false := (Bool.or_eq_false_iff.mp hsep).1
      exact isRow_of_mem (List.mem_append_right gap hc) hblank hremark
    | commas _ hcomma => exact isRow_of_mem hcomma (by decide) hremark

/-- The rows among some numbered lines. -/
def readNumbered (numbered : List (List Char × Nat)) : Except Error (List (List Int32)) :=
  (numbered.filter fun line => isRow line.1).mapM fun line => readRow line.1 line.2

theorem readNumbered_cons {row? : Option (List Int32)} {cs : List Char} (h : Line row? cs) (number : Nat)
    {numbered : List (List Char × Nat)} {rows : List (List Int32)} (hrows : readNumbered numbered = .ok rows) :
    readNumbered ((cs, number) :: numbered) = .ok (row?.toList ++ rows) := by
  rw [readNumbered] at hrows ⊢
  cases row? with
  | none =>
    have hrow : isRow cs = false := isRow_of_line h
    rw [List.filter_cons, if_neg (by simp [hrow])]
    exact hrows
  | some row =>
    have hrow : isRow cs = true := isRow_of_line h
    cases h with
    | row h =>
      rw [List.filter_cons, if_pos hrow, List.mapM_cons, readRow_of_rowText h, hrows]
      rfl

/-- Lines that are passed over count, but leave no row. -/
theorem readNumbered_lines {rows : List (List Int32)} {cs : List Char} (h : TextForm rows cs) (number : Nat) :
    readNumbered ((Text.lines cs).zipIdx number) = .ok rows := by
  induction h generalizing number with
  | @last row? cs hline =>
    have hlines : Text.lines cs = [cs] := Text.pieces_of_forall (not_newline_of_line hline)
    have hrows : readNumbered [(cs, number)] = .ok (row?.toList ++ []) := readNumbered_cons hline number rfl
    rw [List.append_nil] at hrows
    rw [hlines]
    exact hrows
  | @line row? rows cs ending rest hline hending _ ih =>
    have hlines {cs : List Char} (hline : Line row? cs) :
        readNumbered ((Text.lines (cs ++ '\n' :: rest)).zipIdx number) = .ok (row?.toList ++ rows) := by
      rw [Text.lines, Text.pieces_append (not_newline_of_line hline) (beq_self_eq_true _), List.zipIdx_cons]
      exact readNumbered_cons hline number (ih (number + 1))
    rcases hending with rfl | rfl
    · exact hlines hline
    · have hreturn := hlines hline.carriageReturn
      rwa [List.append_assoc] at hreturn

theorem readRows_of_textForm {rows : List (List Int32)} {text : String} (h : TextForm rows text.toList) :
    readRows text = .ok rows := readNumbered_lines h 1

/-! ## Rows as JSON -/

/-- An array of the arrays of figures. -/
def jsonOfRows (rows : List (List Int32)) : Json := .arr (rows.map fun row => .arr (row.map Json.word))

theorem words?_arr_word (row : List Int32) : Json.words? (.arr (row.map Json.word)) = some row := by
  have hword : Json.word? ∘ Json.word = pure := funext Json.word?_word
  show (row.map Json.word).mapM Json.word? = some row
  rw [List.mapM_map, hword, List.mapM_pure, List.map_id']
  rfl

theorem rowsOfJson?_jsonOfRows (rows : List (List Int32)) : rowsOfJson? (jsonOfRows rows) = some rows := by
  have hrow : Json.words? ∘ (fun row => .arr (row.map Json.word)) = pure := funext words?_arr_word
  show (rows.map fun row => .arr (row.map Json.word)).mapM Json.words? = some rows
  rw [List.mapM_map, hrow, List.mapM_pure, List.map_id']
  rfl

/-- Every text of some rows and every text of their JSON are read as just those rows. -/
theorem readers_agree (rows : List (List Int32)) (text json : String) (htext : TextForm rows text.toList)
    (hjson : Json.Text (jsonOfRows rows) json) : ofText? text = ofRows? rows ∧ ofJson? json = ofRows? rows := by
  constructor
  · rw [ofText?, readRows_of_textForm htext]
    rfl
  · rw [ofJson?, Json.read?_of_text hjson, Option.bind_some, rowsOfJson?_jsonOfRows]

-- The second row is a line with no more than a comma.
theorem readers_agree_ragged :
    ofText? "# sales\r\n-2147483648,\u00a0+2147483647 \r\n \n,\n\t007" = .error (.ragged 2 2 0) ∧
      ofJson? " [[-2147483648, 2147483647], [], [7]]" = .error (.ragged 2 2 0) := by
  have hleast : Figure (-2147483648) "-2147483648".toList := .minus ⟨by decide, List.all_eq_true.mp rfl⟩ (by decide)
  have hmost : Figure 2147483647 "+2147483647".toList := .plus ⟨by decide, List.all_eq_true.mp rfl⟩ (by decide)
  have hseven : Figure 7 "007".toList := .unsigned ⟨by decide, List.all_eq_true.mp rfl⟩ (by decide)
  have hgap (gap : List Char) (h : (gap.all fun c => isSeparator c && c != '\n') = true := by rfl) : Gap gap := by
    intro c hc
    simpa using List.all_eq_true.mp h c hc
  have hfirst : RowText [-2147483648, 2147483647] ([] ++ ("-2147483648".toList ++ ([',', '\u00a0'] ++
      ("+2147483647".toList ++ [' '])))) :=
    .figures (hgap []) (.more hleast (by decide) (hgap [',', '\u00a0']) (.last hmost (hgap [' '])))
  have hlast : RowText [7] (['\t'] ++ ("007".toList ++ [])) := .figures (hgap ['\t']) (.last hseven (hgap []))
  have htext := TextForm.line (@Line.remark [] " sales".toList nofun (by decide)) (.inr rfl) <|
    .line (.row hfirst) (.inr rfl) <| .line (@Line.blank [' '] (by simp [Text.isBlank])) (.inl rfl) <|
    .line (.row (.commas (hgap [',']) (by decide))) (.inl rfl) <| .last (.row hlast)
  have hnum (n : Int) : Json.Token.Lexeme (.num (some n)) (Numeral.write n).toList := .num (.integer (.whole n))
  have hjson := Json.Laid.space (c := ' ') rfl <| .token .openArray <|
    .token .openArray <| .token (hnum (-2147483648)) <| .token .comma <| .space (c := ' ') rfl <|
    .token (hnum 2147483647) <| .token .closeArray <| .token .comma <| .space (c := ' ') rfl <|
    .token .openArray <| .token .closeArray <| .token .comma <| .space (c := ' ') rfl <|
    .token .openArray <| .token (hnum 7) <| .token .closeArray <| .token .closeArray .done
  have hragged : ofRows? [[-2147483648, 2147483647], [], [7]] = .error (.ragged 2 2 0) := by decide
  rw [← hragged]
  refine readers_agree _ _ _ (Eq.mp (congrArg (TextForm _) ?_) htext) (Eq.mp (congrArg (Json.Laid _) ?_) hjson)
  all_goals decide +kernel

end Grid

end GridQuery
