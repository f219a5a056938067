/-
  GridQuery.Proofs.Values — values in their two forms, readable and JSON.

  A text is read as a value exactly if it is a text of one of the value's spellings in JSON, of which
  a set has many: its elements in any order, each of them at least once (`Value.read?_eq_some_iff`).
  What is written is the spelling in ascending order, so a value is read back from what is written of
  it (`Value.read?_written`), and to write what was read and read it again changes nothing.

  The readable form is read back as well. Between braces stands what would be a row of figures in a text
  of a grid, and without them stands one figure or a truth value, and no text is two of these
  (`Value.ofShown?_text`).

  So either form tells which value it is the form of. On the command line a failed run prints nothing
  and any other run a line, its value in one of the forms (`Command.stdout_execute`), so what one
  form of output shows is known from the other (`Command.stdout_eq_iff`).
-/

import GridQuery.Command
import GridQuery.Proofs.Grid.Lines
import GridQuery.Proofs.Json.Accepted

namespace GridQuery

/-! ## JSON -/

namespace Json

theorem word?_eq_some {j : Json} {n : Int32} : j.word? = some n ↔ j = .word n := by
  constructor
  · intro h
    cases j with
    | num m =>
      obtain ⟨k, rfl, hk⟩ := Option.bind_eq_some_iff.mp h
      rw [word, Numeral.word?_eq_some.mp hk]
    | _ => cases h
  · rintro rfl
    exact word?_word n

theorem eq_map_of_mapM_word? {items : List Json} {ns : List Int32} (h : items.mapM word? = some ns) :
    items = ns.map word := by
  induction items generalizing ns with
  | nil =>
    cases h
    rfl
  | cons j items ih =>
    rw [List.mapM_cons] at h
    obtain ⟨n, hn, hrest⟩ := Option.bind_eq_some_iff.mp h
    obtain ⟨ms, hms, hns⟩ := Option.bind_eq_some_iff.mp hrest
    cases hns
    rw [word?_eq_some.mp hn, ih hms, List.map_cons]

theorem words?_eq_some {j : Json} {ns : List Int32} : j.words? = some ns ↔ j = .arr (ns.map .word) := by
  constructor
  · intro h
    obtain ⟨items, hitems, hns⟩ := Option.bind_eq_some_iff.mp h
    cases j with
    | arr vs =>
      cases hitems
      rw [eq_map_of_mapM_word? hns]
    | _ => cases hitems
  · rintro rfl
    exact Grid.words?_arr_word ns

theorem bool?_eq_some {j : Json} {b : Bool} : j.bool? = some b ↔ j = .bool b := by
  constructor
  · intro h
    cases j with
    | bool c =>
      cases h
      rfl
    | _ => cases h
  · rintro rfl
    rfl

theorem hasText_words (ns : List Int32) : HasText (.arr (ns.map .word)) := by
  refine .arr fun v hv => ?_
  obtain ⟨n, -, rfl⟩ := List.mem_map.mp hv
  exact .num n.toInt

theorem written_word (n : Int32) : (word n).written = Numeral.writeWord n := by
  rw [word, written, Numeral.writeWord]

theorem written_items (n : Int32) (ns : List Int32) :
    (word n).written ++ furtherItems (ns.map .word) = ",".intercalate ((n :: ns).map Numeral.writeWord) ++ "]" := by
  induction ns generalizing n with
  | nil => rw [List.map_nil, furtherItems, List.map_singleton, String.intercalate_singleton, written_word]
  | cons m ns ih =>
    rw [List.map_cons, furtherItems, String.append_assoc, ih, written_word, List.map_cons, List.map_cons, List.map_cons,
      String.intercalate_cons_cons]
    simp only [String.append_assoc]

theorem written_words (ns : List Int32) :
    (Json.arr (ns.map .word)).written = "[" ++ ",".intercalate (ns.map Numeral.writeWord) ++ "]" := by
  cases ns with
  | nil => rfl
  | cons n ns => rw [List.map_cons, written, String.append_assoc, written_items, String.append_assoc]

end Json

namespace Value

/-- The ways to put a value into JSON. -/
inductive Spelled : Value → Json → Prop
  | number (n : Int32) : Spelled (.number n) (.tagged "Number" (.word n))
  | set (ns : List Int32) : Spelled (.set (.ofList ns)) (.tagged "Set" (.arr (ns.map .word)))
  | truth (b : Bool) : Spelled (.truth b) (.tagged "Truth" (.bool b))

theorem ofJson?_eq_some_iff {j : Json} {v : Value} : ofJson? j = some v ↔ v.Spelled j := by
  constructor
  · intro h
    unfold ofJson? at h
    split at h
    · obtain ⟨n, hn, rfl⟩ := Option.map_eq_some_iff.mp h
      rw [Json.word?_eq_some.mp hn]
      exact .number n
    · obtain ⟨ns, hns, rfl⟩ := Option.map_eq_some_iff.mp h
      rw [Json.words?_eq_some.mp hns]
      exact .set ns
    · obtain ⟨b, hb, rfl⟩ := Option.map_eq_some_iff.mp h
      rw [Json.bool?_eq_some.mp hb]
      exact .truth b
    · cases h
  · intro h
    cases h with
    | number n => exact Option.map_eq_some_iff.mpr ⟨n, Json.word?_eq_some.mpr rfl, rfl⟩
    | set ns => exact Option.map_eq_some_iff.mpr ⟨ns, Json.words?_eq_some.mpr rfl, rfl⟩
    | truth b => rfl

/-- A text is read as a value exactly if it is a text of a spelling of the value. -/
theorem read?_eq_some_iff {text : String} {v : Value} : read? text = some v ↔ ∃ j, v.Spelled j ∧ Json.Text j text := by
  rw [read?, Option.bind_eq_some_iff]
  simp only [Json.read?_eq_some_iff, ofJson?_eq_some_iff, and_comm]

theorem read?_set {text : String} {s : Ascending Int32} :
    read? text = some (.set s) ↔
      ∃ ns : List Int32, Json.Text (.tagged "Set" (.arr (ns.map .word))) text ∧ ∀ x, x ∈ s ↔ x ∈ ns := by
  rw [read?_eq_some_iff]
  constructor
  · rintro ⟨j, hspelled, htext⟩
    cases hspelled with
    | set ns => exact ⟨ns, htext, fun x => Ascending.mem_ofList⟩
  · rintro ⟨ns, htext, hns⟩
    have hset : s = .ofList ns := Ascending.ext fun x => (hns x).trans Ascending.mem_ofList.symm
    rw [hset]
    exact ⟨_, .set ns, htext⟩

theorem spelled_toJson (v : Value) : v.Spelled v.toJson := by
  cases v with
  | number n => exact .number n
  | set s =>
    have hset := Spelled.set s.toList
    rwa [Ascending.ofList_toList] at hset
  | truth b => exact .truth b

theorem hasText_toJson (v : Value) : Json.HasText v.toJson := by
  cases v with
  | number n => exact (Json.HasText.num n.toInt).tagged
  | set s => exact (Json.hasText_words s.toList).tagged
  | truth b => exact (Json.HasText.bool b).tagged

theorem read?_written (v : Value) : read? v.toJson.written = some v :=
  read?_eq_some_iff.mpr ⟨v.toJson, v.spelled_toJson, Json.text_written v.hasText_toJson⟩

theorem written_set (s : Ascending Int32) :
    (Value.set s).toJson.written = "\x7b\"Set\":[" ++ ",".intercalate (s.toList.map Numeral.writeWord) ++ "]\x7d" := by
  have hquote : Json.quote "Set" = "\"Set\"" := by decide
  have hopen : "\x7b\"Set\":[" = "\x7b" ++ ("\"Set\"" ++ (":" ++ "[")) := by decide
  have hclose : "]\x7d" = "]" ++ "\x7d" := by decide
  rw [toJson, Json.tagged, Json.written, Json.member, Option.getD_some, Json.written_words, Json.furtherMembers, hquote,
    hopen, hclose]
  simp only [String.append_assoc]

/-- What is written of the value that is read from a text. -/
def rewritten? (text : String) : Option String := (read? text).map fun v => v.toJson.written

theorem rewritten?_of_rewritten? {text again : String} (h : rewritten? text = some again) :
    rewritten? again = some again := by
  obtain ⟨v, -, rfl⟩ := Option.map_eq_some_iff.mp h
  rw [rewritten?, read?_written, Option.map_some]

/-! ## The readable form -/

/-- The value that some characters are the readable form of. -/
def ofShown? : List Char → Option Value
  | '\x7b' :: cs => (Grid.readRow cs.dropLast 1).toOption.map fun ns => .set (.ofList ns)
  | ['t', 'r', 'u', 'e'] => some (.truth true)
  | ['f', 'a', 'l', 's', 'e'] => some (.truth false)
  | cs => (Grid.figureOf? cs).map .number

theorem figureOf?_writeWord (n : Int32) : Grid.figureOf? (Numeral.writeWord n).toList = some n := by
  rw [Numeral.writeWord, Grid.figureOf?, Numeral.read?_write, Option.bind_some, Numeral.word?_toInt]

theorem figure_writeWord (n : Int32) : Grid.Figure n (Numeral.writeWord n).toList :=
  Grid.figureOf?_eq_some.mp (figureOf?_writeWord n)

theorem figures_shown (n : Int32) (ns : List Int32) :
    Grid.Figures (n :: ns) (", ".intercalate ((n :: ns).map Numeral.writeWord)).toList := by
  induction ns generalizing n with
  | nil =>
    have hgap : Grid.Gap [] := nofun
    have hlast := Grid.Figures.last (figure_writeWord n) hgap
    rw [List.append_nil] at hlast
    rwa [List.map_singleton, String.intercalate_singleton]
  | cons m ns ih =>
    have hgap : Grid.Gap [',', ' '] := by simp [Grid.Gap, Grid.isSeparator, Text.isBlank]
    have hmore := Grid.Figures.more (figure_writeWord n) (List.cons_ne_nil ',' [' ']) hgap (ih m)
    rw [List.map_cons, List.map_cons, String.intercalate_cons_cons, ← List.map_cons, String.toList_append,
      String.toList_append, List.append_assoc]
    exact hmore

/-- What is shown between the braces of a set is a row's text. -/
theorem readRow_shown (ns : List Int32) :
    Grid.readRow (", ".intercalate (ns.map Numeral.writeWord)).toList 1 = .ok ns := by
  cases ns with
  | nil => rfl
  | cons n ns => exact Grid.readRow_of_figures (figures_shown n ns) 1

theorem not_mem_writeWord {n : Int32} {c : Char} (hminus : c ≠ '-') (hdigit : c.isDigit = false) :
    c ∉ (Numeral.writeWord n).toList := by
  intro hc
  rcases Numeral.mem_write hc with h | h
  · exact hminus h
  · rw [hdigit] at h
    cases h

theorem ofShown?_text (v : Value) : ofShown? v.text.toList = some v := by
  cases v with
  | number n =>
    have hbrace (cs : List Char) : (Numeral.writeWord n).toList ≠ '\x7b' :: cs := by
      intro h
      exact not_mem_writeWord (by decide) rfl (h ▸ List.mem_cons_self)
    have hletter {cs : List Char} (he : 'e' ∈ cs) : (Numeral.writeWord n).toList ≠ cs := by
      intro h
      exact not_mem_writeWord (by decide) rfl (h ▸ he)
    rw [text, ofShown?.eq_4 _ hbrace (hletter (by decide)) (hletter (by decide)), figureOf?_writeWord]
    rfl
  | set s =>
    have htext : (Value.set s).text.toList =
        '\x7b' :: ((", ".intercalate (s.toList.map Numeral.writeWord)).toList ++ ['\x7d']) := by
      rw [text, String.toList_append, String.toList_append]
      rfl
    have hread := readRow_shown s.toList
    rw [htext, ofShown?, List.dropLast_concat, hread]
    show some (Value.set (.ofList s.toList)) = _
    rw [Ascending.ofList_toList]
  | truth b => cases b <;> rfl

/-- A form that values are read back from is different for different values. -/
theorem form_eq_iff {form : Value → String} (back : String → Option Value) (hback : ∀ v, back (form v) = some v)
    {v w : Value} : form v = form w ↔ v = w := by
  constructor
  · intro hform
    have hread := hback v
    rw [hform, hback w] at hread
    exact (Option.some.inj hread).symm
  · intro h
    rw [h]

theorem text_eq_iff {v w : Value} : v.text = w.text ↔ v = w :=
  form_eq_iff (fun text => ofShown? text.toList) ofShown?_text

theorem written_eq_iff {v w : Value} : v.toJson.written = w.toJson.written ↔ v = w := form_eq_iff read? read?_written

end Value

/-! ## On the command line -/

namespace Command

/-- The value that a run comes to, if it does not fail. -/
def value? (o : Options) (read : String → Except Fault String) : Option Value :=
  match answer o read #[] with
  | .ok v _ => some v
  | .error _ _ => none

theorem stdout_execute (o : Options) (word : Option String) (read : String → Except Fault String) :
    (execute o word read).stdout =
      ((value? o read).map fun v => (if o.json then v.toJson.written else v.text) ++ "\n").getD "" := by
  unfold execute value?
  cases answer o read #[] <;> rfl

/-- A line of its own for every value, and nothing without one, is different for different values. -/
theorem line_eq_iff {form : Value → String} (hform : ∀ {v w}, form v = form w ↔ v = w) {x y : Option Value} :
    (x.map fun v => form v ++ "\n").getD "" = (y.map fun v => form v ++ "\n").getD "" ↔ x = y := by
  have hline (v : Value) : form v ++ "\n" ≠ "" := by
    intro h
    exact absurd (String.append_eq_empty_iff.mp h).2 (by decide)
  cases x with
  | none =>
    cases y with
    | none => simp
    | some w => exact iff_of_false (fun h => hline w h.symm) nofun
  | some v =>
    cases y with
    | none => exact iff_of_false (hline v) nofun
    | some w =>
      show form v ++ "\n" = form w ++ "\n" ↔ _
      rw [String.append_left_inj, hform, Option.some_inj]

/-- What a run prints, readable or as JSON. -/
theorem stdout_eq_iff (json : Bool) (o o' : Options) (word word' : Option String)
    (read read' : String → Except Fault String) :
    (execute { o with json := json } word read).stdout = (execute { o' with json := json } word' read').stdout ↔
      value? o read = value? o' read' := by
  have hform {v w : Value} : (if json then v.toJson.written else v.text) = (if json then w.toJson.written else w.text) ↔
      v = w := by
    cases json with
    | true => exact Value.written_eq_iff
    | false => exact Value.text_eq_iff
  rw [stdout_execute, stdout_execute]
  exact line_eq_iff hform

end Command

/-- A value is read back from what is written of it. A text is read as a set exactly if it is a text of
    an array of the set's elements, in any order and each of them at least once; written back, they are
    in strictly ascending order, and reading and writing this again leaves it as it is. Two
    values with one readable form are one value. A run of the command prints its value in the form
    that it is asked for, on a line, and nothing if it has none. So two runs print the same when they
    are to print readable forms exactly if they do so when they are to print JSON. -/
theorem results_survive_output :
    (∀ v : Value, Value.read? v.toJson.written = some v) ∧
      (∀ (text : String) (s : Ascending Int32), Value.read? text = some (.set s) ↔
        ∃ ns : List Int32, Json.Text (.tagged "Set" (.arr (ns.map .word))) text ∧ ∀ x, x ∈ s ↔ x ∈ ns) ∧
      (∀ (text : String) (ns : List Int32), Json.Text (.tagged "Set" (.arr (ns.map .word))) text →
        ∃ xs : List Int32, xs.Pairwise (· < ·) ∧ (∀ x, x ∈ xs ↔ x ∈ ns) ∧
          Value.rewritten? text = some ("\x7b\"Set\":[" ++ ",".intercalate (xs.map Numeral.writeWord) ++ "]\x7d")) ∧
      (∀ text again : String, Value.rewritten? text = some again → Value.rewritten? again = some again) ∧
      (∀ v w : Value, v.text = w.text → v = w) ∧
      (∀ (o : Command.Options) (word : Option String) (read : String → Except Fault String),
        (Command.execute o word read).stdout = match Command.value? o read with
          | some v => (if o.json then v.toJson.written else v.text) ++ "\n"
          | none => "") ∧
      ∀ (o o' : Command.Options) (word word' : Option String) (read read' : String → Except Fault String),
        let printed (json : Bool) := (Command.execute { o with json := json } word read).stdout
        let printed' (json : Bool) := (Command.execute { o' with json := json } word' read').stdout
        printed false = printed' false ↔ printed true = printed' true := by
  refine ⟨Value.read?_written, ?_, ?_, ?_, ?_, ?_, ?_⟩
  · intro text s
    exact Value.read?_set
  · intro text ns h
    refine ⟨(Ascending.ofList ns).toList, (Ascending.ofList ns).pairwise, fun x => Ascending.mem_ofList, ?_⟩
    have hread : Value.read? text = some (.set (.ofList ns)) := Value.read?_set.mpr ⟨ns, h, fun x => Ascending.mem_ofList⟩
    rw [Value.rewritten?, hread, Option.map_some, Value.written_set]
  · intro text again
    exact Value.rewritten?_of_rewritten?
  · intro v w
    exact Value.text_eq_iff.mp
  · intro o word read
    rw [Command.stdout_execute]
    cases Command.value? o read <;> rfl
  · intro o o' word word' read read' printed printed'
    exact (Command.stdout_eq_iff false o o' word word' read read').trans
      (Command.stdout_eq_iff true o o' word word' read read').symm

-- The name of the case is written with an escape, and one of the elements twice.
theorem results_survive_output_repeated :
    let text := " \x7b\"S\\u0065t\":[3, -2147483648,3 ]\x7d"
    let written := "\x7b\"Set\":[-2147483648,3]\x7d"
    (∃ ns : List Int32, Json.Text (.tagged "Set" (.arr (ns.map .word))) text ∧
      ∀ x, x ∈ Ascending.ofList [3, (-2147483648 : Int32)] ↔ x ∈ ns) ∧
      Value.rewritten? text = some written ∧ Value.rewritten? written = some written := by
  intro text written
  obtain ⟨-, hset, hrewritten, hagain, -⟩ := results_survive_output
  have hread : Value.read? text = some (.set (.ofList [3, -2147483648])) := by decide +kernel
  obtain ⟨ns, htext, hns⟩ := (hset text _).mp hread
  obtain ⟨xs, hascending, hxs, hwritten⟩ := hrewritten text ns htext
  have hlist : xs = [-2147483648, 3] :=
    Ascending.eq_of_mem_iff hascending (Ascending.ofList [3, -2147483648]).pairwise fun x => (hxs x).trans (hns x).symm
  have hform : Value.rewritten? text = some written := by
    rw [hwritten, hlist]
    decide
  exact ⟨⟨ns, htext, hns⟩, hform, hagain text written hform⟩

end GridQuery
