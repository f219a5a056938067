/-
  GridQuery.Proofs.Json.Query — a query is read back from its JSON.

  Reading allows as many brackets as it is told; written JSON has as many open at once as it is
  deep. The JSON of a query is one of its spellings, so the query is read back exactly if that is
  no deeper than allowed (`Query.ofJson?_toJson`). And whatever way a query was spelled when it
  was read, its own JSON is not deeper than allowed (`Expr.depth_le_of_ofJson?`): each node was read
  with as many brackets left as its JSON takes, two for a node with several parts and one for any
  other. So what was read once can be written and read again, any number of times
  (`Query.reads_back`).
-/

import GridQuery.Proofs.Json.Spelling

namespace GridQuery

open Json (HasText)

namespace Expr

theorem membersDepth_le {fields : List (String × Json)} {n : Nat} (h : ∀ f ∈ fields, f.2.depth ≤ n) :
    Json.membersDepth (fields.map fun (key, value) => (some key, value)) ≤ n := by
  induction fields with
  | nil => exact Nat.zero_le n
  | cons f fields ih =>
    obtain ⟨hf, hfields⟩ := List.forall_mem_cons.mp h
    exact Nat.max_le.mpr ⟨hf, ih hfields⟩

theorem depth_record_le {name : String} {fields : List (String × Json)} {n : Nat} (h : ∀ f ∈ fields, f.2.depth ≤ n) :
    (Json.record name fields).depth ≤ n + 2 := by
  rw [Json.record, Json.depth_tagged, Json.depth]
  exact Nat.add_le_add_right (membersDepth_le h) 2

section

variable {n : Nat} {read : (c : Category) → Json → Option (Expr c)}
  (hread : ∀ {c : Category} {j : Json} {e : Expr c}, read c j = some e → e.toJson.depth ≤ n)

include hread

theorem depth_of_ofContent? {c : Category} {name : String} {content : Json} {e : Expr c}
    (h : ofContent? n read c name content = some e) : e.toJson.depth ≤ n + 1 := by
  unfold ofContent? at h
  split at h
  case h_5 =>
    cases h
    exact Nat.zero_le _
  case h_9 => cases h
  all_goals
    obtain ⟨part, hpart, rfl⟩ := Option.map_eq_some_iff.mp h
    rw [toJson, Json.depth_tagged]
    first
    | exact Nat.succ_le_succ (hread hpart)
    | exact Nat.succ_le_succ (Nat.zero_le n)

theorem depth_of_ofFields? {c : Category} {name : String} {values : List Json} {e : Expr c}
    (h : ofFields? n read c name values = some e) : e.toJson.depth ≤ n + 2 := by
  cases ofFields_of_eq_some h with
  | figure hp hd => exact depth_record_le (by simp [hread hp, hread hd])
  | comprehension _ _ hp => exact depth_record_le (by simp [hread hp])
  | quantified _ _ _ hf => exact depth_record_le (by simp [hread hf])
  | binary _ _ hl hr => exact depth_record_le (by simp [hread hl, hread hr])

end

/-- What was read with `n` brackets to open takes no more than that when it is written. -/
theorem depth_le_of_ofJson? {n : Nat} {c : Category} {j : Json} {e : Expr c} (h : ofJson? n c j = some e) :
    e.toJson.depth ≤ n := by
  -- Not plain induction: the fields of a record are read with two brackets less.
  induction n using Nat.strongRecOn generalizing c j e with
  | ind n ih =>
    unfold ofJson? at h
    split at h
    · unfold ofName? at h
      split at h
      · cases h
        exact Nat.zero_le n
      · cases h
    · rename_i m name content
      split at h
      · exact depth_of_ofContent? (ih m (Nat.lt_succ_self m)) h
      · split at h
        · cases h
        · rename_i m
          obtain ⟨values, -, hvalues⟩ := Option.bind_eq_some_iff.mp h
          exact depth_of_ofFields? (ih m (by omega)) hvalues
    · cases h

end Expr

/-! ## Queries -/

namespace Query

theorem hasText_toJson (q : Query) : HasText q.toJson := q.spelled_toJson.hasText

theorem ofJson?_toJson (q : Query) (n : Nat) : ofJson? n q.toJson = if q.toJson.depth ≤ n then some q else none :=
  ofJson?_of_spelled q.spelled_toJson n

theorem depth_le_of_ofJson? {n : Nat} {j : Json} {q : Query} (h : ofJson? n j = some q) : q.toJson.depth ≤ n := by
  unfold ofJson? at h
  split at h
  · obtain ⟨c, -, h⟩ := Option.bind_eq_some_iff.mp h
    obtain ⟨e, he, h⟩ := Option.bind_eq_some_iff.mp h
    cases h
    rw [toJson, Json.depth_tagged]
    exact Nat.succ_le_succ (Expr.depth_le_of_ofJson? he)
  · cases h

theorem read?_written (q : Query) :
    read? q.toJson.written = if Json.mostOpen q.toJson.written ≤ nesting then some q else none := by
  rw [read?, Json.read?_written q.hasText_toJson, Json.mostOpen_written q.hasText_toJson]
  exact q.ofJson?_toJson nesting

theorem mostOpen_of_read? {text : String} {q : Query} (h : read? text = some q) :
    Json.mostOpen q.toJson.written ≤ nesting := by
  obtain ⟨j, -, hj⟩ := Option.bind_eq_some_iff.mp h
  rw [Json.mostOpen_written q.hasText_toJson]
  exact depth_le_of_ofJson? hj

/-- A query is read back from its text, or refused if that has too many brackets open at once.
    A query that was read from any text has not too many: written, read and written again, it
    stays the same. -/
theorem reads_back :
    (∀ q : Query, read? q.toJson.written = if Json.mostOpen q.toJson.written ≤ 127 then some q else none) ∧
    ∀ (text : String) (q : Query), read? text = some q →
      Json.mostOpen q.toJson.written ≤ 127 ∧ read? q.toJson.written = some q ∧
        (read? q.toJson.written).map (fun q' => q'.toJson.written) = some q.toJson.written := by
  refine ⟨read?_written, fun text q hq => ?_⟩
  have hopen := mostOpen_of_read? hq
  have hagain : read? q.toJson.written = some q := by
    rw [read?_written, if_pos hopen]
  refine ⟨hopen, hagain, ?_⟩
  rw [hagain, Option.map_some]

-- The first text has blanks, an array for the fields and an escape; none of them is written.
theorem reads_back_respelled :
    let q : Query := mk .numeric (.figure (.literal (-7)) (.var "a"))
    let text :=
      " \x7b\"Numeric\" : \x7b\"SalesAt\" : [\x7b\"Literal\":-7\x7d, \x7b\"Variable\":\"\\u0061\"\x7d]\x7d\x7d"
    let written :=
      "\x7b\"Numeric\":\x7b\"SalesAt\":\x7b\"product\":\x7b\"Literal\":-7\x7d,\"day\":\x7b\"Variable\":\"a\"\x7d\x7d\x7d\x7d"
    read? text = some q ∧ read? written = some q := by
  intro q text written
  have hread : read? text = some q := by decide +kernel
  have hwritten : q.toJson.written = written := by decide +kernel
  obtain ⟨-, hagain⟩ := reads_back
  refine ⟨hread, ?_⟩
  rw [← hwritten]
  exact (hagain text q hread).2.1

end Query

end GridQuery
