/-
  GridQuery.Proofs.Json.Misfit — what makes a text no query.

  A case with named fields holds each of them once, or else an array with one value for each.
  Where another content stands anywhere in a query (`Query.Broken`), the whole is no query
  (`Query.ofJson?_of_broken`), whatever else is in it: a node is only read with all of its parts.
-/

import GridQuery.Query.Json

namespace GridQuery

namespace Json

/-- Content that lacks a field of these names or repeats one, or has another number of values. -/
inductive Misfit (names : List String) : Json → Prop
  | values {vs : List Json} : vs.length ≠ names.length → Misfit names (.arr vs)
  | members {ms : List (Option String × Json)} {name : String} :
      name ∈ names → (ms.map Prod.fst).count (some name) ≠ 1 → Misfit names (.obj ms)

theorem filter_of_only? {name : String} {ms : List (Option String × Json)} {v : Json} (h : only? name ms = some v) :
    ms.filter (·.1 == some name) = [(some name, v)] := by
  unfold only? at h
  split at h
  · rename_i key value hone
    cases h
    have hmem : (key, v) ∈ ms.filter (·.1 == some name) := by
      rw [hone]
      exact List.mem_singleton_self _
    have hkey : key = some name := beq_iff_eq.mp (List.mem_filter.mp hmem).2
    rw [hone, hkey]
  · cases h

theorem count_of_only? {name : String} {ms : List (Option String × Json)} {v : Json} (h : only? name ms = some v) :
    (ms.map Prod.fst).count (some name) = 1 := by
  have hcount : (ms.map Prod.fst).count (some name) = (ms.filter (·.1 == some name)).length := by
    rw [List.count_eq_countP, List.countP_map, List.countP_eq_length_filter]
    rfl
  rw [hcount, filter_of_only? h]
  rfl

/-- No other member has the name. -/
theorem eq_of_only? {name : String} {ms : List (Option String × Json)} {v w : Json} (h : only? name ms = some v)
    (hw : (some name, w) ∈ ms) : w = v := by
  have hmem : (some name, w) ∈ ms.filter (·.1 == some name) := List.mem_filter.mpr ⟨hw, beq_self_eq_true _⟩
  rw [filter_of_only? h] at hmem
  exact congrArg Prod.snd (List.mem_singleton.mp hmem)

/-- What was read for each element stands at its place. -/
theorem mem_zip_of_mapM {α β : Type} {xs : List α} {ys : List β} {f : α → Option β} (h : xs.mapM f = some ys) {x : α}
    (hx : x ∈ xs) : ∃ y, f x = some y ∧ (x, y) ∈ xs.zip ys := by
  induction xs generalizing ys with
  | nil => cases hx
  | cons a xs ih =>
    rw [List.mapM_cons] at h
    obtain ⟨b, hb, h⟩ := Option.bind_eq_some_iff.mp h
    obtain ⟨bs, hbs, h⟩ := Option.bind_eq_some_iff.mp h
    cases h
    rcases List.mem_cons.mp hx with rfl | hx
    · exact ⟨b, hb, List.mem_cons_self⟩
    · obtain ⟨y, hy, hmem⟩ := ih hbs hx
      exact ⟨y, hy, List.mem_cons_of_mem _ hmem⟩

theorem mapM_of_fields? {names : List String} {ms : List (Option String × Json)} {vs : List Json}
    (h : fields? names (.obj ms) = some vs) : names.mapM (only? · ms) = some vs := by
  rw [fields?] at h
  split at h
  · exact h
  · cases h

theorem fields?_of_misfit {names : List String} {j : Json} (h : Misfit names j) : j.fields? names = none := by
  cases h with
  | values hlength => rw [fields?, if_neg hlength]
  | @members ms name hname hcount =>
    cases hvs : fields? names (.obj ms) with
    | none => rfl
    | some vs =>
      obtain ⟨v, hv, -⟩ := mem_zip_of_mapM (mapM_of_fields? hvs) hname
      exact absurd (count_of_only? hv) hcount

end Json

open Json (Misfit tagged)

namespace Expr

/-! ## The parts of a case -/

def operatorParts (a : Category) : List (String × Option Category) :=
  [("op", none), ("left", some a), ("right", some a)]

/-- The fields of a case that has named ones, each with the category of the expression that stands in it, if any. -/
def parts? : Category → String → Option (List (String × Option Category))
  | .numeric, "SalesAt" => some [("product", some .numeric), ("day", some .numeric)]
  | .numeric, "BinaryOp" => some (operatorParts .numeric)
  | .set, "BinaryOp" => some (operatorParts .set)
  | .set, "Comprehension" => some [("source", none), ("var", none), ("predicate", some .formula)]
  | .formula, "NumericRelation" => some (operatorParts .numeric)
  | .formula, "SetRelation" => some (operatorParts .set)
  | .formula, "Connective" => some (operatorParts .formula)
  | .formula, "Quantified" => some [("quantifier", none), ("var", none), ("source", none), ("body", some .formula)]
  | _, _ => none

/-- The category of the one expression that is the content of a case. -/
def part? : Category → String → Option Category
  | .numeric, "TotalSalesForProduct" => some .numeric
  | .numeric, "TotalSalesForDay" => some .numeric
  | .numeric, "SetSize" => some .set
  | .formula, "Not" => some .formula
  | _, _ => none

/-- A case in an expression, or in one of its parts, has content that does not fit. -/
inductive Broken : Category → Json → Prop
  | here {c : Category} {name : String} {parts : List (String × Option Category)} {j : Json} :
      parts? c name = some parts → Misfit (parts.map Prod.fst) j → Broken c (tagged name j)
  | part {c c' : Category} {name : String} {j : Json} :
      part? c name = some c' → Broken c' j → Broken c (tagged name j)
  | member {c c' : Category} {name key : String} {parts : List (String × Option Category)}
      {ms : List (Option String × Json)} {j : Json} :
      parts? c name = some parts → (key, some c') ∈ parts → (some key, j) ∈ ms → Broken c' j →
        Broken c (tagged name (.obj ms))
  | value {c c' : Category} {name key : String} {parts : List (String × Option Category)} {vs : List Json} {j : Json} :
      parts? c name = some parts → ((key, some c'), j) ∈ parts.zip vs → Broken c' j → Broken c (tagged name (.arr vs))

theorem fieldNames?_of_parts? {c : Category} {name : String} {parts : List (String × Option Category)}
    (h : parts? c name = some parts) : fieldNames? c name = some (parts.map Prod.fst) := by
  unfold parts? at h
  split at h <;> cases h <;> rfl

theorem fieldNames?_of_part? {c c' : Category} {name : String} (h : part? c name = some c') :
    fieldNames? c name = none := by
  unfold part? at h
  split at h <;> cases h <;> rfl

section

variable {n : Nat} {read : (c : Category) → Json → Option (Expr c)}

theorem ofContent?_eq_none {c c' : Category} {name : String} {j : Json} (h : part? c name = some c')
    (hj : read c' j = none) : ofContent? n read c name j = none := by
  unfold part? at h
  split at h <;> cases h <;> exact congrArg (Option.map _) hj

/-- How an expression is read from the values of its fields: each part from its own. -/
inductive OfFields (n : Nat) (read : (c : Category) → Json → Option (Expr c)) :
    {c : Category} → String → List Json → Expr c → Prop
  | figure {jp jd : Json} {p d : Expr .numeric} :
      read .numeric jp = some p → read .numeric jd = some d → OfFields n read "SalesAt" [jp, jd] (.figure p d)
  | comprehension {jk jx jp : Json} {k : Kind} {x : String} {p : Expr .formula} :
      (jk.bare? n).bind Kind.ofTag? = some k → jx.text? = some x → read .formula jp = some p →
        OfFields n read "Comprehension" [jk, jx, jp] (.comprehension k x p)
  | quantified {jq jx jk jf : Json} {q : Quantifier} {x : String} {k : Kind} {f : Expr .formula} :
      (jq.bare? n).bind Quantifier.ofTag? = some q → jx.text? = some x → (jk.bare? n).bind Kind.ofTag? = some k →
        read .formula jf = some f → OfFields n read "Quantified" [jq, jx, jk, jf] (.quantified q x k f)
  | binary {a b : Category} {name : String} {jo jl jr : Json} {op : Operator a b} {l r : Expr a} :
      operands? b name = some a → (jo.bare? n).bind Operator.ofTag? = some op → read a jl = some l →
        read a jr = some r → OfFields n read name [jo, jl, jr] (.binary op l r)

theorem ofFields_of_eq_some {c : Category} {name : String} {vs : List Json} {e : Expr c}
    (h : ofFields? n read c name vs = some e) : OfFields n read name vs e := by
  unfold ofFields? at h
  split at h
  · obtain ⟨p, hp, h⟩ := Option.bind_eq_some_iff.mp h
    obtain ⟨d, hd, h⟩ := Option.bind_eq_some_iff.mp h
    cases h
    exact .figure hp hd
  · obtain ⟨k, hk, h⟩ := Option.bind_eq_some_iff.mp h
    obtain ⟨x, hx, h⟩ := Option.bind_eq_some_iff.mp h
    obtain ⟨p, hp, h⟩ := Option.bind_eq_some_iff.mp h
    cases h
    exact .comprehension hk hx hp
  · obtain ⟨q, hq, h⟩ := Option.bind_eq_some_iff.mp h
    obtain ⟨x, hx, h⟩ := Option.bind_eq_some_iff.mp h
    obtain ⟨k, hk, h⟩ := Option.bind_eq_some_iff.mp h
    obtain ⟨f, hf, h⟩ := Option.bind_eq_some_iff.mp h
    cases h
    exact .quantified hq hx hk hf
  · obtain ⟨a, ha, h⟩ := Option.bind_eq_some_iff.mp h
    obtain ⟨op, hop, h⟩ := Option.bind_eq_some_iff.mp h
    obtain ⟨l, hl, h⟩ := Option.bind_eq_some_iff.mp h
    obtain ⟨r, hr, h⟩ := Option.bind_eq_some_iff.mp h
    cases h
    exact .binary ha hop hl hr
  · cases h

theorem parts?_of_operands? {a b : Category} {name : String} (h : operands? b name = some a) :
    parts? b name = some (operatorParts a) := by
  unfold operands? at h
  split at h <;> cases h <;> rfl

/-- No expression is read where the value of a field is none. -/
theorem ofFields?_eq_none {c c' : Category} {name key : String} {parts : List (String × Option Category)}
    {vs : List Json} {j : Json} (hparts : parts? c name = some parts) (hj : ((key, some c'), j) ∈ parts.zip vs)
    (hnone : read c' j = none) : ofFields? n read c name vs = none := by
  refine Option.eq_none_iff_forall_ne_some.mpr fun e he => ?_
  cases ofFields_of_eq_some he with
  | figure hp hd =>
    cases hparts
    simp only [List.zip_cons_cons, List.zip_nil_right, List.mem_cons, Prod.mk.injEq, Option.some.injEq,
      List.not_mem_nil, or_false] at hj
    rcases hj with ⟨⟨-, rfl⟩, rfl⟩ | ⟨⟨-, rfl⟩, rfl⟩
    · cases hnone.symm.trans hp
    · cases hnone.symm.trans hd
  | comprehension _ _ hp =>
    cases hparts
    simp only [List.zip_cons_cons, List.zip_nil_right, List.mem_cons, Prod.mk.injEq, reduceCtorEq, and_false,
      false_and, Option.some.injEq, List.not_mem_nil, or_false, false_or] at hj
    obtain ⟨⟨-, rfl⟩, rfl⟩ := hj
    cases hnone.symm.trans hp
  | quantified _ _ _ hf =>
    cases hparts
    simp only [List.zip_cons_cons, List.zip_nil_right, List.mem_cons, Prod.mk.injEq, reduceCtorEq, and_false,
      false_and, Option.some.injEq, List.not_mem_nil, or_false, false_or] at hj
    obtain ⟨⟨-, rfl⟩, rfl⟩ := hj
    cases hnone.symm.trans hf
  | binary hoperands _ hl hr =>
    cases hparts.symm.trans (parts?_of_operands? hoperands)
    simp only [operatorParts, List.zip_cons_cons, List.zip_nil_right, List.mem_cons, Prod.mk.injEq, reduceCtorEq,
      and_false, false_and, Option.some.injEq, List.not_mem_nil, or_false, false_or] at hj
    rcases hj with ⟨⟨-, rfl⟩, rfl⟩ | ⟨⟨-, rfl⟩, rfl⟩
    · cases hnone.symm.trans hl
    · cases hnone.symm.trans hr

end

/-! ## Nothing is read -/

theorem ofJson?_of_parts {c : Category} {name : String} {parts : List (String × Option Category)} {j : Json}
    (hparts : parts? c name = some parts)
    (h : ∀ n vs, j.fields? (parts.map Prod.fst) = some vs → ofFields? n (ofJson? n) c name vs = none) (n : Nat) :
    ofJson? n c (tagged name j) = none := by
  match n with
  | 0 => rfl
  | 1 => rw [tagged, ofJson?, fieldNames?_of_parts? hparts]
  | n + 2 =>
    rw [tagged, ofJson?, fieldNames?_of_parts? hparts]
    exact Option.bind_eq_none_iff.mpr (h n)

/-- However many brackets may be opened, a broken expression is not read. -/
theorem ofJson?_of_broken {c : Category} {j : Json} (h : Broken c j) (n : Nat) : ofJson? n c j = none := by
  induction h generalizing n with
  | here hparts hmisfit =>
    refine ofJson?_of_parts hparts (fun n vs hvs => ?_) n
    rw [Json.fields?_of_misfit hmisfit] at hvs
    cases hvs
  | part hpart _ ih =>
    cases n with
    | zero => rfl
    | succ n =>
      rw [tagged, ofJson?, fieldNames?_of_part? hpart]
      exact ofContent?_eq_none hpart (ih n)
  | @member c c' name key parts ms j hparts hkey hmem _ ih =>
    refine ofJson?_of_parts hparts (fun n vs hvs => ?_) n
    have hread := Json.mapM_of_fields? hvs
    rw [List.mapM_map] at hread
    obtain ⟨v, hv, hzip⟩ := Json.mem_zip_of_mapM hread hkey
    rw [← Json.eq_of_only? hv hmem] at hzip
    exact ofFields?_eq_none hparts hzip (ih n)
  | value hparts hzip _ ih =>
    refine ofJson?_of_parts hparts (fun n vs hvs => ?_) n
    rw [Json.fields?] at hvs
    split at hvs <;> cases hvs
    exact ofFields?_eq_none hparts hzip (ih n)

end Expr

namespace Query

inductive Broken : Json → Prop
  | expr {c : Category} {j : Json} : Expr.Broken c j → Broken (tagged c.tag j)

theorem ofJson?_of_broken {j : Json} (h : Broken j) (n : Nat) : ofJson? n j = none := by
  cases h with
  | @expr c j h =>
    cases n with
    | zero => rfl
    | succ n =>
      show (Category.ofTag? c.tag >>= fun c => Expr.ofJson? n c j >>= fun e => some (mk c e)) = none
      rw [c.ofTag?_tag, Option.bind_eq_bind, Option.bind_some, Expr.ofJson?_of_broken h]
      rfl

end Query

end GridQuery
