/-
  GridQuery.Proofs.Json.Spelling — all the ways to spell a query.

  A query may be spelled otherwise than it is written (`Query.Spelled`): a case without content as a
  member with `null`, and the fields of a case in any order, among others that are passed over,
  or as an array of the values alone. Its own JSON is one spelling of it (`Query.spelled_toJson`).
  Every text of a spelling is read as the query, if it has not too many brackets open at once; those of
  fields that are passed over do not count, so each spelling goes with what is kept of it, where
  `null` stands for them. A text of what is no query in some place is not read
  (`Query.reads_any_spelling`).
-/

import GridQuery.Proofs.Json.Misfit
import GridQuery.Proofs.Json.Nesting

namespace GridQuery

/-! ## Spellings -/

namespace Json

/-- A case without content. -/
inductive Bare (name : String) : Json → Prop
  | name : Bare name (.string name)
  | member : Bare name (.tagged name .null)

/-- A field in a spelling. `kept` is its value with `null` for all that is passed over in it. -/
structure Field where
  key : String
  value : Json
  kept : Json

/-- The content of a case with these fields, and what is kept of it. -/
inductive Content (fields : List Field) : Json → Json → Prop
  | array : Content fields (.arr (fields.map Field.value)) (.arr (fields.map Field.kept))
  | object {members : List Field} :
      (members.filter fun m => m.key ∈ fields.map Field.key).Perm fields →
      (∀ m ∈ members, m.key ∉ fields.map Field.key → m.kept = .null) →
      Content fields (.obj (members.map fun m => (some m.key, m.value)))
        (.obj (members.map fun m => (some m.key, m.kept)))

end Json

open Json (Bare Content HasText Laid lexeme_quote word string tagged)

/-- A spelling of an expression, and what is kept of it. -/
inductive Expr.Spelled : {c : Category} → Expr c → Json → Json → Prop
  | literal (n : Int32) : Spelled (.literal n) (tagged "Literal" (word n)) (tagged "Literal" (word n))
  | var (name : String) : Spelled (.var name) (tagged "Variable" (string name)) (tagged "Variable" (string name))
  | productTotal {p : Expr .numeric} {j k : Json} :
      Spelled p j k → Spelled (.productTotal p) (tagged "TotalSalesForProduct" j) (tagged "TotalSalesForProduct" k)
  | dayTotal {d : Expr .numeric} {j k : Json} :
      Spelled d j k → Spelled (.dayTotal d) (tagged "TotalSalesForDay" j) (tagged "TotalSalesForDay" k)
  | total {j : Json} : Bare "TotalSalesForMonth" j → Spelled .total j j
  | figure {p d : Expr .numeric} {jp kp jd kd j k : Json} :
      Spelled p jp kp → Spelled d jd kd → Content [⟨"product", jp, kp⟩, ⟨"day", jd, kd⟩] j k →
        Spelled (.figure p d) (tagged "SalesAt" j) (tagged "SalesAt" k)
  | size {s : Expr .set} {j k : Json} : Spelled s j k → Spelled (.size s) (tagged "SetSize" j) (tagged "SetSize" k)
  | elements {kind : Kind} {j : Json} : Bare kind.tag j → Spelled (.elements kind) (tagged "Type" j) (tagged "Type" j)
  | comprehension {kind : Kind} {x : String} {p : Expr .formula} {source jp kp j k : Json} :
      Bare kind.tag source → Spelled p jp kp →
      Content [⟨"source", source, source⟩, ⟨"var", string x, string x⟩, ⟨"predicate", jp, kp⟩] j k →
        Spelled (.comprehension kind x p) (tagged "Comprehension" j) (tagged "Comprehension" k)
  | not {f : Expr .formula} {j k : Json} : Spelled f j k → Spelled (.not f) (tagged "Not" j) (tagged "Not" k)
  | quantified {q : Quantifier} {x : String} {kind : Kind} {f : Expr .formula} {quantifier source jf kf j k : Json} :
      Bare q.tag quantifier → Bare kind.tag source → Spelled f jf kf →
      Content [⟨"quantifier", quantifier, quantifier⟩, ⟨"var", string x, string x⟩, ⟨"source", source, source⟩,
        ⟨"body", jf, kf⟩] j k →
        Spelled (.quantified q x kind f) (tagged "Quantified" j) (tagged "Quantified" k)
  | binary {a b : Category} {op : Operator a b} {l r : Expr a} {tag jl kl jr kr j k : Json} :
      Bare op.tag tag → Spelled l jl kl → Spelled r jr kr →
      Content [⟨"op", tag, tag⟩, ⟨"left", jl, kl⟩, ⟨"right", jr, kr⟩] j k →
        Spelled (.binary op l r) (tagged (Operator.caseName a b) j) (tagged (Operator.caseName a b) k)

inductive Query.Spelled : Query → Json → Json → Prop
  | expr {c : Category} {e : Expr c} {j k : Json} : e.Spelled j k → Spelled ⟨c, e⟩ (tagged c.tag j) (tagged c.tag k)

/-! ## The written spelling, and what is kept -/

namespace Json

theorem content_inOrder (fields : List Field) :
    Content fields (.obj (fields.map fun m => (some m.key, m.value)))
      (.obj (fields.map fun m => (some m.key, m.kept))) := by
  refine .object ?_ fun m hm hkey => absurd (List.mem_map_of_mem hm) hkey
  rw [List.filter_eq_self.mpr fun m hm => decide_eq_true (List.mem_map_of_mem hm)]

theorem hasText_of_bare {name : String} {j : Json} (h : Bare name j) : HasText j := by
  cases h with
  | name => exact .str name
  | member => exact HasText.null.tagged

theorem hasText_of_content {fields : List Field} {j k : Json} (h : Content fields j k)
    (hfields : ∀ f ∈ fields, HasText f.kept) : HasText k := by
  cases h with
  | array => exact .arr (List.forall_mem_map.mpr hfields)
  | object hperm hskip =>
    refine .obj (List.forall_mem_map.mpr fun _ _ => rfl) (List.forall_mem_map.mpr fun m hm => ?_)
    by_cases hkey : m.key ∈ fields.map Field.key
    · exact hfields m (hperm.subset (List.mem_filter.mpr ⟨hm, decide_eq_true hkey⟩))
    · rw [hskip m hm hkey]
      exact .null

end Json

namespace Expr

/-- The JSON of an expression is one of its spellings, and nothing in it is passed over. -/
theorem spelled_toJson {c : Category} (e : Expr c) : e.Spelled e.toJson e.toJson := by
  induction e with
  | literal n => exact .literal n
  | var name => exact .var name
  | productTotal p ih => exact .productTotal ih
  | dayTotal d ih => exact .dayTotal ih
  | total => exact .total .name
  | figure p d ihp ihd => exact .figure ihp ihd (Json.content_inOrder _)
  | size s ih => exact .size ih
  | elements k => exact .elements .name
  | comprehension k x p ih => exact .comprehension .name ih (Json.content_inOrder _)
  | not f ih => exact .not ih
  | quantified q x k f ih => exact .quantified .name .name ih (Json.content_inOrder _)
  | binary op l r ihl ihr => exact .binary .name ihl ihr (Json.content_inOrder _)

theorem Spelled.hasText {c : Category} {e : Expr c} {j k : Json} (h : e.Spelled j k) : HasText k := by
  induction h with
  | literal n => exact (HasText.num _).tagged
  | var name => exact (HasText.str name).tagged
  | productTotal _ ih => exact ih.tagged
  | dayTotal _ ih => exact ih.tagged
  | total hbare => exact Json.hasText_of_bare hbare
  | figure _ _ hc ihp ihd => exact (Json.hasText_of_content hc (by simp [ihp, ihd])).tagged
  | size _ ih => exact ih.tagged
  | elements hkind => exact (Json.hasText_of_bare hkind).tagged
  | comprehension hkind _ hc ih =>
    exact (Json.hasText_of_content hc (by simp [Json.hasText_of_bare hkind, HasText.str, string, ih])).tagged
  | not _ ih => exact ih.tagged
  | quantified hq hkind _ hc ih =>
    have hfields := And.intro (Json.hasText_of_bare hq) (Json.hasText_of_bare hkind)
    exact (Json.hasText_of_content hc (by simp [hfields, HasText.str, string, ih])).tagged
  | binary hop _ _ hc ihl ihr =>
    exact (Json.hasText_of_content hc (by simp [Json.hasText_of_bare hop, ihl, ihr])).tagged

end Expr

namespace Query

theorem spelled_toJson (q : Query) : q.Spelled q.toJson q.toJson := .expr q.expr.spelled_toJson

theorem Spelled.hasText {q : Query} {j k : Json} (h : q.Spelled j k) : HasText k := by
  cases h with
  | expr h => exact h.hasText.tagged

end Query

/-! ## Reading a spelling -/

namespace Expr

section

variable {α β : Type} {d d' n : Nat}

/-- `a`, where `d` brackets may be opened. -/
def within (d n : Nat) (a : α) : Option α := if d ≤ n then some a else none

theorem within_map (a : α) (f : α → β) : (within d n a).map f = within d n (f a) := by
  unfold within
  split <;> rfl

theorem within_bind {a : α} {f : α → Option β} {b : β} (h : f a = within d' n b) :
    (within d n a >>= f) = within (max d d') n b := by
  unfold within at h ⊢
  by_cases hd : d ≤ n
  · have hmax : max d d' ≤ n ↔ d' ≤ n := by omega
    simp only [hd, hmax, if_true, Option.bind_eq_bind, Option.bind_some, h]
  · have hmax : ¬ max d d' ≤ n := by omega
    simp only [hd, hmax, if_false, Option.bind_eq_bind, Option.bind_none]

theorem some_eq_within (a : α) : some a = within 0 n a := by
  rw [within, if_pos (Nat.zero_le n)]

end

end Expr

namespace Json

theorem bare?_of_bare {name : String} {j : Json} (h : Bare name j) (n : Nat) :
    j.bare? n = Expr.within j.depth n name := by
  cases h with
  | name => exact Expr.some_eq_within _
  | member => cases n <;> rfl

@[simp] theorem depth_string (s : String) : (string s).depth = 0 := rfl

@[simp] theorem depth_tagged (name : String) (content : Json) : (tagged name content).depth = content.depth + 1 := by
  simp [tagged, depth, membersDepth, memberDepth]

theorem membersDepth_eq (ms : List (Option String × Json)) : membersDepth ms = (ms.map (·.2.depth)).foldr max 0 := by
  induction ms with
  | nil => rfl
  | cons m ms ih =>
    obtain ⟨key, v⟩ := m
    rw [membersDepth, ih]
    rfl

theorem itemsDepth_eq (vs : List Json) : itemsDepth vs = (vs.map depth).foldr max 0 := by
  induction vs with
  | nil => rfl
  | cons v vs ih =>
    rw [itemsDepth, ih]
    rfl

def keptDepth (fields : List Field) : Nat := (fields.map (·.kept.depth)).foldr max 0

theorem keptDepth_perm {fields fields' : List Field} (h : fields.Perm fields') : keptDepth fields = keptDepth fields' :=
  (h.map _).foldr_eq' (fun a _ b _ d => Nat.max_left_comm b a d) 0

/-- What is passed over adds nothing to the depth. -/
theorem keptDepth_filter {members : List Field} {names : List String}
    (h : ∀ m ∈ members, m.key ∉ names → m.kept = .null) :
    keptDepth (members.filter fun m => m.key ∈ names) = keptDepth members := by
  induction members with
  | nil => rfl
  | cons m members ih =>
    obtain ⟨hm, hmembers⟩ := List.forall_mem_cons.mp h
    rw [List.filter_cons]
    split
    · exact congrArg (max m.kept.depth) (ih hmembers)
    · rename_i hnot
      have hzero : m.kept.depth = 0 := by
        rw [hm (by simpa using hnot)]
        rfl
      rw [ih hmembers]
      show _ = max m.kept.depth (keptDepth members)
      omega

theorem depth_of_content {fields : List Field} {j k : Json} (h : Content fields j k) :
    k.depth = keptDepth fields + 1 := by
  cases h with
  | array =>
    rw [depth, itemsDepth_eq, List.map_map]
    rfl
  | object hperm hskip =>
    rw [depth, membersDepth_eq, List.map_map, ← keptDepth_perm hperm, keptDepth_filter hskip]
    rfl

/-- Among fields of different names, a name finds one. -/
theorem filter_key {fields : List Field} (h : (fields.map Field.key).Nodup) {f : Field} (hf : f ∈ fields) :
    fields.filter (·.key == f.key) = [f] := by
  induction fields with
  | nil => cases hf
  | cons g fields ih =>
    obtain ⟨hg, hrest⟩ := List.nodup_cons.mp h
    rw [List.filter_cons]
    rcases List.mem_cons.mp hf with rfl | hf
    · rw [if_pos (beq_self_eq_true _), List.filter_eq_nil_iff.mpr]
      intro m hm heq
      exact hg (List.mem_map.mpr ⟨m, hm, beq_iff_eq.mp heq⟩)
    · have hne : g.key ≠ f.key := fun heq => hg (List.mem_map.mpr ⟨f, hf, heq.symm⟩)
      rw [if_neg (by simpa using hne)]
      exact ih hrest hf

/-- A field is found wherever it stands and whatever stands around it. -/
theorem only?_of_perm {members fields : List Field}
    (hperm : (members.filter fun m => m.key ∈ fields.map Field.key).Perm fields)
    (hnodup : (fields.map Field.key).Nodup) {f : Field} (hf : f ∈ fields) :
    only? f.key (members.map fun m => (some m.key, m.value)) = some f.value := by
  have hkey : f.key ∈ fields.map Field.key := List.mem_map_of_mem hf
  have hdeclared : members.filter (·.key == f.key) =
      (members.filter fun m => m.key ∈ fields.map Field.key).filter (·.key == f.key) := by
    rw [List.filter_filter]
    refine List.filter_congr fun m _ => ?_
    by_cases hm : m.key = f.key
    · simp [hm, hkey]
    · simp [hm]
  have hone : members.filter (·.key == f.key) = [f] := by
    rw [hdeclared, ← List.perm_singleton, ← filter_key hnodup hf]
    exact hperm.filter _
  have hnames : (fun m : Option String × Json => m.1 == some f.key) ∘ (fun m : Field => (some m.key, m.value)) =
      fun m => m.key == f.key := by
    funext m
    simp
  rw [only?, List.filter_map, hnames, hone]
  rfl

theorem mapM_key {fields : List Field} {read : String → Option Json}
    (h : ∀ f ∈ fields, read f.key = some f.value) :
    (fields.map Field.key).mapM read = some (fields.map Field.value) := by
  induction fields with
  | nil => rfl
  | cons f fields ih =>
    obtain ⟨hf, hrest⟩ := List.forall_mem_cons.mp h
    rw [List.map_cons, List.mapM_cons, hf, ih hrest]
    rfl

theorem fields?_of_content {fields : List Field} {j k : Json} (h : Content fields j k)
    (hnodup : (fields.map Field.key).Nodup) : j.fields? (fields.map Field.key) = some (fields.map Field.value) := by
  cases h with
  | array => rw [fields?, if_pos (by simp)]
  | @object members hperm _ =>
    have hkeys : ((members.map fun m => (some m.key, m.value)).all fun m => m.1.isSome) = true := by
      simp
    rw [fields?, if_pos hkeys]
    exact mapM_key fun _ => only?_of_perm hperm hnodup

end Json

namespace Expr

/-- Opening one bracket leaves one less for the content. -/
theorem ofJson?_of_part {c : Category} {name : String} {j k : Json} {e : Expr c} (hname : fieldNames? c name = none)
    (h : ∀ n, ofContent? n (ofJson? n) c name j = within k.depth n e) (n : Nat) :
    ofJson? n c (tagged name j) = within (tagged name k).depth n e := by
  rw [Json.depth_tagged]
  cases n with
  | zero =>
    rw [within, if_neg (by omega)]
    rfl
  | succ n =>
    rw [tagged, ofJson?, hname]
    show ofContent? n (ofJson? n) c name j = _
    simp only [h n, within, Nat.add_le_add_iff_right]

/-- Fields take two brackets, that of their case and their own. -/
theorem ofJson?_of_content {c : Category} {name : String} {fields : List Json.Field} {j k : Json} {e : Expr c}
    (hc : Content fields j k) (hname : fieldNames? c name = some (fields.map Json.Field.key))
    (hnodup : (fields.map Json.Field.key).Nodup)
    (h : ∀ n, ofFields? n (ofJson? n) c name (fields.map Json.Field.value) = within (Json.keptDepth fields) n e)
    (n : Nat) : ofJson? n c (tagged name j) = within (tagged name k).depth n e := by
  rw [Json.depth_tagged, Json.depth_of_content hc]
  match n with
  | 0 =>
    rw [within, if_neg (by omega)]
    rfl
  | 1 =>
    rw [within, if_neg (by omega), tagged, ofJson?, hname]
  | n + 2 =>
    rw [tagged, ofJson?, hname]
    show (j.fields? _).bind (ofFields? n (ofJson? n) c name) = _
    rw [Json.fields?_of_content hc hnodup, Option.bind_some, h n]
    simp only [within, Nat.add_le_add_iff_right]

/-- The name of a case without content, in whichever way it is spelled. -/
theorem bind_bare? {α : Type} {name : String} {j : Json} {f : String → Option α} {a : α} (h : Bare name j)
    (hf : f name = some a) (n : Nat) : (j.bare? n).bind f = within j.depth n a := by
  rw [Json.bare?_of_bare h, within, within]
  split
  · exact hf
  · rfl

theorem text?_eq_within (n : Nat) (s : String) : (string s).text? = within (string s).depth n s := some_eq_within s

theorem fieldNames?_caseName {a b : Category} (op : Operator a b) :
    fieldNames? b (Operator.caseName a b) = some ["op", "left", "right"] := by
  cases op <;> rfl

theorem ofFields?_operator {a b : Category} (op : Operator a b) (n : Nat)
    (read : (c : Category) → Json → Option (Expr c)) (tag l r : Json) :
    ofFields? n read b (Operator.caseName a b) [tag, l, r] =
      ((tag.bare? n).bind (Operator.ofTag? (a := a) (b := b)) >>= fun op =>
        read a l >>= fun l => read a r >>= fun r => some (.binary op l r)) := by
  cases op <;> rfl

/-- A spelling is read if as many brackets may be opened as what is kept of it takes. -/
theorem ofJson?_of_spelled {c : Category} {e : Expr c} {j k : Json} (h : e.Spelled j k) (n : Nat) :
    ofJson? n c j = within k.depth n e := by
  induction h generalizing n with
  | literal m =>
    refine ofJson?_of_part rfl (fun n => ?_) n
    show (word m).word?.map literal = _
    rw [Json.word?_word]
    exact some_eq_within _
  | var name =>
    refine ofJson?_of_part rfl (fun n => ?_) n
    show (string name).text?.map var = _
    rw [Json.text?_string]
    exact some_eq_within _
  | productTotal _ ih =>
    refine ofJson?_of_part rfl (fun n => ?_) n
    show (ofJson? n .numeric _).map productTotal = _
    rw [ih n, within_map]
  | dayTotal _ ih =>
    refine ofJson?_of_part rfl (fun n => ?_) n
    show (ofJson? n .numeric _).map dayTotal = _
    rw [ih n, within_map]
  | total hbare =>
    cases hbare with
    | name => cases n <;> exact some_eq_within _
    | member => cases n <;> rfl
  | figure _ _ hc ihp ihd =>
    refine ofJson?_of_content hc rfl (by simp) (fun n => ?_) n
    show (ofJson? n .numeric _ >>= fun p => ofJson? n .numeric _ >>= fun d => some (figure p d)) = _
    rw [ihp n, ihd n]
    exact within_bind (within_bind (some_eq_within _))
  | size _ ih =>
    refine ofJson?_of_part rfl (fun n => ?_) n
    show (ofJson? n .set _).map size = _
    rw [ih n, within_map]
  | elements hbare =>
    refine ofJson?_of_part rfl (fun n => ?_) n
    show ((Json.bare? n _).bind Kind.ofTag?).map elements = _
    rw [bind_bare? hbare (Kind.ofTag?_tag _), within_map]
  | comprehension hkind _ hc ih =>
    refine ofJson?_of_content hc rfl (by simp) (fun n => ?_) n
    show ((Json.bare? n _).bind Kind.ofTag? >>= fun k => (string _).text? >>= fun x =>
      ofJson? n .formula _ >>= fun p => some (comprehension k x p)) = _
    rw [bind_bare? hkind (Kind.ofTag?_tag _), text?_eq_within n, ih n]
    exact within_bind (within_bind (within_bind (some_eq_within _)))
  | not _ ih =>
    refine ofJson?_of_part rfl (fun n => ?_) n
    show (ofJson? n .formula _).map not = _
    rw [ih n, within_map]
  | quantified hq hkind _ hc ih =>
    refine ofJson?_of_content hc rfl (by simp) (fun n => ?_) n
    show ((Json.bare? n _).bind Quantifier.ofTag? >>= fun q => (string _).text? >>= fun x =>
      (Json.bare? n _).bind Kind.ofTag? >>= fun k => ofJson? n .formula _ >>= fun f => some (quantified q x k f)) = _
    rw [bind_bare? hq (Quantifier.ofTag?_tag _), text?_eq_within n, bind_bare? hkind (Kind.ofTag?_tag _), ih n]
    exact within_bind (within_bind (within_bind (within_bind (some_eq_within _))))
  | @binary a b op l r tag jl kl jr kr j k hop _ _ hc ihl ihr =>
    refine ofJson?_of_content hc (fieldNames?_caseName op) (by simp) (fun n => ?_) n
    show ofFields? n (ofJson? n) _ _ [_, _, _] = _
    rw [ofFields?_operator op, bind_bare? hop op.ofTag?_tag, ihl n, ihr n]
    exact within_bind (within_bind (within_bind (some_eq_within _)))

end Expr

namespace Query

theorem ofJson?_of_spelled {q : Query} {j k : Json} (h : q.Spelled j k) (n : Nat) :
    ofJson? n j = if k.depth ≤ n then some q else none := by
  cases h with
  | @expr c e j k h =>
    rw [Json.depth_tagged]
    cases n with
    | zero => rfl
    | succ n =>
      show (Category.ofTag? c.tag >>= fun c => Expr.ofJson? n c j >>= fun e => some (mk c e)) = _
      rw [c.ofTag?_tag, Option.bind_eq_bind, Option.bind_some, Expr.ofJson?_of_spelled h, Expr.within]
      simp only [Nat.add_le_add_iff_right]
      split <;> rfl

/-- Every text of a spelling of a query is read as the query, unless too many brackets are open at once in
    what is kept of it. No text of a broken query is read. -/
theorem reads_any_spelling :
    (∀ (q : Query) (j kept : Json) (text : String), q.Spelled j kept → Json.Text j text →
      read? text = if Json.mostOpen kept.written ≤ 127 then some q else none) ∧
    ∀ (j : Json) (text : String), Broken j → Json.Text j text → read? text = none := by
  refine ⟨fun q j kept text hspelled htext => ?_, fun j text hbroken htext => ?_⟩
  · rw [read?, Json.read?_of_text htext, Json.mostOpen_written hspelled.hasText]
    exact ofJson?_of_spelled hspelled nesting
  · rw [read?, Json.read?_of_text htext]
    exact ofJson?_of_broken hbroken nesting

-- The fields stand the other way round, with one in between that is passed over, and a letter is escaped.
theorem reads_any_spelling_around :
    read? "\x7b\"Numeric\": \x7b\"SalesAt\":\x7b\"day\":\x7b\"Variable\":\"\\u0061\"\x7d,\"by\":[1e5],\"product\":\x7b\"TotalSalesForMonth\":null\x7d\x7d\x7d\x7d" =
        some (mk .numeric (.figure .total (.var "a"))) ∧
      read? "\x7b\"Numeric\":\x7b\"SalesAt\":[\"TotalSalesForMonth\"]\x7d\x7d" = none := by
  have hspelled : (mk .numeric (.figure .total (.var "a"))).Spelled
      (tagged "Numeric" (tagged "SalesAt" (.obj [(some "day", tagged "Variable" (string "a")),
        (some "by", .arr [.num none]), (some "product", tagged "TotalSalesForMonth" .null)])))
      (tagged "Numeric" (tagged "SalesAt" (.obj [(some "day", tagged "Variable" (string "a")),
        (some "by", .null), (some "product", tagged "TotalSalesForMonth" .null)]))) := by
    have hcontent : Content [⟨"product", tagged "TotalSalesForMonth" .null, tagged "TotalSalesForMonth" .null⟩,
        ⟨"day", tagged "Variable" (string "a"), tagged "Variable" (string "a")⟩] _ _ :=
      @Content.object _ [⟨"day", tagged "Variable" (string "a"), tagged "Variable" (string "a")⟩,
        ⟨"by", .arr [.num none], .null⟩,
        ⟨"product", tagged "TotalSalesForMonth" .null, tagged "TotalSalesForMonth" .null⟩]
        (.swap _ _ _) (by simp)
    exact .expr (.figure (.total .member) (.var "a") hcontent)
  have hdigit (k : Fin 16) : Json.Token.IsHexDigit k (Nat.digitChar k) := ⟨k.isLt, .inl rfl⟩
  have hletter : Json.Token.Lexeme (.str (some "a")) ('"' :: (['\\', 'u', '0', '0', '6', '1'] ++ ['"'])) :=
    .str (.cons (.hex (.digits (hdigit 0) (hdigit 0) (hdigit 6) (hdigit 1))) .nil) (.one (c := 'a') .nil)
  have hnumber : Json.Token.Lexeme (.num none) "1e5".toList :=
    .num (.real (.whole 1) .absent (.present (.inl rfl) (.inl rfl) ⟨by decide, List.all_eq_true.mp rfl⟩) (by decide))
  have hmembers := Laid.token .openObject <| .token (lexeme_quote "Numeric") <| .token .colon <|
    .space (c := ' ') rfl <| .token .openObject <| .token (lexeme_quote "SalesAt") <| .token .colon <|
    .token .openObject <|
    .token (lexeme_quote "day") <| .token .colon <| .token .openObject <| .token (lexeme_quote "Variable") <|
    .token .colon <| .token hletter <| .token .closeObject <| .token .comma <|
    .token (lexeme_quote "by") <| .token .colon <| .token .openArray <| .token hnumber <| .token .closeArray <|
    .token .comma <|
    .token (lexeme_quote "product") <| .token .colon <| .token .openObject <|
    .token (lexeme_quote "TotalSalesForMonth") <| .token .colon <| .token .null <| .token .closeObject <|
    .token .closeObject <| .token .closeObject <| .token .closeObject .done
  have hvalues := Laid.token .openObject <| .token (lexeme_quote "Numeric") <| .token .colon <|
    .token .openObject <| .token (lexeme_quote "SalesAt") <| .token .colon <|
    .token .openArray <| .token (lexeme_quote "TotalSalesForMonth") <| .token .closeArray <|
    .token .closeObject <| .token .closeObject .done
  refine ⟨(reads_any_spelling.1 _ _ _ _ hspelled (Eq.mp (congrArg (Laid _) ?_) hmembers)).trans (if_pos ?_),
    reads_any_spelling.2 (tagged "Numeric" (tagged "SalesAt" (.arr [string "TotalSalesForMonth"]))) _
      (.expr (.here (c := .numeric) rfl (.values (by decide)))) (Eq.mp (congrArg (Laid _) ?_) hvalues)⟩
  all_goals decide +kernel

end Query

end GridQuery
