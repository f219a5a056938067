/-
  GridQuery.Proofs.Trace — what an evaluation reports.

  A query's evaluation reports that it begins, and at the end its value if it comes to one. All
  that is reported in between is the log of its expression. The log of an expression is made of
  the logs of what is evaluated for it, in order, and its own records among them:
  - most expressions evaluate their operands, up to the first that fails, and have no records of
    their own (`log_operands`);
  - a comprehension evaluates its predicate for one element after the other, up to the first for
    which that fails, and has a record for every other one, right after the predicate's log
    (`log_comprehension`);
  - a quantifier evaluates its body up to the first element that stops it, and has one record, the last
    in its log, if that is a decisive one (`log_quantified`).

  So the log of an evaluation stands in one piece in that of every evaluation that it is part of
  (`Within.isInfix_log`). Which element a record is about, and whether it was kept, is said in the
  record's words alone, so the words belong to the main statement (`evaluation_reports`).
-/

import GridQuery.Proofs.Settling
import Mathlib.Data.List.Basic

namespace GridQuery

open Query Query.Run

/-! ## Up to the first that stops -/

section

variable {α : Type} {stops : α → Bool}

/-- The elements of a list up to the first that stops, with that one. -/
def through (stops : α → Bool) : List α → List α
  | [] => []
  | x :: xs => x :: if stops x then [] else through stops xs

theorem through_sublist (xs : List α) : (through stops xs).Sublist xs := by
  induction xs with
  | nil => exact .slnil
  | cons x xs ih =>
    rw [through]
    split
    · exact (List.nil_sublist xs).cons_cons x
    · exact ih.cons_cons x

/-- In ascending order these are the elements that none before them stops. -/
theorem mem_through {stops : Int32 → Bool} {s : Ascending Int32} {x : Int32} :
    x ∈ through stops s.toList ↔ x ∈ s ∧ ∀ y ∈ s, y < x → stops y = false := by
  obtain ⟨xs, hxs⟩ := s
  show x ∈ through stops xs ↔ x ∈ xs ∧ ∀ y ∈ xs, y < x → stops y = false
  induction xs with
  | nil => simp [through]
  | cons z xs ih =>
    obtain ⟨hz, hrest⟩ := List.pairwise_cons.mp hxs
    rw [through, List.mem_cons, List.mem_cons, List.forall_mem_cons]
    by_cases hx : x = z
    · subst hx
      have hleast (y : Int32) (hy : y ∈ xs) (hlt : y < x) : stops y = false :=
        absurd (Int32.lt_trans hlt (hz y hy)) Int32.lt_irrefl
      simp only [true_or, true_and, true_iff]
      exact ⟨fun hlt => absurd hlt Int32.lt_irrefl, hleast⟩
    · simp only [hx, false_or]
      by_cases hstop : stops z = true
      · rw [if_pos hstop]
        constructor
        · intro hmem
          cases hmem
        · rintro ⟨hmem, hgoes, -⟩
          rw [hgoes (hz x hmem)] at hstop
          cases hstop
      · have hgoes := eq_false_of_ne_true hstop
        rw [if_neg hstop, ih hrest, hgoes]
        simp

/-- The one that stops is the last. -/
theorem through_eq_concat {xs : List α} {x : α} (hx : x ∈ through stops xs) (hstop : stops x = true) :
    ∃ before, through stops xs = before ++ [x] ∧ ∀ y ∈ before, stops y = false := by
  induction xs with
  | nil => cases hx
  | cons z xs ih =>
    rw [through] at hx ⊢
    by_cases hz : stops z = true
    · rw [if_pos hz] at hx ⊢
      rw [List.mem_singleton.mp hx]
      exact ⟨[], rfl, nofun⟩
    · rw [if_neg hz] at hx ⊢
      rcases List.mem_cons.mp hx with rfl | hx
      · exact absurd hstop hz
      · obtain ⟨before, heq, hbefore⟩ := ih hx
        refine ⟨z :: before, by rw [heq, List.cons_append], ?_⟩
        exact List.forall_mem_cons.mpr ⟨eq_false_of_ne_true hz, hbefore⟩

end

namespace Query.Run

variable {α β : Type}

/-! ## The log of a run -/

/-- What is reported after a run has come to `o`, if it goes on. -/
def next (o : Except Error α) (f : α → List Event) : List Event :=
  match o with
  | .ok a => f a
  | .error _ => []

@[simp] theorem next_ok (a : α) (f : α → List Event) : next (.ok a) f = f a := rfl

@[simp] theorem next_nil (o : Except Error α) : (next o fun _ => []) = [] := by cases o <;> rfl

@[simp] theorem trace_pure (a : α) (b : Bindings) : (pure a : Run α).trace b = [] := (gives_pure a b).trace

@[simp] theorem trace_lift (x : Except Error α) (b : Bindings) : (lift x).trace b = [] := (gives_lift x b).trace

@[simp] theorem trace_report (e : Event) (b : Bindings) : (report e).trace b = [e] := (gives_report e b).trace

@[simp] theorem trace_lookup (name : String) (b : Bindings) : (lookup name).trace b = [] := (gives_lookup name b).trace

@[simp] theorem trace_withBinding (name : String) (value : Int32) (body : Run α) [Steady body] (b : Bindings) :
    (withBinding name value body).trace b = body.trace (b.push name value) :=
  (Steady.gives (b.push name value)).withBinding.trace

@[simp] theorem trace_bind (r : Run α) (f : α → Run β) [Steady r] [∀ a, Steady (f a)] (b : Bindings) :
    (r >>= f).trace b = r.trace b ++ next (r.result b) fun a => (f a).trace b :=
  (gives_bind r f b).trace

theorem not_isOk_eq_false {o : Except Error α} : (!o.isOk) = false ↔ ∃ a, o = .ok a := by
  cases o <;> simp [Except.isOk, Except.toBool]

theorem next_const (o : Except Error α) (es : List Event) : (next o fun _ => es) = if !o.isOk then [] else es := by
  cases o <;> rfl

section

variable (name : String) (test : Run Bool) [Steady test]

theorem trace_keep (xs : List Int32) (b : Bindings) :
    (keep name test xs).trace b =
      (through (fun n => !(test.result (b.push name n)).isOk) xs).flatMap fun n =>
        test.trace (b.push name n) ++ next (test.result (b.push name n)) fun hit => [.tested name n hit] := by
  induction xs with
  | nil => exact trace_pure [] b
  | cons x xs ih =>
    rw [through, List.flatMap_cons, keep, trace_bind, trace_withBinding, result_withBinding]
    have hrest (hit : Bool) : (do
        report (.tested name x hit)
        let rest ← keep name test xs
        pure (if hit then x :: rest else rest) : Run (List Int32)).trace b =
          .tested name x hit :: (keep name test xs).trace b := by
      simp only [trace_bind, trace_report, result_report, next_ok, trace_pure, next_nil, List.append_nil,
        List.singleton_append]
    simp only [hrest, ih, List.append_assoc]
    congr 1
    rcases test.result (b.push name x) with e | hit
    · rfl
    · rfl

theorem trace_settle (q : Quantifier) (xs : List Int32) (b : Bindings) :
    (settle q name test xs).trace b =
      (through (fun n => stopsAt q (test.result (b.push name n))) xs).flatMap fun n =>
        test.trace (b.push name n) ++ next (test.result (b.push name n)) fun hit =>
          if hit = q.decisive then [.settled q name n] else [] := by
  induction xs with
  | nil => exact trace_pure _ b
  | cons x xs ih =>
    rw [through, List.flatMap_cons, settle, trace_bind, trace_withBinding, result_withBinding]
    simp only [List.append_assoc]
    congr 1
    rcases test.result (b.push name x) with e | hit
    · rfl
    · rw [next_ok, next_ok]
      by_cases hd : hit = q.decisive
      · have hstop : stopsAt q (.ok hit) = true := beq_iff_eq.mpr hd
        rw [if_pos hd, if_pos hd, hstop]
        simp only [trace_bind, trace_report, result_report, next_ok, trace_pure]
        rfl
      · have hgoes : stopsAt q (.ok hit) = false := beq_eq_false_iff_ne.mpr hd
        rw [if_neg hd, if_neg hd, hgoes, ih]
        rfl

section

variable {name : String} {test : Run Bool} {q : Quantifier}

/-- Only the decisive value makes a record. -/
theorem flatMap_of_not_decisive {xs : List Int32} {b : Bindings}
    (h : ∀ n ∈ xs, test.result (b.push name n) ≠ .ok q.decisive) :
    (xs.flatMap fun n => test.trace (b.push name n) ++ next (test.result (b.push name n)) fun hit =>
      if hit = q.decisive then [.settled q name n] else []) = xs.flatMap fun n => test.trace (b.push name n) := by
  refine List.flatMap_congr fun n hn => ?_
  cases ho : test.result (b.push name n) with
  | error e => exact List.append_nil _
  | ok hit =>
    have hd : hit ≠ q.decisive := by
      intro heq
      rw [heq] at ho
      exact h n hn ho
    rw [next_ok, if_neg hd, List.append_nil]

theorem trace_settle_of_decisive [Steady test] {xs : List Int32} {b : Bindings} {n : Int32}
    (hn : n ∈ through (fun n => stopsAt q (test.result (b.push name n))) xs)
    (h : test.result (b.push name n) = .ok q.decisive) :
    (settle q name test xs).trace b =
      ((through (fun n => stopsAt q (test.result (b.push name n))) xs).flatMap fun n => test.trace (b.push name n)) ++
        [.settled q name n] := by
  have hstop : stopsAt q (test.result (b.push name n)) = true := by
    rw [h]
    exact beq_self_eq_true q.decisive
  obtain ⟨before, heq, hbefore⟩ := through_eq_concat hn hstop
  have hgoes (m : Int32) (hm : m ∈ before) : test.result (b.push name m) ≠ .ok q.decisive := by
    rw [stopsAt_eq_false.mp (hbefore m hm)]
    simp
  rw [trace_settle, heq, List.flatMap_append, List.flatMap_append, flatMap_of_not_decisive hgoes,
    List.flatMap_singleton, List.flatMap_singleton, h, next_ok, if_pos rfl, List.append_assoc]

end

end

/-! ## Levels -/

/-- All that a run reports is a detail. -/
class Tracing (r : Run α) : Prop where
  level (b : Bindings) : ∀ e ∈ r.trace b, e.level = .trace

instance (a : α) : Tracing (pure a : Run α) := ⟨fun b => by simp⟩

instance (x : Except Error α) : Tracing (lift x) := ⟨fun b => by simp⟩

instance (name : String) : Tracing (lookup name) := ⟨fun b => by simp⟩

instance (name : String) (element : Int32) (kept : Bool) : Tracing (report (.tested name element kept)) :=
  ⟨fun b => by simp [Event.level]⟩

instance (q : Quantifier) (name : String) (element : Int32) : Tracing (report (.settled q name element)) :=
  ⟨fun b => by simp [Event.level]⟩

instance (name : String) (value : Int32) (body : Run α) [Steady body] [Tracing body] :
    Tracing (withBinding name value body) where
  level b := by
    rw [trace_withBinding]
    exact Tracing.level (b.push name value)

instance (r : Run α) (f : α → Run β) [Steady r] [∀ a, Steady (f a)] [Tracing r] [∀ a, Tracing (f a)] :
    Tracing (r >>= f) where
  level b := by
    rw [trace_bind]
    intro e he
    rcases List.mem_append.mp he with he | he
    · exact Tracing.level b e he
    · cases ho : r.result b with
      | ok a =>
        rw [ho] at he
        exact Tracing.level b e he
      | error x =>
        rw [ho] at he
        cases he

instance (p : Prop) [Decidable p] (r s : Run α) [Tracing r] [Tracing s] : Tracing (if p then r else s) := by
  split <;> infer_instance

section

variable (name : String) (test : Run Bool) [Steady test] [Tracing test]

instance (xs : List Int32) : Tracing (keep name test xs) := by
  induction xs with
  | nil => exact inferInstanceAs (Tracing (pure []))
  | cons x xs ih =>
    unfold keep
    infer_instance

instance (q : Quantifier) (xs : List Int32) : Tracing (settle q name test xs) := by
  induction xs with
  | nil => exact inferInstanceAs (Tracing (pure _))
  | cons x xs ih =>
    unfold settle
    infer_instance

end

end Query.Run

namespace Expr

instance eval_tracing (g : Grid) {c : Category} (e : Expr c) : Tracing (e.eval g) := by
  induction e <;> (unfold eval; infer_instance)

/-- The parts that are evaluated for an expression under the bindings that it is evaluated under. -/
def operands : {c : Category} → Expr c → List Query
  | _, .productTotal p => [⟨_, p⟩]
  | _, .dayTotal d => [⟨_, d⟩]
  | _, .figure p d => [⟨_, p⟩, ⟨_, d⟩]
  | _, .size s => [⟨_, s⟩]
  | _, .not f => [⟨_, f⟩]
  | _, .binary _ l r => [⟨_, l⟩, ⟨_, r⟩]
  | _, _ => []

/-- Whether an expression evaluates its part with one more binding. -/
def bindsName : {c : Category} → Expr c → Bool
  | _, .comprehension .. => true
  | _, .quantified .. => true
  | _, _ => false

end Expr

/-! ## Evaluations and their parts -/

/-- An expression and the bindings under which it is evaluated. -/
structure Evaluation where
  query : Query
  bindings : Bindings

namespace Evaluation

/-- The evaluation of an expression of a known category. -/
abbrev of {c : Category} (e : Expr c) (b : Bindings) : Evaluation := ⟨⟨c, e⟩, b⟩

variable (g : Grid)

def log (v : Evaluation) : List Event := (v.query.expr.eval g).trace v.bindings

def result (v : Evaluation) : Except Error v.query.category.Carrier := (v.query.expr.eval g).result v.bindings

def fails (v : Evaluation) : Bool := !(v.result g).isOk

/-- The evaluations that are made for one, in this order. -/
def parts : Evaluation → List Evaluation
  | ⟨⟨_, .comprehension k x p⟩, b⟩ =>
    (through (fun n => (of p (b.push x n)).fails g) (g.elements k).toList).map fun n => of p (b.push x n)
  | ⟨⟨_, .quantified q x k f⟩, b⟩ =>
    (through (fun n => stopsAt q ((of f (b.push x n)).result g)) (g.elements k).toList).map fun n => of f (b.push x n)
  | ⟨⟨_, e⟩, b⟩ => through (fails g) (e.operands.map (⟨·, b⟩))

/-- `Within v w`: evaluating `v` is part of evaluating `w`, at any depth. -/
inductive Within : Evaluation → Evaluation → Prop
  | whole (v : Evaluation) : Within v v
  | part {v w u : Evaluation} (hpart : w ∈ u.parts g) (h : Within v w) : Within v u

variable {g}

theorem flatMap_through_one (v : Evaluation) : (through (fails g) [v]).flatMap (log g) = v.log g := by
  simp [through]

theorem flatMap_through_two (v w : Evaluation) :
    (through (fails g) [v, w]).flatMap (log g) = v.log g ++ next (v.result g) fun _ => w.log g := by
  have hnext : (next (v.result g) fun _ => w.log g) = if v.fails g = true then [] else w.log g := next_const _ _
  rw [hnext, through, List.flatMap_cons]
  by_cases hv : v.fails g = true
  · rw [if_pos hv, if_pos hv]
    rfl
  · rw [if_neg hv, if_neg hv, flatMap_through_one]

/-- What an expression reports that binds no name. -/
theorem log_operands {c : Category} (e : Expr c) (b : Bindings) (h : e.bindsName = false) :
    (of e b).log g = ((of e b).parts g).flatMap (log g) := by
  cases e with
  | literal n => exact trace_pure n b
  | var name => exact trace_lookup name b
  | productTotal p =>
    refine Eq.trans ?_ (flatMap_through_one (of p b)).symm
    simp only [log, Expr.eval, trace_bind, trace_pure, trace_lift, next_nil, List.append_nil]
  | dayTotal d =>
    refine Eq.trans ?_ (flatMap_through_one (of d b)).symm
    simp only [log, Expr.eval, trace_bind, trace_pure, trace_lift, next_nil, List.append_nil]
  | total => exact trace_pure g.total b
  | figure p d =>
    refine Eq.trans ?_ (flatMap_through_two (of p b) (of d b)).symm
    simp only [log, result, Expr.eval, trace_bind, trace_pure, trace_lift, next_nil, List.append_nil]
  | size s =>
    refine Eq.trans ?_ (flatMap_through_one (of s b)).symm
    simp only [log, Expr.eval, trace_bind, trace_pure, next_nil, List.append_nil]
  | elements k => exact trace_pure (g.elements k) b
  | comprehension k x p => cases h
  | not f =>
    refine Eq.trans ?_ (flatMap_through_one (of f b)).symm
    simp only [log, Expr.eval, trace_bind, trace_pure, next_nil, List.append_nil]
  | quantified q x k f => cases h
  | binary op l r =>
    refine Eq.trans ?_ (flatMap_through_two (of l b) (of r b)).symm
    simp only [log, result, Expr.eval, trace_bind, trace_lift, next_nil, List.append_nil]

/-! ## Binders -/

/-- `visited` are the elements of a set from the least up, as far as none stops that stands before. -/
structure Visits (s : Ascending Int32) (goesOn : Int32 → Prop) (visited : List Int32) : Prop where
  ascending : visited.Pairwise (· < ·)
  mem_iff (n : Int32) : n ∈ visited ↔ n ∈ s ∧ ∀ m ∈ s, m < n → goesOn m

theorem visits_through {s : Ascending Int32} {stops : Int32 → Bool} {goesOn : Int32 → Prop}
    (h : ∀ n, stops n = false ↔ goesOn n) : Visits s goesOn (through stops s.toList) where
  ascending := s.pairwise.sublist (through_sublist s.toList)
  mem_iff n := by simp only [mem_through, h]

/-- What a comprehension reports. Its predicate is evaluated for the elements `visited`, up to the first
    for which that fails. For each of them there is the predicate's log, and then a record if the
    predicate came to a value. -/
structure ComprehensionLog (g : Grid) (b : Bindings) (k : Kind) (x : String) (p : Expr .formula)
    (visited : List Int32) : Prop where
  visits : Visits (g.elements k) (fun n => ∃ hit, (of p (b.push x n)).result g = .ok hit) visited
  log_eq : (of (.comprehension k x p) b).log g = visited.flatMap fun n =>
    (of p (b.push x n)).log g ++ next ((of p (b.push x n)).result g) fun hit => [.tested x n hit]
  /-- The elements of the set are those with `true` in their record. -/
  mem_set (s : Ascending Int32) (hs : (of (.comprehension k x p) b).result g = .ok s) (n : Int32) :
    n ∈ s ↔ n ∈ visited ∧ (of p (b.push x n)).result g = .ok true

/-- What a quantifier reports. Its body is evaluated for the elements `visited`, up to the first for which
    that fails or comes to the decisive value. There are only the logs of the body if the quantifier
    fails or does not come to its decisive value; and if it does, a record of the least
    element that decides it stands after them. -/
structure QuantifierLog (g : Grid) (b : Bindings) (q : Quantifier) (x : String) (k : Kind) (f : Expr .formula)
    (visited : List Int32) : Prop where
  visits : Visits (g.elements k) (fun n => (of f (b.push x n)).result g = .ok (!q.decisive)) visited
  log_of_decisive (h : (of (.quantified q x k f) b).result g = .ok q.decisive) :
    ∃ n ∈ g.elements k, (of f (b.push x n)).result g = .ok q.decisive ∧
      (∀ m ∈ g.elements k, m < n → (of f (b.push x m)).result g = .ok (!q.decisive)) ∧
      (of (.quantified q x k f) b).log g =
        (visited.flatMap fun m => (of f (b.push x m)).log g) ++ [.settled q x n]
  log_of_not_decisive (h : (of (.quantified q x k f) b).result g ≠ .ok q.decisive) :
    (of (.quantified q x k f) b).log g = visited.flatMap fun m => (of f (b.push x m)).log g

theorem log_comprehension (k : Kind) (x : String) (p : Expr .formula) (b : Bindings) :
    ComprehensionLog g b k x p
      (through (fun n => (of p (b.push x n)).fails g) (g.elements k).toList) where
  visits := visits_through fun n => not_isOk_eq_false
  log_eq := by
    refine Eq.trans ?_ (trace_keep x (p.eval g) (g.elements k).toList b)
    simp only [log, Expr.eval, trace_bind, trace_pure, next_nil, List.append_nil]
  mem_set s hs n := by
    rw [result, Expr.result_comprehension] at hs
    obtain ⟨ns, hkept, rfl⟩ := map_eq_ok.mp hs
    rw [Ascending.mem_ofList, mem_of_kept hkept]
    constructor
    · rintro ⟨hn, htrue⟩
      refine ⟨mem_through.mpr ⟨hn, ?_⟩, htrue⟩
      intro m hm _
      exact not_isOk_eq_false.mpr (exists_kept_iff.mp ⟨ns, hkept⟩ m hm)
    · rintro ⟨hn, htrue⟩
      exact ⟨(mem_through.mp hn).1, htrue⟩

theorem log_quantified (q : Quantifier) (x : String) (k : Kind) (f : Expr .formula) (b : Bindings) :
    QuantifierLog g b q x k f
      (through (fun n => stopsAt q ((of f (b.push x n)).result g)) (g.elements k).toList) := by
  have hvisits := visits_through (s := g.elements k)
    fun n => stopsAt_eq_false (q := q) (o := (of f (b.push x n)).result g)
  have hdecided : (of (.quantified q x k f) b).result g = .ok q.decisive ↔ ∃ n ∈ g.elements k,
      (of f (b.push x n)).result g = .ok q.decisive ∧
        ∀ m ∈ g.elements k, m < n → (of f (b.push x m)).result g = .ok (!q.decisive) := by
    rw [result, Expr.result_quantified]
    exact settled_eq_iff (beq_self_eq_true q.decisive)
  refine ⟨hvisits, ?_, ?_⟩
  · intro h
    obtain ⟨n, hn, hdecisive, hbelow⟩ := hdecided.mp h
    exact ⟨n, hn, hdecisive, hbelow, trace_settle_of_decisive ((hvisits.mem_iff n).mpr ⟨hn, hbelow⟩) hdecisive⟩
  · intro h
    refine (trace_settle x (f.eval g) q (g.elements k).toList b).trans (flatMap_of_not_decisive ?_)
    intro n hn hdecisive
    obtain ⟨hmem, hbelow⟩ := (hvisits.mem_iff n).mp hn
    exact h (hdecided.mpr ⟨n, hmem, hdecisive, hbelow⟩)

/-- How the log of an evaluation is made of those of its parts, with records of its own if it binds a name. -/
def Told (g : Grid) : Evaluation → Prop
  | ⟨⟨_, .comprehension k x p⟩, b⟩ => ∃ visited, ComprehensionLog g b k x p visited
  | ⟨⟨_, .quantified q x k f⟩, b⟩ => ∃ visited, QuantifierLog g b q x k f visited
  | v => v.log g = (v.parts g).flatMap (log g)

theorem told (v : Evaluation) : v.Told g := by
  obtain ⟨⟨_, e⟩, b⟩ := v
  cases e with
  | comprehension k x p => exact ⟨_, log_comprehension k x p b⟩
  | quantified q x k f => exact ⟨_, log_quantified q x k f b⟩
  | _ => exact log_operands _ b rfl

theorem isInfix_flatMap {α β : Type} {x : α} {xs : List α} (h : x ∈ xs) (f : α → List β) : f x <:+: xs.flatMap f :=
  List.infix_of_mem_flatten (List.mem_map_of_mem h)

theorem isInfix_log_of_part {v w : Evaluation} (h : v ∈ w.parts g) : v.log g <:+: w.log g := by
  obtain ⟨⟨_, e⟩, b⟩ := w
  cases e with
  | comprehension k x p =>
    obtain ⟨n, hn, rfl⟩ := List.mem_map.mp h
    rw [(log_comprehension k x p b).log_eq]
    refine List.IsInfix.trans ?_ (isInfix_flatMap hn _)
    exact (List.prefix_append _ _).isInfix
  | quantified q x k f =>
    obtain ⟨n, hn, rfl⟩ := List.mem_map.mp h
    have hbodies := isInfix_flatMap hn fun n => (of f (b.push x n)).log g
    have hlog := log_quantified (g := g) q x k f b
    by_cases hdecisive : (of (.quantified q x k f) b).result g = .ok q.decisive
    · obtain ⟨m, -, -, -, heq⟩ := hlog.log_of_decisive hdecisive
      rw [heq]
      exact hbodies.trans (List.prefix_append _ _).isInfix
    · rw [hlog.log_of_not_decisive hdecisive]
      exact hbodies
  | _ =>
    rw [log_operands _ b rfl]
    exact isInfix_flatMap h _

theorem Within.isInfix_log {v w : Evaluation} (h : Within g v w) : v.log g <:+: w.log g := by
  induction h with
  | whole => exact List.infix_rfl
  | part hpart _ ih => exact ih.trans (isInfix_log_of_part hpart)

end Evaluation

theorem trace_evaluate (g : Grid) (q : Query) (b : Bindings) :
    (q.evaluate g).trace b =
      .begun q :: ((Evaluation.of q.expr b).log g ++ next ((q.evaluate g).result b) fun v => [.finished v]) := by
  rw [result_evaluate]
  simp only [evaluate, trace_bind, trace_report, result_report, next_ok, trace_pure, next_nil, List.append_nil,
    List.singleton_append]
  congr 2
  cases (q.expr.eval g).result b <;> rfl

/-- An evaluation reports that it begins, then the log of the query's expression, and at the end its
    value if it comes to one and nothing if it fails. All in the log are details. The log of every
    evaluation that is part of it, at whatever depth, stands in it in one piece: it is made of the
    logs of its parts in order, with a record after each part of a comprehension that comes to a value,
    and one after all parts of a quantifier that an element decides. In words, the first record has the
    query and the last one the value, one of a comprehension has the element and whether it is
    kept, and one of a quantifier has the element that decides it. -/
theorem evaluation_reports (g : Grid) (q : Query) (b : Bindings) :
    let whole := Evaluation.of q.expr b
    let record (l : Level) (message : String) : Record := ⟨l, "salesql::expression::eval", message⟩
    ((q.evaluate g).outcome b).events =
        .begun q :: (whole.log g ++ match ((q.evaluate g).outcome b).result with
          | .ok v => [.finished v]
          | .error _ => []) ∧
      (Event.begun q).record = record .debug ("Evaluating " ++ q.category.text ++ " query: " ++ q.text) ∧
      (∀ v, (Event.finished v).record = record .debug ("Result: " ++ v.text)) ∧
      (∀ x n hit, (Event.tested x n hit).record =
        record .trace (x ++ " = " ++ Numeral.writeWord n ++ ": " ++ if hit then "true" else "false")) ∧
      (∀ k x n, (Event.settled k x n).record =
        record .trace (k.text ++ " " ++ x ++ ": settled at " ++ x ++ " = " ++ Numeral.writeWord n)) ∧
      (∀ e ∈ whole.log g, e.level = .trace) ∧
      ∀ v, Evaluation.Within g v whole → v.log g <:+: whole.log g ∧ v.Told g := by
  intro whole record
  refine ⟨?_, rfl, fun _ => rfl, ?_, fun _ _ _ => rfl, Tracing.level b, fun v hv => ⟨hv.isInfix_log, v.told⟩⟩
  · have htrace := trace_evaluate g q b
    cases ho : ((q.evaluate g).outcome b).result with
    | ok v =>
      rw [Run.result, ho] at htrace
      exact htrace
    | error e =>
      rw [Run.result, ho] at htrace
      exact htrace
  · intro x n hit
    cases hit <;> rfl

-- Product 1 sells too little on both days, product 2 enough on the second day, and for product 3 the
-- divisor is zero. So there are two records of the comprehension, one of the quantifier between them,
-- and none of a value.
theorem evaluation_reports_cut_short :
    let g : Grid := ⟨[[1, 2], [3, 7], [5, 5]], by decide⟩
    let p : Expr .numeric := .var "p"
    let enough : Expr .formula :=
      .quantified .forSome "d" .day
        (.binary .gt (.figure p (.var "d")) (.binary .div (.literal 6) (.binary .sub (.literal 3) p)))
    let q : Query := ⟨.set, .comprehension .product "p" enough⟩
    let inner := Evaluation.of enough [("p", 2)]
    let details : List Event := [.tested "p" 1 false, .settled .forSome "d" 2, .tested "p" 2 true]
    ((q.evaluate g).outcome []).events = .begun q :: details ∧
      details.map (·.record.message) = ["p = 1: false", "exists d: settled at d = 2", "p = 2: true"] ∧
      Evaluation.Within g inner (.of q.expr []) ∧ inner.log g = [.settled .forSome "d" 2] ∧
      inner.log g <:+: (Evaluation.of q.expr []).log g ∧ inner.Told g := by
  intro g p enough q inner details
  obtain ⟨hevents, -, -, htested, hsettled, -, hparts⟩ := evaluation_reports g q []
  have hinner : Evaluation.Within g inner (.of q.expr []) :=
    .part (List.mem_map.mpr ⟨2, by decide, rfl⟩) (.whole inner)
  have hmessages :
      details.map (·.record.message) = ["p = 1: false", "exists d: settled at d = 2", "p = 2: true"] := by
    rw [List.map_cons, List.map_cons, List.map_singleton, htested, hsettled, htested]
    decide
  exact ⟨hevents.trans (by decide +kernel), hmessages, hinner, rfl, hparts inner hinner⟩

end GridQuery
