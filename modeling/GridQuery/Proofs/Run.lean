/-
  GridQuery.Proofs.Run — what a run comes to.

  A run carries bindings and events through its steps and changes both on the way:
  `withBinding` pushes a binding and cuts it off again, and every report adds an event. Seen
  from its ends there is less to it. Under the bindings it starts with it has one result and
  reports one list of events (`result`, `trace`), and it is steady: whatever was reported
  before, it gives the bindings back as they were, value or error, and its events come after
  the others (`Steady`).

  Every way of putting runs together keeps them steady (the instances below), and the result of
  a steady run follows from those of its parts (`result_bind`, `result_withBinding`,
  `result_keep`, `result_settle`). The two loops have results of their own, `kept` and
  `settled`, that know nothing of bindings; what a quantifier comes to is what its body comes to
  for the first element that stops it (`settled_eq_find?`).
-/

import GridQuery.Query.Evaluation

namespace GridQuery.Query

/-! ## Results one after another -/

section

variable {α β : Type}

@[simp] theorem ok_bind (a : α) (f : α → Except Error β) : (Except.ok a >>= f) = f a := rfl

@[simp] theorem error_bind (e : Error) (f : α → Except Error β) : (Except.error e >>= f) = .error e := rfl

theorem bind_eq_ok {x : Except Error α} {f : α → Except Error β} {c : β} :
    (x >>= f) = .ok c ↔ ∃ a, x = .ok a ∧ f a = .ok c := by
  cases x <;> simp

theorem bind_eq_error {x : Except Error α} {f : α → Except Error β} {e : Error} :
    (x >>= f) = .error e ↔ x = .error e ∨ ∃ a, x = .ok a ∧ f a = .error e := by
  cases x <;> simp

theorem map_eq_ok {x : Except Error α} {f : α → β} {c : β} : x.map f = .ok c ↔ ∃ a, x = .ok a ∧ f a = c := by
  cases x <;> simp [Except.map]

theorem map_eq_error {x : Except Error α} {f : α → β} {e : Error} : x.map f = .error e ↔ x = .error e := by
  cases x <;> simp [Except.map]

end

namespace Run

variable {α β : Type}

def result (r : Run α) (b : Bindings) : Except Error α := (r.outcome b).result

def trace (r : Run α) (b : Bindings) : List Event := (r.outcome b).events

/-- Under `b` the run comes to `o` and reports `es`, after whatever was reported before, and
    leaves `b`. -/
def Gives (r : Run α) (b : Bindings) (o : Except Error α) (es : List Event) : Prop :=
  ∀ before : Array Event, r ⟨b, before⟩ =
    match o with
    | .ok a => .ok a ⟨b, before ++ es.toArray⟩
    | .error e => .error e ⟨b, before ++ es.toArray⟩

class Steady (r : Run α) : Prop where
  gives (b : Bindings) : Gives r b (r.result b) (r.trace b)

theorem Gives.outcome {r : Run α} {b : Bindings} {o : Except Error α} {es : List Event} (h : Gives r b o es) :
    r.outcome b = ⟨o, b, es⟩ := by
  unfold Run.outcome
  rw [h #[]]
  cases o <;> simp

theorem Gives.result {r : Run α} {b : Bindings} {o : Except Error α} {es : List Event} (h : Gives r b o es) :
    r.result b = o := by
  rw [Run.result, h.outcome]

theorem Gives.trace {r : Run α} {b : Bindings} {o : Except Error α} {es : List Event} (h : Gives r b o es) :
    r.trace b = es := by
  rw [Run.trace, h.outcome]

theorem Steady.of_gives {r : Run α} {o : Bindings → Except Error α} {es : Bindings → List Event}
    (h : ∀ b, Gives r b (o b) (es b)) : Steady r where
  gives b := by
    rw [(h b).result, (h b).trace]
    exact h b

/-- A steady run ends with the bindings that it began with. -/
theorem outcome_bindings (r : Run α) [Steady r] (b : Bindings) : (r.outcome b).bindings = b := by
  rw [(Steady.gives b).outcome]

/-! ## Single steps -/

theorem gives_pure (a : α) (b : Bindings) : Gives (pure a) b (.ok a) [] := by
  intro before
  show EStateM.Result.ok a (State.mk b before) = _
  simp

theorem gives_lift (x : Except Error α) (b : Bindings) : Gives (lift x) b x [] := by
  intro before
  cases x with
  | ok a => exact gives_pure a b before
  | error e =>
    show EStateM.Result.error e (State.mk b before) = _
    simp

theorem gives_report (e : Event) (b : Bindings) : Gives (report e) b (.ok ()) [e] := by
  intro before
  simp [report]

/-- What a name means under the bindings. -/
def meant (name : String) (b : Bindings) : Except Error Int32 :=
  match b.lookup name with
  | some n => .ok n
  | none => .error (.unbound name)

theorem gives_lookup (name : String) (b : Bindings) : Gives (lookup name) b (meant name b) [] := by
  intro before
  unfold lookup meant
  cases b.lookup name <;> simp

instance (a : α) : Steady (pure a : Run α) := .of_gives (gives_pure a)

instance (x : Except Error α) : Steady (lift x) := .of_gives (gives_lift x)

instance (e : Event) : Steady (report e) := .of_gives (gives_report e)

instance (name : String) : Steady (lookup name) := .of_gives (gives_lookup name)

@[simp] theorem result_pure (a : α) (b : Bindings) : (pure a : Run α).result b = .ok a := (gives_pure a b).result

@[simp] theorem result_lift (x : Except Error α) (b : Bindings) : (lift x).result b = x := (gives_lift x b).result

@[simp] theorem result_report (e : Event) (b : Bindings) : (report e).result b = .ok () := (gives_report e b).result

@[simp] theorem result_lookup (name : String) (b : Bindings) : (lookup name).result b = meant name b :=
  (gives_lookup name b).result

/-! ## One run after another -/

theorem bind_of_ok {r : Run α} {f : α → Run β} {s t : State} {a : α} (h : r s = .ok a t) : (r >>= f) s = f a t := by
  show EStateM.bind r f s = _
  simp only [EStateM.bind, h]

theorem bind_of_error {r : Run α} {f : α → Run β} {s t : State} {e : Error} (h : r s = .error e t) :
    (r >>= f) s = .error e t := by
  show EStateM.bind r f s = _
  simp only [EStateM.bind, h]

theorem Gives.bind_ok {r : Run α} {f : α → Run β} {b : Bindings} {a : α} {o : Except Error β} {es es' : List Event}
    (h : Gives r b (.ok a) es) (h' : Gives (f a) b o es') : Gives (r >>= f) b o (es ++ es') := by
  intro before
  rw [bind_of_ok (h before), h' (before ++ es.toArray)]
  cases o <;> simp

theorem Gives.bind_error {r : Run α} {f : α → Run β} {b : Bindings} {e : Error} {es : List Event}
    (h : Gives r b (.error e) es) : Gives (r >>= f) b (.error e) es := by
  intro before
  exact bind_of_error (h before)

/-- How a run and then another one go, by the result of the first. -/
theorem gives_bind (r : Run α) (f : α → Run β) [Steady r] [∀ a, Steady (f a)] (b : Bindings) :
    Gives (r >>= f) b (r.result b >>= fun a => (f a).result b)
      (r.trace b ++ match r.result b with | .ok a => (f a).trace b | .error _ => []) := by
  have h := Steady.gives (r := r) b
  cases ho : r.result b with
  | ok a =>
    rw [ho] at h
    exact h.bind_ok (Steady.gives b)
  | error e =>
    rw [ho] at h
    rw [List.append_nil]
    exact h.bind_error

instance (r : Run α) (f : α → Run β) [Steady r] [∀ a, Steady (f a)] : Steady (r >>= f) := .of_gives (gives_bind r f)

@[simp] theorem result_bind (r : Run α) (f : α → Run β) [Steady r] [∀ a, Steady (f a)] (b : Bindings) :
    (r >>= f).result b = r.result b >>= fun a => (f a).result b :=
  (gives_bind r f b).result

instance (p : Prop) [Decidable p] (r s : Run α) [Steady r] [Steady s] : Steady (if p then r else s) := by
  split <;> infer_instance

/-! ## A binding for the time of a body -/

/-- Whatever the body does and however it ends, the bindings that it leaves are cut to the depth
    that they had before it. -/
theorem outcome_withBinding (name : String) (value : Int32) (body : Run α) (b : Bindings) :
    (withBinding name value body).outcome b =
      { body.outcome (b.push name value) with
        bindings := (body.outcome (b.push name value)).bindings.cutTo b.length } := by
  unfold Run.outcome Run.withBinding
  cases body ⟨b.push name value, #[]⟩ <;> rfl

/-- The cut undoes the push, because the body has undone all that it did itself. -/
theorem Gives.withBinding {body : Run α} {name : String} {value : Int32} {b : Bindings} {o : Except Error α}
    {es : List Event} (h : Gives body (b.push name value) o es) : Gives (withBinding name value body) b o es := by
  intro before
  have hcut : (b.push name value).cutTo b.length = b := Bindings.cutTo_append [(name, value)] b
  unfold Run.withBinding
  rw [h before]
  cases o <;> simp only [hcut]

instance (name : String) (value : Int32) (body : Run α) [Steady body] : Steady (withBinding name value body) :=
  .of_gives fun b => (Steady.gives (b.push name value)).withBinding

@[simp] theorem result_withBinding (name : String) (value : Int32) (body : Run α) [Steady body] (b : Bindings) :
    (withBinding name value body).result b = body.result (b.push name value) :=
  (Steady.gives (b.push name value)).withBinding.result

/-! ## Loops over elements -/

/-- The elements for which `test` is true, or its first error. -/
def kept (test : Int32 → Except Error Bool) : List Int32 → Except Error (List Int32)
  | [] => .ok []
  | x :: xs => do
    let hit ← test x
    let rest ← kept test xs
    .ok (if hit then x :: rest else rest)

/-- The decisive value if `test` comes to it, the other if it never does, or its error if that
    comes before. -/
def settled (q : Quantifier) (test : Int32 → Except Error Bool) : List Int32 → Except Error Bool
  | [] => .ok (!q.decisive)
  | x :: xs => do
    let hit ← test x
    if hit = q.decisive then .ok q.decisive else settled q test xs

theorem mem_of_kept {test : Int32 → Except Error Bool} {xs ys : List Int32} (h : kept test xs = .ok ys) (x : Int32) :
    x ∈ ys ↔ x ∈ xs ∧ test x = .ok true := by
  induction xs generalizing ys with
  | nil =>
    cases h
    simp
  | cons y xs ih =>
    obtain ⟨hit, hhit, hrest⟩ := bind_eq_ok.mp h
    obtain ⟨rest, hkept, hys⟩ := bind_eq_ok.mp hrest
    cases hys
    have hx := ih hkept
    cases hit with
    | true =>
      rw [if_pos rfl, List.mem_cons, List.mem_cons, hx]
      constructor
      · intro h
        rcases h with rfl | ⟨hmem, ht⟩
        · exact ⟨.inl rfl, hhit⟩
        · exact ⟨.inr hmem, ht⟩
      · intro ⟨hmem, ht⟩
        rcases hmem with rfl | hmem
        · exact .inl rfl
        · exact .inr ⟨hmem, ht⟩
    | false =>
      rw [if_neg Bool.false_ne_true, hx, List.mem_cons]
      constructor
      · intro ⟨hmem, ht⟩
        exact ⟨.inr hmem, ht⟩
      · intro ⟨hmem, ht⟩
        rcases hmem with rfl | hmem
        · rw [hhit] at ht
          cases ht
        · exact ⟨hmem, ht⟩

/-- A filter tests every element, so it needs every test to come to a value. -/
theorem exists_kept_iff {test : Int32 → Except Error Bool} {xs : List Int32} :
    (∃ ys, kept test xs = .ok ys) ↔ ∀ x ∈ xs, ∃ t, test x = .ok t := by
  induction xs with
  | nil => simp [kept]
  | cons x xs ih =>
    rw [List.forall_mem_cons, ← ih]
    constructor
    · intro ⟨ys, h⟩
      obtain ⟨hit, hhit, hrest⟩ := bind_eq_ok.mp h
      obtain ⟨rest, hkept, -⟩ := bind_eq_ok.mp hrest
      exact ⟨⟨hit, hhit⟩, rest, hkept⟩
    · intro ⟨⟨hit, hhit⟩, rest, hkept⟩
      exact ⟨_, bind_eq_ok.mpr ⟨hit, hhit, bind_eq_ok.mpr ⟨rest, hkept, rfl⟩⟩⟩

/-- A loop that fails has failed in one of its tests. -/
theorem test_of_kept_error {test : Int32 → Except Error Bool} {xs : List Int32} {e : Error}
    (h : kept test xs = .error e) : ∃ x ∈ xs, test x = .error e := by
  induction xs with
  | nil => cases h
  | cons x xs ih =>
    rcases bind_eq_error.mp h with hx | ⟨hit, -, hrest⟩
    · exact ⟨x, List.mem_cons_self, hx⟩
    · rcases bind_eq_error.mp hrest with hxs | ⟨rest, -, hok⟩
      · obtain ⟨y, hy, hfail⟩ := ih hxs
        exact ⟨y, List.mem_cons_of_mem _ hy, hfail⟩
      · cases hok

/-- Whether a quantifier goes no further than an element for which its body comes to this. -/
def stopsAt (q : Quantifier) : Except Error Bool → Bool
  | .ok t => t == q.decisive
  | .error _ => true

theorem stopsAt_eq_false {q : Quantifier} {o : Except Error Bool} : stopsAt q o = false ↔ o = .ok (!q.decisive) := by
  cases o with
  | ok t => cases t <;> cases q <;> simp [stopsAt, Quantifier.decisive]
  | error e => simp [stopsAt]

theorem stopsAt_iff {q : Quantifier} {o : Except Error Bool} : stopsAt q o = true ↔ o ≠ .ok (!q.decisive) := by
  rw [Ne, ← stopsAt_eq_false, Bool.not_eq_false]

section

variable {q : Quantifier} {test : Int32 → Except Error Bool}

theorem settled_cons_of_stopsAt {x : Int32} (h : stopsAt q (test x) = true) (xs : List Int32) :
    settled q test (x :: xs) = test x := by
  rw [settled]
  cases hx : test x with
  | error e => rfl
  | ok t =>
    have ht : t = q.decisive := by simpa [hx, stopsAt] using h
    rw [ok_bind, if_pos ht, ht]

theorem settled_cons_of_not_stopsAt {x : Int32} (h : stopsAt q (test x) = false) (xs : List Int32) :
    settled q test (x :: xs) = settled q test xs := by
  have ht : (!q.decisive) ≠ q.decisive := by simp
  rw [settled, stopsAt_eq_false.mp h, ok_bind, if_neg ht]

/-- A quantifier over some elements comes to what its body comes to for the first that stops it, and
    where none does to the value that would not have stopped it. -/
theorem settled_eq_find? (xs : List Int32) :
    settled q test xs = ((xs.find? fun x => stopsAt q (test x)).map test).getD (.ok (!q.decisive)) := by
  induction xs with
  | nil => rfl
  | cons x xs ih =>
    rw [List.find?_cons]
    by_cases h : stopsAt q (test x) = true
    · rw [settled_cons_of_stopsAt h, h]
      rfl
    · have hfalse := eq_false_of_ne_true h
      rw [settled_cons_of_not_stopsAt hfalse, hfalse]
      exact ih

theorem test_of_settled_error {xs : List Int32} {e : Error} (h : settled q test xs = .error e) :
    ∃ x ∈ xs, test x = .error e := by
  rw [settled_eq_find?] at h
  cases hfind : xs.find? fun x => stopsAt q (test x) with
  | none =>
    rw [hfind] at h
    cases h
  | some x =>
    rw [hfind] at h
    exact ⟨x, List.mem_of_find?_eq_some hfind, h⟩

end

/-- Where every test comes to a value, stopping early does not show. -/
theorem settled_of_ok (q : Quantifier) {test : Int32 → Except Error Bool} {xs : List Int32}
    (h : ∀ x ∈ xs, ∃ t, test x = .ok t) :
    ∃ t, settled q test xs = .ok t ∧ (t = q.decisive ↔ ∃ x ∈ xs, test x = .ok q.decisive) := by
  rw [settled_eq_find?]
  cases hfind : xs.find? fun x => stopsAt q (test x) with
  | none =>
    refine ⟨!q.decisive, rfl, ?_, ?_⟩
    · intro ht
      exact absurd ht (by simp)
    · rintro ⟨x, hx, ht⟩
      have hgoes := List.find?_eq_none.mp hfind x hx
      rw [ht] at hgoes
      exact absurd (beq_self_eq_true q.decisive) hgoes
  | some x =>
    have hx := List.mem_of_find?_eq_some hfind
    obtain ⟨t, ht⟩ := h x hx
    have hstop := List.find?_some hfind
    rw [ht] at hstop
    have hdecisive : t = q.decisive := eq_of_beq hstop
    exact ⟨t, ht, fun _ => ⟨x, hx, hdecisive ▸ ht⟩, fun _ => hdecisive⟩

/-- However early a quantifier stops, it has tested the first element. -/
theorem test_head_of_settled {q : Quantifier} {test : Int32 → Except Error Bool} {x : Int32} {xs : List Int32} {t : Bool}
    (h : settled q test (x :: xs) = .ok t) : ∃ hit, test x = .ok hit := by
  obtain ⟨hit, hhit, -⟩ := bind_eq_ok.mp h
  exact ⟨hit, hhit⟩

variable (name : String) (test : Run Bool) [Steady test]

instance (xs : List Int32) : Steady (keep name test xs) := by
  induction xs with
  | nil => exact inferInstanceAs (Steady (pure []))
  | cons x xs ih =>
    unfold keep
    infer_instance

@[simp] theorem result_keep (xs : List Int32) (b : Bindings) :
    (keep name test xs).result b = kept (fun x => test.result (b.push name x)) xs := by
  induction xs with
  | nil => exact result_pure [] b
  | cons x xs ih =>
    simp only [keep, kept, ← ih, result_bind, result_withBinding, result_report, result_pure]
    rfl

instance (q : Quantifier) (xs : List Int32) : Steady (settle q name test xs) := by
  induction xs with
  | nil => exact inferInstanceAs (Steady (pure _))
  | cons x xs ih =>
    unfold settle
    infer_instance

@[simp] theorem result_settle (q : Quantifier) (xs : List Int32) (b : Bindings) :
    (settle q name test xs).result b = settled q (fun x => test.result (b.push name x)) xs := by
  induction xs with
  | nil => exact result_pure _ b
  | cons x xs ih =>
    simp only [settle, settled, result_bind, result_withBinding]
    refine congrArg _ (funext fun hit => ?_)
    split
    · simp only [result_bind, result_report, result_pure]
      rfl
    · exact ih

end Run

end GridQuery.Query
