/-
  GridQuery.Proofs.Session — what steps leave of the bindings that were there before them.

  A body may take bindings off that are not its own, and put others in their place: then the
  cut at its end comes back to a depth and not to the bindings that stood there. What is safe
  is what the stack never went below. `stacks` lists the stacks that steps go through, nested
  ones included, and `lowest` is the least of their depths; so many of the oldest bindings are at
  the end what they were at the start (`runSteps_keeps`). A body that never goes below the
  depth it was started at is therefore undone by the cut.
-/

import GridQuery.Proofs.Evaluation
import GridQuery.Session

namespace GridQuery.Session

variable (g : Grid)

/-! ## The stacks on the way -/

mutual

/-- The stacks that a step goes through, after the one that it starts from. An evaluation counts as
    one, for it only puts bindings on top and takes them off again. -/
def Step.stacks (b : Bindings) : Step → List Bindings
  | .within name value steps =>
    b.push name value :: (stepStacks (b.push name value) steps ++ [((Step.within name value steps).run g b).2])
  | s => [(s.run g b).2]

def stepStacks (b : Bindings) : List Step → List Bindings
  | [] => []
  | s :: ss => s.stacks b ++ stepStacks (s.run g b).2 ss

end

/-- The depth that the stack never goes below, from the start of some steps to their end. -/
def lowest (b : Bindings) (steps : List Step) : Nat := ((stepStacks g b steps).map List.length).foldr min b.length

theorem foldr_min_le (n : Nat) (ns : List Nat) : ns.foldr min n ≤ n ∧ ∀ k ∈ ns, ns.foldr min n ≤ k := by
  induction ns with
  | nil => simp
  | cons k ns ih =>
    rw [List.foldr_cons]
    refine ⟨by omega, fun j hj => ?_⟩
    rcases List.mem_cons.mp hj with rfl | hj
    · exact Nat.min_le_left _ _
    · have := ih.2 j hj
      omega

theorem lowest_le (b : Bindings) (steps : List Step) : lowest g b steps ≤ b.length := (foldr_min_le _ _).1

theorem lowest_le_of_mem {b t : Bindings} {steps : List Step} (h : t ∈ stepStacks g b steps) :
    lowest g b steps ≤ t.length :=
  (foldr_min_le _ _).2 _ (List.mem_map_of_mem h)

/-! ## What is below them stays -/

/-- The last stack of a step is the one that it leaves. -/
theorem Step.run_mem_stacks (s : Step) (b : Bindings) : (s.run g b).2 ∈ s.stacks g b := by
  cases s with
  | within name value steps => exact List.mem_cons_of_mem _ (List.mem_append_right _ (List.mem_singleton.mpr rfl))
  | _ => exact List.mem_singleton.mpr rfl

theorem evalExpr_bindings {c : Category} (e : Expr c) (b : Bindings) : (evalExpr g e b).2 = b :=
  Query.Run.outcome_bindings (e.eval g) b

mutual

theorem Step.run_keeps {m : Nat} : (s : Step) → (b : Bindings) → m ≤ b.length → (∀ t ∈ s.stacks g b, m ≤ t.length) →
    Bindings.cutTo m (s.run g b).2 = Bindings.cutTo m b
  | .push name value, b, hb, _ => Bindings.cutTo_of_suffix (List.suffix_cons (name, value) b) hb
  | .pop, b, _, h => by
    have htail : m ≤ b.tail.length := h b.tail (List.mem_singleton.mpr rfl)
    exact (Bindings.cutTo_of_suffix b.tail_suffix htail).symm
  | .clear, b, _, h => by
    have hzero : m ≤ 0 := h [] (List.mem_singleton.mpr rfl)
    exact (Bindings.cutTo_of_suffix b.nil_suffix hzero).symm
  | .within name value steps, b, hb, h => by
    obtain ⟨-, hsteps⟩ := List.forall_mem_cons.mp h
    have hinner := runSteps_keeps steps (b.push name value) (Nat.le_succ_of_le hb)
      fun t ht => hsteps t (List.mem_append_left _ ht)
    have hpush : Bindings.cutTo m (b.push name value) = Bindings.cutTo m b :=
      Bindings.cutTo_of_suffix (List.suffix_cons (name, value) b) hb
    -- The cut is at the depth of `b`, which is no lower than `m`.
    show Bindings.cutTo m (Bindings.cutTo b.length (runSteps g (b.push name value) steps).2) = _
    rw [Bindings.cutTo_cutTo hb, hinner, hpush]
  | .lookup _, _, _, _ => rfl
  | .isBound _, _, _, _ => rfl
  | .isEmpty, _, _, _ => rfl
  | .length, _, _, _ => rfl
  | .evaluate text, b, _, _ => by
    rw [Step.run]
    split
    · rename_i q _
      exact congrArg _ (Query.Run.outcome_bindings (q.evaluate g) b)
    · rfl
  | .eval c text, b, _, _ => by
    rw [Step.run]
    split
    · rw [evalExpr_bindings]
    · rfl
  | .size text, b, _, _ => by
    rw [Step.run]
    split
    · rw [evalExpr_bindings]
    · rfl
  | .check text, b, _, _ => by
    rw [Step.run]
    split <;> rfl
  | .elements _, _, _, _ => rfl

theorem runSteps_keeps {m : Nat} : (ss : List Step) → (b : Bindings) → m ≤ b.length →
    (∀ t ∈ stepStacks g b ss, m ≤ t.length) → Bindings.cutTo m (runSteps g b ss).2 = Bindings.cutTo m b
  | [], _, _, _ => rfl
  | s :: ss, b, hb, h => by
    obtain ⟨hs, hss⟩ := List.forall_mem_append.mp h
    have hmid : m ≤ (s.run g b).2.length := hs _ (s.run_mem_stacks g b)
    show Bindings.cutTo m (runSteps g (s.run g b).2 ss).2 = _
    rw [runSteps_keeps ss (s.run g b).2 hmid hss, s.run_keeps b hb hs]

end

/-- Cutting back undoes steps that never went below the depth of the cut. -/
theorem cutTo_runSteps {b : Bindings} {name : String} {value : Int32} {steps : List Step}
    (h : b.length ≤ lowest g (b.push name value) steps) :
    Bindings.cutTo b.length (runSteps g (b.push name value) steps).2 = b := by
  rw [runSteps_keeps g steps (b.push name value) (Nat.le_succ _)
    fun t ht => Nat.le_trans h (lowest_le_of_mem g ht)]
  exact Bindings.cutTo_append [(name, value)] b

/-- After any steps, as many of the oldest bindings as there were at every moment are what they were
    at the start. A body with a binding of its own leaves as many bindings as it found or as it
    left itself, whichever is less; and if it never went below the depth that it found, it
    leaves exactly the bindings that it found, whatever it put on top of them and whether it
    ended in a value or an error. -/
theorem steps_keep_oldest (b : Bindings) :
    (∀ steps : List Step,
      (runSteps g b steps).2.oldestFirst.take (lowest g b steps) = b.oldestFirst.take (lowest g b steps)) ∧
    (∀ (name : String) (value : Int32) (steps : List Step),
      ((Step.within name value steps).run g b).2.length =
          min b.length (runSteps g (b.push name value) steps).2.length ∧
        (b.length ≤ lowest g (b.push name value) steps → ((Step.within name value steps).run g b).2 = b)) ∧
    ∀ {α : Type} (name : String) (value : Int32) (body : Query.Run α),
      let inner := body.outcome (b.push name value)
      let outer := (Query.Run.withBinding name value body).outcome b
      outer.result = inner.result ∧ outer.bindings.length = min b.length inner.bindings.length ∧
        ∀ steps : List Step, inner.bindings = (runSteps g (b.push name value) steps).2 →
          b.length ≤ lowest g (b.push name value) steps → outer.bindings = b := by
  refine ⟨fun steps => ?_, fun name value steps => ⟨?_, fun h => ?_⟩, fun name value body => ⟨?_, ?_, ?_⟩⟩
  · rw [← Bindings.oldestFirst_cutTo, ← Bindings.oldestFirst_cutTo,
      runSteps_keeps g steps b (lowest_le g b steps) fun t ht => lowest_le_of_mem g ht]
  · exact Bindings.length_cutTo _ _
  · exact cutTo_runSteps g h
  · rw [Query.Run.outcome_withBinding]
  · rw [Query.Run.outcome_withBinding]
    exact Bindings.length_cutTo _ _
  · intro steps hleft h
    rw [Query.Run.outcome_withBinding]
    show Bindings.cutTo b.length (body.outcome (b.push name value)).bindings = b
    rw [hleft]
    exact cutTo_runSteps g h

-- The body fails with a binding on top of its own.
theorem steps_keep_oldest_failed :
    let g : Grid := ⟨[], nofun⟩
    let b : Bindings := [("y", 2), ("x", 1)]
    let steps : List Step := [.push "y" 3, .pop, .push "z" 4]
    let body : Query.Run Unit := fun s => .error .divisionByZero { s with bindings := s.bindings.push "z" 4 }
    b.length ≤ lowest g (b.push "v" 5) steps ∧
      (body.outcome (b.push "v" 5)).bindings = (runSteps g (b.push "v" 5) steps).2 ∧
      ((Step.within "v" 5 steps).run g b).2 = b ∧
      ((Query.Run.withBinding "v" 5 body).outcome b).bindings = b := by
  intro g b steps body
  have hdepth : b.length ≤ lowest g (b.push "v" 5) steps := by decide
  have hleft : (body.outcome (b.push "v" 5)).bindings = (runSteps g (b.push "v" 5) steps).2 := rfl
  obtain ⟨-, hwithin, hbody⟩ := steps_keep_oldest g b
  exact ⟨hdepth, hleft, (hwithin "v" 5 steps).2 hdepth, (hbody "v" 5 body).2.2 steps hleft hdepth⟩

-- A body that goes below its start and comes back to the same depth is not undone.
example : (runSteps ⟨[], nofun⟩ [("x", 1)] [.within "v" 5 [.pop, .pop, .push "u" 6]]).2 = [("u", 6)] := by decide

end GridQuery.Session
