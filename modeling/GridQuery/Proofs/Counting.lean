/-
  GridQuery.Proofs.Counting — how many elements two sets have together and apart.

  What is in both sets is counted twice when the sizes are added, and not at all in the rest of the one
  without the other (`size_union_add_size_intersection`, `size_difference_add_size_intersection`).
  In a query a size stops at the largest number. As long as the union does not reach beyond it, neither
  does any of the other sets, so all sizes are exact. Then it does no harm if the sum of two of
  them wraps: what is taken away again brings it back (`size32_union`).

  Taking a size never fails. So if an operand fails, the size of anything made of both operands fails
  as the operands do one after the other, and so does the sum of their sizes
  (`Expr.result_sizes_of_error`).
-/

import GridQuery.Proofs.Grid.Elements
import GridQuery.Proofs.Sets

namespace GridQuery

open Query Query.Run

/-! ## Sizes of sets -/

namespace Ascending

variable {s t : Ascending Int32}

theorem finite_mem (s : Ascending Int32) : {x | x ∈ s}.Finite := s.toList.finite_toSet

theorem size_le_of_subset (h : ∀ x ∈ s, x ∈ t) : s.size ≤ t.size := by
  rw [← ncard_eq_size, ← ncard_eq_size]
  exact Set.ncard_le_ncard h t.finite_mem

theorem size_union_add_size_intersection (s t : Ascending Int32) :
    (s.union t).size + (s.intersection t).size = s.size + t.size := by
  have hunion : {x | x ∈ s.union t} = {x | x ∈ s} ∪ {x | x ∈ t} := Set.ext fun x => mem_union
  have hboth : {x | x ∈ s.intersection t} = {x | x ∈ s} ∩ {x | x ∈ t} := Set.ext fun x => mem_intersection
  simp only [← ncard_eq_size, hunion, hboth]
  exact Set.ncard_union_add_ncard_inter _ _ s.finite_mem t.finite_mem

theorem size_difference_add_size_intersection (s t : Ascending Int32) :
    (s.difference t).size + (s.intersection t).size = s.size := by
  have hrest : {x | x ∈ s.difference t} = {x | x ∈ s} \ {x | x ∈ t} := Set.ext fun x => mem_difference
  have hboth : {x | x ∈ s.intersection t} = {x | x ∈ s} ∩ {x | x ∈ t} := Set.ext fun x => mem_intersection
  simp only [← ncard_eq_size, hrest, hboth]
  rw [Nat.add_comm]
  exact Set.ncard_inter_add_ncard_sdiff_eq_ncard _ _ s.finite_mem

/-- As far as 32 bits reach, a size is exact. -/
theorem size32_of_le (h : s.size ≤ 2147483647) : s.size32 = .ofInt s.size := by
  rw [size32, Nat.min_eq_left h, Int32.ofInt_eq_ofNat]

/-- A set that lies in another one is of exact size if the other one is. -/
theorem size32_of_subset (hsub : ∀ x ∈ s, x ∈ t) (h : t.size ≤ 2147483647) : s.size32 = .ofInt s.size :=
  size32_of_le (Nat.le_trans (size_le_of_subset hsub) h)

section

variable (h : (s.union t).size ≤ 2147483647)

include h

theorem size32_left : s.size32 = .ofInt s.size := size32_of_subset (fun _ hx => mem_union.mpr (.inl hx)) h

theorem size32_right : t.size32 = .ofInt t.size := size32_of_subset (fun _ hx => mem_union.mpr (.inr hx)) h

theorem size32_intersection : (s.intersection t).size32 = .ofInt (s.intersection t).size :=
  size32_of_subset (fun _ hx => mem_union.mpr (.inl (mem_intersection.mp hx).1)) h

theorem size32_union : (s.union t).size32 = s.size32 + t.size32 - (s.intersection t).size32 := by
  have hsum := size_union_add_size_intersection s t
  rw [size32_left h, size32_right h, size32_intersection h, size32_of_le h, ← Int32.ofInt_add, ← Int32.ofInt_sub]
  congr 1
  omega

theorem size32_difference : (s.difference t).size32 = s.size32 - (s.intersection t).size32 := by
  have hsum := size_difference_add_size_intersection s t
  have hrest : (s.difference t).size32 = .ofInt (s.difference t).size :=
    size32_of_subset (fun _ hx => mem_union.mpr (.inl (mem_difference.mp hx).1)) h
  rw [size32_left h, size32_intersection h, hrest, ← Int32.ofInt_sub]
  congr 1
  omega

end

end Ascending

/-! ## In a query -/

namespace Expr

variable {g : Grid} {b : Bindings} {l r : Expr .set}

/-- To take the sizes of two sets fails as it does to take the sets. -/
theorem result_sizes_of_error (op : Operator .numeric .numeric) {e : Error}
    (h : ((l.eval g).result b >>= fun _ => (r.eval g).result b) = .error e) :
    ((binary op (size l) (size r)).eval g).result b = .error e := by
  rcases bind_eq_error.mp h with hl | ⟨s, hl, hr⟩
  · exact result_binary_of_error op (bind_eq_error.mpr (.inl (result_size_of_error hl)))
  · exact result_binary_of_error op
      (bind_eq_error.mpr (.inr ⟨s.size32, result_size_of_ok hl, result_size_of_error hr⟩))

end Expr

/-- If two set expressions come to sets whose union has no more elements than 32 bits can count, the size of
    the union is the sum of their sizes less that of the intersection, and the size of the difference is
    the size of the first less that of the intersection. Both hold in the numbers of queries,
    whether the sum wraps or not. If one of the expressions fails, both sides of either
    equation fail, with the error of the two expressions evaluated one after the other. -/
theorem sizes_add_up (g : Grid) (b : Bindings) (l r : Expr .set) :
    let value {c : Category} (e : Expr c) := (e.eval g).result b
    let union : Expr .numeric := .size (.binary .union l r)
    let both : Expr .numeric := .size (.binary .intersection l r)
    let rest : Expr .numeric := .size (.binary .difference l r)
    let parts : Expr .numeric := .binary .sub (.binary .add (.size l) (.size r)) both
    let less : Expr .numeric := .binary .sub (.size l) both
    (∀ s t, value l = .ok s → value r = .ok t → (s.union t).size ≤ 2147483647 →
        value (.binary .eq union parts) = .ok true ∧ value (.binary .eq rest less) = .ok true) ∧
      ∀ e, (value l >>= fun _ => value r) = .error e →
        value union = .error e ∧ value parts = .error e ∧ value rest = .error e ∧ value less = .error e := by
  intro value union both rest parts less
  refine ⟨?_, ?_⟩
  · intro s t hl hr h
    have hsize {op : Operator .set .set} {u : Ascending Int32} (hu : op.apply s t = .ok u) :
        value (.size (.binary op l r)) = .ok u.size32 :=
      Expr.result_size_of_ok ((Expr.result_binary_of_ok hl hr).trans hu)
    have hunion : value union = .ok (s.union t).size32 := hsize rfl
    have hboth : value both = .ok (s.intersection t).size32 := hsize rfl
    have hrest : value rest = .ok (s.difference t).size32 := hsize rfl
    have hleft : value (.size l) = .ok s.size32 := Expr.result_size_of_ok hl
    have hsum : value (.binary .add (.size l) (.size r)) = .ok (s.size32 + t.size32) :=
      Expr.result_binary_of_ok hleft (Expr.result_size_of_ok hr)
    have hparts : value parts = .ok (s.size32 + t.size32 - (s.intersection t).size32) :=
      Expr.result_binary_of_ok hsum hboth
    have hless : value less = .ok (s.size32 - (s.intersection t).size32) := Expr.result_binary_of_ok hleft hboth
    rw [← Ascending.size32_union h] at hparts
    rw [← Ascending.size32_difference h] at hless
    have heq (n : Int32) : Operator.eq.apply n n = .ok true := congrArg Except.ok (decide_eq_true rfl)
    exact ⟨(Expr.result_binary_of_ok hunion hparts).trans (heq _), (Expr.result_binary_of_ok hrest hless).trans (heq _)⟩
  · intro e h
    have hsize (op : Operator .set .set) : value (.size (.binary op l r)) = .error e :=
      Expr.result_size_of_error (Expr.result_binary_of_error op h)
    have hsum : value (.binary .add (.size l) (.size r)) = .error e := Expr.result_sizes_of_error .add h
    have hparts : value parts = .error e := Expr.result_binary_of_error .sub (bind_eq_error.mpr (.inl hsum))
    have hless : value less = .error e := by
      refine Expr.result_binary_of_error .sub (bind_eq_error.mpr ?_)
      rcases bind_eq_error.mp h with hl | ⟨s, hl, -⟩
      · exact .inl (Expr.result_size_of_error hl)
      · exact .inr ⟨s.size32, Expr.result_size_of_ok hl, hsize .intersection⟩
    exact ⟨hsize .union, hparts, hsize .difference, hless⟩

-- There are so many products that twice their number wraps. In the other grid the first set fails for
-- a name and the second one for a division.
theorem sizes_add_up_wrapping :
    let many := Grid.dayless 1073741825
    let g : Grid := ⟨[[5]], by decide⟩
    let p : Expr .set := .elements .product
    let unbound : Expr .set := .comprehension .day "d" (.binary .eq (.var "x") (.literal 1))
    let divided : Expr .set := .comprehension .day "d" (.binary .eq (.binary .div (.var "d") (.literal 0)) (.literal 1))
    let parts (l r : Expr .set) : Expr .numeric :=
      .binary .sub (.binary .add (.size l) (.size r)) (.size (.binary .intersection l r))
    ((Expr.binary .add (.size p) (.size p)).eval many).result [] = .ok (-2147483646) ∧
      ((Expr.binary .eq (.size (.binary .union p p)) (parts p p)).eval many).result [] = .ok true ∧
      ((Expr.size (.binary .union p divided)).eval g).result [] = .error .divisionByZero ∧
      ((parts p divided).eval g).result [] = .error .divisionByZero ∧
      ((parts unbound divided).eval g).result [] = .error (.unbound "x") := by
  intro many g p unbound divided parts
  have hp : (p.eval many).result [] = .ok (many.elements .product) := Expr.result_elements _ _
  have hcount : (many.elements .product).size = 1073741825 := by
    have hproducts : many.products = 1073741825 := Grid.products_dayless _
    rw [Grid.elements, hproducts, Grid.size_upTo (by decide)]
  have hself : (many.elements .product).union (many.elements .product) = many.elements .product :=
    Ascending.ext fun x => by simp
  have hsize32 : (many.elements .product).size32 = 1073741825 := by
    rw [Ascending.size32, hcount]
    rfl
  have hsum : ((Expr.binary .add (.size p) (.size p)).eval many).result [] = .ok (-2147483646) := by
    rw [Expr.result_binary_of_ok (Expr.result_size_of_ok hp) (Expr.result_size_of_ok hp), hsize32]
    rfl
  obtain ⟨hequal, -⟩ := sizes_add_up many [] p p
  obtain ⟨-, hfirst⟩ := sizes_add_up g [] p divided
  obtain ⟨-, hsecond⟩ := sizes_add_up g [] unbound divided
  obtain ⟨hunion, hparts, -⟩ := hfirst .divisionByZero rfl
  obtain ⟨-, hparts', -⟩ := hsecond (.unbound "x") rfl
  refine ⟨hsum, (hequal _ _ hp hp ?_).1, hunion, hparts, hparts'⟩
  rw [hself, hcount]
  decide

end GridQuery
