/-
  GridQuery.Proofs.Check — what the check of a query is worth.

  The check lets a query through when the names and numbers that it asks for are all there
  (`Served`). It does not look at whether they will be needed, so it could refuse a query that
  evaluates. It does so only for a grid in which some kind has no elements: everywhere else an
  evaluation that comes to a value has been through every part of the expression at least once
  (`served_of_eval`), because both operands are always evaluated and a binder's body at least
  for its first element.
-/

import GridQuery.Proofs.Grid
import GridQuery.Proofs.Scope

namespace GridQuery

open Query Query.Run

/-! ## What a query asks for -/

/-- Every name that is free in `e` is bound, and every literal index of `e` has a place. -/
structure Served (g : Grid) (b : Bindings) {c : Category} (e : Expr c) : Prop where
  bound : ∀ n ∈ e.free, b.isBound n = true
  placed : ∀ i ∈ e.literalIndices, (g.position? i.1 i.2).isSome = true

theorem Query.check_eq_ok {g : Grid} {b : Bindings} {q : Query} : q.check g b = .ok () ↔ Served g b q.expr := by
  unfold check
  split
  · rename_i name hname
    constructor
    · intro h
      cases h
    · intro h
      have hunbound := List.find?_some hname
      rw [h.bound name (List.mem_of_find?_eq_some hname)] at hunbound
      cases hunbound
  · rename_i hnames
    split
    · rename_i axis i hi
      constructor
      · intro h
        cases h
      · intro h
        have hmissing := List.find?_some hi
        dsimp only at hmissing
        have hplace : (g.position? axis i).isSome = true := h.placed _ (List.mem_of_find?_eq_some hi)
        rw [Option.isNone_iff_eq_none.mp hmissing] at hplace
        cases hplace
    · rename_i hplaces
      refine ⟨fun _ => ⟨fun n hn => ?_, fun i hi => ?_⟩, fun _ => rfl⟩
      · simpa using List.find?_eq_none.mp hnames n hn
      · simpa [Option.isSome_iff_ne_none] using List.find?_eq_none.mp hplaces i hi

theorem Query.check_eq_error_iff {g : Grid} {b : Bindings} {q : Query} :
    (∃ x, q.check g b = .error x) ↔ ¬ Served g b q.expr := by
  rw [← check_eq_ok]
  cases q.check g b <;> simp

/-! ## Literal indices -/

namespace Expr

theorem literal?_eq_some {e : Expr .numeric} {n : Int32} : e.literal? = some n ↔ e = .literal n := by
  cases e <;> simp [literal?]

/-- An index that was found has a place if it is a literal. -/
theorem placed_of_position {g : Grid} {b : Bindings} {e : Expr .numeric} {a : Axis} {i : Int32}
    {p : Fin (g.extent a)} (h : (e.eval g).result b = .ok i) (hp : g.position a i = .ok p) :
    ∀ j ∈ indexAt a e, (g.position? j.1 j.2).isSome = true := by
  intro j hj
  obtain ⟨n, hn, rfl⟩ := Option.map_eq_some_iff.mp (Option.mem_toList.mp hj)
  rw [literal?_eq_some.mp hn, result_literal] at h
  cases h
  rw [Grid.isSome_position?]
  have hi := g.position_eq_ok.mp hp
  have hlt := p.isLt
  dsimp only
  omega

end Expr

/-! ## What evaluation reaches -/

namespace Served

variable {g : Grid} {b : Bindings}

theorem productTotal {p : Expr .numeric} (h : Served g b p)
    (hindex : ∀ i ∈ Expr.indexAt .product p, (g.position? i.1 i.2).isSome = true) : Served g b (.productTotal p) where
  bound := h.bound
  placed := List.forall_mem_append.mpr ⟨hindex, h.placed⟩

theorem dayTotal {d : Expr .numeric} (h : Served g b d)
    (hindex : ∀ i ∈ Expr.indexAt .day d, (g.position? i.1 i.2).isSome = true) : Served g b (.dayTotal d) where
  bound := h.bound
  placed := List.forall_mem_append.mpr ⟨hindex, h.placed⟩

theorem figure {p d : Expr .numeric} (hp : Served g b (.productTotal p)) (hd : Served g b (.dayTotal d)) :
    Served g b (.figure p d) where
  bound n hn := by
    rcases Expr.mem_free_figure.mp hn with hn | hn
    · exact hp.bound n hn
    · exact hd.bound n hn
  placed := List.forall_mem_append.mpr ⟨hp.placed, hd.placed⟩

theorem binary {a c : Category} {op : Operator a c} {l r : Expr a} (hl : Served g b l) (hr : Served g b r) :
    Served g b (.binary op l r) where
  bound n hn := by
    rcases Expr.mem_free_binary.mp hn with hn | hn
    · exact hl.bound n hn
    · exact hr.bound n hn
  placed := List.forall_mem_append.mpr ⟨hl.placed, hr.placed⟩

theorem isBound_of_push {x n : String} {m : Int32} (h : (b.push x m).isBound n = true) (hn : n ≠ x) :
    b.isBound n = true := by
  rwa [Bindings.isBound, Bindings.lookup_push, if_neg hn] at h

theorem comprehension {k : Kind} {x : String} {p : Expr .formula} {m : Int32} (h : Served g (b.push x m) p) :
    Served g b (.comprehension k x p) where
  bound n hn := by
    obtain ⟨hp, hx⟩ := Expr.mem_free_comprehension.mp hn
    exact isBound_of_push (h.bound n hp) hx
  placed := h.placed

theorem quantified {q : Quantifier} {k : Kind} {x : String} {f : Expr .formula} {m : Int32}
    (h : Served g (b.push x m) f) : Served g b (.quantified q x k f) where
  bound n hn := by
    obtain ⟨hf, hx⟩ := Expr.mem_free_quantified.mp hn
    exact isBound_of_push (h.bound n hf) hx
  placed := h.placed

end Served

theorem Grid.elements_ne_nil {g : Grid} (hp : 0 < g.products) (hd : 0 < g.days) (k : Kind) :
    (g.elements k).toList ≠ [] := by
  have hone : (1 : Int32).toInt = 1 := rfl
  cases k with
  | day => exact List.ne_nil_of_mem (g.mem_elements_day.mpr (by rw [hone]; omega))
  | product => exact List.ne_nil_of_mem (g.mem_elements_product.mpr (by rw [hone]; omega))
  | sale => exact List.ne_nil_of_mem (g.mem_elements_sale.mpr ⟨⟨0, hp⟩, ⟨0, hd⟩, rfl⟩)

/-- In a grid with products and days, what evaluates had all that it asks for. -/
theorem served_of_eval {g : Grid} (hp : 0 < g.products) (hd : 0 < g.days) {c : Category} (e : Expr c) {b : Bindings}
    {v : c.Carrier} (h : (e.eval g).result b = .ok v) : Served g b e := by
  induction e generalizing b with
  | literal n => exact ⟨nofun, nofun⟩
  | var name =>
    refine ⟨fun n hn => ?_, nofun⟩
    rw [Expr.mem_free_var.mp hn, Bindings.isBound]
    rw [Expr.result_var] at h
    unfold meant at h
    split at h
    · rename_i hname
      rw [hname]
      rfl
    · cases h
  | productTotal p ih =>
    rw [Expr.result_productTotal] at h
    obtain ⟨i, hi, hmap⟩ := bind_eq_ok.mp h
    obtain ⟨place, hplace, -⟩ := map_eq_ok.mp hmap
    exact (ih hi).productTotal (Expr.placed_of_position hi hplace)
  | dayTotal d ih =>
    rw [Expr.result_dayTotal] at h
    obtain ⟨i, hi, hmap⟩ := bind_eq_ok.mp h
    obtain ⟨place, hplace, -⟩ := map_eq_ok.mp hmap
    exact (ih hi).dayTotal (Expr.placed_of_position hi hplace)
  | total => exact ⟨nofun, nofun⟩
  | figure p d ihp ihd =>
    rw [Expr.result_figure] at h
    obtain ⟨i, hi, hrest⟩ := bind_eq_ok.mp h
    obtain ⟨j, hj, hplaces⟩ := bind_eq_ok.mp hrest
    obtain ⟨product, hproduct, hmap⟩ := bind_eq_ok.mp hplaces
    obtain ⟨day, hday, -⟩ := map_eq_ok.mp hmap
    exact .figure ((ihp hi).productTotal (Expr.placed_of_position hi hproduct))
      ((ihd hj).dayTotal (Expr.placed_of_position hj hday))
  | size s ih =>
    rw [Expr.result_size] at h
    obtain ⟨s, hs, -⟩ := map_eq_ok.mp h
    exact ⟨(ih hs).bound, (ih hs).placed⟩
  | elements k => exact ⟨nofun, nofun⟩
  | comprehension k x p ih =>
    rw [Expr.result_comprehension] at h
    obtain ⟨ys, hys, -⟩ := map_eq_ok.mp h
    obtain ⟨m, hm⟩ := List.exists_mem_of_ne_nil _ (Grid.elements_ne_nil hp hd k)
    obtain ⟨hit, hhit⟩ := exists_kept_iff.mp ⟨ys, hys⟩ m hm
    exact (ih hhit).comprehension
  | not f ih =>
    rw [Expr.result_not] at h
    obtain ⟨t, ht, -⟩ := map_eq_ok.mp h
    exact ⟨(ih ht).bound, (ih ht).placed⟩
  | quantified q x k f ih =>
    rw [Expr.result_quantified] at h
    -- The first element is the only one that is sure to be tested, and one is enough.
    obtain ⟨m, rest, hxs⟩ := List.exists_cons_of_ne_nil (Grid.elements_ne_nil hp hd k)
    rw [hxs] at h
    obtain ⟨hit, hhit⟩ := test_head_of_settled h
    exact (ih hhit).quantified
  | binary op l r ihl ihr =>
    rw [Expr.result_binary] at h
    obtain ⟨v, hv, hrest⟩ := bind_eq_ok.mp h
    obtain ⟨w, hw, -⟩ := bind_eq_ok.mp hrest
    exact (ihl hv).binary (ihr hw)

/-! ## Refused without need -/

theorem Grid.days_eq_zero {g : Grid} (h : g.products = 0) : g.days = 0 := by
  rw [days, List.length_eq_zero_iff.mp h]
  rfl

/-- Asks of every day something about a name that nothing binds. -/
def everyDay : Query := ⟨.formula, .quantified .forAll "d" .day (.binary .eq (.var "x") (.var "x"))⟩

theorem check_everyDay (g : Grid) : everyDay.check g [] = .error (.unbound "x") := rfl

theorem evaluate_everyDay {g : Grid} (h : g.days = 0) : (everyDay.evaluate g).result [] = .ok (.truth true) := by
  have hnil : (g.elements .day).toList = [] := by
    rw [Grid.elements, h]
    rfl
  rw [result_evaluate, everyDay, Expr.result_quantified, hnil]
  rfl

/-- The check refuses only what would fail, whatever the query and the bindings, for exactly the
    grids that have a product and a day. -/
theorem check_certain_iff (g : Grid) :
    (∀ (q : Query) (b : Bindings), (∃ x, q.check g b = .error x) → ∃ x, (q.evaluate g).result b = .error x) ↔
      0 < g.products ∧ 0 < g.days := by
  constructor
  · intro hcertain
    have hdays : 0 < g.days := by
      by_contra h
      obtain ⟨x, hx⟩ := hcertain everyDay [] ⟨_, check_everyDay g⟩
      rw [evaluate_everyDay (by omega)] at hx
      cases hx
    refine ⟨?_, hdays⟩
    by_contra h
    have := Grid.days_eq_zero (g := g) (by omega)
    omega
  · intro ⟨hp, hd⟩ q b hrefused
    rw [Query.check_eq_error_iff] at hrefused
    rw [result_evaluate]
    cases hresult : (q.expr.eval g).result b with
    | ok v => exact absurd (served_of_eval hp hd q.expr hresult) hrefused
    | error x => exact ⟨x, rfl⟩

end GridQuery
