/-
  GridQuery.Proofs.Node — the nodes of an expression, each with its scope.

  A node is a part of an expression, the whole included. Its scope says which names the binders
  around it bind and over which kinds they range, the innermost first.

  What is asked of an expression as a whole is asked of its nodes: a name is free if it stands at a
  node whose scope does not bind it (`mem_free_iff`), and the literal indices are those that
  some node has as an index (`mem_literalIndices`).
-/

import GridQuery.Query.Scope

namespace GridQuery

/-- Names that are bound, with the kinds they range over, the innermost first. -/
abbrev Scope := List (String × Kind)

namespace Scope

def names (s : Scope) : List String := s.map Prod.fst

@[simp] theorem names_cons (x : String) (k : Kind) (s : Scope) : names ((x, k) :: s) = x :: names s := rfl

end Scope

structure Node where
  scope : Scope
  category : Category
  expr : Expr category

namespace Expr

/-- The nodes of an expression that stands in the scope `s`, the expression itself first. -/
def nodes (s : Scope) : {c : Category} → Expr c → List Node
  | _, .literal n => [⟨s, _, .literal n⟩]
  | _, .var x => [⟨s, _, .var x⟩]
  | _, .productTotal p => ⟨s, _, .productTotal p⟩ :: p.nodes s
  | _, .dayTotal d => ⟨s, _, .dayTotal d⟩ :: d.nodes s
  | _, .total => [⟨s, _, .total⟩]
  | _, .figure p d => ⟨s, _, .figure p d⟩ :: (p.nodes s ++ d.nodes s)
  | _, .size t => ⟨s, _, .size t⟩ :: t.nodes s
  | _, .elements k => [⟨s, _, .elements k⟩]
  | _, .comprehension k x p => ⟨s, _, .comprehension k x p⟩ :: p.nodes ((x, k) :: s)
  | _, .not f => ⟨s, _, .not f⟩ :: f.nodes s
  | _, .quantified q x k f => ⟨s, _, .quantified q x k f⟩ :: f.nodes ((x, k) :: s)
  | _, .binary op l r => ⟨s, _, .binary op l r⟩ :: (l.nodes s ++ r.nodes s)

/-- The products and days that a node asks for itself. -/
def indices : {c : Category} → Expr c → List (Axis × Expr .numeric)
  | _, .productTotal p => [(.product, p)]
  | _, .dayTotal d => [(.day, d)]
  | _, .figure p d => [(.product, p), (.day, d)]
  | _, _ => []

def isDivision : {c : Category} → Expr c → Bool
  | _, .binary .div _ _ => true
  | _, _ => false

theorem mem_namesOutside_iff {c : Category} (e : Expr c) (s : Scope) (n : String) :
    n ∈ e.namesOutside s.names ↔ ∃ t, ⟨t, .numeric, .var n⟩ ∈ e.nodes s ∧ ¬ n ∈ t.names := by
  induction e generalizing s with
  | literal m => simp [namesOutside, nodes]
  | var x =>
    have hself : n ∈ (var x).namesOutside s.names ↔ n = x ∧ ¬ n ∈ s.names := by
      unfold namesOutside
      split
      · rename_i hx
        constructor
        · intro h
          cases h
        · intro ⟨hn, hout⟩
          exact absurd (hn ▸ hx) hout
      · rename_i hx
        rw [List.mem_singleton, iff_self_and]
        intro hn
        exact hn ▸ hx
    simp [nodes, and_assoc, hself]
  | productTotal p ih => simpa [namesOutside, nodes] using ih s
  | dayTotal d ih => simpa [namesOutside, nodes] using ih s
  | total => simp [namesOutside, nodes]
  | figure p d ihp ihd => simp [namesOutside, nodes, ihp, ihd, or_and_right, exists_or]
  | size t ih => simpa [namesOutside, nodes] using ih s
  | elements k => simp [namesOutside, nodes]
  | comprehension k x p ih => simpa [namesOutside, nodes] using ih ((x, k) :: s)
  | not f ih => simpa [namesOutside, nodes] using ih s
  | quantified q x k f ih => simpa [namesOutside, nodes] using ih ((x, k) :: s)
  | binary op l r ihl ihr =>
    have hself (t : Scope) : ¬ (⟨t, .numeric, .var n⟩ : Node) = ⟨s, _, .binary op l r⟩ := nofun
    simp only [namesOutside, nodes, List.mem_append, List.mem_cons, hself, false_or, ihl s, ihr s, or_and_right,
      exists_or]

/-- A name is free if it stands somewhere without a binder around it that binds it. -/
theorem mem_free_iff {c : Category} {e : Expr c} {n : String} :
    n ∈ e.free ↔ ∃ s, ⟨s, .numeric, .var n⟩ ∈ e.nodes [] ∧ ¬ n ∈ s.names :=
  Ascending.mem_ofList.trans (e.mem_namesOutside_iff [] n)

theorem mem_indexAt {a a' : Axis} {i : Expr .numeric} {n : Int32} :
    (a, n) ∈ indexAt a' i ↔ (a, literal n) = (a', i) := by
  cases i <;> simp [indexAt, literal?]

theorem mem_literalIndices {c : Category} (e : Expr c) (s : Scope) (a : Axis) (n : Int32) :
    (a, n) ∈ e.literalIndices ↔ ∃ node ∈ e.nodes s, (a, .literal n) ∈ node.expr.indices := by
  induction e generalizing s with
  | literal m => simp [literalIndices, nodes, indices]
  | var x => simp [literalIndices, nodes, indices]
  | productTotal p ih => simp [literalIndices, nodes, indices, mem_indexAt, ih s]
  | dayTotal d ih => simp [literalIndices, nodes, indices, mem_indexAt, ih s]
  | total => simp [literalIndices, nodes, indices]
  | figure p d ihp ihd =>
    simp [literalIndices, nodes, indices, mem_indexAt, ihp s, ihd s, or_and_right, exists_or, or_assoc, or_left_comm]
  | size t ih => simp [literalIndices, nodes, indices, ih s]
  | elements k => simp [literalIndices, nodes, indices]
  | comprehension k x p ih => simp [literalIndices, nodes, indices, ih ((x, k) :: s)]
  | not f ih => simp [literalIndices, nodes, indices, ih s]
  | quantified q x k f ih => simp [literalIndices, nodes, indices, ih ((x, k) :: s)]
  | binary op l r ihl ihr => simp [literalIndices, nodes, indices, ihl s, ihr s, or_and_right, exists_or]

end Expr

end GridQuery
