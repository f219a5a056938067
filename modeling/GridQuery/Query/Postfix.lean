/-
  GridQuery.Query.Postfix — building a query from steps, operands first.

  A step takes its operands from a stack of queries, the right one from the top, and puts what
  it builds there. A step whose operands are not there, or are of another category, builds
  nothing.
-/

import GridQuery.Query

namespace GridQuery.Query

inductive Step where
  | literal (n : Int32)
  | var (name : String)
  | productTotal
  | dayTotal
  | total
  | figure
  | size
  | elements (kind : Kind)
  | comprehension (source : Kind) (name : String)
  | not
  | quantified (q : Quantifier) (name : String) (source : Kind)
  | binary {a b : Category} (op : Operator a b)
  | repeated (times : Nat) (steps : List Step)

/-- The last query built comes first. -/
abbrev Stack := List Query

def Stack.pop? (c : Category) : Stack → Option (Expr c × Stack)
  | [] => none
  | q :: qs => if h : q.category = c then some (h ▸ q.expr, qs) else none

/-- `f` done `n` times, as long as it succeeds. -/
def iterate? {α : Type} (f : α → Option α) : Nat → α → Option α
  | 0, a => some a
  | n + 1, a => (f a).bind (iterate? f n)

mutual

def Step.run : Step → Stack → Option Stack
  | .literal n, qs => some (⟨_, .literal n⟩ :: qs)
  | .var name, qs => some (⟨_, .var name⟩ :: qs)
  | .productTotal, qs => do
    let (p, qs) ← qs.pop? .numeric
    some (⟨_, .productTotal p⟩ :: qs)
  | .dayTotal, qs => do
    let (d, qs) ← qs.pop? .numeric
    some (⟨_, .dayTotal d⟩ :: qs)
  | .total, qs => some (⟨_, .total⟩ :: qs)
  | .figure, qs => do
    let (d, qs) ← qs.pop? .numeric
    let (p, qs) ← qs.pop? .numeric
    some (⟨_, .figure p d⟩ :: qs)
  | .size, qs => do
    let (s, qs) ← qs.pop? .set
    some (⟨_, .size s⟩ :: qs)
  | .elements k, qs => some (⟨_, .elements k⟩ :: qs)
  | .comprehension k x, qs => do
    let (p, qs) ← qs.pop? .formula
    some (⟨_, .comprehension k x p⟩ :: qs)
  | .not, qs => do
    let (f, qs) ← qs.pop? .formula
    some (⟨_, .not f⟩ :: qs)
  | .quantified q x k, qs => do
    let (f, qs) ← qs.pop? .formula
    some (⟨_, .quantified q x k f⟩ :: qs)
  | .binary (a := a) op, qs => do
    let (r, qs) ← qs.pop? a
    let (l, qs) ← qs.pop? a
    some (⟨_, .binary op l r⟩ :: qs)
  | .repeated n steps, qs => iterate? (runSteps steps) n qs

def runSteps : List Step → Stack → Option Stack
  | [], qs => some qs
  | s :: ss, qs => (s.run qs).bind (runSteps ss)

end

def build? (steps : List Step) : Option Query := (runSteps steps []).bind List.head?

end GridQuery.Query
