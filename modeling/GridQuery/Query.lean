/-
  GridQuery.Query — queries: an expression of any category.

  Expressions are typed by their category, so a tree that exists is well formed: a total takes a
  number, a quantifier a formula. `comprehension` and `quantified` bind a name in their last part.

  The readable form (`text`) puts every operator application in parentheses.
-/

import GridQuery.Query.Operator

namespace GridQuery

inductive Expr : Category → Type where
  | literal (n : Int32) : Expr .numeric
  | var (name : String) : Expr .numeric
  /-- What a product sold on all days. -/
  | productTotal (product : Expr .numeric) : Expr .numeric
  /-- What all products sold on a day. -/
  | dayTotal (day : Expr .numeric) : Expr .numeric
  | total : Expr .numeric
  /-- What a product sold on a day. -/
  | figure (product day : Expr .numeric) : Expr .numeric
  | size (s : Expr .set) : Expr .numeric
  | elements (kind : Kind) : Expr .set
  /-- The elements of `source` for which `predicate` is true. -/
  | comprehension (source : Kind) (name : String) (predicate : Expr .formula) : Expr .set
  | not (f : Expr .formula) : Expr .formula
  | quantified (q : Quantifier) (name : String) (source : Kind) (body : Expr .formula) : Expr .formula
  | binary {a b : Category} (op : Operator a b) (left right : Expr a) : Expr b
  deriving DecidableEq, Repr

structure Query where
  category : Category
  expr : Expr category
  deriving DecidableEq, Repr

def Expr.text : {c : Category} → Expr c → String
  | _, .literal n => Numeral.writeWord n
  | _, .var name => name
  | _, .productTotal p => "sales_of_product(" ++ p.text ++ ")"
  | _, .dayTotal d => "sales_on_day(" ++ d.text ++ ")"
  | _, .total => "sales_total"
  | _, .figure p d => "sales_at(" ++ p.text ++ ", " ++ d.text ++ ")"
  | _, .size s => "size(" ++ s.text ++ ")"
  | _, .elements k => k.text
  | _, .comprehension k x p => "\x7b" ++ x ++ " in " ++ k.text ++ " | " ++ p.text ++ "\x7d"
  | _, .not f => "not " ++ f.text
  | _, .quantified q x k f => q.text ++ " " ++ x ++ " in " ++ k.text ++ " . " ++ f.text
  | _, .binary op l r => "(" ++ l.text ++ " " ++ op.symbol ++ " " ++ r.text ++ ")"

def Query.text (q : Query) : String := q.expr.text

end GridQuery
