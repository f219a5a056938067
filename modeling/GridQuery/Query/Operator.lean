/-
  GridQuery.Query.Operator — the three categories of expression, the operators between them, and why
  a query has no value.

  A numeric expression has a 32-bit number as its value, a set expression a set of them and a
  formula a truth value. `Operator a b` takes two values of category `a` to one of category `b`,
  so the five families of operator are five pairs of categories. Arithmetic wraps around;
  division drops the fraction and fails for a divisor of zero, and is the one operator that can
  fail.

  An operator has a symbol in the readable form of a query and a tag in its JSON form.
-/

import GridQuery.Grid

namespace GridQuery

inductive Query.Error where
  | unbound (name : String)
  | divisionByZero
  /-- `index` is no number of a product or day of a grid with `extent` of them. -/
  | outOfRange (axis : Axis) (index : Int32) (extent : Nat)
  deriving DecidableEq, Repr

def Query.Error.message : Query.Error → String
  | .unbound name => "Unbound variable: " ++ name
  | .divisionByZero => "Division by zero"
  | .outOfRange axis index extent =>
    axis.text ++ " index " ++ Numeral.writeWord index ++ " out of range (valid range is 1..=" ++
      Numeral.writeNat extent ++ ")"

inductive Category where
  | numeric
  | set
  | formula
  deriving DecidableEq, Repr

/-- What expressions of a category evaluate to. -/
@[reducible] def Category.Carrier : Category → Type
  | .numeric => Int32
  | .set => Ascending Int32
  | .formula => Bool

def Category.text : Category → String
  | .numeric => "numeric"
  | .set => "set"
  | .formula => "formula"

inductive Operator : Category → Category → Type where
  | add : Operator .numeric .numeric
  | sub : Operator .numeric .numeric
  | mul : Operator .numeric .numeric
  | div : Operator .numeric .numeric
  | union : Operator .set .set
  | difference : Operator .set .set
  | intersection : Operator .set .set
  | eq : Operator .numeric .formula
  | ne : Operator .numeric .formula
  | lt : Operator .numeric .formula
  | le : Operator .numeric .formula
  | gt : Operator .numeric .formula
  | ge : Operator .numeric .formula
  | sameSet : Operator .set .formula
  | and : Operator .formula .formula
  | or : Operator .formula .formula
  | implies : Operator .formula .formula
  | equiv : Operator .formula .formula
  deriving DecidableEq, Repr

namespace Operator

variable {a b : Category}

def apply : {a b : Category} → Operator a b → a.Carrier → a.Carrier → Except Query.Error b.Carrier
  | _, _, .add, l, r => .ok (l + r)
  | _, _, .sub, l, r => .ok (l - r)
  | _, _, .mul, l, r => .ok (l * r)
  | _, _, .div, l, r => if r = 0 then .error .divisionByZero else .ok (l / r)
  | _, _, .union, l, r => .ok (l.union r)
  | _, _, .difference, l, r => .ok (l.difference r)
  | _, _, .intersection, l, r => .ok (l.intersection r)
  | _, _, .eq, l, r => .ok (l = r)
  | _, _, .ne, l, r => .ok (l ≠ r)
  | _, _, .lt, l, r => .ok (l < r)
  | _, _, .le, l, r => .ok (l ≤ r)
  | _, _, .gt, l, r => .ok (r < l)
  | _, _, .ge, l, r => .ok (r ≤ l)
  | _, _, .sameSet, l, r => .ok (l = r)
  | _, _, .and, l, r => .ok (l && r)
  | _, _, .or, l, r => .ok (l || r)
  | _, _, .implies, l, r => .ok (!l || r)
  | _, _, .equiv, l, r => .ok (l == r)

def symbol : Operator a b → String
  | .add => "+"
  | .sub => "-"
  | .mul => "*"
  | .div => "/"
  | .union => "union"
  | .difference => "minus"
  | .intersection => "inter"
  | .eq => "="
  | .ne => "!="
  | .lt => "<"
  | .le => "<="
  | .gt => ">"
  | .ge => ">="
  | .sameSet => "="
  | .and => "and"
  | .or => "or"
  | .implies => "=>"
  | .equiv => "<=>"

def tag : Operator a b → String
  | .add => "ADD"
  | .sub => "SUB"
  | .mul => "MUL"
  | .div => "DIV"
  | .union => "UNION"
  | .difference => "DIFFERENCE"
  | .intersection => "INTERSECTION"
  | .eq => "EQ"
  | .ne => "NEQ"
  | .lt => "LT"
  | .le => "LTE"
  | .gt => "GT"
  | .ge => "GTE"
  | .sameSet => "EQ"
  | .and => "AND"
  | .or => "OR"
  | .implies => "IMPLIES"
  | .equiv => "EQUIV"

/-- The operators of a family. -/
def all : (a b : Category) → List (Operator a b)
  | .numeric, .numeric => [.add, .sub, .mul, .div]
  | .set, .set => [.union, .difference, .intersection]
  | .numeric, .formula => [.eq, .ne, .lt, .le, .gt, .ge]
  | .set, .formula => [.sameSet]
  | .formula, .formula => [.and, .or, .implies, .equiv]
  | _, _ => []

def ofTag? (tag : String) : Option (Operator a b) := (all a b).find? (·.tag == tag)

theorem ofTag?_tag (op : Operator a b) : ofTag? op.tag = some op := by cases op <;> decide

end Operator

/-! ## Quantifiers -/

inductive Quantifier where
  | forSome
  | forAll
  deriving DecidableEq, Repr

namespace Quantifier

/-- The truth value of one instance that settles the whole formula. -/
def decisive : Quantifier → Bool
  | .forSome => true
  | .forAll => false

def text : Quantifier → String
  | .forSome => "exists"
  | .forAll => "forall"

def tag : Quantifier → String
  | .forSome => "EXISTS"
  | .forAll => "FORALL"

def ofTag? (tag : String) : Option Quantifier := [forSome, forAll].find? (·.tag == tag)

theorem ofTag?_tag (q : Quantifier) : ofTag? q.tag = some q := by cases q <;> decide

end Quantifier

/-! ## Kinds and axes -/

namespace Kind

def tag : Kind → String
  | .day => "DAY"
  | .product => "PRODUCT"
  | .sale => "SALE"

def ofTag? (tag : String) : Option Kind := [day, product, sale].find? (·.tag == tag)

theorem ofTag?_tag (k : Kind) : ofTag? k.tag = some k := by cases k <;> decide

end Kind

def Axis.ofTag? (tag : String) : Option Axis := [Axis.product, Axis.day].find? (·.text == tag)

end GridQuery
