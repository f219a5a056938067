/-
  GridQuery.Query.Json — the JSON form of a query.

  Every node is a case: its name alone when it has no content, else an object with its name and
  its content. The content of a node with several parts is an object of named fields; on reading,
  the fields may come in any order among others, or be an array of the values alone.

  Reading takes the number of brackets that may still be opened (`nesting` at the start); a text
  nested deeper is refused. Fields that are passed over do not count.
-/

import GridQuery.Json.Partial
import GridQuery.Json.Written
import GridQuery.Query

namespace GridQuery

/-- How many brackets may be open at once in a query that is read. -/
def nesting : Nat := 127

/-- The one name in a text that is a case without content. -/
def readTag? (text : String) : Option String := (Json.read? text).bind (·.bare? nesting)

namespace Category

/-- The case that an expression of this category is as a query. -/
def tag : Category → String
  | .numeric => "Numeric"
  | .set => "Set"
  | .formula => "Formula"

def all : List Category := [.numeric, .set, .formula]

def ofTag? (tag : String) : Option Category := all.find? (·.tag == tag)

theorem ofTag?_tag (c : Category) : ofTag? c.tag = some c := by cases c <;> decide

end Category

/-- The case of an operator's application, by the category of its operands and of its value. -/
def Operator.caseName : Category → Category → String
  | .numeric, .formula => "NumericRelation"
  | .set, .formula => "SetRelation"
  | .formula, .formula => "Connective"
  | _, _ => "BinaryOp"

namespace Expr

def toJson : {c : Category} → Expr c → Json
  | _, .literal n => .tagged "Literal" (.word n)
  | _, .var name => .tagged "Variable" (.string name)
  | _, .productTotal p => .tagged "TotalSalesForProduct" p.toJson
  | _, .dayTotal d => .tagged "TotalSalesForDay" d.toJson
  | _, .total => .string "TotalSalesForMonth"
  | _, .figure p d => .record "SalesAt" [("product", p.toJson), ("day", d.toJson)]
  | _, .size s => .tagged "SetSize" s.toJson
  | _, .elements k => .tagged "Type" (.string k.tag)
  | _, .comprehension k x p =>
    .record "Comprehension" [("source", .string k.tag), ("var", .string x), ("predicate", p.toJson)]
  | _, .not f => .tagged "Not" f.toJson
  | _, .quantified q x k f =>
    .record "Quantified"
      [("quantifier", .string q.tag), ("var", .string x), ("source", .string k.tag), ("body", f.toJson)]
  | _, .binary (a := a) (b := b) op l r =>
    .record (Operator.caseName a b) [("op", .string op.tag), ("left", l.toJson), ("right", r.toJson)]

/-! ## Reading -/

/-- The category of an operator's operands, by that of its value and the name of the case. -/
def operands? : Category → String → Option Category
  | .numeric, "BinaryOp" => some .numeric
  | .set, "BinaryOp" => some .set
  | .formula, "NumericRelation" => some .numeric
  | .formula, "SetRelation" => some .set
  | .formula, "Connective" => some .formula
  | _, _ => none

/-- The fields of a case that has several parts. -/
def fieldNames? : Category → String → Option (List String)
  | .numeric, "SalesAt" => some ["product", "day"]
  | .set, "Comprehension" => some ["source", "var", "predicate"]
  | .formula, "Quantified" => some ["quantifier", "var", "source", "body"]
  | c, name => (operands? c name).map fun _ => ["op", "left", "right"]

def ofName? : (c : Category) → Option String → Option (Expr c)
  | .numeric, some "TotalSalesForMonth" => some .total
  | _, _ => none

/-- A case with one part or none; `read` reads an expression in it, `n` brackets may be opened. -/
def ofContent? (n : Nat) (read : (c : Category) → Json → Option (Expr c)) :
    (c : Category) → String → Json → Option (Expr c)
  | .numeric, "Literal", content => content.word?.map .literal
  | .numeric, "Variable", content => content.text?.map .var
  | .numeric, "TotalSalesForProduct", content => (read .numeric content).map .productTotal
  | .numeric, "TotalSalesForDay", content => (read .numeric content).map .dayTotal
  | .numeric, "TotalSalesForMonth", .null => some .total
  | .numeric, "SetSize", content => (read .set content).map .size
  | .set, "Type", content => ((content.bare? n).bind Kind.ofTag?).map .elements
  | .formula, "Not", content => (read .formula content).map .not
  | _, _, _ => none

/-- A case with several parts, from the values of its fields. -/
def ofFields? (n : Nat) (read : (c : Category) → Json → Option (Expr c)) :
    (c : Category) → String → List Json → Option (Expr c)
  | .numeric, "SalesAt", [p, d] => do
    some (.figure (← read .numeric p) (← read .numeric d))
  | .set, "Comprehension", [k, x, p] => do
    some (.comprehension (← (k.bare? n).bind Kind.ofTag?) (← x.text?) (← read .formula p))
  | .formula, "Quantified", [q, x, k, f] => do
    some (.quantified (← (q.bare? n).bind Quantifier.ofTag?) (← x.text?) (← (k.bare? n).bind Kind.ofTag?)
      (← read .formula f))
  | b, name, [op, l, r] => do
    let a ← operands? b name
    some (.binary (← (op.bare? n).bind (Operator.ofTag? (a := a))) (← read a l) (← read a r))
  | _, _, _ => none

def ofJson? : Nat → (c : Category) → Json → Option (Expr c)
  | _, c, .str name => ofName? c name
  | n + 1, c, .obj [(some name, content)] =>
    match fieldNames? c name with
    | none => ofContent? n (ofJson? n) c name content
    | some names =>
      match n with
      | 0 => none
      | n + 1 => (content.fields? names).bind (ofFields? n (ofJson? n) c name)
  | _, _, _ => none

def read? (c : Category) (text : String) : Option (Expr c) := (Json.read? text).bind (ofJson? nesting c)

end Expr

namespace Query

def toJson (q : Query) : Json := .tagged q.category.tag q.expr.toJson

def ofJson? : Nat → Json → Option Query
  | n + 1, .obj [(some name, content)] => do
    let c ← Category.ofTag? name
    some ⟨c, ← Expr.ofJson? n c content⟩
  | _, _ => none

def read? (text : String) : Option Query := (Json.read? text).bind (ofJson? nesting)

end Query

end GridQuery
