/-
  GridQuery.Json — JSON values as they stand in a text, and the shapes that are looked for in them.

  Members keep their order and may repeat. Two things that a text can hold and a value cannot
  are kept as `none`: a string with half a surrogate pair in it, and a number that is not a
  whole number as written (with a fraction or an exponent, or `-0`).

  The shapes:
  - `tagged`: an object with one member, the name of a case and its content;
  - `bare?`: a case without content, as a string or as a member with `null`;
  - `fields?`: the values of some fields, from an object that has each of them once or from an
    array of just the values in order.
-/

import GridQuery.Numeral

namespace GridQuery

inductive Json where
  | null
  | bool (b : Bool)
  | num (n : Option Int)
  | str (s : Option String)
  | arr (items : List Json)
  | obj (members : List (Option String × Json))

namespace Json

def text? : Json → Option String
  | .str s => s
  | _ => none

def word? : Json → Option Int32
  | .num n => n.bind Numeral.word?
  | _ => none

def bool? : Json → Option Bool
  | .bool b => some b
  | _ => none

def items? : Json → Option (List Json)
  | .arr items => some items
  | _ => none

def words? (j : Json) : Option (List Int32) := j.items?.bind (·.mapM word?)

/-- The name of a case without content, when `n` more brackets may be opened. -/
def bare? : Nat → Json → Option String
  | _, .str name => name
  | _ + 1, .obj [(some name, .null)] => some name
  | _, _ => none

/-- The value of the one member called `name`. -/
def only? (name : String) (members : List (Option String × Json)) : Option Json :=
  match members.filter (·.1 == some name) with
  | [(_, value)] => some value
  | _ => none

def fields? (names : List String) : Json → Option (List Json)
  | .arr values => if values.length = names.length then some values else none
  | .obj members => if members.all (·.1.isSome) then names.mapM (only? · members) else none
  | _ => none

/-! ## Building -/

def word (n : Int32) : Json := .num (some n.toInt)

def string (s : String) : Json := .str (some s)

def tagged (name : String) (content : Json) : Json := .obj [(some name, content)]

/-- A case whose content has named fields. -/
def record (name : String) (fields : List (String × Json)) : Json :=
  tagged name (.obj (fields.map fun (key, value) => (some key, value)))

@[simp] theorem word?_word (n : Int32) : (word n).word? = some n := Numeral.word?_toInt n

@[simp] theorem text?_string (s : String) : (string s).text? = some s := rfl

@[simp] theorem bare?_string (n : Nat) (s : String) : (string s).bare? n = some s := rfl

end Json

end GridQuery
