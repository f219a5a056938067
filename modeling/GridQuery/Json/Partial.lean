/-
  GridQuery.Json.Partial — a JSON value read so far, one token at a time.

  What has been read is the innermost place in the text and, around it, the arrays and
  objects that are still open. `feed` takes a token to the next place, or refuses it; a text
  is read when its tokens lead to one whole value with nothing open around it. There is no
  limit on how much may be open.
-/

import GridQuery.Json.Token

namespace GridQuery.Json

/-- An array or object that is still open, with what it holds so far, newest first. -/
inductive Frame where
  | array (items : List Json)
  /-- The value of the member `key` is being read. -/
  | object (members : List (Option String × Json)) (key : Option String)

inductive Partial where
  /-- A value must follow. -/
  | value (around : List Frame)
  /-- The first item of an array, or its end. -/
  | firstItem (around : List Frame)
  /-- The first member of an object, or its end. -/
  | firstMember (around : List Frame)
  /-- The name of a member must follow. -/
  | name (members : List (Option String × Json)) (around : List Frame)
  /-- The colon after a name must follow. -/
  | colon (members : List (Option String × Json)) (key : Option String) (around : List Frame)
  /-- A value is whole. -/
  | whole (v : Json) (around : List Frame)

namespace Partial

def start (fs : List Frame) : Token → Option Partial
  | .openArray => some (.firstItem fs)
  | .openObject => some (.firstMember fs)
  | .null => some (.whole .null fs)
  | .bool b => some (.whole (.bool b) fs)
  | .num n => some (.whole (.num n) fs)
  | .str s => some (.whole (.str s) fs)
  | _ => none

def feed : Partial → Token → Option Partial
  | .value fs, t => start fs t
  | .firstItem fs, .closeArray => some (.whole (.arr []) fs)
  | .firstItem fs, t => start (.array [] :: fs) t
  | .firstMember fs, .closeObject => some (.whole (.obj []) fs)
  | .firstMember fs, .str key => some (.colon [] key fs)
  | .name ms fs, .str key => some (.colon ms key fs)
  | .colon ms key fs, .colon => some (.value (.object ms key :: fs))
  | .whole v (.array vs :: fs), .comma => some (.value (.array (v :: vs) :: fs))
  | .whole v (.array vs :: fs), .closeArray => some (.whole (.arr (v :: vs).reverse) fs)
  | .whole v (.object ms key :: fs), .comma => some (.name ((key, v) :: ms) fs)
  | .whole v (.object ms key :: fs), .closeObject => some (.whole (.obj ((key, v) :: ms).reverse) fs)
  | _, _ => none

def finished? : Partial → Option Json
  | .whole v [] => some v
  | _ => none

def read? (p : Partial) (cs : List Char) : Option Json :=
  match _h : Token.next? cs with
  | none => if cs.all isSpace then p.finished? else none
  | some (t, rest) =>
    match p.feed t with
    | none => none
    | some p => p.read? rest
termination_by cs.length
decreasing_by exact Token.length_of_next? ‹_›

end Partial

def read? (text : String) : Option Json := (Partial.value []).read? text.toList

end GridQuery.Json
