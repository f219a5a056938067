/-
  GridQuery.Grid.File — a grid from a file, in JSON or plain text.

  In JSON a grid is an array of the products' arrays of figures. A figure is a whole number of
  32 bits. Anything else is one error, whatever is wrong.

  A file whose name has the extension `json`, capitals or not, is read as JSON and any other as
  plain text. The extension is what follows the last dot of the name, unless that dot is the
  name's first character.
-/

import GridQuery.Folder
import GridQuery.Grid.Text
import GridQuery.Json.Partial
import GridQuery.Log

namespace GridQuery.Grid

def rowsOfJson? (j : Json) : Option (List (List Int32)) := j.items?.bind (·.mapM Json.words?)

def ofJson? (text : String) : Except Error Grid :=
  match (Json.read? text).bind rowsOfJson? with
  | some rows => ofRows? rows
  | none => .error .badJson

/-- Why a file gives no grid. -/
inductive FileError where
  | unreadable (fault : Fault)
  | content (e : Error)
  deriving DecidableEq, Repr

def extension? (path : List Char) : Option (List Char) :=
  let reversed := path.reverse.takeWhile (· ≠ '/')
  match reversed.dropWhile (· ≠ '.') with
  | '.' :: _ :: _ => some (reversed.takeWhile (· ≠ '.')).reverse
  | _ => none

def isJsonPath (path : String) : Bool := (extension? path.toList).any fun e => e.map Char.toLower == "json".toList

def ofFile? (path : String) (content : Except Fault String) : Except FileError Grid :=
  match content with
  | .error fault => .error (.unreadable fault)
  | .ok text => (if isJsonPath path then ofJson? text else ofText? text).mapError .content

def loaded (g : Grid) (path : String) : Record where
  level := .debug
  target := "salesql::data::loader"
  message :=
    "Loaded " ++ Numeral.writeNat g.products ++ "x" ++ Numeral.writeNat g.days ++ " sales matrix from " ++ path

end GridQuery.Grid
