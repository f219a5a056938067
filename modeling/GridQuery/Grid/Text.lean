/-
  GridQuery.Grid.Text — a grid from plain text, a product a line.

  Figures stand between blanks and commas. A line is passed over when it is blank or its first
  character that is not blank is `#`; a line of commas only is a product without days. The
  first piece that is no figure, in reading order, is the error, with the number of its line;
  only a text of figures is looked at as a grid.
-/

import GridQuery.Grid
import GridQuery.Numeral
import GridQuery.Text.Blank

namespace GridQuery.Grid

def isSeparator (c : Char) : Bool := Text.isBlank c || c == ','

/-- Whether a line is a product's. -/
def isRow (line : List Char) : Bool :=
  match line.dropWhile Text.isBlank with
  | [] => false
  | '#' :: _ => false
  | _ => true

def figureOf? (piece : List Char) : Option Int32 := (Numeral.read? piece).bind Numeral.word?

def readFigure (line : Nat) (piece : List Char) : Except Error Int32 :=
  match figureOf? piece with
  | some n => .ok n
  | none => .error (.badFigure line (.ofList piece))

def readRow (line : List Char) (number : Nat) : Except Error (List Int32) :=
  (Text.words isSeparator line).mapM (readFigure number)

def readRows (text : String) : Except Error (List (List Int32)) :=
  let numbered := (Text.lines text.toList).zipIdx 1
  (numbered.filter fun (line, _) => isRow line).mapM fun (line, number) => readRow line number

def ofText? (text : String) : Except Error Grid := readRows text >>= ofRows?

end GridQuery.Grid
