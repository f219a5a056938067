/-
  GridQuery.Folder — files held in memory, and what reading one by its path gives.

  A path is read from the folder, name by name: `.` stays, `..` goes back, and a file has
  nothing below it, not even a final slash. Outside the folder nothing exists but the
  folders that `/` and `..` lead to. A file is read as text only if its bytes are UTF-8.
-/

namespace GridQuery

/-- Why a file could not be read as text. -/
inductive Fault where
  | missing
  | notText
  | isFolder
  /-- A part of the path before its end is a file. -/
  | throughFile
  deriving DecidableEq, Repr

def Fault.message : Fault → String
  | .missing => "No such file or directory (os error 2)"
  | .notText => "stream did not contain valid UTF-8"
  | .isFolder => "Is a directory (os error 21)"
  | .throughFile => "Not a directory (os error 20)"

inductive Entry where
  | file (bytes : ByteArray)
  | folder

/-- The entries by their paths from the folder; a path's beginnings are folders too. -/
abbrev Folder := List (List String × Entry)

namespace Folder

/-- Where a path has led so far. -/
inductive Spot where
  | inside (names : List String)
  | outside
  | file (bytes : ByteArray)

def below (f : Folder) (names : List String) : Except Fault Spot :=
  match f.lookup names with
  | some (.file bytes) => .ok (.file bytes)
  | some .folder => .ok (.inside names)
  | none => if f.any fun (path, _) => names.isPrefixOf path then .ok (.inside names) else .error .missing

def step (f : Folder) (spot : Spot) (name : String) : Except Fault Spot :=
  match spot, name with
  | .file _, _ => .error .throughFile
  | spot, "" => .ok spot
  | spot, "." => .ok spot
  | .inside [], ".." => .ok .outside
  | .inside names, ".." => .ok (.inside names.dropLast)
  | .outside, ".." => .ok .outside
  | .inside names, name => f.below (names ++ [name])
  | .outside, _ => .error .missing

def readText (f : Folder) (path : String) : Except Fault String :=
  if path = "" then .error .missing
  else do
    let start := if path.startsWith "/" then Spot.outside else .inside []
    match ← (path.splitOn "/").foldlM f.step start with
    | .file bytes =>
      match String.fromUTF8? bytes with
      | some text => .ok text
      | none => .error .notText
    | _ => .error .isFolder

end Folder

end GridQuery
