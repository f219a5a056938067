/-
  GridQuery.Main — the command line program.

  Reads the two files that the arguments name, and prints what the run leaves behind. The word
  that sets what is logged comes from the environment.
-/

import GridQuery.Command

namespace GridQuery

/-- The code that the system gives for reading a folder. -/
def folderCode : UInt32 := 21

def readFile (path : String) : IO (Except Fault String) := do
  match ← (IO.FS.readBinFile path).toBaseIO with
  | .ok bytes =>
    match String.fromUTF8? bytes with
    | some text => return .ok text
    | none => return .error .notText
  | .error (.inappropriateType _ code _) => return .error (if code = folderCode then .isFolder else .throughFile)
  | .error _ => return .error .missing

def paths (args : List String) : List String :=
  match Command.request? args with
  | some (.run o) => [o.matrix, o.query]
  | _ => []

end GridQuery

open GridQuery in
def main (args : List String) : IO UInt32 := do
  let texts ← (paths args).mapM fun path => return (path, ← readFile path)
  let out := Command.run args (← IO.getEnv "RUST_LOG") fun path => (texts.lookup path).getD (.error .missing)
  IO.print out.stdout
  IO.eprint out.stderr
  return out.exit
