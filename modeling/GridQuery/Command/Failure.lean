/-
  GridQuery.Command.Failure — how a run that fails ends its error output.

  What was being done, then its causes, one a line and numbered if there are several. Later
  lines of a cause are indented under its first.
-/

import GridQuery.Grid.File
import GridQuery.Query.Operator

namespace GridQuery.Command

structure Failure where
  context : String
  causes : List String
  deriving DecidableEq, Repr

namespace Failure

def numbered (cause : String) (n : Nat) : String :=
  .ofList ((Nat.toDigits 10 n).leftpad 5 ' ') ++ ": " ++ Text.hang 7 cause

def causeLines : List String → List String
  | [cause] => ["    " ++ Text.hang 4 cause]
  | causes => causes.mapIdx fun n cause => numbered cause n

def text (f : Failure) : String :=
  "Error: " ++ f.context ++ "\n\nCaused by:\n" ++ String.join ((causeLines f.causes).map (· ++ "\n"))

def loading (path : String) (e : Grid.FileError) : Failure where
  context := "Failed to load sales matrix " ++ path
  causes := match e with
    | .unreadable fault => ["IO error: " ++ fault.message, fault.message]
    | .content e => [e.message]

def reading (path : String) (fault : Fault) : Failure :=
  ⟨"Failed to read query file " ++ path, [fault.message]⟩

def parsing (path : String) : Failure := ⟨"Failed to parse query AST in " ++ path, ["<json error>"]⟩

def checking (e : Query.Error) : Failure := ⟨"Query check failed", [e.message]⟩

def evaluating (c : Category) (e : Query.Error) : Failure :=
  ⟨"Failed to evaluate " ++ c.text ++ " query", [e.message]⟩

end Failure

end GridQuery.Command
