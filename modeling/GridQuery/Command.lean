/-
  GridQuery.Command — a run of the command line: load the grid, read the query, check it if
  asked, evaluate it and print its value.

  The run stops at the first thing that fails. What was logged until then is shown, as far as the
  threshold lets it, before the failure.
-/

import GridQuery.Command.Failure
import GridQuery.Command.Options
import GridQuery.Query.Evaluation
import GridQuery.Query.Json
import GridQuery.Query.Scope

namespace GridQuery.Command

/-- What a run leaves behind. -/
structure Output where
  exit : UInt32
  stdout : String
  stderr : String
  deriving DecidableEq, Repr

def version : String := "salesql 0.1.0\n"

def help : String :=
  "SalesQL - evaluate a query over a product-by-day sales matrix\n\n" ++
  "Usage: salesql [OPTIONS] --matrix <MATRIX> --query <QUERY>\n\n" ++
  "Options:\n" ++
  "  -m, --matrix <MATRIX>  Sales matrix file (.json array of rows, or whitespace-separated text)\n" ++
  "  -q, --query <QUERY>    Query AST file (JSON)\n" ++
  "      --check            Reject queries with unbound variables or out-of-range literal indices before evaluating\n" ++
  "      --json             Print the result as JSON\n" ++
  "  -d, --debug            Enable debug logging\n" ++
  "  -h, --help             Print help\n" ++
  "  -V, --version          Print version\n"

/-- A run that logs, and may fail. -/
abbrev Logged := EStateM Failure (Array Record)

namespace Logged

def log (rs : List Record) : Logged Unit := fun logged => .ok () (logged ++ rs)

def lift {ε α : Type} (failure : ε → Failure) : Except ε α → Logged α
  | .ok a => pure a
  | .error e => throw (failure e)

end Logged

def dimensions (g : Grid) : Record where
  level := .info
  target := "salesql"
  message :=
    "Sales matrix: " ++ Numeral.writeNat g.products ++ " products x " ++ Numeral.writeNat g.days ++ " days"

def queryRecord (q : Query) : Record := ⟨.debug, "salesql", "Query: " ++ q.text⟩

/-- The value that a run prints; `read` gives the files' texts by their paths. -/
def answer (o : Options) (read : String → Except Fault String) : Logged Value := do
  let g ← Logged.lift (Failure.loading o.matrix) (Grid.ofFile? o.matrix (read o.matrix))
  Logged.log [g.loaded o.matrix, dimensions g]
  let text ← Logged.lift (Failure.reading o.query) (read o.query)
  match Query.read? text with
  | none => throw (Failure.parsing o.query)
  | some q =>
    Logged.log [queryRecord q]
    if o.check then Logged.lift Failure.checking (q.check g [])
    let out := (q.evaluate g).outcome []
    Logged.log (out.events.map Query.Event.record)
    Logged.lift (Failure.evaluating q.category) out.result

def threshold (o : Options) (word : Option String) : Nat :=
  Record.threshold (if o.debug then .debug else .info) word

def printed (o : Options) (v : Value) : String := if o.json then v.toJson.written else v.text

def execute (o : Options) (word : Option String) (read : String → Except Fault String) : Output :=
  let shown (rs : Array Record) := String.join ((Record.shown (threshold o word) rs.toList).map Record.line)
  match answer o read #[] with
  | .ok v rs => ⟨0, printed o v ++ "\n", shown rs⟩
  | .error f rs => ⟨1, "", shown rs ++ f.text⟩

/-- The whole program: arguments, the word that sets what is logged, and the files. -/
def run (args : List String) (word : Option String) (read : String → Except Fault String) : Output :=
  match request? args with
  | none => ⟨2, "", ""⟩
  | some .version => ⟨0, version, ""⟩
  | some .help => ⟨0, help, ""⟩
  | some (.run o) => execute o word read

end GridQuery.Command
