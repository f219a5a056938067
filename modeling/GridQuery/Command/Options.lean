/-
  GridQuery.Command.Options — what the arguments of the command line ask for.

  Arguments are taken from left to right. A request for the version or for help is granted where
  it stands, if all before it is right; whatever is wrong makes the whole line wrong: an
  argument that is no option, an option given twice, a switch with a value, a path that is
  missing or empty, or a path in an argument of its own that looks like an option. Short options
  may be run together, and the last of them may have its path attached, with `=` or without.
  A last argument `--` changes nothing.
-/

namespace GridQuery.Command

structure Options where
  matrix : String
  query : String
  check : Bool
  json : Bool
  debug : Bool
  deriving DecidableEq, Repr

inductive Request where
  | run (o : Options)
  | version
  | help
  deriving DecidableEq, Repr

/-- An option that takes a path. -/
inductive PathOption where
  | matrix
  | query
  deriving DecidableEq, Repr

inductive Switch where
  | check
  | json
  | debug
  deriving DecidableEq, Repr

/-- What has been given so far. -/
structure Given where
  matrix : Option String := none
  query : Option String := none
  check : Bool := false
  json : Bool := false
  debug : Bool := false
  deriving DecidableEq, Repr

namespace Given

def setPath (g : Given) (o : PathOption) (path : String) : Option Given :=
  match path, o, g.matrix, g.query with
  | "", _, _, _ => none
  | _, .matrix, none, _ => some { g with matrix := some path }
  | _, .query, _, none => some { g with query := some path }
  | _, _, _, _ => none

def turnOn (g : Given) (s : Switch) : Option Given :=
  match s, g.check, g.json, g.debug with
  | .check, false, _, _ => some { g with check := true }
  | .json, _, false, _ => some { g with json := true }
  | .debug, _, _, false => some { g with debug := true }
  | _, _, _, _ => none

def request? (g : Given) : Option Request :=
  match g.matrix, g.query with
  | some matrix, some query => some (.run ⟨matrix, query, g.check, g.json, g.debug⟩)
  | _, _ => none

end Given

/-- What is given after one more argument. -/
inductive Effect where
  | given (g : Given)
  /-- The next argument is the path. -/
  | awaits (g : Given) (o : PathOption)
  | answer (r : Request)

def attached (g : Given) (o : PathOption) (path : String) : Option Effect := (g.setPath o path).map .given

def switched (g : Given) (s : Switch) : Option Effect := (g.turnOn s).map .given

/-- An argument `--name`, or `--name=value`. -/
def long (g : Given) (name : String) (value : Option String) : Option Effect :=
  match name, value with
  | "matrix", none => some (.awaits g .matrix)
  | "matrix", some path => attached g .matrix path
  | "query", none => some (.awaits g .query)
  | "query", some path => attached g .query path
  | "check", none => switched g .check
  | "json", none => switched g .json
  | "debug", none => switched g .debug
  | "version", none => some (.answer .version)
  | "help", none => some (.answer .help)
  | _, _ => none

/-- What follows the letter of an option that takes a path. -/
def shortPath (g : Given) (o : PathOption) : List Char → Option Effect
  | [] => some (.awaits g o)
  | '=' :: path => attached g o (.ofList path)
  | path => attached g o (.ofList path)

/-- The letters after a single dash. -/
def short (g : Given) : List Char → Option Effect
  | [] => some (.given g)
  | 'd' :: cs => (g.turnOn .debug).bind fun g => short g cs
  | 'm' :: cs => shortPath g .matrix cs
  | 'q' :: cs => shortPath g .query cs
  | 'V' :: _ => some (.answer .version)
  | 'h' :: _ => some (.answer .help)
  | _ => none

def effect (g : Given) (arg : String) : Option Effect :=
  match arg.toList with
  | '-' :: '-' :: cs =>
    match cs.dropWhile (· ≠ '=') with
    | [] => long g (.ofList cs) none
    | _ :: value => long g (.ofList (cs.takeWhile (· ≠ '='))) (some (.ofList value))
  | '-' :: c :: cs => short g (c :: cs)
  | _ => none

/-- Whether an argument of its own can be a path. -/
def isPath (arg : String) : Bool :=
  match arg.toList with
  | ['-'] => true
  | '-' :: _ => false
  | _ => true

def read? (g : Given) : List String → Option Request
  | [] => g.request?
  | ["--"] => g.request?
  | arg :: args =>
    match effect g arg with
    | none => none
    | some (.answer r) => some r
    | some (.given g) => read? g args
    | some (.awaits g o) =>
      match args with
      | [] => none
      | path :: args => if isPath path then (g.setPath o path).bind fun g => read? g args else none

/-- None for a line that cannot be understood. -/
def request? (args : List String) : Option Request := read? {} args

end GridQuery.Command
