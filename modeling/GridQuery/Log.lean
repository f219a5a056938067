/-
  GridQuery.Log — log records and which of them are shown.

  A record is shown when its level is at least as grave as the threshold. The threshold is the
  program's own, unless a word from outside names another: one of the five levels or `off`,
  capitals or not. Any other word shows nothing.

  A record takes one line or more; the later lines are indented (`Text.hang`).
-/

namespace GridQuery

/-- Puts `columns` spaces in front of every line but the first. -/
def Text.hang (columns : Nat) (s : String) : String :=
  .ofList (s.toList.flatMap fun c => if c = '\n' then '\n' :: List.replicate columns ' ' else [c])

inductive Level where
  | error
  | warn
  | info
  | debug
  | trace
  deriving DecidableEq, Repr

namespace Level

def name : Level → String
  | .error => "ERROR"
  | .warn => "WARN"
  | .info => "INFO"
  | .debug => "DEBUG"
  | .trace => "TRACE"

/-- How much a threshold at this level lets through. -/
def rank : Level → Nat
  | .error => 1
  | .warn => 2
  | .info => 3
  | .debug => 4
  | .trace => 5

def all : List Level := [.error, .warn, .info, .debug, .trace]

def named? (word : String) : Option Level := all.find? fun l => l.name == word.toUpper

end Level

structure Record where
  level : Level
  target : String
  message : String
  deriving DecidableEq, Repr

namespace Record

/-- `LEVEL message`. -/
def brief (r : Record) : String := r.level.name ++ " " ++ r.message

/-- `[LEVEL target] message`, the level filled up to five columns, later lines indented. -/
def line (r : Record) : String :=
  "[" ++ .ofList (r.level.name.toList.rightpad 5 ' ') ++ " " ++ r.target ++ "] " ++ Text.hang 4 r.message ++ "\n"

/-- The rank that a record may have to be shown. -/
def threshold (own : Level) : Option String → Nat
  | none => own.rank
  | some word => ((Level.named? word).map Level.rank).getD 0

def shown (threshold : Nat) (rs : List Record) : List Record := rs.filter (·.level.rank ≤ threshold)

end Record

end GridQuery
