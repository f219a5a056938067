/-
  GridQuery.Json.Written — the compact text of a JSON value.

  No blanks anywhere. In a string only the quote, the backslash and the characters below
  U+0020 are escaped: the five with a letter of their own by that letter, the rest as
  four hexadecimal digits in lower case.
-/

import GridQuery.Json

namespace GridQuery.Json

def escape (c : Char) : List Char :=
  match c with
  | '"' => ['\\', '"']
  | '\\' => ['\\', '\\']
  | '\x08' => ['\\', 'b']
  | '\t' => ['\\', 't']
  | '\n' => ['\\', 'n']
  | '\x0c' => ['\\', 'f']
  | '\r' => ['\\', 'r']
  | c =>
    if c.toNat < 0x20 then ['\\', 'u', '0', '0', Nat.digitChar (c.toNat / 16), Nat.digitChar (c.toNat % 16)]
    else [c]

def quote (s : String) : String := .ofList ('"' :: s.toList.flatMap escape ++ ['"'])

mutual

/-- What has no text of its own (half a surrogate pair, a number that is not whole) is written as `null`. -/
def written : Json → String
  | .null => "null"
  | .bool true => "true"
  | .bool false => "false"
  | .num (some n) => Numeral.write n
  | .num none => "null"
  | .str (some s) => quote s
  | .str none => "null"
  | .arr [] => "[]"
  | .arr (v :: vs) => "[" ++ v.written ++ furtherItems vs
  | .obj [] => "\x7b\x7d"
  | .obj (m :: ms) => "\x7b" ++ member m ++ furtherMembers ms

def furtherItems : List Json → String
  | [] => "]"
  | v :: vs => "," ++ v.written ++ furtherItems vs

def furtherMembers : List (Option String × Json) → String
  | [] => "\x7d"
  | m :: ms => "," ++ member m ++ furtherMembers ms

def member : Option String × Json → String
  | (name, v) => quote (name.getD "") ++ ":" ++ v.written

end

end GridQuery.Json
