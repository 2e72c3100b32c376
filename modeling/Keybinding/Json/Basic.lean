/-!
# JSON values

A JSON text denotes a tree. Numbers are kept as they are written, since what matters about them is
whether they are written as natural numbers (`Json.natural?`). Strings can be written with escapes
that denote one half of a surrogate pair; such a string denotes no text.

A value is written without white space (`Json.display`). In strings the quote, the backslash and the
controls are escaped, and all else stands for itself.
-/

namespace Keybinding

/-- A JSON value. -/
inductive Json where
  | null
  | bool (b : Bool)
  /-- A number, as written. -/
  | number (literal : String)
  /-- A string; without a text if an escape denotes half a surrogate pair. -/
  | string (text : Option String)
  | array (items : List Json)
  /-- Members in the order in which they are written. Keys can repeat. -/
  | object (members : List (Option String × Json))
  deriving Repr

namespace Json

/-! ## §1 Numbers -/

/-- The value of a list of decimal digits. -/
def digitsValue (ds : List Char) : Nat :=
  ds.foldl (fun n d => 10 * n + (d.toNat - '0'.toNat)) 0

/-- The natural number that a value is, if it is written with digits alone. -/
def natural? : Json → Option Nat
  | number literal =>
    if literal.toList.all Char.isDigit then some (digitsValue literal.toList) else none
  | _ => none

/-! ## §2 Writing -/

/-- A digit of the hexadecimal system. -/
def hexDigit (n : Nat) : Char :=
  if n < 10 then Char.ofNat ('0'.toNat + n) else Char.ofNat ('a'.toNat + (n - 10))

/-- One character of a string. -/
def escape (c : Char) : List Char :=
  if c == '"' then ['\\', '"']
  else if c == '\\' then ['\\', '\\']
  else if c == '\x08' then ['\\', 'b']
  else if c == '\x0c' then ['\\', 'f']
  else if c == '\n' then ['\\', 'n']
  else if c == '\r' then ['\\', 'r']
  else if c == '\t' then ['\\', 't']
  else if c.toNat < 0x20 then
    ['\\', 'u', '0', '0', hexDigit (c.toNat / 16), hexDigit (c.toNat % 16)]
  else [c]

/-- A string between quotes. One without a text is written as half a surrogate pair. -/
def quote : Option String → List Char
  | some s => '"' :: s.toList.flatMap escape ++ ['"']
  | none => "\"\\ud800\"".toList

mutual

/-- The text of a value. -/
def render : Json → List Char
  | null => "null".toList
  | bool true => "true".toList
  | bool false => "false".toList
  | number literal => literal.toList
  | string text => quote text
  | array [] => ['[', ']']
  | array (j :: js) => '[' :: render j ++ renderItems js
  | object [] => ['\x7b', '\x7d']
  | object ((k, j) :: ms) => '\x7b' :: quote k ++ ':' :: render j ++ renderMembers ms

/-- The items of an array after the first, and its end. -/
def renderItems : List Json → List Char
  | [] => [']']
  | j :: js => ',' :: render j ++ renderItems js

/-- The members of an object after the first, and its end. -/
def renderMembers : List (Option String × Json) → List Char
  | [] => ['\x7d']
  | (k, j) :: ms => ',' :: quote k ++ ':' :: render j ++ renderMembers ms

end

/-- The text of a value. -/
def display (j : Json) : String :=
  String.ofList j.render

end Json

end Keybinding
