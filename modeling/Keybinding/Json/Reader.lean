import Keybinding.Json.Basic

/-!
# Reading JSON

A JSON text is cut into brackets, separators, literals, numbers and strings, with blanks, tabs and
line ends between them. A string is first read as a list of `Piece`s. Its pieces make up a text
unless one of them is half a surrogate pair that does not meet its other half (`textOf?`).

The tokens of a text are read one at a time. The reader keeps the arrays and objects that are still
open, the innermost first, and a `Phase` that says what may come next. However deeply a text is
nested, every token takes one step.
-/

namespace Keybinding.Json

/-- A lexical unit of a JSON text. -/
inductive Token where
  | openArray
  | closeArray
  | openObject
  | closeObject
  | comma
  | colon
  | null
  | bool (b : Bool)
  | number (literal : String)
  | string (text : Option String)
  deriving DecidableEq, Repr

/-! ## §1 Strings -/

/-- One item of a written string. -/
inductive Piece where
  | char (c : Char)
  /-- A 16-bit unit that is written as four hexadecimal digits. -/
  | unit (n : Nat)
  deriving DecidableEq, Repr

/-- The value of a hexadecimal digit. -/
def hexDigit? (c : Char) : Option Nat :=
  if c.isDigit then some (c.toNat - '0'.toNat)
  else if 'a' ≤ c ∧ c ≤ 'f' then some (c.toNat - 'a'.toNat + 10)
  else if 'A' ≤ c ∧ c ≤ 'F' then some (c.toNat - 'A'.toNat + 10)
  else none

/-- The number that four hexadecimal digits denote. -/
def hexUnit? (a b c d : Char) : Option Nat := do
  return (((← hexDigit? a) * 16 + (← hexDigit? b)) * 16 + (← hexDigit? c)) * 16 + (← hexDigit? d)

/-- The character that a single letter after a backslash stands for. -/
def escaped? : Char → Option Char
  | '"' => some '"'
  | '\\' => some '\\'
  | '/' => some '/'
  | 'b' => some '\x08'
  | 'f' => some '\x0c'
  | 'n' => some '\n'
  | 'r' => some '\r'
  | 't' => some '\t'
  | _ => none

/-- The pieces of a string up to its closing quote, and the text after that quote. -/
def pieces? : List Char → Option (List Piece × List Char)
  | [] => none
  | '"' :: rest => some ([], rest)
  | '\\' :: 'u' :: a :: b :: c :: d :: rest =>
    match hexUnit? a b c d, pieces? rest with
    | some n, some (ps, rest') => some (.unit n :: ps, rest')
    | _, _ => none
  | '\\' :: c :: rest =>
    match escaped? c, pieces? rest with
    | some e, some (ps, rest') => some (.char e :: ps, rest')
    | _, _ => none
  | c :: rest =>
    if c == '\\' || c.toNat < 0x20 then none
    else (pieces? rest).map fun p => (.char c :: p.1, p.2)

/-- A unit is the first half of a surrogate pair. -/
def isHighHalf (n : Nat) : Bool := 0xD800 ≤ n && n ≤ 0xDBFF

/-- A unit is the second half of a surrogate pair. -/
def isLowHalf (n : Nat) : Bool := 0xDC00 ≤ n && n ≤ 0xDFFF

def textOf? : List Piece → Option (List Char)
  | [] => some []
  | .char c :: rest => (textOf? rest).map (c :: ·)
  | .unit n :: .unit m :: rest =>
    if isHighHalf n then
      if isLowHalf m then
        (textOf? rest).map
          (Char.ofNat (0x10000 + (n - 0xD800) * 0x400 + (m - 0xDC00)) :: ·)
      else none
    else if isLowHalf n then none
    else (textOf? (.unit m :: rest)).map (Char.ofNat n :: ·)
  | .unit n :: rest =>
    if isHighHalf n || isLowHalf n then none else (textOf? rest).map (Char.ofNat n :: ·)

/-! ## §2 Numbers -/

/-- The digits that a text starts with, which must be some, and the text after them. -/
def digits? (s : List Char) : Option (List Char × List Char) :=
  match s.takeWhile Char.isDigit with
  | [] => none
  | ds => some (ds, s.dropWhile Char.isDigit)

/-- The integer part of a number: `0`, or digits that start with another one. -/
def integerPart? : List Char → Option (List Char × List Char)
  | '0' :: rest => some (['0'], rest)
  | s => digits? s

/-- The fraction of a number, if it has one. -/
def fraction? : List Char → Option (List Char × List Char)
  | '.' :: rest => (digits? rest).map fun p => ('.' :: p.1, p.2)
  | s => some ([], s)

/-- The sign of an exponent, if it has one. -/
def sign : List Char → List Char × List Char
  | '+' :: rest => (['+'], rest)
  | '-' :: rest => (['-'], rest)
  | s => ([], s)

/-- The exponent of a number, if it has one. -/
def exponent? : List Char → Option (List Char × List Char)
  | [] => some ([], [])
  | c :: rest =>
    if c == 'e' || c == 'E' then
      let (sg, rest') := sign rest
      (digits? rest').map fun p => (c :: sg ++ p.1, p.2)
    else some ([], c :: rest)

/-- The number without a sign that a text starts with, and the text after it. -/
def unsigned? (s : List Char) : Option (List Char × List Char) := do
  let (i, s) ← integerPart? s
  let (f, s) ← fraction? s
  let (e, s) ← exponent? s
  return (i ++ f ++ e, s)

/-! ## §3 Tokens of a text -/

/-- White space of JSON. -/
def isBlank (c : Char) : Bool :=
  c == ' ' || c == '\t' || c == '\n' || c == '\r'

/-- A token that is one character long. -/
def punctuation? : Char → Option Token
  | '[' => some .openArray
  | ']' => some .closeArray
  | '\x7b' => some .openObject
  | '\x7d' => some .closeObject
  | ',' => some .comma
  | ':' => some .colon
  | _ => none

/-- A token made of letters. -/
def literal? : List Char → Option (Token × List Char)
  | 'n' :: 'u' :: 'l' :: 'l' :: rest => some (.null, rest)
  | 't' :: 'r' :: 'u' :: 'e' :: rest => some (.bool true, rest)
  | 'f' :: 'a' :: 'l' :: 's' :: 'e' :: rest => some (.bool false, rest)
  | _ => none

/-- The number that a text starts with, as a token. -/
def numberToken? : List Char → Option (Token × List Char)
  | '-' :: rest => (unsigned? rest).map fun p => (.number (String.ofList ('-' :: p.1)), p.2)
  | s => (unsigned? s).map fun p => (.number (String.ofList p.1), p.2)

/-- The token that a text starts with, and the text after it. -/
def tokenAt? : List Char → Option (Token × List Char)
  | [] => none
  | '"' :: rest =>
    (pieces? rest).map fun p => (.string ((textOf? p.1).map String.ofList), p.2)
  | c :: rest =>
    match punctuation? c with
    | some t => some (t, rest)
    | none => literal? (c :: rest) <|> numberToken? (c :: rest)

/-- The tokens of a text, if `fuel` of them are enough. -/
def tokensWithin : Nat → List Char → Option (List Token)
  | fuel, s =>
    match s.dropWhile isBlank, fuel with
    | [], _ => some []
    | _ :: _, 0 => none
    | s', fuel + 1 =>
      match tokenAt? s' with
      | some (t, rest) => (tokensWithin fuel rest).map (t :: ·)
      | none => none

/-- The tokens of a text. A token is at least one character long. -/
def tokens? (s : List Char) : Option (List Token) :=
  tokensWithin s.length s

/-! ## §4 States of the reader -/

/-- An array or object that waits for the value of one of its places. -/
inductive Frame where
  /-- An array with the items before that value, the last one first. -/
  | item (before : List Json)
  /-- An object with the members before that value, the last one first, and the key of the value. -/
  | member (before : List (Option String × Json)) (key : Option String)
  deriving Repr

/-- What may come next. -/
inductive Phase where
  /-- A value. -/
  | value
  /-- The first item of an array, or its end. -/
  | arrayStart
  /-- The first key of an object, or its end. -/
  | objectStart
  /-- A key, after these members. -/
  | key (before : List (Option String × Json))
  /-- The colon after a key. -/
  | colon (before : List (Option String × Json)) (key : Option String)
  /-- What follows a value that is complete. -/
  | after (j : Json)
  deriving Repr

/-- The reader between two tokens. -/
structure State where
  frames : List Frame
  phase : Phase
  deriving Repr

namespace State

/-- The reader before the first token. -/
def start : State := ⟨[], .value⟩

/-! ## §5 Steps -/

def startValue? (frames : List Frame) : Token → Option State
  | .null => some ⟨frames, .after .null⟩
  | .bool b => some ⟨frames, .after (.bool b)⟩
  | .number literal => some ⟨frames, .after (.number literal)⟩
  | .string text => some ⟨frames, .after (.string text)⟩
  | .openArray => some ⟨frames, .arrayStart⟩
  | .openObject => some ⟨frames, .objectStart⟩
  | _ => none

/-- The reader after one more token. -/
def step? : State → Token → Option State
  | ⟨fs, .value⟩, t => startValue? fs t
  | ⟨fs, .arrayStart⟩, .closeArray => some ⟨fs, .after (.array [])⟩
  | ⟨fs, .arrayStart⟩, t => startValue? (.item [] :: fs) t
  | ⟨fs, .objectStart⟩, .closeObject => some ⟨fs, .after (.object [])⟩
  | ⟨fs, .objectStart⟩, .string k => some ⟨fs, .colon [] k⟩
  | ⟨fs, .key ms⟩, .string k => some ⟨fs, .colon ms k⟩
  | ⟨fs, .colon ms k⟩, .colon => some ⟨.member ms k :: fs, .value⟩
  | ⟨.item xs :: fs, .after j⟩, .comma => some ⟨.item (j :: xs) :: fs, .value⟩
  | ⟨.item xs :: fs, .after j⟩, .closeArray => some ⟨fs, .after (.array (j :: xs).reverse)⟩
  | ⟨.member ms k :: fs, .after j⟩, .comma => some ⟨fs, .key ((k, j) :: ms)⟩
  | ⟨.member ms k :: fs, .after j⟩, .closeObject =>
    some ⟨fs, .after (.object ((k, j) :: ms).reverse)⟩
  | _, _ => none

/-- The reader after a list of tokens. -/
def run? (s : State) (ts : List Token) : Option State :=
  ts.foldlM step? s

/-- The value that has been read, if it is complete. -/
def result? : State → Option Json
  | ⟨[], .after j⟩ => some j
  | _ => none

end State

/-! ## §6 Texts -/

/-- The value that a list of tokens denotes. -/
def ofTokens? (ts : List Token) : Option Json := do
  (← State.start.run? ts).result?

/-- The value that a text denotes. -/
def read? (text : String) : Option Json := do
  ofTokens? (← tokens? text.toList)

end Keybinding.Json
