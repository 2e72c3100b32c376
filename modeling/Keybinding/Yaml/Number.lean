import Keybinding.Yaml.Scalar

/-!
# Plain scalars that are numbers

A plain scalar can denote a number. Integers are written in decimal, or in base 16, 8 or 2 after
`0x`, `0o` or `0b`. A sign can stand in front. A decimal integer has no leading zero. Other decimal
numbers have a point or an exponent. They are read only as far as needed, which is whether they are
below the point at which the largest number of double precision is left behind.
-/

namespace Keybinding.Yaml

/-! ## §1 Integers -/

/-- The number that digits of a base denote. There must be at least one. -/
def naturalIn? (base : Nat) (ds : List Char) : Option Nat :=
  if ds.isEmpty then none
  else
    ds.foldlM (fun n d =>
      match hexDigit? d with
      | some k => if k < base then some (base * n + k) else none
      | none => none) 0

/-- The base that a mark announces, and the text after the mark. -/
def baseMark? : List Char → Option (Nat × List Char)
  | '0' :: 'x' :: rest => some (16, rest)
  | '0' :: 'o' :: rest => some (8, rest)
  | '0' :: 'b' :: rest => some (2, rest)
  | _ => none

/-- A text without the sign in front. -/
def unsigned : List Char → List Char
  | '-' :: rest => rest
  | '+' :: rest => rest
  | s => s

/-- Several digits with a zero in front, after an optional sign. Such a text is no number. -/
def hasLeadingZero (s : List Char) : Bool :=
  match unsigned s with
  | '0' :: d :: rest => (d :: rest).all Char.isDigit
  | _ => false

/-- The number that a text without a sign denotes. -/
def magnitude? (s : List Char) : Option Nat :=
  match baseMark? s with
  | some (base, rest) => naturalIn? base rest
  | none => if hasLeadingZero s then none else naturalIn? 10 s

/-- A whole number as it is written: with a minus sign or without. -/
inductive Integer where
  | natural (n : Nat)
  | negative (n : Nat)
  deriving DecidableEq, Repr

/-- The integer that a text denotes. -/
def integer? : List Char → Option Integer
  | '-' :: rest => (magnitude? rest).map .negative
  | '+' :: rest => (magnitude? rest).map .natural
  | s => (magnitude? s).map .natural

/-- An integer that fits into 64 bits. -/
def Integer.isWord : Integer → Bool
  | natural n => n < UInt64.size
  | negative n => n ≤ UInt64.size / 2

/-- An integer that fits into 128 bits. -/
def Integer.isDoubleWord : Integer → Bool
  | natural n => n < UInt64.size * UInt64.size
  | negative n => n ≤ UInt64.size * UInt64.size / 2

/-! ## §2 Decimal numbers -/

/-- A decimal number: the integer `mantissa`, times ten to the power of `exponent`. -/
structure Decimal where
  mantissa : Nat
  exponent : Int
  deriving DecidableEq, Repr

/-- The value of an optional exponent. -/
def exponent? : List Char → Option Int
  | [] => some 0
  | c :: rest =>
    if c == 'e' || c == 'E' then
      match rest with
      | '-' :: ds => (naturalIn? 10 ds).map fun n => -(n : Int)
      | '+' :: ds => (naturalIn? 10 ds).map fun n => (n : Int)
      | ds => (naturalIn? 10 ds).map fun n => (n : Int)
    else none

/-- The number that digits, an optional point, more digits and an optional exponent denote. One of
the two groups of digits can be empty. -/
def decimal? (s : List Char) : Option Decimal :=
  let whole := s.takeWhile Char.isDigit
  let rest := s.dropWhile Char.isDigit
  let (fraction, rest) :=
    match rest with
    | '.' :: r => (r.takeWhile Char.isDigit, r.dropWhile Char.isDigit)
    | r => ([], r)
  match naturalIn? 10 (whole ++ fraction), exponent? rest with
  | some m, some e => some ⟨m, e - fraction.length⟩
  | _, _ => none

/-- The least number that is rounded to infinity in double precision. -/
def doubleLimit : Nat := (Nat.pow 2 54 - 1) * Nat.pow 2 970

/-- A number is small enough for double precision. The limit has 309 digits, so powers of ten are
needed only for numbers of about that size. -/
def Decimal.isFinite (d : Decimal) : Bool :=
  if d.mantissa == 0 then true
  else
    let length : Int := (Nat.toDigits 10 d.mantissa).length + d.exponent
    if length < 309 then true
    else if 309 < length then false
    else if 0 ≤ d.exponent then d.mantissa * Nat.pow 10 d.exponent.toNat < doubleLimit
    else d.mantissa < doubleLimit * Nat.pow 10 (-d.exponent).toNat

/-- The words for infinity and for what is not a number. -/
def floatWords : List String :=
  [".inf", ".Inf", ".INF", "-.inf", "-.Inf", "-.INF", "+.inf", "+.Inf", "+.INF",
    ".nan", ".NaN", ".NAN"]

/-- A text denotes a number of double precision. -/
def isFloat (s : List Char) : Bool :=
  floatWords.contains (String.ofList s) || (decimal? (unsigned s)).any Decimal.isFinite

end Keybinding.Yaml
