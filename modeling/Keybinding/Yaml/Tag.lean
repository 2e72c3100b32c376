import Keybinding.Yaml.Scalar

/-!
# Tags as written

A tag is written as a URI between `!<` and `>`, or as a handle and a suffix. A handle such as `!`,
`!!` or `!name!` stands for the start of a URI. Escapes in a URI denote octets, so handles, suffixes
and the URIs that handles stand for are lists of octets. An escaped octet zero ends its part.
-/

namespace Keybinding.Yaml

/-- A list of octets. -/
abbrev Octets := List UInt8

/-- The octets of a text in UTF-8. -/
def octets (s : List Char) : Octets :=
  s.flatMap String.utf8EncodeChar

/-! ## §1 URIs -/

/-- A character that stands for itself in a URI. Inside a flow collection, a tag that is not in
angle brackets cannot hold commas and brackets. -/
def isUriChar (all : Bool) (c : Char) : Bool :=
  isNameChar c || ";/?:@&=+$.!~*'()".toList.contains c
    || (all && (c == ',' || c == '[' || c == ']'))

/-- The number of octets that the first octet of a character announces after it. -/
def following? (octet : Nat) : Option Nat :=
  if octet < 0x80 then some 0
  else if 0xC0 ≤ octet && octet < 0xE0 then some 1
  else if 0xE0 ≤ octet && octet < 0xF0 then some 2
  else if 0xF0 ≤ octet && octet < 0xF8 then some 3
  else none

/-- The octets still owed after one more, when `owed` are owed before it. -/
def owedAfter? (owed octet : Nat) : Option Nat :=
  match owed with
  | 0 => following? octet
  | n + 1 => if 0x80 ≤ octet && octet < 0xC0 then some n else none

/-- The octets of a URI, of which the first `owed` continue a character, and what follows it. -/
def uriFrom? (all : Bool) (owed : Nat) : List Glyph → Option (Octets × List Glyph)
  | g :: h :: l :: rest =>
    if g.char == '%' then
      match hexNumber? [h.char, l.char] with
      | none => none
      | some octet =>
        (owedAfter? owed octet).bind fun owed' =>
          (uriFrom? all owed' rest).map fun p => (octet.toUInt8 :: p.1, p.2)
    else if owed != 0 then none
    else if isUriChar all g.char then
      (uriFrom? all 0 (h :: l :: rest)).map fun p => (octets [g.char] ++ p.1, p.2)
    else some ([], g :: h :: l :: rest)
  | g :: rest =>
    if g.char == '%' || owed != 0 then none
    else if isUriChar all g.char then
      (uriFrom? all 0 rest).map fun p => (octets [g.char] ++ p.1, p.2)
    else some ([], g :: rest)
  | [] => if owed != 0 then none else some ([], [])

def untilZero (os : Octets) : Octets :=
  os.takeWhile (· != 0)

/-- A URI that is not empty. -/
def uri? (all : Bool) (gs : List Glyph) : Option (Octets × List Glyph) :=
  match uriFrom? all 0 gs with
  | some (os, rest) => if os.isEmpty then none else some (untilZero os, rest)
  | none => none

/-! ## §2 Tags -/

/-- The name characters between the mark `!` of a tag and what may be its second `!`. -/
def handleName (gs : List Glyph) : List Char × List Glyph :=
  (chars (gs.takeWhile fun g => isNameChar g.char), gs.dropWhile fun g => isNameChar g.char)

/-- A tag after its first character, as a handle and a suffix. A tag in angle brackets has no
handle, nor has the mark `!` alone, which is its own suffix. -/
def tag? (flow : Bool) (gs : List Glyph) : Option ((Octets × Octets) × List Glyph) := do
  let (parts, rest) ←
    if charAt? 0 gs == some '<' then do
      let (os, rest) ← uri? true gs.tail
      if charAt? 0 rest == some '>' then pure (([], os), rest.tail) else none
    else
      let (name, rest) := handleName gs
      if charAt? 0 rest == some '!' then do
        let (os, rest) ← uri? false rest.tail
        pure ((octets ('!' :: name ++ ['!']), os), rest)
      else do
        let (os, rest) ← uriFrom? false 0 rest
        let suffix := untilZero (octets name ++ os)
        pure (if suffix.isEmpty then ([], octets ['!']) else (octets ['!'], suffix), rest)
  if atGap rest || (flow && charAt? 0 rest == some ',') then return (parts, rest) else none

/-! ## §3 Names of anchors -/

/-- The name of an anchor or an alias after its mark. -/
def anchorName? (gs : List Glyph) : Option (String × List Glyph) :=
  let (name, rest) := handleName gs
  let ends := atGap rest || (charAt? 0 rest).any "?:,]\x7d%@\x60".toList.contains
  if name.isEmpty || !ends then none else some (String.ofList name, rest)

end Keybinding.Yaml
