/-!
# Characters in their places

Indentation carries meaning in YAML, so every character is read together with its line and column.
`glyphs?` places the characters of a text. It also unifies line ends, so that a carriage return, a
line feed, both in a row and a next-line control are all one `'\n'`. The line separator and the
paragraph separator end lines as well but keep their identity. A text with a character that YAML
forbids has no glyphs.
-/

namespace Keybinding.Yaml

/-- A character of a text at its place. -/
structure Glyph where
  char : Char
  /-- The number of characters before it in the text. -/
  index : Nat
  /-- The number of line ends before it. -/
  line : Nat
  /-- The number of characters before it on its line. -/
  column : Nat
  deriving DecidableEq, Repr

/-! ## §1 Characters -/

/-- A character that a text may hold. -/
def isAllowed (c : Char) : Bool :=
  let n := c.toNat
  n == 0x09 || n == 0x0A || n == 0x0D || (0x20 ≤ n && n ≤ 0x7E) || n == 0x85
    || (0xA0 ≤ n && n ≤ 0xFFFD) || 0x10000 ≤ n

/-- A character that ends a line, after line ends are unified. -/
def isBreak (c : Char) : Bool :=
  c == '\n' || c == '\u2028' || c == '\u2029'

/-- A space or a tab. -/
def isBlank (c : Char) : Bool :=
  c == ' ' || c == '\t'

/-- A character of the names of anchors, tag handles and directives. -/
def isNameChar (c : Char) : Bool :=
  c.isAlphanum || c == '_' || c == '-'

/-! ## §2 Placing -/

/-- A text that starts at the given place, as glyphs. -/
def place? (index line column : Nat) : List Char → Option (List Glyph)
  | [] => some []
  | '\r' :: '\n' :: rest =>
    (place? (index + 2) (line + 1) 0 rest).map (⟨'\n', index, line, column⟩ :: ·)
  | c :: rest =>
    if !isAllowed c then none
    else if c == '\r' || c == '\x85' then
      (place? (index + 1) (line + 1) 0 rest).map (⟨'\n', index, line, column⟩ :: ·)
    else if isBreak c then
      (place? (index + 1) (line + 1) 0 rest).map (⟨c, index, line, column⟩ :: ·)
    else
      (place? (index + 1) line (column + 1) rest).map (⟨c, index, line, column⟩ :: ·)

def glyphs? (text : List Char) : Option (List Glyph) :=
  place? 0 0 0 text

/-! ## §3 Looking ahead -/

/-- The characters of a list of glyphs. -/
def chars (gs : List Glyph) : List Char :=
  gs.map (·.char)

/-- The character that `n` others come before. -/
def charAt? (n : Nat) (gs : List Glyph) : Option Char :=
  gs[n]?.map (·.char)

/-- The text goes on with a blank, or its line ends. -/
def atGap (gs : List Glyph) : Bool :=
  match gs with
  | [] => true
  | g :: _ => isBlank g.char || isBreak g.char

def atLineEnd (gs : List Glyph) : Bool :=
  match gs with
  | [] => true
  | g :: _ => isBreak g.char

/-- A line starts with three times the same mark, `-` or `.`, and a gap. There a document starts or
ends. -/
def atDocumentMark (mark : Char) : List Glyph → Bool
  | a :: b :: c :: rest =>
    a.column == 0 && a.char == mark && b.char == mark && c.char == mark && atGap rest
  | _ => false

/-- A document starts or ends here. -/
def atDocumentEdge (gs : List Glyph) : Bool :=
  atDocumentMark '-' gs || atDocumentMark '.' gs

end Keybinding.Yaml
