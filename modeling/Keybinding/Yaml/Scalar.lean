import Keybinding.Yaml.Glyph

/-!
# Scalars as written

A scalar is a piece of text. It is written plainly, between quotes, or as a block of lines. Each
reader below takes the glyphs from the first character of the scalar on and gives its text and the
glyphs after it. `none` stands for a scalar that is malformed. The fuel of a reader is enough if it
is at least the number of the glyphs.

Inside plain and quoted scalars a `Gap` of white space can go over several lines. It is then folded:
one line end counts as a space, and of more than one the first is dropped.
-/

namespace Keybinding.Yaml

/-! ## §1 Gaps -/

/-- White space that goes on over line ends. -/
def isGapChar (c : Char) : Bool :=
  isBlank c || isBreak c

/-- The text of the line ends of a gap. A first line end of the kind `'\n'` is folded away. -/
def foldBreaks : List Char → List Char
  | [] => []
  | b :: more => if b == '\n' then (if more.isEmpty then [' '] else more) else b :: more

/-- The text that a gap inside a scalar stands for. -/
def foldGap (gap : List Char) : List Char :=
  match gap.filter isBreak with
  | [] => gap
  | breaks => foldBreaks breaks

/-! ## §2 Plain scalars -/

/-- A character that ends a plain scalar inside a flow collection. -/
def isFlowIndicator (c : Char) : Bool :=
  c == ',' || c == '[' || c == ']' || c == '\x7b' || c == '\x7d'

/-- A plain scalar can go on with the character that the text starts with. -/
def continuesWord (flow : Bool) (g : Glyph) (rest : List Glyph) : Bool :=
  !isGapChar g.char && !(g.char == ':' && atGap rest) && !(flow && isFlowIndicator g.char)

/-- A colon inside a flow collection may not be followed by an indicator. -/
def forbiddenColon (flow : Bool) (g : Glyph) (rest : List Glyph) : Bool :=
  flow && g.char == ':' && (charAt? 0 rest).any fun c => isFlowIndicator c || c == '?'

/-- The part of a plain scalar up to the next gap. -/
def plainWord? (flow : Bool) : List Glyph → Option (List Char × List Glyph)
  | [] => some ([], [])
  | g :: rest =>
    if isGapChar g.char then some ([], g :: rest)
    else if forbiddenColon flow g rest then none
    else if continuesWord flow g rest then
      (plainWord? flow rest).map fun p => (g.char :: p.1, p.2)
    else some ([], g :: rest)

/-- After a line end, tabs are no indentation: one that stands left of `indent` is refused. -/
def hasTabInIndent (indent : Nat) (gap : List Glyph) : Bool :=
  (gap.dropWhile fun g => !isBreak g.char).any fun g => g.char == '\t' && g.column < indent

/-- A plain scalar as it is read: its text, whether it ended after a line end, and what follows. -/
structure Plain where
  text : List Char
  endsLine : Bool
  rest : List Glyph

/-- The rest of a plain scalar. `gap` is the white space before it and counts only if more of the
scalar follows. A scalar in a block collection ends where a line is indented less than `indent`. -/
def plainFrom? (flow : Bool) (indent : Nat) : Nat → List Char → List Glyph → Option Plain
  | 0, gap, gs => some ⟨[], gap.any isBreak, gs⟩
  | fuel + 1, gap, gs =>
    if atDocumentEdge gs || charAt? 0 gs == some '#' then some ⟨[], gap.any isBreak, gs⟩
    else
      match plainWord? flow gs with
      | none => none
      | some ([], rest) => some ⟨[], gap.any isBreak, rest⟩
      | some (word, rest) =>
        let space := rest.takeWhile fun g => isGapChar g.char
        let rest' := rest.dropWhile fun g => isGapChar g.char
        let text := foldGap gap ++ word
        let breaks := (chars space).any isBreak
        if breaks && hasTabInIndent indent space then none
        else if space.isEmpty || (!flow && rest'.head?.any (·.column < indent)) then
          some ⟨text, breaks, rest'⟩
        else
          (plainFrom? flow indent fuel (chars space) rest').map fun p =>
            { p with text := text ++ p.text }

def plain? (flow : Bool) (indent fuel : Nat) (gs : List Glyph) : Option Plain :=
  plainFrom? flow indent fuel [] gs

/-! ## §3 Quoted scalars -/

/-- The value of a hexadecimal digit. -/
def hexDigit? (c : Char) : Option Nat :=
  if c.isDigit then some (c.toNat - '0'.toNat)
  else if 'a' ≤ c ∧ c ≤ 'f' then some (c.toNat - 'a'.toNat + 10)
  else if 'A' ≤ c ∧ c ≤ 'F' then some (c.toNat - 'A'.toNat + 10)
  else none

/-- The number that hexadecimal digits denote. -/
def hexNumber? (ds : List Char) : Option Nat :=
  ds.foldlM (fun n d => (hexDigit? d).map (16 * n + ·)) 0

/-- The character of a code point, surrogates excluded. -/
def character? (n : Nat) : Option Char :=
  if n.isValidChar then some (Char.ofNat n) else none

/-- The number of hexadecimal digits that follow an escape letter. -/
def escapeWidth : Char → Nat
  | 'x' => 2
  | 'u' => 4
  | 'U' => 8
  | _ => 0

/-- The character that an escape letter stands for by itself. -/
def escape? : Char → Option Char
  | '0' => some '\x00'
  | 'a' => some '\x07'
  | 'b' => some '\x08'
  | 't' | '\t' => some '\t'
  | 'n' => some '\n'
  | 'v' => some '\x0b'
  | 'f' => some '\x0c'
  | 'r' => some '\r'
  | 'e' => some '\x1b'
  | ' ' => some ' '
  | '"' => some '"'
  | '/' => some '/'
  | '\\' => some '\\'
  | 'N' => some '\u0085'
  | '_' => some '\u00a0'
  | 'L' => some '\u2028'
  | 'P' => some '\u2029'
  | _ => none

/-- What ends a stretch of a quoted scalar without white space. -/
inductive Stop where
  /-- The closing quote. -/
  | quote
  /-- White space, or the end of the text. -/
  | gap
  /-- A line end that a backslash takes away. -/
  | joined
  deriving DecidableEq, Repr

/-- The part of a single-quoted scalar up to the next gap or its end. -/
def singleWord : List Glyph → List Char × Stop × List Glyph
  | [] => ([], .gap, [])
  | g :: rest =>
    if isGapChar g.char then ([], .gap, g :: rest)
    else if g.char == '\'' then
      match rest with
      | h :: rest' =>
        if h.char == '\'' then
          let (w, s, r) := singleWord rest'
          ('\'' :: w, s, r)
        else ([], .quote, h :: rest')
      | [] => ([], .quote, [])
    else
      let (w, s, r) := singleWord rest
      (g.char :: w, s, r)

/-- The part of a double-quoted scalar up to the next gap or its end. -/
def doubleWord? : Nat → List Glyph → Option (List Char × Stop × List Glyph)
  | 0, gs => some ([], .gap, gs)
  | _, [] => some ([], .gap, [])
  | fuel + 1, g :: rest =>
    let go (c : Char) (rest : List Glyph) :=
      (doubleWord? fuel rest).map fun (w, s, r) => (c :: w, s, r)
    if isGapChar g.char then some ([], .gap, g :: rest)
    else if g.char == '"' then some ([], .quote, rest)
    else if g.char == '\\' then
      match rest with
      | [] => none
      | e :: rest' =>
        if isBreak e.char then some ([], .joined, rest')
        else
          let width := escapeWidth e.char
          if width == 0 then (escape? e.char).bind (go · rest')
          else
            let digits := chars (rest'.take width)
            if digits.length < width then none
            else ((hexNumber? digits).bind character?).bind (go · (rest'.drop width))
    else go g.char rest

/-- The rest of a quoted scalar. No line of it may look like the edge of a document. -/
def quotedFrom? (word : List Glyph → Option (List Char × Stop × List Glyph)) :
    Nat → List Glyph → Option (List Char × List Glyph)
  | 0, _ => none
  | fuel + 1, gs =>
    if gs.isEmpty || atDocumentEdge gs then none
    else
      match word gs with
      | none => none
      | some (w, .quote, rest) => some (w, rest)
      | some (w, stop, rest) =>
        let space := chars (rest.takeWhile fun g => isGapChar g.char)
        let gap := if stop == .joined then space.filter isBreak else foldGap space
        (quotedFrom? word fuel (rest.dropWhile fun g => isGapChar g.char)).map fun p =>
          (w ++ gap ++ p.1, p.2)

/-- A single-quoted scalar, from the character after its opening quote on. -/
def singleQuoted? (fuel : Nat) (gs : List Glyph) : Option (List Char × List Glyph) :=
  quotedFrom? (some ∘ singleWord) (fuel + 1) gs

/-- A double-quoted scalar, from the character after its opening quote on. -/
def doubleQuoted? (fuel : Nat) (gs : List Glyph) : Option (List Char × List Glyph) :=
  quotedFrom? (doubleWord? fuel) (fuel + 1) gs

/-! ## §4 Block scalars -/

/-- What becomes of the line ends at the end of a block scalar. -/
inductive Chomping where
  /-- All are dropped. -/
  | strip
  /-- The first stays. -/
  | clip
  /-- All stay. -/
  | keep
  deriving DecidableEq, Repr

def chomping? : Char → Option Chomping
  | '+' => some .keep
  | '-' => some .strip
  | _ => none

/-- The header of a block scalar: chomping and explicit indentation, in either order. -/
structure Header where
  chomping : Chomping
  indent : Option Nat

/-- The digit for the indentation of a block scalar, which cannot be zero. -/
def indentDigit? (gs : List Glyph) : Option (Option Nat × List Glyph) :=
  match gs with
  | [] => some (none, [])
  | g :: rest =>
    if !g.char.isDigit then some (none, g :: rest)
    else if g.char == '0' then none
    else some (some (g.char.toNat - '0'.toNat), rest)

/-- The mark for chomping, if there is one. -/
def chompingMark (gs : List Glyph) : Option Chomping × List Glyph :=
  match gs with
  | [] => (none, [])
  | g :: rest =>
    match chomping? g.char with
    | some c => (some c, rest)
    | none => (none, g :: rest)

/-- The header of a block scalar after its first character. -/
def header? (gs : List Glyph) : Option (Header × List Glyph) := do
  match chompingMark gs with
  | (some c, rest) =>
    let (indent, rest) ← indentDigit? rest
    return (⟨c, indent⟩, rest)
  | (none, _) =>
    let (indent, rest) ← indentDigit? gs
    if indent.isNone then return (⟨.clip, none⟩, rest)
    let (c, rest) := chompingMark rest
    return (⟨c.getD .clip, indent⟩, rest)

/-- The rest of a line that may hold nothing but a comment, and its line end. -/
def endLine? (gs : List Glyph) : Option (List Glyph) :=
  let rest := gs.dropWhile fun g => isBlank g.char
  let rest :=
    if charAt? 0 rest == some '#' then rest.dropWhile fun g => !isBreak g.char else rest
  if atLineEnd rest then some rest.tail else none

/-- The empty lines before a line of a block scalar: their line ends, the greatest column that they
and the indentation of that line reach, and what follows. Where `indent` is not known yet, all
spaces are indentation. A tab in the indentation is refused. -/
def emptyLines? (indent : Option Nat) (reached : Nat) :
    List Glyph → Option (List Char × Nat × List Glyph)
  | [] => some ([], reached, [])
  | g :: rest =>
    let inside := indent.all (g.column < ·)
    if inside && g.char == ' ' then emptyLines? indent reached rest
    else if inside && g.char == '\t' then none
    else if isBreak g.char then
      (emptyLines? indent (max reached g.column) rest).map fun p => (g.char :: p.1, p.2)
    else some ([], max reached g.column, g :: rest)

/-- What is known of a block scalar between two of its lines. -/
structure LineGap where
  /-- The end of the line before. -/
  lineEnd : List Char
  /-- The ends of the empty lines after it. -/
  empty : List Char
  /-- The line before starts with a blank. -/
  blank : Bool

/-- The text between two lines. In a folded scalar the line end between two lines that do not start
with a blank is folded. -/
def LineGap.text (e : LineGap) (folded blank : Bool) : List Char :=
  if folded && e.lineEnd == ['\n'] && !e.blank && !blank then
    if e.empty.isEmpty then [' '] else e.empty
  else e.lineEnd ++ e.empty

/-- The text of the lines of a block scalar that are indented by `indent`, with the gap before them,
and the gap after them. -/
def blockLines? (folded : Bool) (indent : Nat) :
    Nat → LineGap → List Glyph → Option (List Char × LineGap × List Glyph)
  | 0, e, gs => some ([], e, gs)
  | _, e, [] => some ([], e, [])
  | fuel + 1, e, g :: rest =>
    if g.column != indent then some ([], e, g :: rest)
    else
      let line := (g :: rest).takeWhile fun g => !isBreak g.char
      let rest' := (g :: rest).dropWhile fun g => !isBreak g.char
      let blank := isBlank g.char
      match emptyLines? (some indent) 0 rest'.tail with
      | none => none
      | some (empty, _, rest'') =>
        (blockLines? folded indent fuel ⟨chars (rest'.take 1), empty, blank⟩ rest'').map fun p =>
          (e.text folded blank ++ chars line ++ p.1, p.2)

/-- A block scalar after its first character. `outer` is one more than the indentation of the
collection around it. -/
def block? (folded : Bool) (outer fuel : Nat) (gs : List Glyph) :
    Option (List Char × List Glyph) := do
  let (header, rest) ← header? gs
  let rest ← endLine? rest
  let explicit := header.indent.map fun n => (outer - 1) + n
  let (empty, reached, rest) ← emptyLines? explicit 0 rest
  let indent := explicit.getD (max 1 (max outer reached))
  let (text, e, rest) ← blockLines? folded indent fuel ⟨[], empty, false⟩ rest
  let ending :=
    match header.chomping with
    | .strip => []
    | .clip => e.lineEnd
    | .keep => e.lineEnd ++ e.empty
  return (text ++ ending, rest)

end Keybinding.Yaml
