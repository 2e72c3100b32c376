import Keybinding.Yaml.Tag

/-!
# Tokens of a YAML text

Besides scalars, properties and indicators, the tokens of a text make its indentation explicit:
block collections have tokens where they start and end. A mapping key is announced by a token of its
own, also where the text announces it only by the colon after it. To that end the lexer remembers,
for each level of flow collections, the last place that may turn out to be a key (`Candidate`). Such
a key must be on one line with its colon, at most 1024 characters before it.

Block collections are tracked by their columns (`Lexer.columns`). A line that is indented less ends
the collections further right.
-/

namespace Keybinding.Yaml

/-- A lexical unit of a YAML text. -/
inductive Token where
  /-- The directive that gives the version of the language. -/
  | version (major minor : Nat)
  /-- The directive that gives a tag handle its meaning. -/
  | handle (handle uri : Octets)
  | documentStart
  | documentEnd
  | blockSequence
  | blockMapping
  | blockEnd
  | flowSequence
  | flowSequenceEnd
  | flowMapping
  | flowMappingEnd
  /-- The dash before an item of a block sequence. -/
  | entry
  | comma
  | key
  | value
  | alias (name : String)
  | anchor (name : String)
  | tag (handle suffix : Octets)
  /-- A scalar, plain or not. -/
  | scalar (plain : Bool) (text : String)
  deriving DecidableEq, Repr

/-! ## §1 The lexer between two tokens -/

/-- A place where a mapping key may have started. -/
structure Candidate where
  /-- The place stands at the indentation of a block mapping, where only a key can stand. -/
  required : Bool
  /-- The number of tokens before it. -/
  position : Nat
  start : Glyph
  deriving DecidableEq, Repr

/-- A candidate is on an earlier line than `g`, or too far before it, to be a key. -/
def Candidate.isStale (c : Candidate) (g : Glyph) : Bool :=
  c.start.line < g.line || c.start.index + 1024 < g.index

/-- The state of the lexer. -/
structure Lexer where
  /-- The tokens so far, the last one first. -/
  tokens : List Token
  /-- The number of tokens so far. -/
  count : Nat
  /-- The columns of the open block collections, the innermost first. -/
  columns : List Nat
  /-- The candidate for a key at each level of flow collections, the innermost first. The last one
  belongs to the block level. -/
  candidates : List (Option Candidate)
  /-- A key may start here. -/
  keyAllowed : Bool
  deriving Repr

namespace Lexer

/-- The lexer at the start of a text. -/
def start : Lexer := ⟨[], 0, [], [none], true⟩

/-- The lexer is inside a flow collection. -/
def inFlow (s : Lexer) : Bool :=
  match s.candidates with
  | _ :: _ :: _ => true
  | _ => false

/-- The least indentation inside the innermost block collection. -/
def indent (s : Lexer) : Nat := (s.columns.head?.map (· + 1)).getD 0

/-- The lexer after one more token. -/
def push (s : Lexer) (t : Token) : Lexer :=
  { s with tokens := t :: s.tokens, count := s.count + 1 }

/-- The lexer with one more token after the first `position` ones. -/
def insertAt (s : Lexer) (position : Nat) (t : Token) : Lexer :=
  let later := s.count - position
  { s with tokens := s.tokens.take later ++ t :: s.tokens.drop later, count := s.count + 1 }

/-- The lexer with key allowed or not. -/
def allowKey (s : Lexer) (allowed : Bool) : Lexer :=
  { s with keyAllowed := allowed }

/-! ## §2 Candidates -/

/-- The lexer without the innermost candidate. One that is required cannot be given up. -/
def dropCandidate? (s : Lexer) : Option Lexer :=
  match s.candidates with
  | some c :: outer =>
    if c.required then none else some { s with candidates := none :: outer }
  | _ => some s

/-- The lexer with a candidate at the glyph `g`, if a key is allowed there. -/
def saveCandidate? (s : Lexer) (g : Glyph) : Option Lexer :=
  if s.keyAllowed then do
    let s ← s.dropCandidate?
    let c : Candidate := ⟨!s.inFlow && s.columns.head? == some g.column, s.count, g⟩
    return { s with candidates := some c :: s.candidates.tail }
  else some s

/-! ## §3 Indentation -/

/-- The lexer after the end of the block collections to the right of a column. -/
def unroll (s : Lexer) (column : Nat) : Lexer :=
  if s.inFlow then s
  else
    let gone := s.columns.takeWhile (column < ·)
    { s with
      tokens := List.replicate gone.length .blockEnd ++ s.tokens
      count := s.count + gone.length
      columns := s.columns.dropWhile (column < ·) }

/-- The lexer after the end of all block collections. -/
def unrollAll (s : Lexer) : Lexer :=
  if s.inFlow then s
  else
    { s with
      tokens := List.replicate s.columns.length .blockEnd ++ s.tokens
      count := s.count + s.columns.length
      columns := [] }

/-- The lexer with a block collection at `column`, which starts with the token `t` after the first
`position` tokens unless one is open there already. -/
def roll (s : Lexer) (column position : Nat) (t : Token) : Lexer :=
  if s.inFlow || s.columns.head?.any (column ≤ ·) then s
  else { s.insertAt position t with columns := column :: s.columns }

/-! ## §4 Indicators -/

/-- A flow collection starts at `g`. -/
def openFlow? (s : Lexer) (g : Glyph) (t : Token) : Option Lexer := do
  let s ← s.saveCandidate? g
  return ({ s with candidates := none :: s.candidates }.allowKey true).push t

/-- A flow collection ends. -/
def closeFlow? (s : Lexer) (t : Token) : Option Lexer := do
  let s ← s.dropCandidate?
  let s := if s.inFlow then { s with candidates := s.candidates.tail } else s
  return (s.allowKey false).push t

/-- An item of a flow collection ends. -/
def comma? (s : Lexer) : Option Lexer := do
  return ((← s.dropCandidate?).allowKey true).push .comma

/-- A collection in a block may start only where a key may. -/
def rollAt? (s : Lexer) (g : Glyph) (t : Token) : Option Lexer :=
  if s.inFlow then some s
  else if s.keyAllowed then some (s.roll g.column s.count t)
  else none

/-- An item of a block sequence starts at `g`. -/
def dash? (s : Lexer) (g : Glyph) : Option Lexer := do
  let s ← s.rollAt? g .blockSequence
  return ((← s.dropCandidate?).allowKey true).push .entry

/-- A key is announced at `g`. -/
def key? (s : Lexer) (g : Glyph) : Option Lexer := do
  let s ← s.rollAt? g .blockMapping
  return ((← s.dropCandidate?).allowKey !s.inFlow).push .key

/-- A value is announced, and its key is at the place of a candidate. -/
def valueOf (s : Lexer) (c : Candidate) : Lexer :=
  let s := (s.insertAt c.position .key).roll c.start.column c.position .blockMapping
  ({ s with candidates := none :: s.candidates.tail }.allowKey false).push .value

/-- A value is announced at `g`. If there is a candidate that is not stale, it is the key. -/
def value? (s : Lexer) (g : Glyph) : Option Lexer := do
  match s.candidates.head?.join.filter (!·.isStale g) with
  | some c => return s.valueOf c
  | none =>
    let s ← (← s.dropCandidate?).rollAt? g .blockMapping
    return (s.allowKey !s.inFlow).push .value

/-- The lexer at a line of its own that directs or delimits documents. -/
def toDocumentLevel? (s : Lexer) : Option Lexer := do
  return (← s.unrollAll.dropCandidate?).allowKey false

/-- A scalar, alias or property that starts at `g`. -/
def content? (s : Lexer) (g : Glyph) (t : Token) : Option Lexer := do
  return ((← s.saveCandidate? g).allowKey false).push t

end Lexer

/-! ## §5 Directives -/

/-- A number of at most nine digits. -/
def versionNumber? (gs : List Glyph) : Option (Nat × List Glyph) :=
  let digits := chars (gs.takeWhile fun g => g.char.isDigit)
  if digits.isEmpty || 9 < digits.length then none
  else some (digits.foldl (fun n d => 10 * n + (d.toNat - '0'.toNat)) 0,
    gs.dropWhile fun g => g.char.isDigit)

/-- A text without the blanks it starts with. -/
def skipBlanks (gs : List Glyph) : List Glyph :=
  gs.dropWhile fun g => isBlank g.char

def versionDirective? (gs : List Glyph) : Option (Token × List Glyph) := do
  let (major, rest) ← versionNumber? (skipBlanks gs)
  if charAt? 0 rest != some '.' then none
  let (minor, rest) ← versionNumber? rest.tail
  return (.version major minor, rest)

/-- The handle and the URI in a directive. -/
def handleDirective? (gs : List Glyph) : Option (Token × List Glyph) := do
  let gs := skipBlanks gs
  if charAt? 0 gs != some '!' then none
  let (name, rest) := handleName gs.tail
  let (handle, rest) ←
    if charAt? 0 rest == some '!' then pure ('!' :: name ++ ['!'], rest.tail)
    else if name.isEmpty then pure (['!'], rest)
    else none
  if !(charAt? 0 rest).any isBlank then none
  let (uri, rest) ← uri? true (skipBlanks rest)
  if atGap rest then return (.handle (octets handle) uri, rest) else none

/-- A directive after its first character. -/
def directive? (gs : List Glyph) : Option (Token × List Glyph) := do
  let (name, rest) := handleName gs
  if !atGap rest then none
  let (t, rest) ←
    if name == "YAML".toList then versionDirective? rest
    else if name == "TAG".toList then handleDirective? rest
    else none
  return (t, ← endLine? rest)

/-! ## §6 Texts -/

/-- The text from its next token on, and whether a key is allowed there. White space, comments and
line ends are passed over, also a byte order mark at the start of a line. Tabs can stand only where
they are no indentation. The argument `comment` says that a comment is being passed over. -/
def skipToToken (flow : Bool) (keyAllowed comment : Bool) : List Glyph → Bool × List Glyph
  | [] => (keyAllowed, [])
  | g :: rest =>
    if isBreak g.char then skipToToken flow (keyAllowed || !flow) false rest
    else if comment then skipToToken flow keyAllowed true rest
    else if g.char == '\ufeff' && g.column == 0 then skipToToken flow keyAllowed false rest
    else if g.char == ' ' || (g.char == '\t' && (flow || !keyAllowed)) then
      skipToToken flow keyAllowed false rest
    else if g.char == '#' then skipToToken flow keyAllowed true rest
    else (keyAllowed, g :: rest)

/-- A plain scalar can start with the character `g`. -/
def startsPlain (flow : Bool) (g : Glyph) (rest : List Glyph) : Bool :=
  !(isGapChar g.char || "-?:,[]\x7b\x7d#&*!|>'\"%@\x60".toList.contains g.char)
    || (g.char == '-' && !(charAt? 0 rest).any isBlank)
    || (!flow && (g.char == '?' || g.char == ':') && !atGap rest)

namespace Lexer

/-- A quoted or block scalar that has been read. -/
def text? (s : Lexer) (g : Glyph) (r : Option (List Char × List Glyph)) :
    Option (Lexer × List Glyph) := do
  let (text, rest) ← r
  return (← s.content? g (.scalar false (String.ofList text)), rest)

/-- A block scalar has no candidate and lets a key follow. -/
def blockText? (s : Lexer) (folded : Bool) (fuel : Nat) (rest : List Glyph) :
    Option (Lexer × List Glyph) := do
  let s ← s.dropCandidate?
  let (text, rest) ← block? folded s.indent fuel rest
  return ((s.allowKey true).push (.scalar false (String.ofList text)), rest)

/-- A plain scalar. After one that ends with its line, a key may follow. -/
def plainText? (s : Lexer) (fuel : Nat) (g : Glyph) (rest : List Glyph) :
    Option (Lexer × List Glyph) := do
  let p ← plain? s.inFlow s.indent fuel (g :: rest)
  let s ← s.content? g (.scalar true (String.ofList p.text))
  return (s.allowKey p.endsLine, p.rest)

/-- The lexer after the token that starts with the character `g`. The fuel bounds the length of the
text. -/
def next? (s : Lexer) (fuel : Nat) (g : Glyph) (rest : List Glyph) : Option (Lexer × List Glyph) :=
  let gs := g :: rest
  let flow := s.inFlow
  if g.column == 0 && g.char == '%' then do
    let s ← s.toDocumentLevel?
    let (t, rest) ← directive? rest
    return (s.push t, rest)
  else if atDocumentMark '-' gs then do
    return ((← s.toDocumentLevel?).push .documentStart, gs.drop 3)
  else if atDocumentMark '.' gs then do
    return ((← s.toDocumentLevel?).push .documentEnd, gs.drop 3)
  else
    match g.char with
    | '[' => do return (← s.openFlow? g .flowSequence, rest)
    | '\x7b' => do return (← s.openFlow? g .flowMapping, rest)
    | ']' => do return (← s.closeFlow? .flowSequenceEnd, rest)
    | '\x7d' => do return (← s.closeFlow? .flowMappingEnd, rest)
    | ',' => do return (← s.comma?, rest)
    | '*' => do
      let (name, rest) ← anchorName? rest
      return (← s.content? g (.alias name), rest)
    | '&' => do
      let (name, rest) ← anchorName? rest
      return (← s.content? g (.anchor name), rest)
    | '!' => do
      let ((handle, suffix), rest) ← tag? flow rest
      return (← s.content? g (.tag handle suffix), rest)
    | '\'' => s.text? g (singleQuoted? fuel rest)
    | '"' => s.text? g (doubleQuoted? fuel rest)
    | c =>
      if c == '-' && atGap rest then do return (← s.dash? g, rest)
      else if c == '?' && (flow || atGap rest) then do return (← s.key? g, rest)
      else if c == ':' && (flow || atGap rest) then do return (← s.value? g, rest)
      else if c == '|' && !flow then s.blockText? false fuel rest
      else if c == '>' && !flow then s.blockText? true fuel rest
      else if startsPlain flow g rest then s.plainText? fuel g rest
      else none

/-- The tokens of a text with at most `fuel` characters. -/
def run? : Nat → Lexer → List Glyph → Option (List Token)
  | fuel, s, gs =>
    match skipToToken s.inFlow s.keyAllowed false gs, fuel with
    | (_, []), _ => do return (← s.unrollAll.dropCandidate?).tokens.reverse
    | (_, _ :: _), 0 => none
    | (keyAllowed, g :: rest), fuel + 1 => do
      let (s, rest) ← ((s.allowKey keyAllowed).unroll g.column).next? (fuel + 1) g rest
      run? fuel s rest

end Lexer

def tokens? (text : List Char) : Option (List Token) := do
  let gs ← glyphs? text
  Lexer.start.run? gs.length gs

end Keybinding.Yaml
