import Keybinding.Yaml.Token

/-!
# Trees of a YAML document

The tokens of a text are put together to the tree of its only document. The tree is still written:
scalars are texts with a tag, and an alias is a name. Names are a parameter of the type, since they
are replaced once it is known what they refer to.

Every function that reads tokens gives the tokens after what it has read. Its fuel bounds the depth
of its calls. A token lets at most three calls nest, so three times the number of tokens is enough.
-/

namespace Keybinding.Yaml

/-- What can be said about a node before it. -/
structure Properties (Name : Type) where
  anchor : Option Name
  tag : Option Octets
  deriving DecidableEq, Repr

def Properties.bare {Name : Type} : Properties Name := ⟨none, none⟩

/-- A node of a document. -/
inductive Tree (Name : Type) where
  | alias (name : Name)
  | scalar (props : Properties Name) (plain : Bool) (text : String)
  | sequence (props : Properties Name) (items : List (Tree Name))
  | mapping (props : Properties Name) (entries : List (Tree Name × Tree Name))
  deriving Repr

namespace Tree

/-- What stands where a node is left out. -/
def empty {Name : Type} : Tree Name := .scalar .bare true ""

/-! ## §1 Properties -/

/-- The URIs of the handles of tags. -/
abbrev Handles := List (Octets × Octets)

/-- The handles that need no directive. -/
def standardHandles : Handles :=
  [ (octets ['!'], octets ['!']), (octets ['!', '!'], octets "tag:yaml.org,2002:".toList) ]

def resolveTag? (handles : Handles) (handle suffix : Octets) : Option Octets :=
  if handle.isEmpty then some suffix else (handles.lookup handle).map (· ++ suffix)

/-- The properties of a node, an anchor and a tag in either order. -/
def properties? (handles : Handles) : List Token → Option (Properties String × List Token)
  | .anchor a :: .tag h s :: ts | .tag h s :: .anchor a :: ts =>
    (resolveTag? handles h s).map fun t => (⟨some a, some t⟩, ts)
  | .anchor a :: ts => some (⟨some a, none⟩, ts)
  | .tag h s :: ts => (resolveTag? handles h s).map fun t => (⟨none, some t⟩, ts)
  | ts => some (.bare, ts)

/-- A scalar with its properties. The tag `!` alone says nothing about a scalar that is there. -/
def ofScalar (p : Properties String) (plain : Bool) (text : String) : Tree String :=
  .scalar (if p.tag == some (octets ['!']) then { p with tag := none } else p) plain text

/-- A node of which there is nothing but its properties, which must be some. -/
def emptyNode? (p : Properties String) (ts : List Token) : Option (Tree String × List Token) :=
  if p.anchor.isSome || p.tag.isSome then some (.scalar p true "", ts) else none

/-! ## §2 Nodes -/

/-- The kind of place where a node stands. -/
inductive Place where
  /-- In a flow collection. -/
  | flow
  /-- An item of a block sequence, or the root. -/
  | block
  /-- In a block mapping, where a sequence need not be indented. -/
  | mapping
  deriving DecidableEq, Repr

/-- A token of a list comes next. -/
def atToken (stops : List Token) (ts : List Token) : Bool :=
  ts.head?.any stops.contains

/-- Tokens that show that an item of a block sequence is left out. -/
def afterEntry : List Token := [.entry, .blockEnd]

/-- Tokens that show that an item is left out where the sequence is not indented. -/
def afterLooseEntry : List Token := [.entry, .key, .value, .blockEnd]

/-- Tokens that show that a key or value of a block mapping is left out. -/
def afterBlockPart : List Token := [.key, .value, .blockEnd]

mutual

/-- A node. -/
def node? (handles : Handles) : Nat → Place → List Token → Option (Tree String × List Token)
  | 0, _, _ => none
  | _, _, .alias a :: ts => some (.alias a, ts)
  | fuel + 1, place, ts =>
    match properties? handles ts with
    | none => none
    | some (p, .scalar plain text :: ts) => some (ofScalar p plain text, ts)
    | some (p, .flowSequence :: ts) =>
      (flowItems? handles fuel true ts).map fun r => (.sequence p r.1, r.2)
    | some (p, .flowMapping :: ts) =>
      (flowEntries? handles fuel true ts).map fun r => (.mapping p r.1, r.2)
    | some (p, t :: ts) =>
      if place == .mapping && t == .entry then
        (looseItems? handles fuel (t :: ts)).map fun r => (.sequence p r.1, r.2)
      else if place != .flow && t == .blockSequence then
        (blockItems? handles fuel ts).map fun r => (.sequence p r.1, r.2)
      else if place != .flow && t == .blockMapping then
        (blockEntries? handles fuel ts).map fun r => (.mapping p r.1, r.2)
      else emptyNode? p (t :: ts)
    | some (p, []) => emptyNode? p []

/-- A node that is left out unless one of its tokens comes next. -/
def nodeUnless? (handles : Handles) :
    Nat → List Token → Place → List Token → Option (Tree String × List Token)
  | 0, _, _, _ => none
  | fuel + 1, stops, place, ts =>
    if atToken stops ts then some (empty, ts) else node? handles fuel place ts

/-- The items of a block sequence up to its end. -/
def blockItems? (handles : Handles) :
    Nat → List Token → Option (List (Tree String) × List Token)
  | 0, _ => none
  | fuel + 1, .entry :: ts =>
    (nodeUnless? handles fuel afterEntry .block ts).bind fun (item, ts) =>
      (blockItems? handles fuel ts).map fun r => (item :: r.1, r.2)
  | _, .blockEnd :: ts => some ([], ts)
  | _, _ => none

/-- The items of a block sequence that is not indented. It has no end of its own. -/
def looseItems? (handles : Handles) :
    Nat → List Token → Option (List (Tree String) × List Token)
  | 0, _ => none
  | fuel + 1, .entry :: ts =>
    (nodeUnless? handles fuel afterLooseEntry .block ts).bind fun (item, ts) =>
      (looseItems? handles fuel ts).map fun r => (item :: r.1, r.2)
  | _, ts => some ([], ts)

/-- The value after a key, or nothing where no value is announced. -/
def valueAfterKey? (handles : Handles) :
    Nat → List Token → Place → List Token → Option (Tree String × List Token)
  | 0, _, _, _ => none
  | fuel + 1, stops, place, .value :: ts => nodeUnless? handles fuel stops place ts
  | _, _, _, ts => some (empty, ts)

/-- The entries of a block mapping up to its end. -/
def blockEntries? (handles : Handles) :
    Nat → List Token → Option (List (Tree String × Tree String) × List Token)
  | 0, _ => none
  | fuel + 1, .key :: ts =>
    (nodeUnless? handles fuel afterBlockPart .mapping ts).bind fun (k, ts) =>
      (valueAfterKey? handles fuel afterBlockPart .mapping ts).bind fun (v, ts) =>
        (blockEntries? handles fuel ts).map fun r => ((k, v) :: r.1, r.2)
  | _, .blockEnd :: ts => some ([], ts)
  | _, _ => none

/-- The items of a flow sequence up to its end. An item with a key is a mapping with one entry. -/
def flowItems? (handles : Handles) :
    Nat → Bool → List Token → Option (List (Tree String) × List Token)
  | 0, _, _ => none
  | _, _, .flowSequenceEnd :: ts => some ([], ts)
  | fuel + 1, false, .comma :: ts => flowItems? handles fuel true ts
  | _, false, _ => none
  | fuel + 1, true, .key :: ts =>
    (singlePair? handles fuel ts).bind fun (e, ts) =>
      (flowItems? handles fuel false ts).map fun r => (.mapping .bare [e] :: r.1, r.2)
  | fuel + 1, true, ts =>
    (node? handles fuel .flow ts).bind fun (item, ts) =>
      (flowItems? handles fuel false ts).map fun r => (item :: r.1, r.2)

/-- The only entry of a mapping that is an item of a flow sequence, after its key token. Where the
key is left out, so is the token after it. -/
def singlePair? (handles : Handles) :
    Nat → List Token → Option ((Tree String × Tree String) × List Token)
  | 0, _ => none
  | fuel + 1, ts =>
    let key :=
      if atToken [.value, .comma, .flowSequenceEnd] ts then some (empty, ts.tail)
      else node? handles fuel .flow ts
    key.bind fun (k, ts) =>
      (valueAfterKey? handles fuel [.comma, .flowSequenceEnd] .flow ts).map fun r =>
        ((k, r.1), r.2)

/-- The entries of a flow mapping up to its end. -/
def flowEntries? (handles : Handles) :
    Nat → Bool → List Token → Option (List (Tree String × Tree String) × List Token)
  | 0, _, _ => none
  | _, _, .flowMappingEnd :: ts => some ([], ts)
  | fuel + 1, false, .comma :: ts => flowEntries? handles fuel true ts
  | _, false, _ => none
  | fuel + 1, true, .key :: ts =>
    (nodeUnless? handles fuel [.value, .comma, .flowMappingEnd] .flow ts).bind fun (k, ts) =>
      (valueAfterKey? handles fuel [.comma, .flowMappingEnd] .flow ts).bind fun (v, ts) =>
        (flowEntries? handles fuel false ts).map fun r => ((k, v) :: r.1, r.2)
  | fuel + 1, true, ts =>
    (node? handles fuel .flow ts).bind fun (k, ts) =>
      (flowEntries? handles fuel false ts).map fun r => ((k, empty) :: r.1, r.2)

end

/-! ## §3 Documents -/

/-- What the directives of a document say. -/
structure Directives where
  version : Option (Nat × Nat)
  handles : Handles
  deriving Repr

/-- The directives of a document, and the tokens after them. None may be repeated, and the version
is 1.1 or 1.2. -/
def directives? (d : Directives) : List Token → Option (Directives × List Token)
  | .version major minor :: ts =>
    if d.version.isSome || major != 1 || (minor != 1 && minor != 2) then none
    else directives? { d with version := some (major, minor) } ts
  | .handle h uri :: ts =>
    if (d.handles.lookup h).isSome then none
    else directives? { d with handles := d.handles ++ [(h, uri)] } ts
  | ts => some (d, ts)

/-- A token directs or delimits documents. -/
def isDocumentLevel : Token → Bool
  | .version .. | .handle .. | .documentStart | .documentEnd => true
  | _ => false

/-- The root of a document whose start is marked. -/
def markedRoot? (ts : List Token) : Option (Tree String × List Token) := do
  match ← directives? ⟨none, []⟩ ts with
  | (d, .documentStart :: ts) =>
    if ts.head?.all isDocumentLevel then return (empty, ts)
    node? (d.handles ++ standardHandles) (3 * ts.length + 3) .block ts
  | _ => none

/-- The root of the only document of a text. -/
def ofTokens? (ts : List Token) : Option (Tree String) := do
  let root ←
    match ts with
    | [] => none
    | .version .. :: _ | .handle .. :: _ | .documentStart :: _ => markedRoot? ts
    | ts => node? standardHandles (3 * ts.length + 3) .block ts
  if root.2.all (· == .documentEnd) then some root.1 else none

end Tree

end Keybinding.Yaml
