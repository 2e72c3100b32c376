import Keybinding.Yaml.Anchor
import Keybinding.Yaml.Number

/-!
# Nodes

A node is what a document means: its aliases are replaced by what they refer to, and its scalars are
told apart by kind. Plain scalars are null, Booleans and numbers where they look like it, all other
scalars are strings, and tags can ask for a kind. A document means nothing if it has a tag of its
own making, an integer of more than 64 bits, collections nested more than 128 deep, or aliases that
are followed more than a hundred times its size.
-/

namespace Keybinding.Yaml

/-- What a document or a part of it means. -/
inductive Node where
  | null
  | bool (b : Bool)
  | integer (i : Integer)
  /-- A number that is no integer, as written. -/
  | float (literal : String)
  | string (s : String)
  | sequence (items : List Node)
  | mapping (entries : List (Node × Node))
  deriving Repr

/-! ## §1 Scalars -/

def isNullWord (s : String) : Bool :=
  ["null", "Null", "NULL", "~"].contains s

def boolWord? (s : String) : Option Bool :=
  if ["true", "True", "TRUE"].contains s then some true
  else if ["false", "False", "FALSE"].contains s then some false
  else none

/-- A kind of scalar that a tag can ask for. -/
inductive Kind where
  | null
  | bool
  | int
  | float
  deriving DecidableEq, Repr

def Kind.uri (k : Kind) : Octets :=
  octets ("tag:yaml.org,2002:".toList ++
    match k with
    | null => "null".toList
    | bool => "bool".toList
    | int => "int".toList
    | float => "float".toList)

/-- The kind that a tag asks for. -/
def Kind.ofUri? (uri : Octets) : Option Kind :=
  [Kind.null, .bool, .int, .float].find? (·.uri == uri)

/-- A tag is local to the document. -/
def isLocalTag (uri : Octets) : Bool :=
  uri.head? == some 0x21

/-- A tag of a document's own making: one that is local and a text. -/
def isOwnTag (uri : Octets) : Bool :=
  isLocalTag uri && ByteArray.validateUTF8 ⟨uri.toArray⟩

namespace Node

/-- An integer, unless it has too many bits. -/
def ofInteger? (i : Integer) : Option Node :=
  if i.isWord then some (.integer i) else none

/-- The integer that a text denotes, if it has at most 128 bits. -/
def doubleWord? (s : List Char) : Option Integer :=
  (integer? s).filter Integer.isDoubleWord

/-- A plain scalar that no tag says anything about. -/
def ofPlain? (s : String) : Option Node :=
  if s.isEmpty || isNullWord s then some .null
  else
    match boolWord? s, doubleWord? s.toList with
    | some b, _ => some (.bool b)
    | none, some i => ofInteger? i
    | none, none =>
      if !hasLeadingZero s.toList && isFloat s.toList then some (.float s) else some (.string s)

/-- A scalar of the kind that a tag asks for. -/
def ofKind? (s : String) : Kind → Option Node
  | .null => if isNullWord s then some .null else none
  | .bool => (boolWord? s).map .bool
  | .int => (doubleWord? s.toList).bind ofInteger?
  | .float => if isFloat s.toList then some (.float s) else none

def ofScalar? (tag : Option Octets) (plain : Bool) (s : String) : Option Node :=
  match tag with
  | none => if plain then ofPlain? s else some (.string s)
  | some uri =>
    if isOwnTag uri then none
    else
      match Kind.ofUri? uri with
      | some k => ofKind? s k
      | none => if isLocalTag uri && plain then ofPlain? s else some (.string s)

/-! ## §2 Collections and aliases -/

/-- How deep collections can be nested. -/
def maxDepth : Nat := 128

/-- How often aliases can be followed, for each unit of the size of the document. -/
def followsPerUnit : Nat := 100

/-- The node that an alias refers to, in exchange for one of the `follows` that are left. Other
nodes refer to themselves. -/
def follow? (targets : List (Nat × Tree Nat)) (follows : Nat) :
    Tree Nat → Option (Tree Nat × Nat)
  | .alias n =>
    match follows with
    | 0 => none
    | left + 1 => (targets.lookup n).map (·, left)
  | t => some (t, follows)

/-- The meaning of each node of a list, where each one passes on what is left to the next. -/
def ofEach? (ofOne : α → Nat → Option (β × Nat)) : List α → Nat → Option (List β × Nat)
  | [], left => some ([], left)
  | x :: xs, left =>
    match ofOne x left with
    | none => none
    | some (y, left) => (ofEach? ofOne xs left).map fun r => (y :: r.1, r.2)

/-- The meaning of a tree in which collections can be nested `depth` deep, and what is left of the
`follows` that it may use. -/
def ofTree? (targets : List (Nat × Tree Nat)) (depth : Nat) (t : Tree Nat) (follows : Nat) :
    Option (Node × Nat) :=
  match follow? targets follows t, depth with
  | some (.scalar p plain s, left), _ => (ofScalar? p.tag plain s).map (·, left)
  | some (.sequence p items, left), depth + 1 =>
    if p.tag.any isOwnTag then none
    else (ofEach? (ofTree? targets depth) items left).map fun r => (.sequence r.1, r.2)
  | some (.mapping p entries, left), depth + 1 =>
    if p.tag.any isOwnTag then none
    else
      (ofEach? (fun (e : Tree Nat × Tree Nat) left =>
        match ofTree? targets depth e.1 left with
        | none => none
        | some (k, left) => (ofTree? targets depth e.2 left).map fun r => ((k, r.1), r.2))
        entries left).map fun r => (.mapping r.1, r.2)
  | _, _ => none

/-! ## §3 Texts -/

/-- The node that a text with one document denotes. -/
def read? (text : String) : Option Node := do
  let tree ← Tree.ofTokens? (← tokens? text.toList)
  let (numbered, _) ← tree.number? []
  let (node, _) ← ofTree? numbered.targets maxDepth numbered (followsPerUnit * numbered.size)
  return node

end Node

end Keybinding.Yaml
