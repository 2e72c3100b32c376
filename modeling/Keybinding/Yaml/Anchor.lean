import Keybinding.Yaml.Tree

/-!
# Anchors and aliases

An alias refers to the node whose anchor has its name. Anchors are numbered as they come up, each
with the number of different names before it, and an alias takes the number that its name has where
the alias stands. Where two anchors have the same number, the later one holds it. This can happen
when a name is used again, and such an alias refers to the later node also where it stands before
it.
-/

namespace Keybinding.Yaml

/-- The numbers of the names of anchors. -/
abbrev Numbering := List (String × Nat)

/-- The next number, given to a name. -/
def Numbering.define (ns : Numbering) (name : String) : Nat × Numbering :=
  (ns.length, (name, ns.length) :: ns.filter (·.1 != name))

namespace Properties

/-- Properties with a number for the name of the anchor. -/
def number (p : Properties String) (ns : Numbering) : Properties Nat × Numbering :=
  match p.anchor with
  | none => (⟨none, p.tag⟩, ns)
  | some name =>
    let (n, ns) := ns.define name
    (⟨some n, p.tag⟩, ns)

end Properties

namespace Tree

/-! ## §1 Numbering -/

mutual

/-- A tree with numbers for names, and the numbering after it. -/
def number? : Tree String → Numbering → Option (Tree Nat × Numbering)
  | .alias name, ns => (ns.lookup name).map fun n => (.alias n, ns)
  | .scalar p plain text, ns =>
    let (p, ns) := p.number ns
    some (.scalar p plain text, ns)
  | .sequence p items, ns =>
    let (p, ns) := p.number ns
    (numberItems? items ns).map fun r => (.sequence p r.1, r.2)
  | .mapping p entries, ns =>
    let (p, ns) := p.number ns
    (numberEntries? entries ns).map fun r => (.mapping p r.1, r.2)

/-- Items with numbers for names. -/
def numberItems? : List (Tree String) → Numbering → Option (List (Tree Nat) × Numbering)
  | [], ns => some ([], ns)
  | item :: items, ns =>
    match number? item ns with
    | none => none
    | some (item, ns) => (numberItems? items ns).map fun r => (item :: r.1, r.2)

/-- Entries with numbers for names. -/
def numberEntries? :
    List (Tree String × Tree String) → Numbering → Option (List (Tree Nat × Tree Nat) × Numbering)
  | [], ns => some ([], ns)
  | (k, v) :: entries, ns =>
    match number? k ns with
    | none => none
    | some (k, ns) =>
      match number? v ns with
      | none => none
      | some (v, ns) => (numberEntries? entries ns).map fun r => ((k, v) :: r.1, r.2)

end

/-! ## §2 What numbers refer to -/

/-- The number of the anchor of a node. -/
def anchor? {Name : Type} : Tree Name → Option Name
  | .alias _ => none
  | .scalar p .. => p.anchor
  | .sequence p _ => p.anchor
  | .mapping p _ => p.anchor

mutual

/-- All nodes of a tree, each before those in it. -/
def nodes {Name : Type} : Tree Name → List (Tree Name)
  | .sequence p items => .sequence p items :: nodesOfItems items
  | .mapping p entries => .mapping p entries :: nodesOfEntries entries
  | t => [t]

/-- All nodes of a list of items. -/
def nodesOfItems {Name : Type} : List (Tree Name) → List (Tree Name)
  | [] => []
  | item :: items => nodes item ++ nodesOfItems items

/-- All nodes of a list of entries. -/
def nodesOfEntries {Name : Type} : List (Tree Name × Tree Name) → List (Tree Name)
  | [] => []
  | (k, v) :: entries => nodes k ++ nodes v ++ nodesOfEntries entries

end

/-- The nodes that the numbers of a tree refer to, the last one of a number first. -/
def targets (t : Tree Nat) : List (Nat × Tree Nat) :=
  (t.nodes.filterMap fun n => n.anchor?.map fun a => (a, n)).reverse

/-- The size of a tree, in which a collection counts twice. -/
def size {Name : Type} (t : Tree Name) : Nat :=
  t.nodes.foldr (fun
    | .sequence .., n | .mapping .., n => n + 2
    | _, n => n + 1) 0

end Tree

end Keybinding.Yaml
