import Keybinding.Text.Basic
import Keybinding.Yaml.Node

/-!
# Groups as written

A table file is a YAML document that lists groups. A group has an optional condition and a mapping
from chords to actions, where null stands for no action. Nothing is read into these texts here, and
entries are kept in order with repeats. The list of groups can be the document itself or the value
of a field `groups`. Fields can also be given by their place, as the items of a sequence or as keys
that are numbers.
-/

namespace Keybinding

open Yaml

/-- A group of bindings as written. -/
structure GroupText where
  /-- The text of the condition. -/
  context : Option String
  /-- The text of each chord, and the text of the action or null. -/
  bindings : List (String × Option String)
  deriving DecidableEq, Repr

namespace GroupText

/-! ## §1 Fields -/

/-- The field that a key denotes, by its name or by its place. `none` stands for a key that can
denote no field at all, `some none` for one that denotes none of these. -/
def field? (names : List String) : Node → Option (Option String)
  | .string s => some (if names.contains s then some s else none)
  | .integer (.natural n) => some names[n]?
  | _ => none

/-- The entries of a mapping with the fields that their keys denote. -/
def fields? (names : List String) (entries : List (Node × Node)) :
    Option (List (Option String × Node)) :=
  entries.mapM fun e => (field? names e.1).map (·, e.2)

/-- A field does not occur twice. -/
def isSingle (fields : List (Option String × Node)) (name : String) : Bool :=
  fields.countP (·.1 == some name) ≤ 1

/-! ## §2 Groups -/

def textOrNull? : Node → Option (Option String)
  | .null => some none
  | .string s => some (some s)
  | _ => none

/-- A chord with its action. -/
def binding? : Node × Node → Option (String × Option String)
  | (.string chord, action) => (textOrNull? action).map (chord, ·)
  | _ => none

def bindings? : Node → Option (List (String × Option String))
  | .null => some []
  | .mapping entries => entries.mapM binding?
  | _ => none

/-- A group with the given fields, of which both can be missing. -/
def ofFields? (context bindings : Option Node) : Option GroupText := do
  let context ← textOrNull? (context.getD .null)
  let bindings ← bindings? (bindings.getD .null)
  return ⟨context, bindings⟩

/-- The fields of a group in order. -/
def fieldNames : List String := ["context", "bindings"]

def ofNode? : Node → Option GroupText
  | .mapping entries => do
    let fields ← fields? fieldNames entries
    if fields.all (·.1.isSome) && fieldNames.all (isSingle fields) then
      ofFields? (fields.lookup (some "context")) (fields.lookup (some "bindings"))
    else none
  | .sequence items =>
    if items.length ≤ fieldNames.length then ofFields? items[0]? items[1]? else none
  | _ => none

/-! ## §3 Tables -/

def listOfNode? : Node → Option (List GroupText)
  | .sequence items => items.mapM ofNode?
  | _ => none

/-- The groups of a table. Next to the field `groups`, other fields are passed over. -/
def tableOfNode? : Node → Option (List GroupText)
  | .mapping entries => do
    let fields ← fields? ["groups"] entries
    if isSingle fields "groups" then listOfNode? (← fields.lookup (some "groups")) else none
  | n => listOfNode? n

/-- The groups that a text lists. A text that is all white space lists none. -/
def readTable? (text : String) : Option (List GroupText) :=
  if (Text.trim text.toList).isEmpty then some []
  else do tableOfNode? (← Node.read? text)

end GroupText

end Keybinding
