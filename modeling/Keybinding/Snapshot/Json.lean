import Keybinding.Json.Basic
import Keybinding.Json.Reader
import Keybinding.Snapshot.Basic

/-!
# Snapshots as JSON

A snapshot is written as an object with its fourteen fields in order. It is read more freely. Fields
can be missing or null, which leaves them at their default. Members with other keys are passed over.
A focus can have any name. The fields can also come as an array in order, cut off anywhere. What is
not accepted is a field that occurs twice, a value of the wrong kind, and a count that is not
written as a natural number below 2^64.
-/

namespace Keybinding

/-! ## §1 Names -/

namespace Entity

/-- The name of a kind of entity. -/
def name : Entity → String
  | scratch => "scratch"
  | worktree => "worktree"
  | project => "project"
  | unknown => "unknown"

/-- The kind of entity of a name. -/
def ofName : String → Entity
  | "scratch" => scratch
  | "worktree" => worktree
  | "project" => project
  | _ => unknown

end Entity

namespace View

def name : View → String
  | main => "main"
  | drawer => "drawer"
  | rightPanel => "rightPanel"
  | unknown => "unknown"

def ofName : String → View
  | "main" => main
  | "drawer" => drawer
  | "rightPanel" => rightPanel
  | _ => unknown

end View

namespace Snapshot

/-- The names of the fields in order. -/
def fieldNames : List String :=
  [ "focusedEntity", "focusedView", "drawerOpen", "drawerExpanded", "rightPanelOpen", "pickerOpen",
    "modalOpen", "paletteOpen", "diffViewOpen", "entityCount", "hasPreviousView", "canGoBack",
    "canGoForward", "changedFileCount" ]

/-! ## §2 Reading -/

/-- A focus: a name, or an object whose only member has the name as key and null as value. -/
def focus? (ofName : String → α) : Option Json → Option (Option α)
  | none | some .null => some none
  | some (.string (some n)) => some (some (ofName n))
  | some (.object [(some n, .null)]) => some (some (ofName n))
  | _ => none

/-- A switch, off by default. -/
def switch? : Option Json → Option Bool
  | none | some .null => some false
  | some (.bool b) => some b
  | _ => none

/-- A count, zero by default. -/
def count? : Option Json → Option Nat
  | none | some .null => some 0
  | some j =>
    match j.natural? with
    | some n => if n < UInt64.size then some n else none
    | none => none

def ofFields? (field : String → Option Json) : Option Snapshot := do
  return {
    focusedEntity := ← focus? Entity.ofName (field "focusedEntity")
    focusedView := ← focus? View.ofName (field "focusedView")
    drawerOpen := ← switch? (field "drawerOpen")
    drawerExpanded := ← switch? (field "drawerExpanded")
    rightPanelOpen := ← switch? (field "rightPanelOpen")
    pickerOpen := ← switch? (field "pickerOpen")
    modalOpen := ← switch? (field "modalOpen")
    paletteOpen := ← switch? (field "paletteOpen")
    diffViewOpen := ← switch? (field "diffViewOpen")
    entityCount := ← count? (field "entityCount")
    hasPreviousView := ← switch? (field "hasPreviousView")
    canGoBack := ← switch? (field "canGoBack")
    canGoForward := ← switch? (field "canGoForward")
    changedFileCount := ← count? (field "changedFileCount") }

/-- Every key is a text, and no field occurs twice. -/
def keysAllowed (members : List (Option String × Json)) : Bool :=
  members.all (·.1.isSome) && fieldNames.all fun n => members.countP (·.1 == some n) ≤ 1

/-- The snapshot that a JSON value denotes. -/
def ofJson? : Json → Option Snapshot
  | .object members =>
    if keysAllowed members then ofFields? fun n => members.lookup (some n) else none
  | .array items =>
    if items.length ≤ fieldNames.length then ofFields? fun n => (fieldNames.zip items).lookup n
    else none
  | _ => none

def read? (text : String) : Option Snapshot := do
  ofJson? (← Json.read? text)

/-! ## §3 Writing -/

def toJson (s : Snapshot) : Json :=
  let focus (name : Option String) : Json := name.elim .null fun n => .string (some n)
  .object (fieldNames.map some |>.zip
    [ focus (s.focusedEntity.map Entity.name), focus (s.focusedView.map View.name),
      .bool s.drawerOpen, .bool s.drawerExpanded, .bool s.rightPanelOpen, .bool s.pickerOpen,
      .bool s.modalOpen, .bool s.paletteOpen, .bool s.diffViewOpen,
      .number (toString s.entityCount), .bool s.hasPreviousView, .bool s.canGoBack,
      .bool s.canGoForward, .number (toString s.changedFileCount) ])

def display (s : Snapshot) : String :=
  s.toJson.display

end Snapshot

end Keybinding
