/-!
# Context flags

The state of the application reaches the keymap as a set of named switches. There are eighteen of
them, in the order in which they are listed, numbered and printed.

`ofName?_name` says that a name reads back as its flag.
-/

namespace Keybinding

/-- A named switch of the application state. -/
inductive Flag where
  | scratchFocused | worktreeFocused | projectFocused
  | mainFocused | drawerFocused | rightPanelFocused
  | drawerOpen | drawerExpanded | rightPanelOpen
  | pickerOpen | modalOpen | paletteOpen | diffViewOpen
  | hasMultipleEntities | hasPreviousView | canGoBack | canGoForward | hasChangedFiles
  deriving DecidableEq, Repr

namespace Flag

def all : List Flag :=
  [ scratchFocused, worktreeFocused, projectFocused,
    mainFocused, drawerFocused, rightPanelFocused,
    drawerOpen, drawerExpanded, rightPanelOpen,
    pickerOpen, modalOpen, paletteOpen, diffViewOpen,
    hasMultipleEntities, hasPreviousView, canGoBack, canGoForward, hasChangedFiles ]

/-- The name by which conditions and tables mention a flag. -/
def name : Flag → String
  | scratchFocused => "scratchFocused"
  | worktreeFocused => "worktreeFocused"
  | projectFocused => "projectFocused"
  | mainFocused => "mainFocused"
  | drawerFocused => "drawerFocused"
  | rightPanelFocused => "rightPanelFocused"
  | drawerOpen => "drawerOpen"
  | drawerExpanded => "drawerExpanded"
  | rightPanelOpen => "rightPanelOpen"
  | pickerOpen => "pickerOpen"
  | modalOpen => "modalOpen"
  | paletteOpen => "paletteOpen"
  | diffViewOpen => "diffViewOpen"
  | hasMultipleEntities => "hasMultipleEntities"
  | hasPreviousView => "hasPreviousView"
  | canGoBack => "canGoBack"
  | canGoForward => "canGoForward"
  | hasChangedFiles => "hasChangedFiles"

/-- The place of a flag in the order, which is also its bit in a `FlagSet`. -/
def index : Flag → Fin 18
  | scratchFocused => 0
  | worktreeFocused => 1
  | projectFocused => 2
  | mainFocused => 3
  | drawerFocused => 4
  | rightPanelFocused => 5
  | drawerOpen => 6
  | drawerExpanded => 7
  | rightPanelOpen => 8
  | pickerOpen => 9
  | modalOpen => 10
  | paletteOpen => 11
  | diffViewOpen => 12
  | hasMultipleEntities => 13
  | hasPreviousView => 14
  | canGoBack => 15
  | canGoForward => 16
  | hasChangedFiles => 17

/-- The flag of a name, letter case included. -/
def ofName? (s : String) : Option Flag :=
  all.find? (·.name == s)

instance : ToString Flag := ⟨name⟩

/-! ## Order and names -/

theorem mem_all (f : Flag) : f ∈ all := by
  cases f <;> decide

/-- A flag is found again at its place. -/
theorem all_get_index (f : Flag) : all[f.index]? = some f := by
  cases f <;> rfl

theorem index_injective {f g : Flag} (h : f.index = g.index) : f = g :=
  Option.some.inj (by rw [← all_get_index f, ← all_get_index g, h])

/-- The list of all flags runs through the places in order. -/
theorem map_index_all : all.map index = List.finRange 18 := by
  decide

/-- Reading the name of a flag gives the flag back. -/
theorem ofName?_name (f : Flag) : ofName? f.name = some f := by
  cases f <;> decide

theorem name_injective {f g : Flag} (h : f.name = g.name) : f = g :=
  Option.some.inj (by rw [← ofName?_name f, ← ofName?_name g, h])

/-- A text that reads as a flag is its name. -/
theorem name_of_ofName? {s : String} {f : Flag} (h : ofName? s = some f) : f.name = s := by
  have := List.find?_some h
  simpa using this

end Flag

end Keybinding
