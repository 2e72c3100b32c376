import Keybinding.FlagSet

/-!
# State snapshots

A snapshot tells what the application shows: what has the focus, which panels and overlays are open,
how many entities and changed files there are. `Snapshot.activeFlags` derives the context flags from
it. At most one entity flag and at most one view flag is on, and a panel that is closed leaves its
focus to the main view. An expanded drawer counts as open.
-/

namespace Keybinding

/-- The kind of entity that has the focus. -/
inductive Entity where
  | scratch
  | worktree
  | project
  /-- A kind that conditions cannot ask for. -/
  | unknown
  deriving DecidableEq, Repr

/-- The view that has the focus. -/
inductive View where
  | main
  | drawer
  | rightPanel
  /-- A view that conditions cannot ask for. -/
  | unknown
  deriving DecidableEq, Repr

/-- What the application shows. -/
structure Snapshot where
  focusedEntity : Option Entity
  focusedView : Option View
  drawerOpen : Bool
  drawerExpanded : Bool
  rightPanelOpen : Bool
  pickerOpen : Bool
  modalOpen : Bool
  paletteOpen : Bool
  diffViewOpen : Bool
  entityCount : Nat
  hasPreviousView : Bool
  canGoBack : Bool
  canGoForward : Bool
  changedFileCount : Nat
  deriving DecidableEq, Repr

/-- The flag of a kind of entity. -/
def Entity.flag? : Entity → Option Flag
  | scratch => some .scratchFocused
  | worktree => some .worktreeFocused
  | project => some .projectFocused
  | unknown => none

namespace Snapshot

/-- The drawer can be seen. -/
def showsDrawer (s : Snapshot) : Bool :=
  s.drawerOpen || s.drawerExpanded

/-- The flag of the view that has the focus. -/
def viewFlag? (s : Snapshot) : View → Option Flag
  | .main => some .mainFocused
  | .drawer => some (if s.showsDrawer then .drawerFocused else .mainFocused)
  | .rightPanel => some (if s.rightPanelOpen then .rightPanelFocused else .mainFocused)
  | .unknown => none

/-- The flags that say what has the focus. -/
def focusFlags (s : Snapshot) : List Flag :=
  (s.focusedEntity.bind Entity.flag?).toList ++ (s.focusedView.bind s.viewFlag?).toList

/-- The flags that are on for one field each. -/
def fieldFlags (s : Snapshot) : List (Flag × Bool) :=
  [ (.drawerOpen, s.showsDrawer),
    (.drawerExpanded, s.drawerExpanded),
    (.rightPanelOpen, s.rightPanelOpen),
    (.pickerOpen, s.pickerOpen),
    (.modalOpen, s.modalOpen),
    (.paletteOpen, s.paletteOpen),
    (.diffViewOpen, s.diffViewOpen),
    (.hasMultipleEntities, decide (1 < s.entityCount)),
    (.hasPreviousView, s.hasPreviousView),
    (.canGoBack, s.canGoBack),
    (.canGoForward, s.canGoForward),
    (.hasChangedFiles, decide (0 < s.changedFileCount)) ]

/-- The context flags that are on while the application shows this. -/
def activeFlags (s : Snapshot) : FlagSet :=
  s.fieldFlags.foldl (fun a p => a.assign p.1 p.2) (FlagSet.ofList s.focusFlags)

end Snapshot

end Keybinding
