import Keybinding.Table.Reader

/-!
# The default keymap

The groups that the application comes with, in the form in which a user writes groups. The user's
own groups follow after them.
-/

namespace Keybinding.DefaultKeymap

/-- The lines of the default keymap. -/
def lines : List String :=
  [ "# Default key mappings",
    "#",
    "# Groups are checked from the bottom up: for a given chord, the last group",
    "# whose context holds wins. Keep general groups first and specific ones later.",
    "# User mappings (~/.config/shellflow/mappings.yaml) are appended after these.",
    "# Quote a context that starts with `!`, or YAML reads it as a tag.",
    "",
    "- bindings:",
    "    \"cmd-q\": app::quit",
    "    \"cmd-o\": app::addProject",
    "    \"cmd-,\": app::openSettings",
    "    \"cmd-shift-o\": palette::projectSwitcher",
    "    \"cmd-shift-p\": palette::toggle",
    "    \"cmd-n\": worktree::new",
    "    \"cmd-shift-n\": scratch::new",
    "    \"cmd-t\": session::newTab",
    "    \"cmd-w\": session::closeTab",
    "    \"cmd-j\": drawer::toggle",
    "    \"cmd-shift-j\": drawer::expand",
    "    \"cmd-b\": rightPanel::toggle",
    "    \"cmd-r\": task::run",
    "    \"cmd-shift-r\": task::switcher",
    "    \"cmd-=\": view::zoomIn",
    "    \"cmd--\": view::zoomOut",
    "    \"cmd-0\": view::zoomReset",
    "    \"ctrl-`\": focus::switch",
    "    \"cmd-1\": navigate::toEntity1",
    "    \"cmd-2\": navigate::toEntity2",
    "    \"cmd-3\": navigate::toEntity3",
    "    \"cmd-4\": navigate::toEntity4",
    "    \"cmd-5\": navigate::toEntity5",
    "    \"cmd-6\": navigate::toEntity6",
    "    \"cmd-7\": navigate::toEntity7",
    "    \"cmd-8\": navigate::toEntity8",
    "    \"cmd-9\": navigate::toEntity9",
    "",
    "- context: hasMultipleEntities",
    "  bindings:",
    "    \"cmd-alt-up\": navigate::prev",
    "    \"cmd-alt-down\": navigate::next",
    "",
    "- context: canGoBack",
    "  bindings:",
    "    \"ctrl--\": navigate::back",
    "",
    "- context: canGoForward",
    "  bindings:",
    "    \"ctrl-shift--\": navigate::forward",
    "",
    "- context: worktreeFocused && !drawerFocused",
    "  bindings:",
    "    \"cmd-shift-m\": worktree::merge",
    "    \"cmd-shift-backspace\": worktree::delete",
    "",
    "- context: projectFocused && !drawerFocused",
    "  bindings:",
    "    \"cmd-shift-w\": project::close",
    "",
    "- context: scratchFocused && mainFocused",
    "  bindings:",
    "    \"cmd-w\": scratch::close",
    "",
    "- context: diffViewOpen && hasChangedFiles",
    "  bindings:",
    "    \"cmd-shift-]\": diff::nextFile",
    "    \"cmd-shift-[\": diff::prevFile",
    "",
    "- context: drawerFocused && drawerOpen",
    "  bindings:",
    "    \"cmd-t\": drawer::newTab",
    "    \"cmd-w\": drawer::closeTab",
    "    \"cmd-shift-]\": drawer::nextTab",
    "    \"cmd-shift-[\": drawer::prevTab",
    "",
    "- context: (mainFocused || drawerFocused) && !(pickerOpen || modalOpen || paletteOpen)",
    "  bindings:",
    "    \"cmd-c\": terminal::copy",
    "    \"cmd-v\": terminal::paste",
    "",
    "- context: pickerOpen || modalOpen || paletteOpen",
    "  bindings:",
    "    \"escape\": app::dismiss",
    "    \"cmd-w\": app::dismiss" ]

/-- The text of the default keymap. -/
def text : String :=
  String.join (lines.map (· ++ "\n"))

/-- The groups of the default keymap. -/
@[irreducible] def groups : List GroupText :=
  (GroupText.readTable? text).getD []

/-- The table of the default keymap alone. -/
@[irreducible] def table : Table :=
  (Table.read groups []).toOption.getD .empty

end Keybinding.DefaultKeymap
