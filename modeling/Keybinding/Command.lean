/-!
# Built-in commands

The commands of the application that keys can be bound to, in the order in which they are listed. A
command has an id of the form `namespace::verb`.
-/

namespace Keybinding

/-- A command that the application knows. -/
inductive Command where
  | appQuit
  | appAddProject
  | appOpenInFinder
  | appOpenInTerminal
  | appOpenInEditor
  | appOpenSettings
  | appOpenMappings
  | appHelpDocs
  | appHelpReportIssue
  | appHelpReleaseNotes
  | appDismiss
  | paletteToggle
  | paletteProjectSwitcher
  | scratchNew
  | scratchClose
  | worktreeNew
  | worktreeMerge
  | worktreeDelete
  | projectClose
  | sessionNewTab
  | sessionCloseTab
  | drawerToggle
  | drawerExpand
  | drawerNewTab
  | drawerCloseTab
  | drawerNextTab
  | drawerPrevTab
  | rightPanelToggle
  | taskRun
  | taskSwitcher
  | viewZoomIn
  | viewZoomOut
  | viewZoomReset
  | navigatePrev
  | navigateNext
  | navigateBack
  | navigateForward
  | navigateToEntity1
  | navigateToEntity2
  | navigateToEntity3
  | navigateToEntity4
  | navigateToEntity5
  | navigateToEntity6
  | navigateToEntity7
  | navigateToEntity8
  | navigateToEntity9
  | focusSwitch
  | diffNextFile
  | diffPrevFile
  | terminalCopy
  | terminalPaste
  deriving DecidableEq, Repr

namespace Command

def all : List Command :=
  [ appQuit, appAddProject, appOpenInFinder, appOpenInTerminal, appOpenInEditor,
    appOpenSettings, appOpenMappings, appHelpDocs, appHelpReportIssue, appHelpReleaseNotes,
    appDismiss, paletteToggle, paletteProjectSwitcher, scratchNew, scratchClose, worktreeNew,
    worktreeMerge, worktreeDelete, projectClose, sessionNewTab, sessionCloseTab, drawerToggle,
    drawerExpand, drawerNewTab, drawerCloseTab, drawerNextTab, drawerPrevTab, rightPanelToggle,
    taskRun, taskSwitcher, viewZoomIn, viewZoomOut, viewZoomReset, navigatePrev, navigateNext,
    navigateBack, navigateForward, navigateToEntity1, navigateToEntity2, navigateToEntity3,
    navigateToEntity4, navigateToEntity5, navigateToEntity6, navigateToEntity7,
    navigateToEntity8, navigateToEntity9, focusSwitch, diffNextFile, diffPrevFile,
    terminalCopy, terminalPaste ]

def id : Command → String
  | appQuit => "app::quit"
  | appAddProject => "app::addProject"
  | appOpenInFinder => "app::openInFinder"
  | appOpenInTerminal => "app::openInTerminal"
  | appOpenInEditor => "app::openInEditor"
  | appOpenSettings => "app::openSettings"
  | appOpenMappings => "app::openMappings"
  | appHelpDocs => "app::helpDocs"
  | appHelpReportIssue => "app::helpReportIssue"
  | appHelpReleaseNotes => "app::helpReleaseNotes"
  | appDismiss => "app::dismiss"
  | paletteToggle => "palette::toggle"
  | paletteProjectSwitcher => "palette::projectSwitcher"
  | scratchNew => "scratch::new"
  | scratchClose => "scratch::close"
  | worktreeNew => "worktree::new"
  | worktreeMerge => "worktree::merge"
  | worktreeDelete => "worktree::delete"
  | projectClose => "project::close"
  | sessionNewTab => "session::newTab"
  | sessionCloseTab => "session::closeTab"
  | drawerToggle => "drawer::toggle"
  | drawerExpand => "drawer::expand"
  | drawerNewTab => "drawer::newTab"
  | drawerCloseTab => "drawer::closeTab"
  | drawerNextTab => "drawer::nextTab"
  | drawerPrevTab => "drawer::prevTab"
  | rightPanelToggle => "rightPanel::toggle"
  | taskRun => "task::run"
  | taskSwitcher => "task::switcher"
  | viewZoomIn => "view::zoomIn"
  | viewZoomOut => "view::zoomOut"
  | viewZoomReset => "view::zoomReset"
  | navigatePrev => "navigate::prev"
  | navigateNext => "navigate::next"
  | navigateBack => "navigate::back"
  | navigateForward => "navigate::forward"
  | navigateToEntity1 => "navigate::toEntity1"
  | navigateToEntity2 => "navigate::toEntity2"
  | navigateToEntity3 => "navigate::toEntity3"
  | navigateToEntity4 => "navigate::toEntity4"
  | navigateToEntity5 => "navigate::toEntity5"
  | navigateToEntity6 => "navigate::toEntity6"
  | navigateToEntity7 => "navigate::toEntity7"
  | navigateToEntity8 => "navigate::toEntity8"
  | navigateToEntity9 => "navigate::toEntity9"
  | focusSwitch => "focus::switch"
  | diffNextFile => "diff::nextFile"
  | diffPrevFile => "diff::prevFile"
  | terminalCopy => "terminal::copy"
  | terminalPaste => "terminal::paste"

def ofId? (s : String) : Option Command :=
  all.find? (·.id == s)

theorem mem_all (c : Command) : c ∈ all := by
  cases c <;> decide

/-- Reading the id of a command gives the command back. -/
theorem ofId?_id (c : Command) : ofId? c.id = some c := by
  cases c <;> decide

theorem id_injective {c d : Command} (h : c.id = d.id) : c = d :=
  Option.some.inj (by rw [← ofId?_id c, ← ofId?_id d, h])

/-- A text that reads as a command is its id. -/
theorem id_of_ofId? {s : String} {c : Command} (h : ofId? s = some c) : c.id = s := by
  simpa using List.find?_some h

end Command

end Keybinding
