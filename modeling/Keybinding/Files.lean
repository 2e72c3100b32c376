import Keybinding.Text.Basic

/-!
# Files

A path is a text in which slashes part names. It starts at the root if a slash stands in front.

A tree of folders and files stands for the working folder of a program. A path leads from the
working folder, or from the root if it starts with a slash, through one name after another. The
empty name and `.` stay in a folder, and `..` leaves it. Of all that lies around the working folder
nothing but folders above it can be reached.

The user's files are in `shellflow` in the folder that the user has named for such files, and
otherwise in `.config` in the home folder: a file of groups, and a folder for logs. The home folder
is always taken to be known. A system that tells neither of the two folders has no place for the
user's files, and a command that is given no file has none to look at then: `check`, `resolve` and
`list` would know the default groups alone, `watch` would fail, and nothing would be logged. This
case is left out.
-/

namespace Keybinding

/-! ## §1 Paths -/

namespace Path

/-- The names of a path. They are empty where slashes touch each other or an end. -/
def names (path : String) : List String :=
  Text.split '/' path

/-- The path starts at the root. -/
def isAbsolute (path : String) : Bool :=
  path.toList.head? == some '/'

/-- The path of a name in a folder. -/
def join (folder name : String) : String :=
  match folder.toList.getLast? with
  | none | some '/' => folder ++ name
  | some _ => folder ++ "/" ++ name

/-- The path of the folder that holds what a path names. It is empty for the folder that paths start
from. -/
def parent (path : String) : String :=
  let above := ((names path).filter fun n => n ≠ "" ∧ n ≠ ".").dropLast
  (if isAbsolute path then "/" else "") ++ String.intercalate "/" above

end Path

/-! ## §2 Trees -/

/-- What a path names. -/
inductive PathState where
  | missing
  | folder
  | file (content : ByteArray)

namespace PathState

/-- There is something. -/
def isPresent : PathState → Bool
  | missing => false
  | _ => true

def isFolder : PathState → Bool
  | folder => true
  | _ => false

/-- Two paths name alike: nothing, folders, or files with the same content. -/
def isAlike : PathState → PathState → Bool
  | missing, missing => true
  | folder, folder => true
  | file a, file b => a.toList == b.toList
  | _, _ => false

/-- The text in a file, if there is a file and its content is UTF-8. -/
def text? : PathState → Option String
  | file content => String.fromUTF8? content
  | _ => none

/-- A file of UTF-8 text holds that text. -/
@[simp] theorem text?_file_toUTF8 (s : String) : (file s.toUTF8).text? = some s := by
  simpa [text?, String.fromUTF8?, String.fromUTF8] using s.isValidUTF8

end PathState

/-- Where a path has led so far. -/
inductive Place where
  /-- The names that lead from the working folder to a place, the last one first. -/
  | inside (names : List String)
  /-- A folder above the working folder. -/
  | above
  deriving DecidableEq, Repr

/-- A tree of folders and files. -/
structure Files where
  /-- What is at each place, by the names that lead there, the last one first. The newest entry of a
  place counts. -/
  entries : List (List String × PathState)

namespace Files

/-! ## §3 Looking up -/

/-- The tree of an empty working folder. -/
def empty : Files := ⟨[]⟩

/-- What is at a place. -/
def stateAt (fs : Files) : Place → PathState
  | .inside [] => .folder
  | .inside names => (fs.entries.lookup names).getD .missing
  | .above => .folder

/-- The place that one more name of a path leads to. Only a folder can be gone through. -/
def follow (fs : Files) (p : Place) (name : String) : Option Place :=
  match fs.stateAt p, name, p with
  | .folder, "", _ | .folder, ".", _ => some p
  | .folder, "..", .inside (_ :: names) => some (.inside names)
  | .folder, "..", _ => some .above
  | .folder, _, .inside names => some (.inside (name :: names))
  | _, _, _ => none

def start (path : String) : Place :=
  if Path.isAbsolute path then .above else .inside []

/-- The place that a path leads to. The empty path leads nowhere. -/
def place? (fs : Files) (path : String) : Option Place :=
  if path.isEmpty then none else (Path.names path).foldlM fs.follow (start path)

/-- What a path names. -/
def look (fs : Files) (path : String) : PathState :=
  match fs.place? path with
  | some p => fs.stateAt p
  | none => .missing

/-! ## §4 Changing -/

/-- The tree with something new at a place. -/
def put (fs : Files) (names : List String) (s : PathState) : Files :=
  ⟨(names, s) :: fs.entries⟩

/-- Why a folder cannot be made. -/
inductive Obstacle where
  /-- A file has its name. -/
  | isFile
  /-- A file, or something out of reach, is on the way to it. -/
  | underFile
  deriving DecidableEq, Repr

def Obstacle.message : Obstacle → String
  | isFile => "File exists (os error 17)"
  | underFile => "Not a directory (os error 20)"

/-- The folders along the names of a path, where each that is missing is made. -/
def makeAlong (fs : Files) (p : Place) : List String → Except Obstacle (Files × Place)
  | [] => .ok (fs, p)
  | name :: rest =>
    match fs.follow p name with
    | none => .error .underFile
    | some q =>
      match fs.stateAt q, q with
      | .folder, _ => fs.makeAlong q rest
      | .missing, .inside names => (fs.put names .folder).makeAlong q rest
      | _, _ => .error (if rest.isEmpty then .isFile else .underFile)

/-- The tree with the folder of a path, and those on the way to it. -/
def makeFolders (fs : Files) (path : String) : Except Obstacle Files :=
  if path.isEmpty then .ok fs
  else (fs.makeAlong (start path) (Path.names path)).map (·.1)

/-- The tree with a file written, and the folders on the way to it made. Where that cannot be,
nothing is written. -/
def write (fs : Files) (path : String) (content : ByteArray) : Files :=
  match fs.makeFolders (Path.parent path) with
  | .error _ => fs
  | .ok fs =>
    match fs.place? path with
    | some (.inside names) =>
      match fs.stateAt (.inside names) with
      | .folder => fs
      | _ => fs.put names (.file content)
    | _ => fs

def remove (fs : Files) (path : String) : Files :=
  match fs.place? path with
  | some (.inside names) =>
    match fs.stateAt (.inside names) with
    | .file _ => fs.put names .missing
    | _ => fs
  | _ => fs

/-- The tree with a folder, where it can be made. -/
def addFolder (fs : Files) (path : String) : Files :=
  match fs.makeFolders path with
  | .ok fs => fs
  | .error _ => fs

end Files

/-! ## §5 The folder of the user -/

/-- What the system tells about the user. -/
structure Environment where
  /-- The home folder. -/
  home : String
  /-- The folder that the user has named for files of settings. An empty name counts as none. -/
  xdg : Option String
  deriving DecidableEq, Repr

namespace Environment

def settingsFolder (env : Environment) : String :=
  match env.xdg with
  | none | some "" => Path.join env.home ".config"
  | some folder => folder

/-- The folder of the user's files. -/
def configFolder (env : Environment) : String :=
  Path.join env.settingsFolder "shellflow"

/-- The file of the user's groups. -/
def mappingsFile (env : Environment) : String :=
  Path.join env.configFolder "mappings.yaml"

def logFolder (env : Environment) : String :=
  Path.join env.configFolder "logs"

end Environment

/-- A folder cannot be made. -/
structure FolderError where
  path : String
  reason : String
  deriving DecidableEq, Repr

def FolderError.message (e : FolderError) : String :=
  "Failed to create directory " ++ e.path ++ ": " ++ e.reason

/-- The tree with a folder that is needed. -/
def Files.ensure (fs : Files) (path : String) : Except FolderError Files :=
  (fs.makeFolders path).mapError fun o => ⟨path, o.message⟩

/-- The tree with the folder of the user's files. -/
def Files.ensureConfig (fs : Files) (env : Environment) : Except FolderError Files :=
  fs.ensure env.configFolder

/-- The tree with the folder for logs, after the folder that holds it. -/
def Files.ensureLogs (fs : Files) (env : Environment) : Except FolderError Files := do
  (← fs.ensureConfig env).ensure env.logFolder

end Keybinding
