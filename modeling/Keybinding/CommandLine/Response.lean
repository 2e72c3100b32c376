import Keybinding.CommandLine.Request
import Keybinding.Keymap
import Keybinding.Snapshot.Json
import Keybinding.Text.Basic

/-!
# Responses

What the program prints, and the code with which it ends. The commands look at files through a
function from paths to what they name, and they know which folders can be made. `check` fails where
`resolve` and `list` warn and go on with the default keymap.

The active flags of a command line are those of a snapshot, if a file of one is named, together with
the flags that are named themselves. A mistake in the file is told before a mistake in a name.
-/

namespace Keybinding.CommandLine

/-! ## §1 Help texts -/

/-- The text of some lines. -/
def unlines (lines : List String) : String :=
  String.join (lines.map (· ++ "\n"))

def versionText : String := unlines ["shellflow-keys 0.1.0"]

/-- What a command does. -/
def Verb.purpose : Verb → String
  | check => "Validate a mappings file against the defaults"
  | resolve => "Print the action a chord resolves to, or `none`"
  | list => "Print every effective binding under a context"
  | flags => "List all context flags"
  | watch => "Watch a mappings file and re-validate on every change"

namespace Topic

def purpose : Topic → String
  | program => "Inspect and validate shellflow key mappings"
  | command v => v.purpose
  | help => "Print this message or the help of the given subcommand(s)"

/-- The form of a command line. -/
def usage : Topic → String
  | program => "[OPTIONS] <COMMAND>"
  | command .resolve => "resolve [OPTIONS] <CHORD>"
  | command v => v.name ++ " [OPTIONS]"
  | help => "help [COMMAND]..."

/-- The lines on commands, arguments and options. -/
def details : Topic → List String
  | program =>
    [ "Commands:" ]
    ++ Verb.all.map (fun v => "  " ++ Text.padRight 9 v.name ++ v.purpose)
    ++ [ "  help     " ++ purpose help,
      "",
      "Options:",
      "  -f, --file <PATH>  Mappings file to use instead of the user mappings file",
      "  -h, --help         Print help",
      "  -V, --version      Print version" ]
  | command v =>
    (if v = .resolve then [ "Arguments:", "  <CHORD>  Chord such as `cmd-shift-p`", "" ] else [])
    ++ if v.takesContext then
      [ "Options:",
        "      --context <FLAGS>  Comma-separated context flags to treat as active",
        "  -f, --file <PATH>      Mappings file to use instead of the user mappings file",
        "      --state <PATH>     JSON state snapshot to derive flags from",
        "  -h, --help             Print help" ]
    else
      [ "Options:",
        "  -f, --file <PATH>  Mappings file to use instead of the user mappings file",
        "  -h, --help         Print help" ]
  | help => [ "Arguments:", "  [COMMAND]...  Print help for the subcommand(s)" ]

/-- The help on a topic. -/
def text (t : Topic) : String :=
  unlines ([t.purpose, "", "Usage: shellflow-keys " ++ t.usage, ""] ++ t.details)

end Topic

/-! ## §2 Active flags -/

namespace ContextText

/-- Why the active flags are not told. -/
inductive Error where
  /-- The path names no file of UTF-8 text. -/
  | unreadable (path : String)
  /-- The file holds no snapshot. -/
  | invalidSnapshot (path : String)
  /-- A name is the name of no flag. -/
  | unknownFlag (name : String)
  deriving DecidableEq, Repr

def Error.message : Error → String
  | unreadable path => "Failed to read " ++ path ++ ": not a file of UTF-8 text"
  | invalidSnapshot path => "Invalid state snapshot " ++ path ++ ": not a snapshot"
  | unknownFlag name => "Unknown context flag `" ++ name ++ "`"

/-- The active flags of the snapshot in the file of a path. -/
def snapshotFlags (look : String → PathState) (path : String) : Except Error FlagSet :=
  match (look path).text? with
  | none => .error (.unreadable path)
  | some text =>
    match Snapshot.read? text with
    | none => .error (.invalidSnapshot path)
    | some s => .ok s.activeFlags

/-- The names without white space around them, where there is anything left of them. -/
def trimmedNames (c : ContextText) : List String :=
  (c.names.map Text.trimmed).filter (· ≠ "")

/-- The active flags. -/
def read (look : String → PathState) (c : ContextText) : Except Error FlagSet := do
  let told ← (c.state.mapM (snapshotFlags look)).map (·.getD .empty)
  let named ← (FlagSet.ofNames c.trimmedNames).mapError .unknownFlag
  return told.union named

end ContextText

/-! ## §3 Surroundings -/

/-- The files around the program. -/
structure Surroundings where
  /-- What a path names. -/
  look : String → PathState
  /-- Why the folder of a path cannot be made. -/
  obstacle : String → Option String

/-- The file of the user's groups. -/
def Request.path (r : Request) (env : Environment) : String :=
  r.file.getD env.mappingsFile

/-- The folder that has to be there before a file in it is watched. -/
def Request.watched? (r : Request) (env : Environment) : Option String :=
  let folder := Path.parent (r.path env)
  if r.task = .watch ∧ folder ≠ "" then some folder else none

/-- The folders that are made for a request. -/
def Request.folders (r : Request) (env : Environment) : List String :=
  [env.configFolder, env.logFolder] ++ (r.watched? env).toList

/-- The files that are looked at for a request. -/
def Request.files (r : Request) (env : Environment) : List String :=
  r.path env ::
    match r.task with
    | .resolve _ c | .list c => c.state.toList
    | _ => []

/-- The files of a tree, after the folders for a request have been made in it. -/
def Surroundings.ofFiles (fs : Files) (folders : List String) : Surroundings where
  look := (folders.foldl Files.addFolder fs).look
  obstacle path :=
    match fs.makeFolders path with
    | .ok _ => none
    | .error o => some o.message

/-! ## §4 Responses -/

/-- What the program prints, and how it ends. -/
structure Response where
  /-- The code of the end. -/
  code : Nat
  /-- What is printed. -/
  out : String
  /-- What is printed on the side of errors. -/
  err : String
  /-- The program does not end, but watches the file of a keymap. -/
  watching : Option Keymap
  deriving DecidableEq, Repr

namespace Response

def success (out : String) : Response := ⟨0, out, "", none⟩

/-- The lines of a text, each behind four spaces. -/
def indented (text : String) : String :=
  String.intercalate "\n" ((Text.split '\n' text).map ("    " ++ ·))

/-- The response of a failure, with the error that lies behind it. -/
def failure (message : String) (cause : Option String) : Response :=
  let behind := match cause with
    | some cause => "\n\nCaused by:\n" ++ indented cause
    | none => ""
  ⟨1, "", "Error: " ++ message ++ behind ++ "\n", none⟩

/-- The response with something printed on the side of errors before. -/
def after (err : String) (r : Response) : Response :=
  { r with err := err ++ r.err }

end Response

/-! ## §5 Commands -/

/-- The response to a check of a file, which has to be there if it was asked for. -/
def checkResponse (look : String → PathState) (path : String) (explicit : Bool) : Response :=
  if (look path).isPresent then
    match Loading.groupsAt look path >>= Table.build DefaultKeymap.groups with
    | .error e => .failure e.message e.cause?
    | .ok t => .success <|
        path ++ ": OK (" ++ toString t.user.length ++ " user groups, "
          ++ toString t.groups.length ++ " groups total)\n"
  else if explicit then .failure (path ++ " does not exist") none
  else
    let notice := path ++ ": not found, defaults only\n"
    match Table.build DefaultKeymap.groups [] with
    | .error e => { Response.failure e.message e.cause? with out := notice }
    | .ok t => .success <|
        notice ++ "defaults: OK (" ++ toString t.groups.length ++ " groups)\n"

/-- The warning that the user's groups are passed over. -/
def warning (path : String) (error : Option LoadError) : String :=
  match error with
  | some e => "warning: ignoring " ++ path ++ ": " ++ e.message ++ "; using defaults\n"
  | none => ""

/-- The line on what one chord does. -/
def resolutionLine : Option Resolution → String
  | none => "none\n"
  | some ⟨group, .action a⟩ => a.id ++ "\t(" ++ group.display ++ ")\n"
  | some ⟨group, .unbound⟩ => "none\t(unbound in " ++ group.display ++ ")\n"

/-- The response to a question for one chord. -/
def resolveResponse (look : String → PathState) (path chord : String) (context : ContextText) :
    Response :=
  match Chord.read chord with
  | .error e => .failure ("invalid chord `" ++ chord ++ "`") (some e.message)
  | .ok c =>
    match context.read look with
    | .error e => .failure e.message none
    | .ok active =>
      let loaded := Loading.load look path
      (Response.success (resolutionLine (loaded.table.resolve? c active))).after
        (warning path loaded.error)

/-- The line on a chord in a list. -/
def listLine (c : Chord) (r : Resolution) : String :=
  let action := (r.binding.action?.map Action.id).getD "(unbound)"
  Text.padRight 24 c.display ++ " " ++ Text.padRight 32 action ++ " " ++ r.group.display ++ "\n"

/-- The response to a question for all chords. -/
def listResponse (look : String → PathState) (path : String) (context : ContextText) : Response :=
  match context.read look with
  | .error e => .failure e.message none
  | .ok active =>
    let loaded := Loading.load look path
    let lines := (loaded.table.effective active).map fun p => listLine p.1 p.2
    (Response.success ("# active: " ++ active.display ++ "\n" ++ String.join lines)).after
      (warning path loaded.error)

/-- What is printed when a watched file has been loaded: on the one side that it is in use, on the
other side why it is not. -/
def watchReport (path : String) : Option LoadError → String × String
  | none => (path ++ ": OK\n", "")
  | some e => ("", path ++ ": " ++ e.message ++ "; using defaults\n")

/-- The response to the wish to watch a file in a folder. -/
def watchResponse (sys : Surroundings) (path : String) (folder : Option String) : Response :=
  match folder.bind fun f => (sys.obstacle f).map (f, ·) with
  | some (f, reason) => .failure ("failed to create " ++ f) (some reason)
  | none =>
    let (keymap, error) := Keymap.load sys.look path
    let (out, err) := watchReport path error
    ⟨0, out ++ "watching " ++ path ++ " (ctrl-c to stop)\n", err, some keymap⟩

/-! ## §6 The program -/

/-- The warning that nothing can be logged. -/
def logWarning (env : Environment) (sys : Surroundings) : String :=
  let error := [env.configFolder, env.logFolder].findSome? fun f =>
    (sys.obstacle f).map fun reason => FolderError.message ⟨f, reason⟩
  match error with
  | some text => "Warning: Could not initialize file logging: " ++ text ++ "\n"
  | none => ""

/-- The response to a request. -/
def Request.response (r : Request) (env : Environment) (sys : Surroundings) : Response :=
  let path := r.path env
  let response := match r.task with
    | .check => checkResponse sys.look path r.file.isSome
    | .resolve chord context => resolveResponse sys.look path chord context
    | .list context => listResponse sys.look path context
    | .flags => .success (unlines (Flag.all.map Flag.name))
    | .watch => watchResponse sys path (r.watched? env)
  response.after (logWarning env sys)

/-- The response to a command line. A command line without meaning is answered with the help on the
program, whatever the mistake in it is. Only the empty command line asks for just that: what is
printed for other mistakes stands in for a message that would name them. -/
def Reading.response (env : Environment) (sys : Request → Surroundings) : Reading → Response
  | .run r => r.response env (sys r)
  | .help t => .success t.text
  | .version => .success versionText
  | .misuse => ⟨2, "", Topic.program.text, none⟩

end Keybinding.CommandLine
