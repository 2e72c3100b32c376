import Keybinding.CommandLine.Argument
import Keybinding.Text.Basic

/-!
# Requests

A command line names a command and its options. The file of the user's groups can be given before
the command or after it, and what is given after it counts. Reading goes from left to right, so that
a plea for help is heard unless a mistake comes before it.
-/

namespace Keybinding.CommandLine

/-- A command. -/
inductive Verb where
  | check
  | resolve
  | list
  | flags
  | watch
  deriving DecidableEq, Repr

namespace Verb

/-- The commands in order. -/
def all : List Verb := [check, resolve, list, flags, watch]

def name : Verb → String
  | check => "check"
  | resolve => "resolve"
  | list => "list"
  | flags => "flags"
  | watch => "watch"

def ofName? (s : String) : Option Verb :=
  all.find? (·.name == s)

/-- The command takes options for active flags. -/
def takesContext : Verb → Bool
  | resolve | list => true
  | _ => false

end Verb

/-- How the active flags are told. -/
structure ContextText where
  /-- The file of a snapshot. -/
  state : Option String
  /-- Names of flags, which can be empty and can have white space around them. -/
  names : List String
  deriving DecidableEq, Repr

/-- What is to be done. -/
inductive Task where
  /-- Tell whether the file of the user's groups can be used. -/
  | check
  /-- Tell what a chord does. -/
  | resolve (chord : String) (context : ContextText)
  /-- Tell what all chords do. -/
  | list (context : ContextText)
  /-- Tell the flags. -/
  | flags
  /-- Check the file of the user's groups whenever it changes. -/
  | watch
  deriving DecidableEq, Repr

/-- What is to be done, and with which file. -/
structure Request where
  /-- The file of the user's groups, if it is not the usual one. -/
  file : Option String
  task : Task
  deriving DecidableEq, Repr

/-- What help is about. -/
inductive Topic where
  | program
  | command (v : Verb)
  | help
  deriving DecidableEq, Repr

/-- What a command line means. -/
inductive Reading where
  | run (r : Request)
  | help (t : Topic)
  | version
  /-- The command line has no meaning. -/
  | misuse
  deriving DecidableEq, Repr

/-! ## §1 Options of a command -/

/-- The options of a command as far as they have been read. -/
structure Given where
  file : Option String
  state : Option String
  names : List String
  chord : Option String
  deriving DecidableEq, Repr

namespace Given

/-- Nothing has been read. -/
def nothing : Given := ⟨none, none, [], none⟩

/-- The options after one more. A path is given once and is not empty. Names can be given often,
with commas between them. -/
def setting? (g : Given) (v : Verb) : Setting → String → Option Given
  | .file, path =>
    if g.file.isSome || path.isEmpty then none else some { g with file := some path }
  | .state, path =>
    if !v.takesContext || g.state.isSome || path.isEmpty then none
    else some { g with state := some path }
  | .context, names =>
    if v.takesContext then some { g with names := g.names ++ Text.split ',' names } else none

/-- The options after a plain word, which can only be a chord. -/
def word? (g : Given) (v : Verb) (text : String) : Option Given :=
  if v = .resolve ∧ g.chord = none then some { g with chord := some text } else none

/-- The task that the options make. -/
def task? (g : Given) : Verb → Option Task
  | .check => some .check
  | .resolve => g.chord.map fun c => .resolve c ⟨g.state, g.names⟩
  | .list => some (.list ⟨g.state, g.names⟩)
  | .flags => some .flags
  | .watch => some .watch

end Given

/-! ## §2 Command lines -/

namespace Reading

/-- What the arguments after the name of a command mean, where `file` has been given before it. -/
def ofOptions (file : Option String) (v : Verb) (g : Given) : List Argument → Reading
  | [] =>
    match g.task? v with
    | some task => .run ⟨g.file <|> file, task⟩
    | none => .misuse
  | .help :: _ => .help (.command v)
  | .escape :: rest => ofOptions file v g rest
  | .setting s value :: rest =>
    match g.setting? v s value with
    | some g => ofOptions file v g rest
    | none => .misuse
  | .word text :: rest =>
    match g.word? v text with
    | some g => ofOptions file v g rest
    | none => .misuse
  | _ => .misuse

/-- What the arguments after the word `help` mean. -/
def ofTopic : List Argument → Reading
  | [] => .help .program
  | [.word "help"] => .help .help
  | [.word w] =>
    match Verb.ofName? w with
    | some v => .help (.command v)
    | none => .misuse
  | _ => .misuse

/-- What arguments mean, where `file` has been given before them. -/
def ofArguments (file : Option String) : List Argument → Reading
  | .help :: _ => .help .program
  | .version :: _ => .version
  | .setting .file path :: rest =>
    if file.isSome || path.isEmpty then .misuse else ofArguments (some path) rest
  | .word "help" :: rest => ofTopic rest
  | .word w :: rest =>
    match Verb.ofName? w with
    | some v => ofOptions file v .nothing rest
    | none => .misuse
  | _ => .misuse

/-- What the words of a command line mean. -/
def ofWords (words : List String) : Reading :=
  ofArguments none (Argument.ofWords words)

end Reading

end Keybinding.CommandLine
