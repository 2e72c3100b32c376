/-!
# Arguments

The words of a command line are sorted into options and plain words. An option can hold its value
after an equals sign or, if it has a one-letter name, right after that letter. Else the next word is
its value, unless that word looks like an option. After `--` all words are plain.
-/

namespace Keybinding.CommandLine

/-- What an option with a value is about. -/
inductive Setting where
  /-- The file of the user's groups. -/
  | file
  /-- Names of active flags. -/
  | context
  /-- The file of a snapshot. -/
  | state
  deriving DecidableEq, Repr

/-- An argument. -/
inductive Argument where
  | word (text : String)
  | setting (s : Setting) (value : String)
  | help
  | version
  /-- From here on all words are plain. -/
  | escape
  /-- An option that does not exist, or that lacks its value or has one too many. -/
  | invalid
  deriving DecidableEq, Repr

/-- What one word says by itself. -/
inductive Form where
  | complete (a : Argument)
  /-- The value of an option is still to come. -/
  | awaits (s : Setting)
  deriving DecidableEq, Repr

namespace Argument

/-! ## §1 Words -/

/-- The option of a long name. -/
def named? : String → Option Setting
  | "file" => some .file
  | "context" => some .context
  | "state" => some .state
  | _ => none

/-- The text before the first equals sign, and the text after it. -/
def splitValue : List Char → List Char × Option (List Char)
  | [] => ([], none)
  | '=' :: rest => ([], some rest)
  | c :: rest =>
    let (name, value) := splitValue rest
    (c :: name, value)

/-- What a word says that starts with two dashes, which are left out here. -/
def long (text : List Char) : Form :=
  let (name, value) := splitValue text
  match String.ofList name, value with
  | "help", none => .complete .help
  | "version", none => .complete .version
  | name, value =>
    match named? name, value with
    | some s, some v => .complete (.setting s (String.ofList v))
    | some s, none => .awaits s
    | none, _ => .complete .invalid

/-- What a word says that starts with one dash, from the letter after the dash on. -/
def short : Char → List Char → Form
  | 'h', _ => .complete .help
  | 'V', _ => .complete .version
  | 'f', [] => .awaits .file
  | 'f', '=' :: value => .complete (.setting .file (String.ofList value))
  | 'f', value => .complete (.setting .file (String.ofList value))
  | _, _ => .complete .invalid

/-- What a word says by itself. -/
def form (w : String) : Form :=
  match w.toList with
  | ['-', '-'] => .complete .escape
  | '-' :: '-' :: text => long text
  | '-' :: letter :: rest => short letter rest
  | _ => .complete (.word w)

/-- A word can be the value of the option before it. -/
def isValue (w : String) : Bool :=
  match form w with
  | .complete (.word _) => true
  | _ => false

/-! ## §2 Lists of words -/

/-- The arguments that words make. Words after a mistake are not looked at. -/
def ofWords : List String → List Argument
  | [] => []
  | w :: rest =>
    match form w with
    | .complete .escape => .escape :: rest.map .word
    | .complete a => a :: ofWords rest
    | .awaits s =>
      match rest with
      | [] => [.invalid]
      | v :: rest => if isValue v then .setting s v :: ofWords rest else [.invalid]

end Argument

end Keybinding.CommandLine
