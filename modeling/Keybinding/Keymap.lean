import Keybinding.DefaultKeymap
import Keybinding.Files

/-!
# The live keymap

The groups of a table are given as they are, by the default keymap, or by a document. Both listings
of a table are read before any group in them is.

The file of the user is read on top of the default keymap, whole or not at all. A file that does not
exist is no failure. With a file that cannot be used, the default keymap stands alone, and the
failure is told.

The table in use can be swapped for another while the program runs. Each swap raises the version by
one. The path of the user's file stays the same, so that the file can be read again.
-/

namespace Keybinding

/-! ## §1 Listings -/

/-- Groups as they are given to a table. -/
inductive Listing where
  /-- The groups themselves. -/
  | groups (gs : List GroupText)
  /-- The groups of the default keymap. -/
  | builtin
  /-- The text of a document that lists the groups. -/
  | document (text : String)
  deriving DecidableEq, Repr

/-- The groups that are given. -/
def Listing.read : Listing → Except LoadError (List GroupText)
  | groups gs => .ok gs
  | builtin => .ok DefaultKeymap.groups
  | document text => GroupText.readTable text

/-- The table of the given default groups and groups of the user. -/
def Table.ofListings (defaults user : Listing) : Except LoadError Table := do
  let defaults ← defaults.read
  let user ← user.read
  Table.build defaults user

/-! ## §2 Loading a table -/

namespace Loading

/-- The groups in the file of a path. -/
def groupsAt (look : String → PathState) (path : String) : Except LoadError (List GroupText) :=
  match (look path).text? with
  | some text => GroupText.readTable text
  | none => .error (.unreadable path)

/-- The table of the default keymap with the groups in the file of a path. -/
def tableAt (look : String → PathState) (path : String) : Except LoadError Table := do
  Table.build DefaultKeymap.groups (← groupsAt look path)

/-- A table, and why the groups of the user are not in it. -/
structure Result where
  table : Table
  error : Option LoadError
  deriving DecidableEq, Repr

/-- The default keymap with the groups of the user, if there is a path and it names something. -/
def load (look : String → PathState) (path : Option String) : Result :=
  match path.filter fun p => (look p).isPresent with
  | none => ⟨DefaultKeymap.table, none⟩
  | some path =>
    match tableAt look path with
    | .ok t => ⟨t, none⟩
    | .error e => ⟨DefaultKeymap.table, some e⟩

end Loading

/-! ## §3 The keymap -/

/-- The table in use. -/
structure Keymap where
  table : Table
  /-- The number of swaps so far, as a word of 64 bits. -/
  version : UInt64
  /-- The path of the user's file. -/
  userPath : Option String
  deriving DecidableEq, Repr

namespace Keymap

/-- A keymap with a given table and no file. -/
def ofTable (t : Table) : Keymap := ⟨t, 0, none⟩

/-- A keymap with nothing bound. -/
def empty : Keymap := ofTable .empty

/-- The keymap with another table in use. -/
def replace (k : Keymap) (t : Table) : Keymap :=
  { k with table := t, version := k.version + 1 }

/-- A keymap from the user's file, and why that file is not in use. -/
def load (look : String → PathState) (path : Option String) : Keymap × Option LoadError :=
  let loaded := Loading.load look path
  (⟨loaded.table, 0, path⟩, loaded.error)

/-- The keymap after the user's file has been read again, and why that file is not in use. There is
a swap in any case. -/
def reload (look : String → PathState) (k : Keymap) : Keymap × Option LoadError :=
  let loaded := Loading.load look k.userPath
  (k.replace loaded.table, loaded.error)

@[simp] theorem version_replace (k : Keymap) (t : Table) :
    (k.replace t).version = k.version + 1 := rfl

@[simp] theorem table_replace (k : Keymap) (t : Table) : (k.replace t).table = t := rfl

@[simp] theorem userPath_replace (k : Keymap) (t : Table) :
    (k.replace t).userPath = k.userPath := rfl

end Keymap

end Keybinding
