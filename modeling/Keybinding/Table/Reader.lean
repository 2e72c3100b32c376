import Keybinding.Chord.Reader
import Keybinding.Condition.Reader
import Keybinding.GroupText
import Keybinding.Table.Basic

/-!
# Reading groups and tables

The condition of a written group is read first, then its entries from the first to the last: the
chord, the action, and whether the chord has been bound before. The first failure is the answer.

A table is read from written groups, the default groups first. It is read whole or not at all: the
first group that cannot be read is blamed. Before that, groups can fail to be there and to be listed
(`LoadError`).
-/

namespace Keybinding

namespace Group

/-! ## §1 What can be wrong with a written group -/

/-- Why a written group means none. Texts are quoted as written. -/
inductive Error where
  /-- The condition cannot be read. -/
  | condition (text : String) (cause : Condition.Error)
  /-- A chord cannot be read. -/
  | chord (text : String) (cause : Chord.Error)
  /-- An action cannot be read. -/
  | action (cause : Action.Error)
  /-- Two entries mean the same chord. -/
  | repeated (c : Chord)
  deriving DecidableEq, Repr

namespace Error

/-- The wording of the error that lies behind this one. -/
def cause? : Error → Option String
  | condition _ e => some e.message
  | chord _ e => some e.message
  | action e => some e.message
  | repeated _ => none

def message : Error → String
  | condition text e => "invalid context `" ++ text ++ "`: " ++ e.message
  | chord text e => "invalid key chord `" ++ text ++ "`: " ++ e.message
  | action e => e.message
  | repeated c => "chord `" ++ c.display ++ "` is bound more than once"

/-- The condition is well formed up to a name that is no flag. -/
def isUnknownFlag : Error → Bool
  | condition _ e => e.isUnknownFlag
  | _ => false

end Error

/-! ## §2 Reading a group -/

/-- The condition that a text means, where there is one. -/
def readCondition : Option String → Except Error (Option Condition)
  | none => .ok none
  | some text =>
    match Condition.read text with
    | .ok c => .ok (some c)
    | .error e => .error (.condition text e)

/-- The binding that the text of an action means, without regard to white space around it. Null and
the word `unbound` take the chord away. -/
def readBinding : Option String → Except Action.Error Binding
  | none => .ok .unbound
  | some text =>
    let text := Text.trimmed text
    if text = "unbound" then .ok .unbound else (Action.read text).map .action

/-- The bindings after one more entry has been read. -/
def readEntry (m : Bindings) (e : String × Option String) : Except Error Bindings :=
  match Chord.read e.1 with
  | .error cause => .error (.chord e.1 cause)
  | .ok c =>
    match readBinding e.2 with
    | .error cause => .error (.action cause)
    | .ok b => if m.contains c then .error (.repeated c) else .ok (m.insert c b)

/-- The group that a written group means. -/
def read (g : GroupText) : Except Error Group := do
  let condition ← readCondition g.context
  let bindings ← g.bindings.foldlM readEntry .empty
  return ⟨condition, bindings⟩

end Group

namespace Table

/-! ## §3 Reading a table -/

/-- What is wrong with a written table: the group to blame, and what is wrong with it. -/
structure Error where
  group : GroupId
  fault : Group.Error
  deriving DecidableEq, Repr

def Error.message (e : Error) : String :=
  e.group.display ++ ": " ++ e.fault.message

/-- The groups of one origin that written groups mean. -/
def readGroups (origin : Origin) (texts : List GroupText) : Except Error (List Group) :=
  texts.zipIdx.mapM fun p => (Group.read p.1).mapError fun e => ⟨⟨origin, p.2⟩, e⟩

/-- The table that written default groups and written groups of the user mean. -/
def read (defaults user : List GroupText) : Except Error Table := do
  let defaults ← readGroups .default defaults
  let user ← readGroups .user user
  return ⟨defaults, user⟩

end Table

/-! ## §4 What can go wrong when groups are loaded -/

/-- Why groups cannot be used. -/
inductive LoadError where
  /-- The path names no file of UTF-8 text. -/
  | unreadable (path : String)
  /-- The text lists no groups. -/
  | malformed
  /-- The groups mean no table. -/
  | invalid (e : Table.Error)
  deriving DecidableEq, Repr

namespace LoadError

/-- The wording of the error that lies behind this one. -/
def cause? : LoadError → Option String
  | unreadable _ => some "not a file of UTF-8 text"
  | malformed => some "not a list of groups"
  | invalid e => e.fault.cause?

def message : LoadError → String
  | unreadable path => "failed to read " ++ path ++ ": not a file of UTF-8 text"
  | malformed => "failed to parse mapping table: not a list of groups"
  | invalid e => e.message

end LoadError

/-- The groups that a text lists. -/
def GroupText.readTable (text : String) : Except LoadError (List GroupText) :=
  match GroupText.readTable? text with
  | some gs => .ok gs
  | none => .error .malformed

theorem GroupText.readTable_eq_ok_iff {text : String} {gs : List GroupText} :
    readTable text = .ok gs ↔ readTable? text = some gs := by
  unfold readTable
  cases readTable? text <;> simp

/-- The table that written groups mean. -/
def Table.build (defaults user : List GroupText) : Except LoadError Table :=
  (Table.read defaults user).mapError .invalid

end Keybinding
