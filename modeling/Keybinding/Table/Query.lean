import Keybinding.Chord.Reader
import Keybinding.Snapshot.Json
import Keybinding.Table.Basic

/-!
# Questions to a table

A question names chords, actions and active flags as written. The set of active flags is told by the
JSON text of a snapshot, or by the names of the flags. Of several texts that cannot be read, a chord
is blamed before the active flags.
-/

namespace Keybinding

/-! ## §1 Active flags as written -/

/-- The set of active flags as written. -/
inductive ActiveText where
  /-- The JSON text of a snapshot. -/
  | snapshot (text : String)
  /-- The names of the flags. -/
  | names (names : List String)
  deriving DecidableEq, Repr

namespace ActiveText

/-- Why no set of flags is told. -/
inductive Error where
  /-- The text denotes no snapshot. -/
  | invalidSnapshot
  /-- A name is the name of no flag. -/
  | unknownFlag (name : String)
  deriving DecidableEq, Repr

/-- The set of flags that is told. -/
def read : ActiveText → Except Error FlagSet
  | snapshot text =>
    match Snapshot.read? text with
    | some s => .ok s.activeFlags
    | none => .error .invalidSnapshot
  | names ns => (FlagSet.ofNames ns).mapError .unknownFlag

end ActiveText

/-! ## §2 Questions and answers -/

/-- A question to a table. -/
inductive Query where
  /-- What does a chord do? -/
  | resolve (chord : String) (active : ActiveText)
  /-- What do all chords do? -/
  | effective (active : ActiveText)
  /-- Which chords can lead to an action? -/
  | chordsFor (action : String)
  /-- What does a menu show for an action? -/
  | accelerator (action : String)
  /-- How large is the table? -/
  | size
  /-- What does one group hold, and what does it bind to a chord? -/
  | group (index : Nat) (chord : Option String) (active : ActiveText)
  deriving DecidableEq, Repr

namespace Query

/-- What a question has for an answer. -/
inductive Answer where
  | resolution (r : Option Resolution)
  | effective (bindings : List (Chord × Resolution))
  | chords (cs : List Chord)
  | accelerator (text : Option String)
  | size (groups user : Nat) (isEmpty : Bool)
  /-- The group, whether it counts, and what it binds to the chord, if one was named. -/
  | group (id : GroupId) (g : Group) (isActive : Bool) (found : Option (Option Binding))
  deriving DecidableEq, Repr

/-- Why a question has no answer. -/
inductive Error where
  | chord (e : Chord.Error)
  | action (e : Action.Error)
  | active (e : ActiveText.Error)
  /-- The table has no group at this place. -/
  | noSuchGroup (index : Nat)
  deriving DecidableEq, Repr

end Query

namespace Table

/-- The answer of a table to a question. -/
def answer (t : Table) : Query → Except Query.Error Query.Answer
  | .resolve chord active => do
    let c ← (Chord.read chord).mapError .chord
    let active ← active.read.mapError .active
    return .resolution (t.resolve? c active)
  | .effective active => do
    let active ← active.read.mapError .active
    return .effective (t.effective active)
  | .chordsFor action => do
    let a ← (Action.read action).mapError .action
    return .chords (t.chordsFor a)
  | .accelerator action => do
    let a ← (Action.read action).mapError .action
    return .accelerator (t.acceleratorFor a)
  | .size => return .size t.groups.length t.user.length t.isEmpty
  | .group index chord active =>
    match t.identified[index]? with
    | none => .error (.noSuchGroup index)
    | some (id, g) => do
      let c ← (chord.mapM Chord.read).mapError .chord
      let active ← active.read.mapError .active
      return .group id g (g.isActive active) (c.map g.get?)

end Table

end Keybinding
