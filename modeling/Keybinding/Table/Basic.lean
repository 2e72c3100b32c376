import Keybinding.Bindings
import Keybinding.Condition.Basic

/-!
# Groups and tables

A group binds chords while its condition holds. A group without a condition always counts.

A table holds the default groups and after them the groups of the user. The last group that counts
and binds a chord decides what the chord does. If that group takes the chord away, nothing happens,
and no earlier group is asked.

Menus show by which chords an action can be struck. A binding is passed over when a later group
without a condition binds the chord as well, since it can then never win.
-/

namespace Keybinding

/-! ## §1 Groups -/

/-- Bindings that count while a condition holds. -/
structure Group where
  condition : Option Condition
  bindings : Bindings
  deriving DecidableEq, Repr

namespace Group

/-- The group counts while the flags of `active` are on. -/
def isActive (g : Group) (active : FlagSet) : Bool :=
  Condition.holds g.condition active

/-- The group counts at all times, since it asks for nothing. -/
def isUnconditional (g : Group) : Bool :=
  g.condition.isNone

/-- What the group binds to a chord. -/
def get? (g : Group) (c : Chord) : Option Binding :=
  g.bindings.get? c

/-- What the group binds to a chord while the flags of `active` are on. -/
def resolve? (g : Group) (c : Chord) (active : FlagSet) : Option Binding :=
  if g.isActive active then g.get? c else none

/-- The chords that the group binds to an action, in order. -/
def chordsOf (g : Group) (a : Action) : List Chord :=
  (g.bindings.entries.filter (·.2.action? == some a)).map (·.1)

theorem isActive_of_isUnconditional {g : Group} (h : g.isUnconditional = true) (active : FlagSet) :
    g.isActive active = true := by
  simp [isActive, Condition.holds, Option.isNone_iff_eq_none.1 h]

theorem mem_chordsOf {g : Group} {a : Action} {c : Chord} :
    c ∈ g.chordsOf a ↔ g.get? c = some (.action a) := by
  have h : ∀ b : Binding, b.action? = some a ↔ b = .action a := by
    intro b
    cases b <;> simp [Binding.action?]
  simp only [chordsOf, get?, Bindings.get?_eq_some_iff, List.mem_map, List.mem_filter, beq_iff_eq,
    h]
  constructor
  · rintro ⟨⟨d, b⟩, ⟨hm, rfl⟩, rfl⟩
    exact hm
  · exact fun hm => ⟨_, ⟨hm, rfl⟩, rfl⟩

end Group

/-! ## §2 Tables -/

/-- Where a group comes from. -/
inductive Origin where
  | default
  | user
  deriving DecidableEq, Repr

def Origin.name : Origin → String
  | default => "default"
  | user => "user"

/-- The identity of a group: where it comes from, and its place among the groups from there. -/
structure GroupId where
  origin : Origin
  index : Nat
  deriving DecidableEq, Repr

/-- The text of an identity. -/
def GroupId.display (id : GroupId) : String :=
  id.origin.name ++ " group #" ++ toString id.index

/-- The default groups and the groups of the user. -/
structure Table where
  defaults : List Group
  user : List Group
  deriving DecidableEq, Repr

/-- What a chord does, and the group that decides it. -/
structure Resolution where
  group : GroupId
  binding : Binding
  deriving DecidableEq, Repr

namespace Table

/-! ## §3 Groups of a table -/

def empty : Table := ⟨[], []⟩

def groups (t : Table) : List Group :=
  t.defaults ++ t.user

/-- Groups of one origin with their identities. -/
def identify (origin : Origin) (gs : List Group) : List (GroupId × Group) :=
  gs.mapIdx fun i g => (⟨origin, i⟩, g)

/-- The groups in order, with their identities. -/
def identified (t : Table) : List (GroupId × Group) :=
  identify .default t.defaults ++ identify .user t.user

/-- No group binds a chord. -/
def isEmpty (t : Table) : Bool :=
  t.groups.all (·.bindings.isEmpty)

@[simp] theorem map_snd_identify (origin : Origin) (gs : List Group) :
    (identify origin gs).map (·.2) = gs := by
  refine List.ext_getElem? fun i => ?_
  cases h : gs[i]? <;> simp [identify, h]

@[simp] theorem map_snd_identified (t : Table) : t.identified.map (·.2) = t.groups := by
  simp [identified, groups]

/-! ## §4 Resolution -/

/-- What a chord does while the flags of `active` are on, if a group decides it. -/
def resolve? (t : Table) (c : Chord) (active : FlagSet) : Option Resolution :=
  t.identified.reverse.findSome? fun p => (p.2.resolve? c active).map fun b => ⟨p.1, b⟩

/-- The action of a chord while the flags of `active` are on. -/
def action? (t : Table) (c : Chord) (active : FlagSet) : Option Action :=
  (t.resolve? c active).bind (·.binding.action?)

/-! ## §5 Overview -/

/-- The chords that some group binds, in order, each once. -/
def chords (t : Table) : List Chord :=
  Chord.sort (t.groups.flatMap (·.bindings.chords)).eraseDups

/-- Each chord that a group decides while the flags of `active` are on, in order. -/
def effective (t : Table) (active : FlagSet) : List (Chord × Resolution) :=
  t.chords.filterMap fun c => (t.resolve? c active).map (c, ·)

/-! ## §6 Labels -/

/-- Each element of a list with the elements after it, from the last to the first. -/
def withLater {α : Type} : List α → List (α × List α)
  | [] => []
  | a :: later => withLater later ++ [(a, later)]

/-- A later group without a condition binds the chord or takes it away. -/
def isShadowed (later : List Group) (c : Chord) : Bool :=
  later.any fun g => g.isUnconditional && (g.get? c).isSome

/-- The chords by which one group, followed by later ones, can lead to an action. -/
def openChords (a : Action) (p : Group × List Group) : List Chord :=
  (p.1.chordsOf a).filter (!isShadowed p.2 ·)

/-- The chords that can lead to an action, those of later groups first, each once. -/
def chordsFor (t : Table) (a : Action) : List Chord :=
  ((withLater t.groups).flatMap (openChords a)).eraseDups

/-- The chord that a menu shows for an action: the first one of the last group that has one, where
only groups without a condition count. -/
def labelChord? (t : Table) (a : Action) : Option Chord :=
  ((withLater t.groups).filter (·.1.isUnconditional)).findSome? fun p => (openChords a p).head?

/-- The text that a menu shows for an action. -/
def acceleratorFor (t : Table) (a : Action) : Option String :=
  (t.labelChord? a).map Chord.accelerator

end Table

end Keybinding
