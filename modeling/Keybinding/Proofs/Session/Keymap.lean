import Keybinding.Proofs.Loading
import Keybinding.Proofs.Session.Run
import Mathlib.Algebra.Group.Nat.Defs

/-!
# The live keymap over a run

A step makes a new keymap, swaps the table of the one there is, or leaves it alone (`effect_next`).
So the last step that makes one decides the path of the user's file, the swaps since then are
counted by the version, and the table is that of the last step that puts one in use. What a swap
puts in use when the file is read again does not depend on the past, only on the path and the files.
-/

namespace Keybinding.Session

/-! ## §1 What a step does to the keymap -/

namespace Step

/-- A step that makes a new keymap. -/
def creates : Step → Bool
  | .load _ => true
  | .create defaults user => (Table.ofListings defaults user).toOption.isSome
  | _ => false

/-- A step that swaps the table of the keymap. -/
def swaps : Step → Bool
  | .reload => true
  | .replace defaults user => (Table.ofListings defaults user).toOption.isSome
  | _ => false

/-- A step that puts a table in use. -/
def installs (a : Step) : Bool :=
  a.creates || a.swaps

def holds : Step → Bool
  | .hold => true
  | _ => false

/-- The path of the user's file in a keymap that a step makes. -/
def path? : Step → Option String
  | .load path => path
  | _ => none

end Step

/-- The table that a step puts in use, if it puts one in use. -/
def installed? (s : Session) : Step → Option Table
  | .load path => some (Loading.load s.files.look path).table
  | .reload => some (Loading.load s.files.look s.keymap.userPath).table
  | .create defaults user | .replace defaults user => (Table.ofListings defaults user).toOption
  | _ => none

/-- What a step can make of the keymap and of the table that was put aside. -/
inductive Effect (s : Session) (a : Step) : Keymap → Table → Prop where
  | created {t : Table} (hcreates : a.creates = true) (ht : s.installed? a = some t) :
    Effect s a ⟨t, 0, a.path?⟩ s.held
  | swapped {t : Table} (hcreates : a.creates = false) (hswaps : a.swaps = true)
    (ht : s.installed? a = some t) : Effect s a (s.keymap.replace t) s.held
  | held (ha : a = .hold) : Effect s a s.keymap s.keymap.table
  | kept (hcreates : a.creates = false) (hswaps : a.swaps = false) : Effect s a s.keymap s.held

theorem next_create (s : Session) (defaults user : Listing) :
    s.next (.create defaults user) =
      match Table.ofListings defaults user with
      | .ok t => { s with keymap := .ofTable t }
      | .error _ => s := by
  simp only [next, step, readListings]
  cases Table.ofListings defaults user <;> rfl

theorem next_replace (s : Session) (defaults user : Listing) :
    s.next (.replace defaults user) =
      match Table.ofListings defaults user with
      | .ok t => { s with keymap := s.keymap.replace t }
      | .error _ => s := by
  simp only [next, step, readListings]
  cases Table.ofListings defaults user <;> rfl

theorem effect_next (s : Session) (a : Step) :
    Effect s a (s.next a).keymap (s.next a).held := by
  cases a with
  | load path => exact .created rfl rfl
  | reload => exact .swapped rfl rfl rfl
  | hold => exact .held rfl
  | create defaults user =>
    rw [next_create]
    cases h : Table.ofListings defaults user with
    | ok t =>
      apply Effect.created
      · simp [Step.creates, Except.toOption, h]
      · simp [installed?, Except.toOption, h]
    | error e =>
      apply Effect.kept
      · simp [Step.creates, Except.toOption, h]
      · rfl
  | replace defaults user =>
    rw [next_replace]
    cases h : Table.ofListings defaults user with
    | ok t =>
      apply Effect.swapped
      · rfl
      · simp [Step.swaps, Except.toOption, h]
      · simp [installed?, Except.toOption, h]
    | error e =>
      apply Effect.kept
      · rfl
      · simp [Step.swaps, Except.toOption, h]
  -- what the other steps read or change, if their text can be read, is neither the keymap nor what
  -- was put aside
  | readGroups path =>
    simp only [next, step]
    cases Loading.groupsAt s.files.look path <;> exact .kept rfl rfl
  | askHeld q =>
    simp only [next, step]
    cases s.held.answer q <;> exact .kept rfl rfl
  | ask q =>
    simp only [next, step]
    cases s.keymap.table.answer q <;> exact .kept rfl rfl
  | activate flags =>
    simp only [next, step]
    cases flags.read <;> exact .kept rfl rfl
  | press chord =>
    simp only [next, step]
    cases Chord.read chord <;> exact .kept rfl rfl
  | dispatch action =>
    simp only [next, step]
    cases action.mapM readAction <;> exact .kept rfl rfl
  | register action tag =>
    simp only [next, step]
    cases readAction action <;> exact .kept rfl rfl
  | unregister action =>
    simp only [next, step]
    cases readAction action <;> exact .kept rfl rfl
  | isRegistered action =>
    simp only [next, step]
    cases readAction action <;> exact .kept rfl rfl
  | _ => exact .kept rfl rfl

/-! ## §2 What one step leaves of the keymap -/

namespace Effect

variable {s : Session} {a : Step} {k : Keymap} {held : Table}

theorem eq_of_creates (h : Effect s a k held) (ha : a.creates = true) :
    k.version = 0 ∧ k.userPath = a.path? := by
  cases h with
  | created _ _ => exact ⟨rfl, rfl⟩
  | swapped hnot _ _ => simp [ha] at hnot
  | held hhold => simp [hhold, Step.creates] at ha
  | kept hnot _ => simp [ha] at hnot

theorem userPath_eq (h : Effect s a k held) (ha : a.creates = false) :
    k.userPath = s.keymap.userPath := by
  cases h with
  | created hcreates _ => simp [ha] at hcreates
  | _ => rfl

theorem version_eq (h : Effect s a k held) (ha : a.creates = false) :
    k.version = if a.swaps then s.keymap.version + 1 else s.keymap.version := by
  cases h with
  | created hcreates _ => simp [ha] at hcreates
  | swapped _ hswaps _ => simp [hswaps]
  | held hhold => simp [hhold, Step.swaps]
  | kept _ hswaps => simp [hswaps]

/-- The version as a number, if it does not come to the end of a word. -/
theorem toNat_version_eq (h : Effect s a k held) (ha : a.creates = false)
    (hfits : s.keymap.version.toNat + (if a.swaps then 1 else 0) < 2 ^ 64) :
    k.version.toNat = s.keymap.version.toNat + if a.swaps then 1 else 0 := by
  rw [h.version_eq ha]
  cases hswaps : a.swaps with
  | false => simp
  | true =>
    simp only [hswaps, if_true] at hfits ⊢
    rw [UInt64.toNat_add, UInt64.toNat_one]
    exact Nat.mod_eq_of_lt hfits

theorem installed?_eq (h : Effect s a k held) (ha : a.installs = true) :
    s.installed? a = some k.table := by
  cases h with
  | created _ ht => exact ht
  | swapped _ _ ht => exact ht
  | held hhold => simp [hhold, Step.installs, Step.creates, Step.swaps] at ha
  | kept hcreates hswaps => simp [Step.installs, hcreates, hswaps] at ha

theorem table_eq (h : Effect s a k held) (ha : a.installs = false) :
    k.table = s.keymap.table := by
  have hnone : a.creates = false ∧ a.swaps = false := by simpa [Step.installs] using ha
  cases h with
  | created hcreates _ => simp [hnone.1] at hcreates
  | swapped _ hswaps _ => simp [hnone.2] at hswaps
  | _ => rfl

theorem held_eq (h : Effect s a k held) (ha : a.holds = false) : held = s.held := by
  cases h with
  | held hhold => simp [hhold, Step.holds] at ha
  | _ => rfl

end Effect

/-! ## §3 Counting swaps -/

/-- Each swap raises the version by one. -/
theorem version_after {steps : List Step} {s : Session}
    (hcreates : ∀ a ∈ steps, a.creates = false)
    (hfits : s.keymap.version.toNat + steps.countP Step.swaps < 2 ^ 64) :
    (s.after steps).keymap.version.toNat =
      s.keymap.version.toNat + steps.countP Step.swaps := by
  -- the room left in the word shrinks with the version, so that the session must be general
  induction steps generalizing s with
  | nil => simp
  | cons a steps ih =>
    rw [List.forall_mem_cons] at hcreates
    rw [List.countP_cons] at hfits ⊢
    have hnext := (effect_next s a).toNat_version_eq hcreates.1 (by omega)
    rw [after_cons, ih hcreates.2 (by omega), hnext]
    omega

/-! ## §4 What the last step of a kind leaves -/

section LastStep

variable {steps before later : List Step} {a : Step}

/-- A new keymap starts at zero, and the swaps after it are counted. -/
theorem version_of_isLastStep (h : IsLastStep Step.creates steps before a later)
    (hfits : later.countP Step.swaps < 2 ^ 64) (s : Session) :
    (s.after steps).keymap.version.toNat = later.countP Step.swaps := by
  have hzero : ((s.after before).next a).keymap.version = 0 :=
    ((effect_next (s.after before) a).eq_of_creates h.of_kind).1
  rw [h.after_eq, version_after h.none_later]
  · simp [hzero]
  · simpa [hzero] using hfits

theorem userPath_of_isLastStep (h : IsLastStep Step.creates steps before a later) (s : Session) :
    (s.after steps).keymap.userPath = a.path? := by
  have hkeep : (s.after steps).keymap.userPath = ((s.after before).next a).keymap.userPath :=
    h.eq_next (f := fun s => s.keymap.userPath) s fun b hb s => (effect_next s b).userPath_eq hb
  rw [hkeep]
  exact ((effect_next (s.after before) a).eq_of_creates h.of_kind).2

theorem table_of_isLastStep (h : IsLastStep Step.installs steps before a later) (s : Session) :
    some (s.after steps).keymap.table = (s.after before).installed? a := by
  have hkeep : (s.after steps).keymap.table = ((s.after before).next a).keymap.table :=
    h.eq_next (f := fun s => s.keymap.table) s fun b hb s => (effect_next s b).table_eq hb
  rw [hkeep, (effect_next (s.after before) a).installed?_eq h.of_kind]

theorem held_of_isLastStep (h : IsLastStep Step.holds steps before a later) (s : Session) :
    (s.after steps).held = (s.after before).keymap.table := by
  have ha : a = .hold := by
    have hholds := h.of_kind
    cases a <;> first | rfl | contradiction
  have hkeep : (s.after steps).held = ((s.after before).next a).held :=
    h.eq_next (f := Session.held) s fun b hb s => (effect_next s b).held_eq hb
  rw [hkeep, ha]
  rfl

end LastStep

/-! ## §5 Answers -/

/-- A new session in the same files. -/
def fresh (s : Session) : Session := { initial with files := s.files }

theorem answer_reload (s : Session) :
    s.answer .reload = .ok (.keymap (s.next .reload).keymap
      (Loading.load s.files.look s.keymap.userPath).error) := rfl

theorem table_next_reload (s : Session) :
    (s.next .reload).keymap.table = (Loading.load s.files.look s.keymap.userPath).table := rfl

theorem answer_replace {s : Session} {defaults user : Listing} {t : Table}
    (h : Table.ofListings defaults user = .ok t) :
    s.answer (.replace defaults user) =
      .ok (.version (s.next (.replace defaults user)).keymap.version) := by
  simp only [answer, next, step, readListings, h]
  rfl

theorem answer_askHeld {s s' : Session} (h : s.held = s'.keymap.table) (q : Query) :
    s.answer (.askHeld q) = s'.answer (.ask q) := by
  simp only [answer, step, h]
  cases s'.keymap.table.answer q <;> rfl

/-! ## §6 Any run -/

/-- What the steps of a run leave in a session that was new. -/
structure Leaves (steps : List Step) (s : Session) : Prop where
  /-- One more step is answered by what the steps have left. -/
  answer_of_run : ∀ a, (run (steps ++ [a]))[steps.length]? = some (s.answer a)
  /-- Without a new keymap, the version counts all swaps of tables that could be built. -/
  version_eq_countP : (∀ a ∈ steps, a.creates = false) →
    s.keymap.version.toNat = steps.countP Step.swaps
  /-- Else it counts those since the last new keymap. -/
  version_eq_countP_later : ∀ before a later, IsLastStep Step.creates steps before a later →
    s.keymap.version.toNat = later.countP Step.swaps
  /-- A swap is answered with the version that it makes. -/
  answer_replace : ∀ defaults user t, Table.ofListings defaults user = .ok t →
    s.answer (.replace defaults user) =
      .ok (.version (s.next (.replace defaults user)).keymap.version)
  table_eq_empty : (∀ a ∈ steps, a.installs = false) → s.keymap.table = .empty
  /-- The table is the one that was put in use last, as it was then. -/
  table_eq_installed? : ∀ before a later, IsLastStep Step.installs steps before a later →
    some s.keymap.table = (initial.after before).installed? a
  userPath_eq_none : (∀ a ∈ steps, a.creates = false) → s.keymap.userPath = none
  userPath_eq_path? : ∀ before a later, IsLastStep Step.creates steps before a later →
    s.keymap.userPath = a.path?
  /-- To read the file again is to load it in a session that is new. -/
  reload_eq_load : ∃ error,
    s.answer .reload = .ok (.keymap (s.next .reload).keymap error) ∧
      s.fresh.answer (.load s.keymap.userPath) =
        .ok (.keymap (s.fresh.next (.load s.keymap.userPath)).keymap error) ∧
      (s.next .reload).keymap.table = (s.fresh.next (.load s.keymap.userPath)).keymap.table
  reload_without_path : s.keymap.userPath = none →
    s.answer .reload = .ok (.keymap (s.next .reload).keymap none) ∧
      Table.build DefaultKeymap.groups [] = .ok (s.next .reload).keymap.table
  /-- Whatever has been in use, a file that can be used now is used. -/
  reload_of_isUsable : ∀ path gs, s.keymap.userPath = some path →
    Loading.IsUsable (s.files.look path) gs →
    s.answer .reload = .ok (.keymap (s.next .reload).keymap none) ∧
      Table.build DefaultKeymap.groups gs = .ok (s.next .reload).keymap.table
  /-- The table that was put aside answers as the table in use did then. -/
  answer_askHeld : ∀ before a later, IsLastStep Step.holds steps before a later →
    ∀ q, s.answer (.askHeld q) = (initial.after before).answer (.ask q)

/-- **The keymap after any run.** The version counts the swaps since the keymap was made, the table
is the one put in use last, the path is that of the last new keymap, reading the file again is the
same as loading it in a new session, and a table that was put aside answers as before until the next
one is put aside. -/
theorem keymap_of_run (steps : List Step) (hfits : steps.countP Step.swaps < 2 ^ 64) :
    Leaves steps (initial.after steps) := by
  constructor
  case answer_of_run =>
    intro a
    exact getElem?_answers initial steps a []
  case version_eq_countP =>
    intro hnone
    have hzero : initial.keymap.version.toNat = 0 := rfl
    rw [version_after hnone (by omega), hzero, Nat.zero_add]
  case version_eq_countP_later =>
    intro before a later h
    apply version_of_isLastStep h
    have hle : later.countP Step.swaps ≤ steps.countP Step.swaps := by
      rw [h.split, List.countP_append, List.countP_cons]
      omega
    omega
  case answer_replace =>
    intro defaults user t ht
    exact answer_replace ht
  case table_eq_empty =>
    intro hnone
    exact after_eq_of_forall (f := fun s => s.keymap.table) initial fun a ha s =>
      (effect_next s a).table_eq (hnone a ha)
  case table_eq_installed? =>
    intro before a later h
    exact table_of_isLastStep h initial
  case userPath_eq_none =>
    intro hnone
    exact after_eq_of_forall (f := fun s => s.keymap.userPath) initial fun a ha s =>
      (effect_next s a).userPath_eq (hnone a ha)
  case userPath_eq_path? =>
    intro before a later h
    exact userPath_of_isLastStep h initial
  case reload_eq_load =>
    exact ⟨_, answer_reload _, rfl, rfl⟩
  case reload_without_path =>
    intro hpath
    rw [answer_reload, table_next_reload, hpath, Loading.load_none]
    exact ⟨rfl, DefaultKeymap.build_groups⟩
  case reload_of_isUsable =>
    intro path gs hpath hfile
    rcases Loading.load_of_isUsable hfile with ⟨t, hload, ht⟩
    rw [answer_reload, table_next_reload, hpath, hload]
    exact ⟨rfl, ht⟩
  case answer_askHeld =>
    intro before a later h q
    exact answer_askHeld (held_of_isLastStep h initial) q

/-- After a table was put aside and then swapped for an empty one, it still answers as before. -/
theorem keymap_of_run_swapping :
    ∃ s, s = initial.after [.load none, .reload, .hold, .replace (.groups []) (.groups [])] ∧
      s.keymap.version.toNat = 2 ∧ s.keymap.table = .empty ∧ s.keymap.userPath = none ∧
      (∀ q, s.answer (.askHeld q) = (initial.after [.load none, .reload]).answer (.ask q)) ∧
      Table.build DefaultKeymap.groups [] = .ok (s.next .reload).keymap.table := by
  have hrun := keymap_of_run [.load none, .reload, .hold, .replace (.groups []) (.groups [])]
    (by decide)
  have hload : IsLastStep Step.creates _ [] (.load none)
      [.reload, .hold, .replace (.groups []) (.groups [])] := ⟨rfl, rfl, by decide⟩
  have hreplace : IsLastStep Step.installs _ [.load none, .reload, .hold]
      (.replace (.groups []) (.groups [])) [] := ⟨rfl, by decide, by simp⟩
  have hhold : IsLastStep Step.holds _ [.load none, .reload] .hold
      [.replace (.groups []) (.groups [])] := ⟨rfl, rfl, by decide⟩
  have hpath := hrun.userPath_eq_path? _ _ _ hload
  refine ⟨_, rfl, ?_, ?_, hpath, ?_, ?_⟩
  · exact hrun.version_eq_countP_later _ _ _ hload
  · have htable := hrun.table_eq_installed? _ _ _ hreplace
    have hbuild : Table.ofListings (.groups []) (.groups []) = .ok .empty := by decide
    simpa [installed?, hbuild, Except.toOption] using htable
  · exact hrun.answer_askHeld _ _ _ hhold
  · exact (hrun.reload_without_path hpath).2

end Keybinding.Session
