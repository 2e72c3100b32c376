import Keybinding.Proofs.Condition.Fault
import Keybinding.Proofs.Group.Fault
import Keybinding.Proofs.Table.Building

/-!
# Which fault is told

A table that cannot be built is told with one fault: the first one, when all default groups are read
before all groups of the user, and each group from its condition to its last entry. The fault
belongs to the first group that is not valid by itself, and it says where this group comes from and
which place it has there.
-/

namespace Keybinding

/-- The part of what is written that an error quotes. -/
def Group.Error.quoted : Group.Error → String
  | condition text _ => text
  | chord text _ => text
  | action e => e.text
  | repeated c => c.display

namespace Table

/-- The group that is blamed is the first of all written groups that is not valid, and it is blamed
for the first thing that is wrong with it. -/
inductive BlamesFirst (defaults user : List GroupText) : Error → Prop where
  | mk {before later : List GroupText} {g : GroupText} {fault : Group.Error}
    (hsplit : defaults ++ user = before ++ g :: later) (hbefore : ∀ b ∈ before, b.IsValid)
    (hfault : g.HasFault fault) :
    BlamesFirst defaults user ⟨.ofPlace defaults.length before.length, fault⟩

variable {defaults user : List GroupText}

/-! ## §1 The group to blame -/

/-- Places among all groups are places among those of one origin. -/
theorem isFirstFault_of_split {before later : List GroupText} {g : GroupText} {fault : Group.Error}
    (hsplit : defaults ++ user = before ++ g :: later) (hbefore : ∀ b ∈ before, b.IsValid)
    (hread : Group.read g = .error fault) :
    IsFirstFault defaults user ⟨.ofPlace defaults.length before.length, fault⟩ := by
  have hdefault : ∀ rest, defaults = before ++ g :: rest →
      IsFirstFault defaults user ⟨.ofPlace defaults.length before.length, fault⟩ := by
    intro rest hrest
    have hplace : GroupId.ofPlace defaults.length before.length = ⟨.default, before.length⟩ := by
      rw [hrest]
      simp [GroupId.ofPlace]
    rw [hplace]
    exact .default hrest hbefore hread
  have huser : ∀ front, before = defaults ++ front → user = front ++ g :: later →
      IsFirstFault defaults user ⟨.ofPlace defaults.length before.length, fault⟩ := by
    rintro front rfl hfront
    have hplace : GroupId.ofPlace defaults.length (defaults ++ front).length =
        ⟨.user, front.length⟩ := by
      simp [GroupId.ofPlace]
    rw [hplace]
    obtain ⟨hdefaults, hvalid⟩ := List.forall_mem_append.1 hbefore
    exact .user hdefaults hfront hvalid hread
  -- the groups before it end among the defaults, behind all of them, or among those of the user
  rcases List.append_eq_append_iff.1 hsplit with ⟨front, hfront, hrest⟩ | ⟨rest, hrest, hlater⟩
  · exact huser front hfront hrest
  · cases rest with
    | nil => exact huser [] (by simpa using hrest.symm) (by simpa using hlater.symm)
    | cons f rest =>
      obtain ⟨rfl, -⟩ := List.cons.inj hlater
      exact hdefault rest hrest

/-- **A table fails with the first fault in the order of reading.** -/
theorem build_eq_error_iff {e : LoadError} :
    build defaults user = .error e ↔
      ∃ err, BlamesFirst defaults user err ∧ e = .invalid err := by
  have hblamed : ∀ err, BlamesFirst defaults user err →
      build defaults user = .error (.invalid err) := by
    rintro _ ⟨hsplit, hbefore, hfault⟩
    apply build_of_isFirstFault
    exact isFirstFault_of_split hsplit hbefore (Group.read_eq_error_iff.2 hfault)
  constructor
  · intro h
    -- were all groups valid, the table would be built
    have hinvalid : ¬ ∀ g ∈ defaults ++ user, g.IsValid := by
      intro hall
      obtain ⟨t, ht⟩ := exists_build_iff.2 hall
      rw [ht] at h
      cases h
    obtain ⟨before, g, later, hsplit, hbefore, hg⟩ := exists_first_not hinvalid
    obtain ⟨fault, hfault⟩ := (Group.exists_hasFault_iff g).2 hg
    have hblames := BlamesFirst.mk hsplit hbefore hfault
    refine ⟨_, hblames, ?_⟩
    rw [hblamed _ hblames] at h
    exact (Except.error.inj h).symm
  · rintro ⟨err, hblames, rfl⟩
    exact hblamed err hblames

/-! ## §2 What is told -/

/-- What an error quotes stands between backticks. -/
theorem quoted_infix_message (fault : Group.Error) :
    '\x60' :: fault.quoted.toList ++ ['\x60'] <:+: fault.message.toList := by
  cases fault with
  | condition text cause =>
    refine ⟨"invalid context ".toList, (": " ++ cause.message).toList, ?_⟩
    show _ = ("invalid context `" ++ text ++ "`: " ++ cause.message).toList
    simp [Group.Error.quoted]
  | chord text cause =>
    refine ⟨"invalid key chord ".toList, (": " ++ cause.message).toList, ?_⟩
    show _ = ("invalid key chord `" ++ text ++ "`: " ++ cause.message).toList
    simp [Group.Error.quoted]
  | action cause =>
    refine ⟨"invalid action id ".toList, ": expected `namespace::verb`".toList, ?_⟩
    show _ = ("invalid action id `" ++ cause.text ++ "`: expected `namespace::verb`").toList
    simp [Group.Error.quoted]
  | repeated c =>
    refine ⟨"chord ".toList, " is bound more than once".toList, ?_⟩
    show _ = ("chord `" ++ c.display ++ "` is bound more than once").toList
    simp [Group.Error.quoted]

/-- **An error names the group first, and then quotes what is wrong.** -/
theorem exists_message_eq (e : Error) :
    ∃ said, '\x60' :: e.fault.quoted.toList ++ ['\x60'] <:+: said ∧
      e.message.toList = e.group.display.toList ++ ':' :: ' ' :: said := by
  refine ⟨e.fault.message.toList, quoted_infix_message e.fault, ?_⟩
  show (e.group.display ++ ": " ++ e.fault.message).toList = _
  simp

/-- **A failure is that of an unknown flag exactly when a name is one.** -/
theorem isUnknownFlag_iff {e : Error} (h : BlamesFirst defaults user e) :
    e.fault.isUnknownFlag = true ↔
      ∃ text cause, e.fault = .condition text cause ∧
        ∃ name position, Condition.IsUnknownName text name position := by
  obtain ⟨-, -, hfault⟩ := h
  constructor
  · intro hflag
    cases hfault with
    | @condition text cause htext hcause =>
      cases cause with
      | unknownFlag name position =>
        exact ⟨text, _, rfl, name, position, Condition.read_eq_unknownFlag_iff.1 hcause⟩
      | _ => cases hflag
    | entry _ _ _ hentry => cases hentry <;> cases hflag
  · rintro ⟨text, cause, heq, name, position, hname⟩
    change _ = _ at heq
    cases hfault with
    | condition htext hcause =>
      cases heq
      -- the text has one failure only, which is that of the name
      rw [Condition.read_eq_unknownFlag_iff.2 hname] at hcause
      cases hcause
      rfl
    | entry _ _ _ hentry => cases hentry <;> cases heq

/-- **A table that cannot be built is told with its first fault.** The first written group that is
not valid is blamed, default groups before groups of the user, with the place that it has among the
groups from there. It is blamed for its condition if this cannot be read, and else for the first
entry that is wrong, of which the chord is looked at before the action, and the action before
entries with the same chord. The error quotes what is wrong. It counts as that of an unknown flag
exactly if the condition cannot be read since a name in it is the name of no flag. -/
theorem build_blames_first (defaults user : List GroupText) :
    (∀ e, build defaults user = .error e ↔
      ∃ err, BlamesFirst defaults user err ∧ e = .invalid err) ∧
    ∀ err, BlamesFirst defaults user err →
      (∃ said, '\x60' :: err.fault.quoted.toList ++ ['\x60'] <:+: said ∧
        err.message.toList = err.group.display.toList ++ ':' :: ' ' :: said) ∧
      (err.fault.isUnknownFlag = true ↔
        ∃ text cause, err.fault = .condition text cause ∧
          ∃ name position, Condition.IsUnknownName text name position) := by
  refine ⟨fun e => build_eq_error_iff, ?_⟩
  intro err h
  exact ⟨exists_message_eq err, isUnknownFlag_iff h⟩

/-! Of three groups, the second one has a condition that cannot be read and a chord that cannot be
read, and the third one binds a chord twice. -/

def sound : GroupText := ⟨none, [("k", none)]⟩

def twiceWrong : GroupText := ⟨some "modalOpen && noFlag", [("cmd-", some "app::quit")]⟩

def repeating : GroupText := ⟨none, [("k", none), ("K", none)]⟩

/-- The condition of the second group is blamed, for a name that is no flag. -/
theorem build_blames_first_unflagged :
    build [sound] [twiceWrong, repeating] =
        .error (.invalid ⟨⟨.user, 0⟩,
          .condition "modalOpen && noFlag" (.unknownFlag "noFlag" 13)⟩) ∧
      BlamesFirst [sound] [twiceWrong, repeating]
        ⟨⟨.user, 0⟩, .condition "modalOpen && noFlag" (.unknownFlag "noFlag" 13)⟩ ∧
      ∃ name position, Condition.IsUnknownName "modalOpen && noFlag" name position := by
  have hbuild : build [sound] [twiceWrong, repeating] =
      .error (.invalid ⟨⟨.user, 0⟩,
        .condition "modalOpen && noFlag" (.unknownFlag "noFlag" 13)⟩) := by
    decide +kernel
  obtain ⟨herror, htold⟩ := build_blames_first [sound] [twiceWrong, repeating]
  obtain ⟨err, hblames, heq⟩ := (herror _).1 hbuild
  cases heq
  obtain ⟨text, cause, hfault, hname⟩ := (htold _ hblames).2.1 rfl
  cases hfault
  exact ⟨hbuild, hblames, hname⟩

end Table

end Keybinding
