import Keybinding.Keymap
import Keybinding.Proofs.Steps
import Keybinding.Proofs.Table.Building

/-!
# A file is used whole or not at all

The text of the default keymap lists groups (`readTable_text`), and these groups mean a table
(`build_groups`), so that an application always has its own keys.

The file of the user is in use when it lists groups that are all valid. Its groups are then all of
the groups of the user. In any other case the table is that of the default keymap alone, and an
error is told if the path names something. A group of a file that is not in use has no effect,
wherever the fault is.
-/

namespace Keybinding

/-! ## §1 The default keymap is valid -/

namespace DefaultKeymap

theorem toList_text : text.toList = lines.flatMap fun l => l.toList ++ ['\n'] := by
  rw [text]
  simp [List.flatMap_map]

theorem isSome_read :
    ((GroupText.readTable? text).bind fun gs => (Table.read gs []).toOption).isSome = true := by
  rw [GroupText.readTable?, Yaml.Node.read?, toList_text, lines]
  simp only [List.flatMap_cons, List.flatMap_nil]
  -- the lines are taken apart into characters here, since to decode them is costly
  repeat rw [String.toList_ofList]
  decide +kernel

theorem exists_read_groups :
    GroupText.readTable? text = some groups ∧ ∃ t, (Table.read groups []).toOption = some t := by
  rcases Option.isSome_iff_exists.1 isSome_read with ⟨t, ht⟩
  rcases Option.bind_eq_some_iff.1 ht with ⟨gs, hgs, hread⟩
  have hgroups : groups = gs := by
    delta groups
    rw [hgs, Option.getD_some]
  rw [hgroups]
  exact ⟨hgs, t, hread⟩

/-- **The text of the default keymap lists groups.** -/
theorem readTable_text : GroupText.readTable text = .ok groups :=
  GroupText.readTable_eq_ok_iff.2 exists_read_groups.1

/-- **The groups of the default keymap mean its table.** -/
theorem build_groups : Table.build groups [] = .ok table := by
  rcases exists_read_groups.2 with ⟨t, ht⟩
  have htable : table = t := by
    delta table
    rw [ht, Option.getD_some]
  rw [Table.build, Except.mapError_eq_ok_iff, htable]
  exact Except.toOption_eq_some_iff.1 ht

end DefaultKeymap

namespace Loading

/-! ## §2 Files that are used and files that are not -/

/-- What a path names is a file of text that lists the groups, and all of them are valid. -/
structure IsUsable (s : PathState) (gs : List GroupText) : Prop where
  listed : ∃ text, s.text? = some text ∧ GroupText.readTable text = .ok gs
  valid : ∀ g ∈ gs, g.IsValid

/-- Why what a path names cannot be used: the error is that of the reading that fails first. -/
inductive IsFault (s : PathState) (path : String) : LoadError → Prop where
  | unreadable (h : s.text? = none) : IsFault s path (.unreadable path)
  | unlisted {text : String} {e : LoadError} (h : s.text? = some text)
    (hlist : GroupText.readTable text = .error e) : IsFault s path e
  | unbuilt {text : String} {gs : List GroupText} {e : LoadError} (h : s.text? = some text)
    (hlist : GroupText.readTable text = .ok gs)
    (hbuild : Table.build DefaultKeymap.groups gs = .error e) : IsFault s path e

variable {look : String → PathState} {path : String} {gs : List GroupText}

theorem IsUsable.isPresent {s : PathState} (h : IsUsable s gs) : s.isPresent = true := by
  rcases h.listed with ⟨text, htext, -⟩
  cases s with
  | missing => contradiction
  | folder => rfl
  | file content => rfl

theorem groupsAt_eq_ok_iff :
    groupsAt look path = .ok gs ↔
      ∃ text, (look path).text? = some text ∧ GroupText.readTable text = .ok gs := by
  unfold groupsAt
  cases (look path).text? <;> simp

theorem tableAt_eq_ok_iff {t : Table} :
    tableAt look path = .ok t ↔
      ∃ gs, groupsAt look path = .ok gs ∧ Table.build DefaultKeymap.groups gs = .ok t := by
  rw [tableAt, Except.bind_eq_ok_iff]

theorem groupsAt_eq_error_iff {e : LoadError} :
    groupsAt look path = .error e ↔
      (look path).text? = none ∧ LoadError.unreadable path = e ∨
        ∃ text, (look path).text? = some text ∧ GroupText.readTable text = .error e := by
  unfold groupsAt
  cases (look path).text? <;> simp

theorem isFault_of_tableAt {e : LoadError} (h : tableAt look path = .error e) :
    IsFault (look path) path e := by
  rw [tableAt, Except.bind_eq_error_iff, groupsAt_eq_error_iff] at h
  rcases h with (⟨htext, rfl⟩ | ⟨text, htext, hlist⟩) | ⟨gs, hgs, hbuild⟩
  · exact .unreadable htext
  · exact .unlisted htext hlist
  · rcases groupsAt_eq_ok_iff.1 hgs with ⟨text, htext, hlist⟩
    exact .unbuilt htext hlist hbuild

/-- A table is made from the file exactly when the file can be used. -/
theorem exists_tableAt_iff :
    (∃ t, tableAt look path = .ok t) ↔ ∃ gs, IsUsable (look path) gs := by
  have hbuild : ∀ {gs}, (∃ t, Table.build DefaultKeymap.groups gs = .ok t) ↔ _ :=
    Table.exists_build_iff_of_build DefaultKeymap.build_groups
  simp only [tableAt_eq_ok_iff]
  constructor
  · rintro ⟨t, gs, hgs, ht⟩
    exact ⟨gs, groupsAt_eq_ok_iff.1 hgs, hbuild.1 ⟨t, ht⟩⟩
  · rintro ⟨gs, hlisted, hvalid⟩
    rcases hbuild.2 hvalid with ⟨t, ht⟩
    exact ⟨t, gs, groupsAt_eq_ok_iff.2 hlisted, ht⟩

/-! ## §3 Loading -/

theorem load_none (look : String → PathState) : load look none = ⟨DefaultKeymap.table, none⟩ := by
  simp [load]

theorem load_of_missing (h : (look path).isPresent = false) :
    load look (some path) = ⟨DefaultKeymap.table, none⟩ := by
  simp [load, Option.filter, h]

theorem load_of_ok {t : Table} (hpresent : (look path).isPresent = true)
    (h : tableAt look path = .ok t) : load look (some path) = ⟨t, none⟩ := by
  simp [load, Option.filter, hpresent, h]

theorem load_of_error {e : LoadError} (hpresent : (look path).isPresent = true)
    (h : tableAt look path = .error e) :
    load look (some path) = ⟨DefaultKeymap.table, some e⟩ := by
  simp [load, Option.filter, hpresent, h]

/-- Whatever the path names, the table is built from the default groups and groups of the user. -/
theorem exists_build_load (look : String → PathState) (path : Option String) :
    ∃ user, Table.build DefaultKeymap.groups user = .ok (load look path).table := by
  unfold load
  split
  · exact ⟨[], DefaultKeymap.build_groups⟩
  · split
    · next h =>
      obtain ⟨gs, -, hbuild⟩ := tableAt_eq_ok_iff.1 h
      exact ⟨gs, hbuild⟩
    · exact ⟨[], DefaultKeymap.build_groups⟩

/-- A file that can be used is used with all of its groups. -/
theorem load_of_isUsable (h : IsUsable (look path) gs) :
    ∃ t, load look (some path) = ⟨t, none⟩ ∧ Table.build DefaultKeymap.groups gs = .ok t := by
  rcases (Table.exists_build_iff_of_build DefaultKeymap.build_groups).2 h.valid with ⟨t, ht⟩
  have hread : tableAt look path = .ok t :=
    tableAt_eq_ok_iff.2 ⟨gs, groupsAt_eq_ok_iff.2 h.listed, ht⟩
  exact ⟨t, load_of_ok h.isPresent hread, ht⟩

/-- What cannot be used leaves the default keymap alone, and its fault is told. -/
theorem load_of_not_isUsable (h : ∀ gs, ¬ IsUsable (look path) gs)
    (hpresent : (look path).isPresent = true) :
    ∃ e, load look (some path) = ⟨DefaultKeymap.table, some e⟩ ∧ IsFault (look path) path e := by
  cases hread : tableAt look path with
  | ok t =>
    rcases exists_tableAt_iff.1 ⟨t, hread⟩ with ⟨gs, hgs⟩
    exact absurd hgs (h gs)
  | error e => exact ⟨e, load_of_error hpresent hread, isFault_of_tableAt hread⟩

/-- An error is told only where something is there that cannot be used. -/
theorem exists_of_isSome_error {path : Option String}
    (h : (load look path).error.isSome = true) :
    ∃ p e, path = some p ∧ (look p).isPresent = true ∧ (∀ gs, ¬ IsUsable (look p) gs) ∧
      load look path = ⟨DefaultKeymap.table, some e⟩ := by
  cases path with
  | none =>
    rw [load_none] at h
    contradiction
  | some p =>
    cases hpresent : (look p).isPresent with
    | false =>
      rw [load_of_missing hpresent] at h
      contradiction
    | true =>
      have hnot : ∀ gs, ¬ IsUsable (look p) gs := by
        intro gs hgs
        rcases load_of_isUsable hgs with ⟨t, hload, -⟩
        rw [hload] at h
        contradiction
      rcases load_of_not_isUsable hnot hpresent with ⟨e, hload, -⟩
      exact ⟨p, e, rfl, hpresent, hnot, hload⟩

/-- **A file is used whole or not at all.** Without a path, or where the path names nothing, the
table is that of the default groups alone, and there is no error. A file that can be used gives the
table of the default groups and all groups in the file, without an error. Whatever else the path
names leaves the default groups alone, and the error is that of the reading that has failed. So
there is an error exactly if something is there that cannot be used, and then the groups in it have
no effect on what any chord does. -/
theorem load_whole_or_not (look : String → PathState) (path : Option String) :
    ((∀ p, path = some p → (look p).isPresent = false) →
      Table.build DefaultKeymap.groups [] = .ok (load look path).table ∧
        (load look path).table.user = [] ∧ (load look path).error = none) ∧
    (∀ p gs, path = some p → IsUsable (look p) gs →
      Table.build DefaultKeymap.groups gs = .ok (load look path).table ∧
        (load look path).table.user.length = gs.length ∧ (load look path).error = none) ∧
    (∀ p, path = some p → (look p).isPresent = true → (∀ gs, ¬ IsUsable (look p) gs) →
      Table.build DefaultKeymap.groups [] = .ok (load look path).table ∧
        (load look path).table.user = [] ∧
        ∃ e, (load look path).error = some e ∧ IsFault (look p) p e) ∧
    ((load look path).error.isSome = true ↔
      ∃ p, path = some p ∧ (look p).isPresent = true ∧ ∀ gs, ¬ IsUsable (look p) gs) ∧
    ((load look path).error.isSome = true → ∀ c active,
      (load look path).table.resolve? c active = DefaultKeymap.table.resolve? c active) := by
  have hdefault := DefaultKeymap.build_groups
  have huser := Table.user_eq_nil_of_build hdefault
  have habsent : (∀ p, path = some p → (look p).isPresent = false) →
      load look path = ⟨DefaultKeymap.table, none⟩ := by
    intro h
    cases path with
    | none => exact load_none look
    | some p => exact load_of_missing (h p rfl)
  refine ⟨?_, ?_, ?_, ?_, ?_⟩
  · intro h
    rw [habsent h]
    exact ⟨hdefault, huser, rfl⟩
  · rintro p gs rfl h
    rcases load_of_isUsable h with ⟨t, hload, ht⟩
    rw [hload]
    exact ⟨ht, ((Table.build_eq_ok_iff.1 ht).2).length_eq.symm, rfl⟩
  · rintro p rfl hpresent h
    rcases load_of_not_isUsable h hpresent with ⟨e, hload, he⟩
    rw [hload]
    exact ⟨hdefault, huser, e, rfl, he⟩
  · constructor
    · intro herror
      rcases exists_of_isSome_error herror with ⟨p, e, hp, hpresent, hnot, -⟩
      exact ⟨p, hp, hpresent, hnot⟩
    · rintro ⟨p, rfl, hpresent, h⟩
      rcases load_of_not_isUsable h hpresent with ⟨e, hload, -⟩
      rw [hload]
      rfl
  · intro herror c active
    rcases exists_of_isSome_error herror with ⟨p, e, -, -, -, hload⟩
    rw [hload]

/-! A file with one valid group, and the same file with a second group that names no flag. -/

def running : GroupText := ⟨none, [("cmd-q", some "task::run")]⟩

def unflagged : GroupText := ⟨some "noFlag", []⟩

/-- A folder in which every path names a file of the same text. -/
def filledWith (text : String) (_ : String) : PathState := .file text.toUTF8

theorem isUsable_filledWith_iff {text : String} :
    IsUsable (filledWith text path) gs ↔
      GroupText.readTable text = .ok gs ∧ ∀ g ∈ gs, g.IsValid := by
  have htext : (filledWith text path).text? = some text := PathState.text?_file_toUTF8 text
  constructor
  · rintro ⟨⟨text', htext', hlist⟩, hvalid⟩
    obtain rfl := Option.some.inj (htext.symm.trans htext')
    exact ⟨hlist, hvalid⟩
  · rintro ⟨hlist, hvalid⟩
    exact ⟨⟨text, htext, hlist⟩, hvalid⟩

/-- A valid group is used if it stands alone in the file, and has no effect next to the one that
names no flag. -/
theorem load_whole_or_not_running :
    ∃ one two, GroupText.readTable one = .ok [running] ∧
      GroupText.readTable two = .ok [running, unflagged] ∧
      (load (filledWith one) (some "keys")).table.user.length = 1 ∧
      (load (filledWith two) (some "keys")).table.user = [] ∧
      (load (fun _ => .missing) (some "keys")).error = none := by
  obtain ⟨one, hone⟩ : ∃ text, GroupText.readTable text = .ok [running] :=
    ⟨"- bindings:\n    cmd-q: task::run\n", by decide +kernel⟩
  obtain ⟨two, htwo⟩ : ∃ text, GroupText.readTable text = .ok [running, unflagged] :=
    ⟨"- bindings:\n    cmd-q: task::run\n- context: noFlag\n", by decide +kernel⟩
  have hvalid : running.IsValid := by
    rw [← Group.exists_read_iff]
    exact ⟨⟨none, Bindings.empty.insert ⟨.char 'q', ⟨true, false, false, false⟩⟩
      (.action (.builtin .taskRun))⟩, by decide +kernel⟩
  have hinvalid : ¬ unflagged.IsValid := by
    intro h
    rcases h.condition "noFlag" rfl with ⟨c, hc⟩
    have hnone : (Condition.read "noFlag").toOption = none := by decide +kernel
    rw [hc] at hnone
    contradiction
  have husable : IsUsable (filledWith one "keys") [running] := by
    rw [isUsable_filledWith_iff]
    exact ⟨hone, by simpa using hvalid⟩
  have hunusable : ∀ gs, ¬ IsUsable (filledWith two "keys") gs := by
    intro gs hgs
    rw [isUsable_filledWith_iff] at hgs
    obtain rfl := Except.ok.inj (htwo.symm.trans hgs.1)
    exact hinvalid (hgs.2 unflagged (by simp))
  refine ⟨one, two, hone, htwo, ?_, ?_, ?_⟩
  · have h := (load_whole_or_not (filledWith one) (some "keys")).2.1 "keys" [running] rfl
    exact (h husable).2.1
  · have h := (load_whole_or_not (filledWith two) (some "keys")).2.2.1 "keys" rfl rfl
    exact (h hunusable).2.1
  · have h := (load_whole_or_not (fun _ => .missing) (some "keys")).1
    refine (h ?_).2.2
    intro p hp
    rfl

end Loading

end Keybinding
