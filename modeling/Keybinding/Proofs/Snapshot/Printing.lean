import Keybinding.Proofs.Json.Printing
import Keybinding.Proofs.Snapshot
import Keybinding.Proofs.Snapshot.Reading

/-!
# Reading undoes writing

A snapshot is written with all its fields, so that no field is left to its default. Each value is
read back as it was: a name as the focus that has it, digits as the number that they were made from.
The limit on counts is the only one, and it is met by every snapshot that has been read.
-/

namespace Keybinding

theorem Entity.ofName_name (e : Entity) : ofName e.name = e := by
  cases e <;> rfl

theorem View.ofName_name (v : View) : ofName v.name = v := by
  cases v <;> rfl

namespace Snapshot

variable {s : Snapshot}

/-! ## §1 Members -/

/-- The focus as it is written. -/
def writtenFocus (name : Option String) : Json :=
  name.elim .null fun n => .string (some n)

/-- The members of a snapshot as it is written. -/
def members (s : Snapshot) : List (Option String × Json) :=
  (fieldNames.map some).zip
    [ writtenFocus (s.focusedEntity.map Entity.name), writtenFocus (s.focusedView.map View.name),
      .bool s.drawerOpen, .bool s.drawerExpanded, .bool s.rightPanelOpen, .bool s.pickerOpen,
      .bool s.modalOpen, .bool s.paletteOpen, .bool s.diffViewOpen,
      .number (toString s.entityCount), .bool s.hasPreviousView, .bool s.canGoBack,
      .bool s.canGoForward, .number (toString s.changedFileCount) ]

theorem toJson_eq (s : Snapshot) : s.toJson = .object s.members := rfl

/-- Each field is written once, in the order of the fields. -/
theorem map_fst_members (s : Snapshot) : s.members.map Prod.fst = fieldNames.map some := rfl

theorem lookup_members {n : String} {j : Json} (hn : n ∈ fieldNames) (h : (some n, j) ∈ s.members) :
    s.members.lookup (some n) = some j := by
  -- the first member with the key is the only one
  have hunique : ∀ n ∈ fieldNames, (fieldNames.map some).count (some n) ≤ 1 := by decide
  rw [lookup_eq_some_iff_mem]
  · exact h
  · rw [map_fst_members]
    exact hunique n hn

theorem keysAllowed_members (s : Snapshot) : keysAllowed s.members = true := by
  rw [keysAllowed_iff, map_fst_members]
  decide

theorem mem_members_of_switch {p : String × Bool} (h : p ∈ s.namedSwitches) :
    p.1 ∈ fieldNames ∧ (some p.1, .bool p.2) ∈ s.members := by
  revert p
  simp [namedSwitches, members, fieldNames]

theorem mem_members_of_count {p : String × Nat} (h : p ∈ s.namedCounts) :
    p.1 ∈ fieldNames ∧ (some p.1, .number (toString p.2)) ∈ s.members := by
  revert p
  simp [namedCounts, members, fieldNames]

/-! ## §2 Reading back -/

theorem focus?_writtenFocus {α : Type} {name : α → String} {ofName : String → α}
    (h : ∀ a, ofName (name a) = a) (o : Option α) :
    focus? ofName (some (writtenFocus (o.map name))) = some o := by
  cases o with
  | none => rfl
  | some a => exact congrArg (fun a => some (some a)) (h a)

theorem count?_toString {n : Nat} (h : n < UInt64.size) :
    count? (some (.number (toString n))) = some n := by
  rw [count?]
  · rw [Json.natural?_toString]
    exact if_pos h
  · exact nofun

/-- The counts of a snapshot can be written and read back. -/
def CountsFit (s : Snapshot) : Prop :=
  s.entityCount < UInt64.size ∧ s.changedFileCount < UInt64.size

theorem isRead_members (h : s.CountsFit) : IsRead (fun n => s.members.lookup (some n)) s where
  entity := by
    rw [lookup_members (by decide) (List.mem_of_mem_head? rfl)]
    exact focus?_writtenFocus Entity.ofName_name _
  view := by
    rw [lookup_members (by decide) (List.mem_cons_of_mem _ (List.mem_of_mem_head? rfl))]
    exact focus?_writtenFocus View.ofName_name _
  switches := by
    intro p hp
    obtain ⟨hname, hmem⟩ := mem_members_of_switch hp
    rw [lookup_members hname hmem]
    rfl
  counts := by
    intro p hp
    obtain ⟨hname, hmem⟩ := mem_members_of_count hp
    rw [lookup_members hname hmem]
    apply count?_toString
    simp only [namedCounts, List.mem_cons, List.not_mem_nil, or_false] at hp
    rcases hp with rfl | rfl
    · exact h.1
    · exact h.2

theorem ofJson?_toJson (h : s.CountsFit) : ofJson? s.toJson = some s := by
  rw [toJson_eq, ofJson?_object_eq_some_iff, ofFields?_eq_some_iff]
  exact ⟨keysAllowed_members s, isRead_members h⟩

/-! ## §3 Texts -/

/-- The only literals in a written snapshot are its counts. -/
theorem isProper_toJson (s : Snapshot) : s.toJson.IsProper := by
  have hcount : ∀ n : Nat, (Json.number (toString n)).IsProper := by
    intro n
    rw [Json.isProper_number_iff]
    exact Json.isNumber_toString n
  have hfocus : ∀ o : Option String, (writtenFocus o).IsProper := by
    intro o
    cases o with
    | none => exact Json.isProper_null
    | some n => exact Json.isProper_string n
  have hbool := Json.isProper_bool
  -- member by member, in the order in which they are written
  rw [toJson_eq, Json.isProper_object_iff]
  simp only [members, fieldNames, List.map_cons, List.map_nil, List.zip_cons_cons,
    List.zip_nil_right, List.forall_mem_cons]
  exact ⟨hfocus _, hfocus _, hbool _, hbool _, hbool _, hbool _, hbool _, hbool _, hbool _,
    hcount _, hbool _, hbool _, hbool _, hcount _, List.forall_mem_nil _⟩

theorem jsonRead?_display (s : Snapshot) : Json.read? s.display = some (.object s.members) :=
  Json.read?_display (isProper_toJson s)

theorem read?_display (h : s.CountsFit) : read? s.display = some s := by
  rw [read?, jsonRead?_display]
  exact ofJson?_toJson h

/-- What has been read can be written. -/
theorem countsFit_of_read? {text : String} (h : read? text = some s) : s.CountsFit := by
  obtain ⟨j, -, hs⟩ := Option.bind_eq_some_iff.1 h
  have hwritten := isWritten_of_ofJson? hs
  exact ⟨hwritten.entityCount_lt, hwritten.changedFileCount_lt⟩

/-- **Reading undoes writing.** A snapshot is written as an object with all its fields in order, and
when its counts fit it is read back from this text. Each text that denotes a snapshot can thus be
replaced by the one as which the snapshot is written, and tells the same flags as this one. -/
theorem read?_display_undoes :
    (∀ s : Snapshot, s.CountsFit →
      Json.read? s.display = some (.object s.members) ∧
      s.members.map Prod.fst = fieldNames.map some ∧ read? s.display = some s) ∧
    ∀ text s, read? text = some s →
      read? s.display = some s ∧
      ActiveText.read (.snapshot s.display) = ActiveText.read (.snapshot text) := by
  constructor
  · intro s h
    exact ⟨jsonRead?_display s, map_fst_members s, read?_display h⟩
  · intro text s h
    have hback := read?_display (countsFit_of_read? h)
    refine ⟨hback, ?_⟩
    rw [ActiveText.read, ActiveText.read, hback, h]

/-- An unknown entity, no view, and the largest count there is. -/
def crowdedSnapshot : Snapshot :=
  ⟨some .unknown, none, true, false, true, false, false, true, false, 18446744073709551615, true,
    false, true, 7⟩

/-- The snapshot is the same when it is read, written and read again, also where the first text
calls the entity otherwise and leaves fields out. -/
theorem read?_display_undoes_crowded :
    (crowdedSnapshot.CountsFit ∧ read? crowdedSnapshot.display = some crowdedSnapshot) ∧
    ∃ text s, read? text = some s ∧ s.focusedEntity = some .unknown ∧ text ≠ s.display ∧
      read? s.display = some s ∧
      ActiveText.read (.snapshot s.display) = ActiveText.read (.snapshot text) := by
  constructor
  · have hfit : crowdedSnapshot.CountsFit := ⟨by decide, by decide⟩
    exact ⟨hfit, (read?_display_undoes.1 _ hfit).2.2⟩
  · have hread : read? "\x7b\"changedFileCount\": 2, \"focusedEntity\": \"terminal\"\x7d" =
        some ⟨some .unknown, none, false, false, false, false, false, false, false, 0, false, false,
          false, 2⟩ := by
      decide +kernel
    have hback := read?_display_undoes.2 _ _ hread
    refine ⟨_, _, hread, rfl, ?_, hback⟩
    decide +kernel

end Snapshot

end Keybinding
