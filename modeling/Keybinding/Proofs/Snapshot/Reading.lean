import Keybinding.Snapshot.Json
import Mathlib.Data.List.Perm.Basic

/-!
# How a snapshot is read

A snapshot is read field by field, and all fields have to be read for it (`ofFields?_eq_some_iff`).
In an object the value of a field is that of the only member with its name
(`lookup_eq_some_iff_mem`). A field that is missing is read like one that is null. So the snapshot
stays the same when the members of the object change their order, and when those are left out that
are null or belong to no field (`ofJson?_of_subperm`).
-/

namespace Keybinding.Snapshot

variable {s : Snapshot} {n : String} {j : Json} {ms ms' : List (Option String × Json)}

/-! ## §1 Fields -/

/-- The switches of a snapshot by their names. -/
def namedSwitches (s : Snapshot) : List (String × Bool) :=
  [ ("drawerOpen", s.drawerOpen), ("drawerExpanded", s.drawerExpanded),
    ("rightPanelOpen", s.rightPanelOpen), ("pickerOpen", s.pickerOpen), ("modalOpen", s.modalOpen),
    ("paletteOpen", s.paletteOpen), ("diffViewOpen", s.diffViewOpen),
    ("hasPreviousView", s.hasPreviousView), ("canGoBack", s.canGoBack),
    ("canGoForward", s.canGoForward) ]

/-- The counts of a snapshot by their names. -/
def namedCounts (s : Snapshot) : List (String × Nat) :=
  [("entityCount", s.entityCount), ("changedFileCount", s.changedFileCount)]

/-- Each field of a snapshot is what is read in its place. -/
structure IsRead (field : String → Option Json) (s : Snapshot) : Prop where
  entity : focus? Entity.ofName (field "focusedEntity") = some s.focusedEntity
  view : focus? View.ofName (field "focusedView") = some s.focusedView
  switches : ∀ p ∈ s.namedSwitches, switch? (field p.1) = some p.2
  counts : ∀ p ∈ s.namedCounts, count? (field p.1) = some p.2

theorem ofFields?_eq_some_iff {field : String → Option Json} :
    ofFields? field = some s ↔ IsRead field s := by
  constructor
  · intro h
    -- the fields are read one after the other, and each reading has to succeed
    obtain ⟨_, hentity, h⟩ := Option.bind_eq_some_iff.1 h
    obtain ⟨_, hview, h⟩ := Option.bind_eq_some_iff.1 h
    obtain ⟨_, hdrawer, h⟩ := Option.bind_eq_some_iff.1 h
    obtain ⟨_, hexpanded, h⟩ := Option.bind_eq_some_iff.1 h
    obtain ⟨_, hright, h⟩ := Option.bind_eq_some_iff.1 h
    obtain ⟨_, hpicker, h⟩ := Option.bind_eq_some_iff.1 h
    obtain ⟨_, hmodal, h⟩ := Option.bind_eq_some_iff.1 h
    obtain ⟨_, hpalette, h⟩ := Option.bind_eq_some_iff.1 h
    obtain ⟨_, hdiff, h⟩ := Option.bind_eq_some_iff.1 h
    obtain ⟨_, hentities, h⟩ := Option.bind_eq_some_iff.1 h
    obtain ⟨_, hprevious, h⟩ := Option.bind_eq_some_iff.1 h
    obtain ⟨_, hback, h⟩ := Option.bind_eq_some_iff.1 h
    obtain ⟨_, hforward, h⟩ := Option.bind_eq_some_iff.1 h
    obtain ⟨_, hfiles, h⟩ := Option.bind_eq_some_iff.1 h
    obtain rfl := Option.some.inj h
    refine ⟨hentity, hview, ?_, ?_⟩
    · simp only [namedSwitches, List.forall_mem_cons]
      exact ⟨hdrawer, hexpanded, hright, hpicker, hmodal, hpalette, hdiff, hprevious, hback,
        hforward, nofun⟩
    · simp only [namedCounts, List.forall_mem_cons]
      exact ⟨hentities, hfiles, nofun⟩
  · rintro ⟨hentity, hview, hswitches, hcounts⟩
    simp only [namedSwitches, namedCounts, List.forall_mem_cons] at hswitches hcounts
    simp [ofFields?, hentity, hview, hswitches, hcounts]

/-! ## §2 Members -/

/-- No field occurs twice in an object, and each of its keys is a text. -/
theorem keysAllowed_iff : keysAllowed ms = true ↔
    (∀ k ∈ ms.map Prod.fst, k.isSome = true) ∧
      ∀ n ∈ fieldNames, (ms.map Prod.fst).count (some n) ≤ 1 := by
  simp [keysAllowed, List.count, List.countP_map, Function.comp_def]

/-- Whether the keys are allowed is a matter of the keys alone. -/
theorem keysAllowed_congr (h : ms.map Prod.fst = ms'.map Prod.fst) :
    keysAllowed ms = keysAllowed ms' := by
  rw [Bool.eq_iff_iff, keysAllowed_iff, keysAllowed_iff, h]

/-- Where the key of a member occurs once, the member is the one that is looked up. -/
theorem lookup_eq_some_iff_mem {k : Option String} (h : (ms.map Prod.fst).count k ≤ 1) :
    ms.lookup k = some j ↔ (k, j) ∈ ms := by
  rw [List.lookup_eq_some_iff]
  constructor
  · rintro ⟨before, after, rfl, -⟩
    exact List.mem_append_right _ List.mem_cons_self
  · intro hmem
    obtain ⟨before, after, rfl⟩ := List.append_of_mem hmem
    refine ⟨before, after, rfl, ?_⟩
    intro m hm
    -- another member with the key before this one would be the second
    rw [List.map_append, List.map_cons, List.count_append, List.count_cons_self] at h
    have hnone : (before.map Prod.fst).count k = 0 := by omega
    rw [List.count_eq_zero] at hnone
    simp only [bne_iff_ne]
    rintro rfl
    exact hnone (List.mem_map_of_mem hm)

/-! ## §3 Values -/

/-- The value of a field in an object. A field that is missing is null. -/
def valueOf (ms : List (Option String × Json)) (n : String) : Json :=
  (ms.lookup (some n)).getD .null

/-- What reads nothing like null cannot tell a field that is missing from one that is null. -/
theorem eq_of_getD_eq {α : Type} {read : Option Json → α} (hread : read none = read (some .null))
    {o o' : Option Json} (h : o.getD .null = o'.getD .null) : read o = read o' := by
  have hnull : ∀ o, read o = read (some (o.getD .null)) := by
    intro o
    cases o with
    | none => exact hread
    | some j => rfl
  rw [hnull o, hnull o', h]

theorem ofFields?_congr {field field' : String → Option Json}
    (h : ∀ n ∈ fieldNames, (field n).getD .null = (field' n).getD .null) :
    ofFields? field = ofFields? field' := by
  have hfocus : ∀ {α : Type} (ofName : String → α), ∀ n ∈ fieldNames,
      focus? ofName (field n) = focus? ofName (field' n) :=
    fun ofName n hn => eq_of_getD_eq rfl (h n hn)
  have hswitch : ∀ n ∈ fieldNames, switch? (field n) = switch? (field' n) :=
    fun n hn => eq_of_getD_eq rfl (h n hn)
  have hcount : ∀ n ∈ fieldNames, count? (field n) = count? (field' n) :=
    fun n hn => eq_of_getD_eq rfl (h n hn)
  simp (disch := decide) only [ofFields?, hfocus, hswitch, hcount]

theorem ofJson?_object_eq_some_iff : ofJson? (.object ms) = some s ↔
    keysAllowed ms = true ∧ ofFields? (fun n => ms.lookup (some n)) = some s :=
  Option.ite_none_right_eq_some

theorem valueOf_eq_iff_mem (h : (ms.map Prod.fst).count (some n) ≤ 1) (hj : j ≠ .null) :
    valueOf ms n = j ↔ (some n, j) ∈ ms := by
  rw [← lookup_eq_some_iff_mem h, valueOf]
  cases ms.lookup (some n) with
  | none => simp [hj.symm]
  | some j' => simp

theorem keysAllowed_of_subperm (h : ms'.Subperm ms) (hallowed : keysAllowed ms = true) :
    keysAllowed ms' = true := by
  simp only [keysAllowed, Bool.and_eq_true, List.all_eq_true, decide_eq_true_eq] at hallowed ⊢
  refine ⟨fun m hm => hallowed.1 m (h.subset hm), fun n hn => ?_⟩
  exact Nat.le_trans (h.countP_le _) (hallowed.2 n hn)

/-- **The members of an object can change their order and be left out**, as long as fields that are
not null stay in it. -/
theorem ofJson?_of_subperm (hs : ofJson? (.object ms) = some s) (h : ms'.Subperm ms)
    (hkept : ∀ n ∈ fieldNames, ∀ j, j ≠ .null → (some n, j) ∈ ms → (some n, j) ∈ ms') :
    ofJson? (.object ms') = some s := by
  obtain ⟨hallowed, hfields⟩ := ofJson?_object_eq_some_iff.1 hs
  have hallowed' := keysAllowed_of_subperm h hallowed
  rw [ofJson?_object_eq_some_iff]
  refine ⟨hallowed', ?_⟩
  rw [← hfields]
  apply ofFields?_congr
  intro n hn
  -- the two values of a field are the same unless one of them is not null
  have hvalue : ∀ j, j ≠ .null → (valueOf ms' n = j ↔ valueOf ms n = j) := by
    intro j hj
    rw [valueOf_eq_iff_mem ((keysAllowed_iff.1 hallowed').2 n hn) hj,
      valueOf_eq_iff_mem ((keysAllowed_iff.1 hallowed).2 n hn) hj]
    exact ⟨fun hmem => h.subset hmem, hkept n hn j hj⟩
  show valueOf ms' n = valueOf ms n
  by_cases hnull : valueOf ms n = .null
  · rw [hnull]
    by_contra hne
    exact hne ((hvalue _ hne).1 rfl ▸ hnull)
  · exact (hvalue _ hnull).2 rfl

end Keybinding.Snapshot
