import Keybinding.Proofs.Group.Reading
import Keybinding.Table.Reader

/-!
# What written tables mean

A table is built when all of its groups can be read. It then holds one group for each group that was
written, in the same order.
-/

namespace Keybinding

/-- The identity of the group at a place in a table that starts with so many default groups. -/
def GroupId.ofPlace (defaults i : Nat) : GroupId :=
  if i < defaults then ⟨.default, i⟩ else ⟨.user, i - defaults⟩

namespace Table

/-! ## §1 Places -/

theorem length_identified (t : Table) : t.identified.length = t.groups.length := by
  rw [← List.length_map (·.2), map_snd_identified]

/-- The identity of a group is settled by its place. -/
theorem getElem?_identified (t : Table) (i : Nat) :
    t.identified[i]? = t.groups[i]?.map fun g => (GroupId.ofPlace t.defaults.length i, g) := by
  rw [identified, groups, List.getElem?_append, List.getElem?_append]
  simp only [identify, List.length_mapIdx, GroupId.ofPlace]
  -- behind the default groups, places are counted anew
  split
  · rw [List.getElem?_mapIdx]
  · rw [List.getElem?_mapIdx]

/-! ## §2 Building -/

/-- Each group is read on its own. -/
theorem readGroups_eq_ok_iff {origin : Origin} {texts : List GroupText} {gs : List Group} :
    readGroups origin texts = .ok gs ↔
      List.Forall₂ (fun text g => Group.read text = .ok g) texts gs := by
  -- the places are there for errors only
  have hplaces : List.Forall₂ (fun text g => Group.read text = .ok g) (texts.zipIdx.map (·.1)) gs ↔
      List.Forall₂ (fun p g => Group.read p.1 = .ok g) texts.zipIdx gs :=
    List.forall₂_map_left_iff
  rw [List.zipIdx_map_fst] at hplaces
  rw [hplaces, readGroups, mapM_eq_ok_iff]
  simp only [Except.mapError_eq_ok_iff]

theorem build_eq_ok_iff {defaults user : List GroupText} {t : Table} :
    build defaults user = .ok t ↔
      List.Forall₂ (fun text g => Group.read text = .ok g) defaults t.defaults ∧
        List.Forall₂ (fun text g => Group.read text = .ok g) user t.user := by
  rw [build, Except.mapError_eq_ok_iff, read, Except.bind_eq_ok_iff]
  simp only [Except.bind_eq_ok_iff, readGroups_eq_ok_iff]
  constructor
  · rintro ⟨ds, hds, us, hus, h⟩
    cases h
    exact ⟨hds, hus⟩
  · rintro ⟨hds, hus⟩
    exact ⟨_, hds, _, hus, rfl⟩

theorem forall₂_groups_of_build {defaults user : List GroupText} {t : Table}
    (h : build defaults user = .ok t) :
    List.Forall₂ (fun text g => Group.read text = .ok g) (defaults ++ user) t.groups := by
  obtain ⟨hds, hus⟩ := build_eq_ok_iff.1 h
  exact List.rel_append hds hus

/-- The first of the written groups that means none, by its identity, and what is wrong with it. -/
inductive IsFirstFault (defaults user : List GroupText) : Error → Prop where
  | default {before later : List GroupText} {g : GroupText} {fault : Group.Error}
    (hsplit : defaults = before ++ g :: later) (hbefore : ∀ b ∈ before, b.IsValid)
    (hfault : Group.read g = .error fault) :
    IsFirstFault defaults user ⟨⟨.default, before.length⟩, fault⟩
  | user {before later : List GroupText} {g : GroupText} {fault : Group.Error}
    (hdefaults : ∀ b ∈ defaults, b.IsValid)
    (hsplit : user = before ++ g :: later) (hbefore : ∀ b ∈ before, b.IsValid)
    (hfault : Group.read g = .error fault) :
    IsFirstFault defaults user ⟨⟨.user, before.length⟩, fault⟩

theorem readGroups_of_error {origin : Origin} {before later : List GroupText} {g : GroupText}
    {fault : Group.Error} (hbefore : ∀ b ∈ before, b.IsValid)
    (hfault : Group.read g = .error fault) :
    readGroups origin (before ++ g :: later) = .error ⟨⟨origin, before.length⟩, fault⟩ := by
  rw [readGroups, List.zipIdx_append, List.zipIdx_cons, Nat.zero_add]
  apply mapM_of_error
  · intro p hp
    have hmem : p.1 ∈ before := by
      have hmap := List.mem_map_of_mem (f := Prod.fst) hp
      rwa [List.zipIdx_map_fst] at hmap
    obtain ⟨G, hG⟩ := (Group.exists_read_iff p.1).2 (hbefore p.1 hmem)
    exact ⟨G, Except.mapError_eq_ok_iff.2 hG⟩
  · rw [hfault]
    rfl

/-- **A table fails as a whole with the first group that fails.** -/
theorem build_of_isFirstFault {defaults user : List GroupText} {e : Error}
    (h : IsFirstFault defaults user e) : build defaults user = .error (.invalid e) := by
  cases h with
  | default hsplit hbefore hfault =>
    rw [build, read, hsplit, readGroups_of_error hbefore hfault]
    rfl
  | user hdefaults hsplit hbefore hfault =>
    obtain ⟨ds, hds⟩ : ∃ ds, readGroups .default defaults = .ok ds := by
      simp only [readGroups_eq_ok_iff, exists_forall₂_iff, Group.exists_read_iff]
      exact hdefaults
    rw [build, read, hds, hsplit]
    change (readGroups .user _ >>= _).mapError _ = _
    rw [readGroups_of_error hbefore hfault]
    rfl

theorem user_eq_nil_of_build {defaults : List GroupText} {t : Table}
    (h : build defaults [] = .ok t) : t.user = [] :=
  List.forall₂_nil_left_iff.1 (build_eq_ok_iff.1 h).2

/-- Next to groups that make a table, more groups do so too when they are valid. -/
theorem exists_build_iff_of_build {defaults user : List GroupText} {t₀ : Table}
    (h : build defaults [] = .ok t₀) :
    (∃ t, build defaults user = .ok t) ↔ ∀ g ∈ user, g.IsValid := by
  simp only [← Group.exists_read_iff, ← exists_forall₂_iff, build_eq_ok_iff]
  constructor
  · rintro ⟨t, -, hus⟩
    exact ⟨t.user, hus⟩
  · rintro ⟨us, hus⟩
    exact ⟨⟨t₀.defaults, us⟩, (build_eq_ok_iff.1 h).1, hus⟩

/-- A table is built when each written group is valid. -/
theorem exists_build_iff {defaults user : List GroupText} :
    (∃ t, build defaults user = .ok t) ↔ ∀ g ∈ defaults ++ user, g.IsValid := by
  simp only [← Group.exists_read_iff, List.forall_mem_append, ← exists_forall₂_iff,
    build_eq_ok_iff]
  constructor
  · rintro ⟨t, hds, hus⟩
    exact ⟨⟨t.defaults, hds⟩, ⟨t.user, hus⟩⟩
  · rintro ⟨⟨ds, hds⟩, ⟨us, hus⟩⟩
    exact ⟨⟨ds, us⟩, hds, hus⟩

/-- Each written group stands at its place in the table, with the identity of this place. -/
theorem exists_identified_of_build {defaults user : List GroupText} {t : Table}
    (h : build defaults user = .ok t) {i : Nat} {g : GroupText}
    (hg : (defaults ++ user)[i]? = some g) :
    ∃ G, t.identified[i]? = some (GroupId.ofPlace defaults.length i, G) ∧
      Group.read g = .ok G := by
  obtain ⟨G, hG, hread⟩ := exists_getElem?_of_forall₂ (forall₂_groups_of_build h) hg
  refine ⟨G, ?_, hread⟩
  rw [getElem?_identified, hG, (build_eq_ok_iff.1 h).1.length_eq]
  rfl

/-- Each group of the table has been read from the written group at its place. -/
theorem exists_written_of_build {defaults user : List GroupText} {t : Table}
    (h : build defaults user = .ok t) {i : Nat} {p : GroupId × Group}
    (hp : t.identified[i]? = some p) :
    ∃ g, (defaults ++ user)[i]? = some g ∧ Group.read g = .ok p.2 := by
  rw [getElem?_identified, Option.map_eq_some_iff] at hp
  obtain ⟨G, hG, rfl⟩ := hp
  exact exists_getElem?_of_forall₂
    (R := fun g text => Group.read text = .ok g) (List.Forall₂.flip (forall₂_groups_of_build h)) hG

/-- **Tables are built from valid groups, whole and as written.** A table is built when every group
is valid. It has one group for each written one, in order and with its identity, and each means what
was written. -/
theorem build_admits_valid (defaults user : List GroupText) :
    ((∃ t, build defaults user = .ok t) ↔ ∀ g ∈ defaults ++ user, g.IsValid) ∧
      ∀ t, build defaults user = .ok t →
        t.identified.length = (defaults ++ user).length ∧
          ∀ i g, (defaults ++ user)[i]? = some g →
            ∃ G, t.identified[i]? = some (GroupId.ofPlace defaults.length i, G) ∧ g.Means G := by
  refine ⟨exists_build_iff, ?_⟩
  intro t ht
  refine ⟨?_, ?_⟩
  · rw [length_identified, (forall₂_groups_of_build ht).length_eq]
  · intro i g hg
    obtain ⟨G, hG, hread⟩ := exists_identified_of_build ht hg
    exact ⟨G, hG, Group.means_of_read hread⟩

/-- Two spellings of one chord can stand in two groups, but not in the same. -/
theorem build_admits_valid_spellings :
    (∃ t, build [⟨none, [("cmd-w", none)]⟩] [⟨none, [("Cmd+W", none)]⟩] = .ok t ∧
        t.identified.length = 2) ∧
      ¬ ∃ t, build [⟨none, [("cmd-w", none), ("Cmd+W", none)]⟩] [] = .ok t := by
  have hlower : Chord.read "cmd-w" = .ok ⟨.char 'w', ⟨true, false, false, false⟩⟩ := by
    decide +kernel
  have hupper : Chord.read "Cmd+W" = .ok ⟨.char 'w', ⟨true, false, false, false⟩⟩ := by
    decide +kernel
  constructor
  · have hsingle : ∀ s c, Chord.read s = .ok c → GroupText.IsValid ⟨none, [(s, none)]⟩ := by
      intro s c hc
      refine ⟨nofun, ?_, ?_, List.pairwise_singleton _ _⟩
      · intro e he
        obtain rfl := List.mem_singleton.1 he
        exact ⟨c, hc⟩
      · intro e he text htext
        obtain rfl := List.mem_singleton.1 he
        contradiction
    obtain ⟨t, ht⟩ := (build_admits_valid [⟨none, [("cmd-w", none)]⟩]
      [⟨none, [("Cmd+W", none)]⟩]).1.2
        (by simp [hsingle _ _ hlower, hsingle _ _ hupper])
    exact ⟨t, ht, ((build_admits_valid _ _).2 t ht).1⟩
  · rintro ⟨t, ht⟩
    have hvalid := (build_admits_valid _ _).1.1 ⟨t, ht⟩ _ List.mem_cons_self
    have hapart := (List.pairwise_cons.1 hvalid.distinct).1 _ List.mem_cons_self
    exact hapart _ hlower hupper

end Table

end Keybinding
