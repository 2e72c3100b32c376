import Keybinding.Proofs.Table.Building

/-!
# Which group decides

Of the groups that apply while some flags are on and have an entry for a chord, the last one decides
what the chord does. The groups before it have no say, and of the conditions of the groups after it
only their truth values matter.
-/

namespace Keybinding

namespace GroupText

/-! ## §1 Groups that can decide -/

/-- The group asks for nothing, or for something that is true while the flags of `active` are on. -/
def Applies (g : GroupText) (active : FlagSet) : Prop :=
  ∀ text, g.context = some text → ∃ c, Condition.read text = .ok c ∧ c.eval active = true

/-- The group applies and has an entry whose chord is read as the given one. -/
def CanDecide (g : GroupText) (c : Chord) (active : FlagSet) : Prop :=
  g.Applies active ∧ ∃ e ∈ g.bindings, Chord.read e.1 = .ok c

/-- The last of some groups that can decide, with its place among them. -/
structure IsLast (gs : List GroupText) (c : Chord) (active : FlagSet) (i : Nat) (g : GroupText) :
    Prop where
  place : gs[i]? = some g
  decides : g.CanDecide c active
  later : ∀ j h, i < j → gs[j]? = some h → ¬ h.CanDecide c active

/-- Two groups have the same entries for a chord, and apply both or neither. -/
structure Alike (c : Chord) (active active' : FlagSet) (g g' : GroupText) : Prop where
  entries : g.entriesFor c = g'.entriesFor c
  applies : g.Applies active ↔ g'.Applies active'

section

variable {c : Chord} {active active' : FlagSet}

theorem Alike.canDecide_iff {g g' : GroupText} (h : Alike c active active' g g') :
    g.CanDecide c active ↔ g'.CanDecide c active' := by
  rw [CanDecide, CanDecide, ← entriesFor_ne_nil_iff, ← entriesFor_ne_nil_iff, h.entries, h.applies]

/-- If a group can decide, there is a last one that can. -/
theorem exists_isLast {gs : List GroupText} (h : ∃ g ∈ gs, g.CanDecide c active) :
    ∃ i g, IsLast gs c active i g := by
  induction gs with
  | nil => simp at h
  | cons f gs ih =>
    -- the first group is the last one only if none behind it can decide
    by_cases hlater : ∃ g ∈ gs, g.CanDecide c active
    · obtain ⟨i, g, hplace, hdecides, hnone⟩ := ih hlater
      refine ⟨i + 1, g, hplace, hdecides, ?_⟩
      rintro (_ | j) h hj hh
      · omega
      · exact hnone j h (by omega) hh
    · obtain ⟨g, hg, hdecides⟩ := h
      rcases List.mem_cons.1 hg with rfl | hg
      · refine ⟨0, g, rfl, hdecides, ?_⟩
        rintro (_ | j) h hj hh hd
        · omega
        · exact hlater ⟨h, List.mem_of_getElem? hh, hd⟩
      · exact absurd ⟨g, hg, hdecides⟩ hlater

/-- Groups that are alike from a place on have the same last group that can decide. -/
theorem IsLast.of_alike {gs gs' : List GroupText} {i : Nat} {g : GroupText}
    (h : IsLast gs c active i g)
    (halike : List.Forall₂ (Alike c active active') (gs.drop i) (gs'.drop i)) :
    ∃ g', IsLast gs' c active' i g' ∧ Alike c active active' g g' := by
  have hflip : List.Forall₂ (flip (Alike c active active')) (gs'.drop i) (gs.drop i) :=
    List.Forall₂.flip halike
  have hplace : (gs.drop i)[0]? = some g := by
    rw [List.getElem?_drop]
    exact h.place
  obtain ⟨g', hg', hgg'⟩ := exists_getElem?_of_forall₂ halike hplace
  rw [List.getElem?_drop] at hg'
  refine ⟨g', ⟨hg', hgg'.canDecide_iff.1 h.decides, ?_⟩, hgg'⟩
  -- a later one that could decide here would stand at the same place there
  intro j f' hj hf' hdecides
  obtain ⟨k, rfl⟩ : ∃ k, j = i + k := ⟨j - i, by omega⟩
  rw [← List.getElem?_drop] at hf'
  obtain ⟨f, hf, hff'⟩ := exists_getElem?_of_forall₂ hflip hf'
  rw [List.getElem?_drop] at hf
  exact h.later (i + k) f hj hf (hff'.canDecide_iff.2 hdecides)

end

end GroupText

namespace Group

/-! ## §2 What one group decides -/

variable {g : GroupText} {G : Group} (h : g.Means G) (c : Chord) (active : FlagSet)
include h

theorem isActive_iff_of_means : G.isActive active = true ↔ g.Applies active := by
  have hcondition := h.condition
  rw [Group.isActive, Condition.holds, GroupText.Applies]
  cases hG : G.condition with
  | none =>
    rw [hG, Option.map_none, eq_comm, Option.map_eq_none_iff] at hcondition
    simp [hcondition]
  | some c =>
    rw [hG, Option.map_some, eq_comm, Option.map_eq_some_iff] at hcondition
    obtain ⟨text, htext, hc⟩ := hcondition
    simp [htext, hc]

theorem resolve?_eq_none_of_means (hnot : ¬ g.CanDecide c active) : G.resolve? c active = none := by
  rw [Group.resolve?]
  split
  · next hactive =>
    have habsent : g.entriesFor c = [] := by
      by_contra hne
      exact hnot ⟨(isActive_iff_of_means h active).1 hactive,
        GroupText.entriesFor_ne_nil_iff.1 hne⟩
    exact h.absent c habsent
  · rfl

/-- What a group decides is what its one entry for the chord says. -/
theorem resolve?_eq_some_of_means (hdecides : g.CanDecide c active) :
    ∃ e b, g.entriesFor c = [e] ∧ Binding.IsMeant e.2 b ∧ G.resolve? c active = some b := by
  obtain ⟨happlies, hentry⟩ := hdecides
  obtain ⟨e, b, he, hb, hget⟩ := h.present c (GroupText.entriesFor_ne_nil_iff.2 hentry)
  refine ⟨e, b, he, hb, ?_⟩
  rw [Group.resolve?, if_pos ((isActive_iff_of_means h active).2 happlies), hget]

end Group

/-! ## §3 The last group that can decide -/

/-- A search from the end finds the last element that answers. -/
theorem findSome?_reverse_eq_some {α β : Type} {f : α → Option β} {as : List α} {i : Nat} {a : α}
    {b : β} (hi : as[i]? = some a) (hb : f a = some b)
    (hlater : ∀ j x, i < j → as[j]? = some x → f x = none) : as.reverse.findSome? f = some b := by
  obtain ⟨hlt, rfl⟩ := List.getElem?_eq_some_iff.1 hi
  have hsplit : as.reverse = (as.drop (i + 1)).reverse ++ as[i] :: (as.take i).reverse := by
    calc as.reverse
      _ = (as.take i ++ as[i] :: as.drop (i + 1)).reverse := by
        rw [← List.drop_eq_getElem_cons hlt, List.take_append_drop]
      _ = (as.drop (i + 1)).reverse ++ as[i] :: (as.take i).reverse := by simp
  refine List.findSome?_eq_some_iff.2 ⟨_, _, _, hsplit, hb, ?_⟩
  intro x hx
  rw [List.mem_reverse, List.mem_iff_getElem?] at hx
  obtain ⟨k, hk⟩ := hx
  rw [List.getElem?_drop] at hk
  exact hlater (i + 1 + k) x (by omega) hk

namespace Table

section Build

variable {defaults user : List GroupText} {t : Table} (h : build defaults user = .ok t)
  (c : Chord) (active : FlagSet)
include h

/-- A group of the table is silent where the written group cannot decide. -/
theorem resolve?_eq_none_of_place {i : Nat} {p : GroupId × Group} (hp : t.identified[i]? = some p)
    (hnot : ∀ g, (defaults ++ user)[i]? = some g → ¬ g.CanDecide c active) :
    p.2.resolve? c active = none := by
  obtain ⟨g, hg, hread⟩ := exists_written_of_build h hp
  exact Group.resolve?_eq_none_of_means (Group.means_of_read hread) c active (hnot g hg)

theorem resolve?_eq_none_of_build (hnone : ∀ g ∈ defaults ++ user, ¬ g.CanDecide c active) :
    t.resolve? c active = none := by
  rw [resolve?, List.findSome?_eq_none_iff]
  intro p hp
  obtain ⟨i, hi⟩ := List.mem_iff_getElem?.1 (List.mem_reverse.1 hp)
  have hsilent := resolve?_eq_none_of_place h c active hi fun g hg =>
    hnone g (List.mem_of_getElem? hg)
  rw [hsilent, Option.map_none]

theorem resolve?_eq_some_of_build {i : Nat} {g : GroupText}
    (hlast : GroupText.IsLast (defaults ++ user) c active i g) :
    ∃ e b, g.entriesFor c = [e] ∧ Binding.IsMeant e.2 b ∧
      t.resolve? c active = some ⟨GroupId.ofPlace defaults.length i, b⟩ := by
  obtain ⟨G, hG, hread⟩ := exists_identified_of_build h hlast.place
  obtain ⟨e, b, he, hb, hresolve⟩ :=
    Group.resolve?_eq_some_of_means (Group.means_of_read hread) c active hlast.decides
  refine ⟨e, b, he, hb, findSome?_reverse_eq_some hG (by rw [hresolve]; rfl) ?_⟩
  intro j p hj hp
  have hsilent := resolve?_eq_none_of_place h c active hp fun g hg => hlast.later j g hj hg
  rw [hsilent, Option.map_none]

/-- **The last group that can decide does decide.** Without one, a chord does nothing. Otherwise the
chord does what the one entry of that group for it says, which can be nothing as well. Any other
table in which the groups from this one on are alike gives the same answer. -/
theorem resolve?_eq_last :
    ((∀ i g, ¬ GroupText.IsLast (defaults ++ user) c active i g) →
      t.resolve? c active = none ∧ t.action? c active = none) ∧
    ∀ i g, GroupText.IsLast (defaults ++ user) c active i g →
      (∃ e b, g.entriesFor c = [e] ∧ Binding.IsMeant e.2 b ∧
        t.resolve? c active = some ⟨GroupId.ofPlace defaults.length i, b⟩ ∧
        t.action? c active = b.action?) ∧
      ∀ defaults' user' t' active', build defaults' user' = .ok t' →
        defaults'.length = defaults.length →
        List.Forall₂ (GroupText.Alike c active active')
          ((defaults ++ user).drop i) ((defaults' ++ user').drop i) →
        t'.resolve? c active' = t.resolve? c active := by
  refine ⟨?_, ?_⟩
  · intro hnone
    have hresolve : t.resolve? c active = none := by
      refine resolve?_eq_none_of_build h c active fun g hg hdecides => ?_
      obtain ⟨i, f, hlast⟩ := GroupText.exists_isLast ⟨g, hg, hdecides⟩
      exact hnone i f hlast
    exact ⟨hresolve, by rw [action?, hresolve]; rfl⟩
  · intro i g hlast
    obtain ⟨e, b, he, hb, hresolve⟩ := resolve?_eq_some_of_build h c active hlast
    refine ⟨⟨e, b, he, hb, hresolve, by rw [action?, hresolve]; rfl⟩, ?_⟩
    intro defaults' user' t' active' h' hlen halike
    obtain ⟨g', hlast', hgg'⟩ := hlast.of_alike halike
    obtain ⟨e', b', he', hb', hresolve'⟩ := resolve?_eq_some_of_build h' c active' hlast'
    obtain rfl : e = e' := List.cons.inj (he.symm.trans (hgg'.entries.trans he')) |>.1
    obtain rfl : b = b' := Group.binding_unique hb hb'
    rw [hresolve, hresolve', hlen]

end Build

/-! Three groups for one chord: the second takes away what the first binds, and the third applies
only where the second does not. -/

def closing : GroupText := ⟨none, [("cmd-w", some "tab::close")]⟩

def modal : GroupText := ⟨some "modalOpen", [("Cmd+W", some " unbound ")]⟩

def reopening : GroupText := ⟨some "!modalOpen", [("cmd-w", some "tab::reopen")]⟩

/-- While a modal is open, the second group decides that the chord does nothing. -/
theorem resolve?_eq_last_modal :
    ∃ t, build [closing, modal] [reopening] = .ok t ∧
      t.resolve? ⟨.char 'w', ⟨true, false, false, false⟩⟩ (.ofList [.modalOpen]) =
        some ⟨⟨.default, 1⟩, .unbound⟩ ∧
      t.action? ⟨.char 'w', ⟨true, false, false, false⟩⟩ (.ofList [.modalOpen]) = none := by
  have hok : (build [closing, modal] [reopening]).toOption.isSome = true := by decide +kernel
  cases ht : build [closing, modal] [reopening] with
  | error e =>
    rw [ht] at hok
    contradiction
  | ok t =>
    refine ⟨t, rfl, ?_⟩
    have hlast : GroupText.IsLast ([closing, modal] ++ [reopening])
        ⟨.char 'w', ⟨true, false, false, false⟩⟩ (.ofList [.modalOpen]) 1 modal := by
      refine ⟨rfl, ⟨?_, _, List.mem_cons_self, by decide +kernel⟩, ?_⟩
      · rintro _ ⟨⟩
        exact ⟨.flag .modalOpen, by decide +kernel, by decide⟩
      · rintro (_ | _ | _ | j) g hj hg ⟨happlies, -⟩
        · omega
        · omega
        · cases hg
          obtain ⟨c, hc, heval⟩ := happlies _ rfl
          have hread : Condition.read "!modalOpen" = .ok (.not (.flag .modalOpen)) := by
            decide +kernel
          cases hread.symm.trans hc
          exact absurd heval (by decide)
        · cases hg
    obtain ⟨e, b, he, hb, hresolve, haction⟩ := ((resolve?_eq_last ht _ _).2 1 _ hlast).1
    have hmem : e ∈ modal.bindings := (List.mem_filter.1 (he ▸ List.mem_singleton_self e)).1
    obtain rfl : e = ("Cmd+W", some " unbound ") := List.mem_singleton.1 hmem
    cases hb with
    | word => exact ⟨hresolve, haction⟩
    | action ha =>
      have hid : Action.isId (Text.trimmed " unbound ").toList = true :=
        (Action.isId_iff _).2 ((Action.exists_read_iff _).1 ⟨_, ha⟩)
      exact absurd hid (by decide)

end Table

end Keybinding
