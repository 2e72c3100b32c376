import Keybinding.Proofs.Chord.Order
import Keybinding.Proofs.Table.Label

/-!
# The chords of an action

The chords that are listed for an action are those that some group binds to it while no later group
without a condition binds them. They come in the order of the last groups that bind them so, from
the last one back, and in the order of chords within one group. No chord is left out that triggers
the action while some flags are on (`mem_chordsFor_of_action?`).
-/

namespace Keybinding

/-- The chords of a group are in strictly increasing order, also those of one action. -/
theorem Group.pairwise_chordsOf (g : Group) (a : Action) :
    (g.chordsOf a).Pairwise fun c d => c < d := by
  rw [chordsOf, List.pairwise_map]
  apply List.Pairwise.filter
  exact g.bindings.sorted

namespace Table

/-! ## §1 Open chords -/

/-- A group binds the chord to the action, and no later group without a condition binds it. -/
def IsOpen (gs : List Group) (a : Action) (c : Chord) : Prop :=
  ∃ earlier g later, gs = earlier ++ g :: later ∧ g.get? c = some (.action a) ∧
    ∀ f ∈ later, f.isUnconditional = true → f.get? c = none

/-- The chords of an action group by group, where a chord can occur more than once. -/
def openIn (gs : List Group) (a : Action) : List Chord :=
  (withLater gs).flatMap (openChords a)

variable {gs : List Group} {g : Group} {a : Action} {c d : Chord}

theorem chordsFor_eq (t : Table) (a : Action) : t.chordsFor a = (openIn t.groups a).eraseDups := rfl

theorem openIn_cons (g : Group) (gs : List Group) (a : Action) :
    openIn (g :: gs) a = openIn gs a ++ openChords a (g, gs) := by
  simp [openIn, withLater]

theorem mem_openChords_iff {later : List Group} :
    c ∈ openChords a (g, later) ↔
      g.get? c = some (.action a) ∧ ∀ f ∈ later, f.isUnconditional = true → f.get? c = none := by
  rw [openChords, List.mem_filter, Bool.not_eq_true', isShadowed_eq_false_iff, Group.mem_chordsOf]

theorem mem_openIn_iff : c ∈ openIn gs a ↔ IsOpen gs a c := by
  simp only [openIn, List.mem_flatMap, Prod.exists, mem_withLater_iff, mem_openChords_iff]
  constructor
  · rintro ⟨g, later, ⟨earlier, hsplit⟩, hget, hlater⟩
    exact ⟨earlier, g, later, hsplit, hget, hlater⟩
  · rintro ⟨earlier, g, later, hsplit, hget, hlater⟩
    exact ⟨g, later, ⟨earlier, hsplit⟩, hget, hlater⟩

theorem mem_chordsFor_iff {t : Table} : c ∈ t.chordsFor a ↔ IsOpen t.groups a c := by
  rw [chordsFor_eq, List.mem_eraseDups, mem_openIn_iff]

/-- **No chord is left out that can trigger the action.** -/
theorem mem_chordsFor_of_action? {t : Table} {active : FlagSet} (h : t.action? c active = some a) :
    c ∈ t.chordsFor a := by
  rw [mem_chordsFor_iff]
  rcases action?_eq_some_iff.1 h with ⟨g, earlier, later, hsplit, -, hget, hlater⟩
  refine ⟨earlier, g, later, hsplit, hget, ?_⟩
  -- a group without a condition counts, and behind who decides no group that counts binds the chord
  intro f hf hcond
  exact hlater f hf (Group.isActive_of_isUnconditional hcond active)

/-! ## §2 The last group that binds a chord to an action -/

/-- The group at a place binds the chord to the action, and no later group does so. -/
structure IsLastBound (gs : List Group) (a : Action) (c : Chord) (i : Nat) : Prop where
  bound : ∃ g, gs[i]? = some g ∧ g.get? c = some (.action a)
  later : ∀ j g, i < j → gs[j]? = some g → g.get? c ≠ some (.action a)

/-- There is only one place where the last group stands. -/
theorem IsLastBound.unique {i j : Nat} (hi : IsLastBound gs a c i) (hj : IsLastBound gs a c j) :
    i = j := by
  rcases hi.bound with ⟨g, hg, hget⟩
  rcases hj.bound with ⟨g', hg', hget'⟩
  rcases Nat.lt_trichotomy i j with hlt | heq | hlt
  · exact absurd hget' (hi.later j g' hlt hg')
  · exact heq
  · exact absurd hget (hj.later i g hlt hg)

theorem IsLastBound.cons {i : Nat} (h : IsLastBound gs a c i) (g : Group) :
    IsLastBound (g :: gs) a c (i + 1) := by
  refine ⟨h.bound, ?_⟩
  rintro (_ | j) f hj hf
  · omega
  · exact h.later j f (by omega) hf

theorem isLastBound_cons_zero (h : g.get? c = some (.action a))
    (hlater : ∀ f ∈ gs, f.get? c ≠ some (.action a)) : IsLastBound (g :: gs) a c 0 := by
  refine ⟨⟨g, rfl, h⟩, ?_⟩
  rintro (_ | j) f hj hf
  · omega
  · exact hlater f (List.mem_of_getElem? hf)

theorem exists_isLastBound (h : ∃ g ∈ gs, g.get? c = some (.action a)) :
    ∃ i, IsLastBound gs a c i := by
  induction gs with
  | nil => simp at h
  | cons f gs ih =>
    -- the first group is the last one only if none behind it binds the chord so
    by_cases hlater : ∃ g ∈ gs, g.get? c = some (.action a)
    · rcases ih hlater with ⟨i, hi⟩
      exact ⟨i + 1, hi.cons f⟩
    · rcases h with ⟨g, hg, hget⟩
      rcases List.mem_cons.1 hg with rfl | hg
      · exact ⟨0, isLastBound_cons_zero hget fun f hf hfa => hlater ⟨f, hf, hfa⟩⟩
      · exact absurd ⟨g, hg, hget⟩ hlater

theorem IsOpen.exists_isLastBound (h : IsOpen gs a c) : ∃ i, IsLastBound gs a c i := by
  rcases h with ⟨earlier, g, later, rfl, hget, -⟩
  exact Table.exists_isLastBound ⟨g, by simp, hget⟩

/-! ## §3 Order -/

/-- One chord stands before another in the list for an action: a later group is the last one to bind
it so, or the same group is, and it is the smaller chord. -/
def IsListedBefore (gs : List Group) (a : Action) (c d : Chord) : Prop :=
  ∃ i j, IsLastBound gs a c i ∧ IsLastBound gs a d j ∧ (j < i ∨ i = j ∧ c < d)

theorem IsListedBefore.cons (h : IsListedBefore gs a c d) (g : Group) :
    IsListedBefore (g :: gs) a c d := by
  rcases h with ⟨i, j, hi, hj, horder⟩
  refine ⟨i + 1, j + 1, hi.cons g, hj.cons g, ?_⟩
  rcases horder with hlt | ⟨rfl, hlt⟩
  · exact .inl (by omega)
  · exact .inr ⟨rfl, hlt⟩

/-- A group adds the chords that no later group has opened. It is the last one to bind them to the
action: where a later group does so too, that group has opened the chord as well. -/
theorem isLastBound_of_new (h : c ∈ openChords a (g, gs)) (hnew : c ∉ openIn gs a) :
    IsLastBound (g :: gs) a c 0 := by
  rcases mem_openChords_iff.1 h with ⟨hget, hlater⟩
  apply isLastBound_cons_zero hget
  intro f hf hfa
  rcases List.append_of_mem hf with ⟨earlier, later, rfl⟩
  apply hnew
  rw [mem_openIn_iff]
  exact ⟨earlier, f, later, rfl, hfa, fun k hk => hlater k (by simp [hk])⟩

theorem pairwise_eraseDups_openIn (gs : List Group) (a : Action) :
    (openIn gs a).eraseDups.Pairwise (IsListedBefore gs a) := by
  induction gs with
  | nil => simp [openIn, withLater]
  | cons g gs ih =>
    have hincreasing : ((openChords a (g, gs)).removeAll (openIn gs a)).Pairwise
        fun c d => c < d := by
      apply List.Pairwise.filter
      apply List.Pairwise.filter
      exact g.pairwise_chordsOf a
    have hnodup : ((openChords a (g, gs)).removeAll (openIn gs a)).Nodup := by
      apply hincreasing.imp
      rintro c d hlt rfl
      exact Chord.lt_irrefl c hlt
    have hzero : ∀ c ∈ (openChords a (g, gs)).removeAll (openIn gs a),
        IsLastBound (g :: gs) a c 0 := by
      intro c hc
      rw [List.removeAll, List.mem_filter] at hc
      exact isLastBound_of_new hc.1 (by simpa using hc.2)
    rw [openIn_cons, List.eraseDups_append, eraseDups_eq_self hnodup, List.pairwise_append]
    refine ⟨ih.imp fun h => h.cons g, ?_, ?_⟩
    · -- two chords that this group adds
      apply hincreasing.imp_of_mem
      intro c d hc hd hlt
      exact ⟨0, 0, hzero c hc, hzero d hd, .inr ⟨rfl, hlt⟩⟩
    · -- a chord of a later group and one that this group adds
      intro c hc d hd
      rw [List.mem_eraseDups, mem_openIn_iff] at hc
      rcases hc.exists_isLastBound with ⟨i, hi⟩
      exact ⟨i + 1, 0, hi.cons g, hzero d hd, .inl (by omega)⟩

/-- **The list of chords for an action is exact, in order and complete.** A chord is in it when a
group binds it to the action and no later group without a condition binds it. No chord is in it
twice. The chords come from the last group that binds them to the action back to the first, and
within one group in the order of chords. A chord that triggers the action, whatever flags are on, is
in it. -/
theorem chordsFor_lists_open (t : Table) (a : Action) :
    (∀ c, c ∈ t.chordsFor a ↔ IsOpen t.groups a c) ∧
      (t.chordsFor a).Nodup ∧
      (∀ c ∈ t.chordsFor a, ∃! i, IsLastBound t.groups a c i) ∧
      (t.chordsFor a).Pairwise (IsListedBefore t.groups a) ∧
      ∀ c active, t.action? c active = some a → c ∈ t.chordsFor a := by
  refine ⟨fun c => mem_chordsFor_iff, nodup_eraseDups _, ?_, pairwise_eraseDups_openIn _ _, ?_⟩
  · intro c hc
    rcases (mem_chordsFor_iff.1 hc).exists_isLastBound with ⟨i, hi⟩
    exact ⟨i, hi, fun j hj => hj.unique hi⟩
  · intro c active h
    exact mem_chordsFor_of_action? h

/-- The chord of two groups is listed for both actions, since the later group has a condition. -/
theorem chordsFor_lists_open_focused :
    ∃ t, build [quitting] [focused] = .ok t ∧
      t.action? ⟨.char 'q', ⟨true, false, false, false⟩⟩ .empty = some (.builtin .appQuit) ∧
      t.action? ⟨.char 'q', ⟨true, false, false, false⟩⟩ (.ofList [.drawerFocused]) =
        some (.builtin .drawerCloseTab) ∧
      ⟨.char 'q', ⟨true, false, false, false⟩⟩ ∈ t.chordsFor (.builtin .appQuit) ∧
      ⟨.char 'q', ⟨true, false, false, false⟩⟩ ∈ t.chordsFor (.builtin .drawerCloseTab) := by
  have hbuild : build [quitting] [focused] =
      .ok (boundTwice .appQuit (.flag .drawerFocused) .drawerCloseTab) := by
    decide +kernel
  refine ⟨_, hbuild, by decide, by decide, ?_, ?_⟩
  · exact (chordsFor_lists_open _ _).2.2.2.2 _ .empty (by decide)
  · exact (chordsFor_lists_open _ _).2.2.2.2 _ (.ofList [.drawerFocused]) (by decide)

end Table

end Keybinding
