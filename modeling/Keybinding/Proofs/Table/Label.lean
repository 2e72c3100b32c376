import Keybinding.Proofs.Table.Effective
import Keybinding.Table.Basic
import Keybinding.Table.Reader

/-!
# What a label promises

A menu shows a chord for an action if a group without a condition binds it so, and no later group
without a condition binds the chord as well. Later groups with a condition are not looked at. While
no flag is on, the chord therefore triggers the action unless one of them counts then, and decides
otherwise. A condition such as `!modalOpen` makes this possible
(`exists_label_of_untriggered_action`).
-/

namespace Keybinding.Table

/-! ## §1 The chord of a label -/

theorem mem_withLater_iff {α : Type} {as later : List α} {a : α} :
    (a, later) ∈ withLater as ↔ ∃ earlier, as = earlier ++ a :: later := by
  induction as with
  | nil => simp [withLater]
  | cons b rest ih =>
    rw [withLater, List.mem_append, ih, List.mem_singleton, Prod.mk.injEq]
    constructor
    · rintro (⟨earlier, rfl⟩ | ⟨rfl, rfl⟩)
      · exact ⟨b :: earlier, rfl⟩
      · exact ⟨[], rfl⟩
    · rintro ⟨earlier, h⟩
      -- the element is the first one of all, or stands behind it
      cases earlier with
      | nil =>
        rcases List.cons.inj h with ⟨rfl, rfl⟩
        exact .inr ⟨rfl, rfl⟩
      | cons d earlier =>
        rcases List.cons.inj h with ⟨rfl, rfl⟩
        exact .inl ⟨earlier, rfl⟩

theorem isShadowed_eq_false_iff {later : List Group} {c : Chord} :
    isShadowed later c = false ↔ ∀ g ∈ later, g.isUnconditional = true → g.get? c = none := by
  simp [isShadowed]

variable {t : Table} {a : Action} {c : Chord}

/-- The chord of a label is bound to the action by a group without a condition, and behind this
group only groups with a condition bind the chord. -/
theorem exists_split_of_labelChord? (h : t.labelChord? a = some c) :
    ∃ earlier g later, t.groups = earlier ++ g :: later ∧ g.isUnconditional = true ∧
      g.get? c = some (.action a) ∧
        ∀ f ∈ later, f.isUnconditional = true → f.get? c = none := by
  rw [labelChord?] at h
  rcases List.exists_of_findSome?_eq_some h with ⟨⟨g, later⟩, hmem, hhead⟩
  rw [List.mem_filter] at hmem
  rcases hmem with ⟨hmem, hcond⟩
  rcases mem_withLater_iff.1 hmem with ⟨earlier, hsplit⟩
  have hopen : c ∈ openChords a (g, later) := List.mem_of_head? hhead
  rw [openChords, List.mem_filter, Bool.not_eq_true', isShadowed_eq_false_iff] at hopen
  rcases hopen with ⟨hc, hlater⟩
  exact ⟨earlier, g, later, hsplit, hcond, Group.mem_chordsOf.1 hc, hlater⟩

/-! ## §2 Who decides about it -/

/-- Of two elements of a list, one stands behind the other, unless they stand at one place. -/
theorem mem_or_eq_of_append_cons_eq {α : Type} {as bs as' bs' : List α} {x y : α}
    (h : as ++ x :: bs = as' ++ y :: bs') : y ∈ bs ∨ y = x ∨ x ∈ bs' := by
  rcases List.append_eq_append_iff.1 h with ⟨between, -, hbehind⟩ | ⟨between, -, hbefore⟩
  · rcases List.cons_eq_append_iff.1 hbehind with ⟨-, heq⟩ | ⟨_, -, heq⟩
    · exact .inr (.inl (List.cons.inj heq).1)
    · exact .inl (by simp [heq])
  · rcases List.cons_eq_append_iff.1 hbefore with ⟨-, heq⟩ | ⟨_, -, heq⟩
    · exact .inr (.inl (List.cons.inj heq).1.symm)
    · exact .inr (.inr (by simp [heq]))

/-- **Of the groups without a condition, none but that of the label decides about its chord.** -/
theorem exists_decidedBy_of_labelChord? (h : t.labelChord? a = some c) (active : FlagSet) :
    ∃ g b, t.DecidedBy c active g b ∧ (g.isUnconditional = true → b = .action a) := by
  rcases exists_split_of_labelChord? h with ⟨earlier, g₀, later, hsplit, hcond, hget, hlater⟩
  have hactive : g₀.isActive active = true := Group.isActive_of_isUnconditional hcond active
  -- the group of the label can decide, so that some group does
  have hanswer : ∃ r, t.resolve? c active = some r :=
    exists_resolve?_iff.2 ⟨g₀, by simp [hsplit], hactive, _, hget⟩
  rcases hanswer with ⟨r, hr⟩
  have hbinding : (t.resolve? c active).map (·.binding) = some r.binding := by rw [hr]; rfl
  rcases binding_eq_some_iff.1 hbinding with ⟨g, hdecides⟩
  refine ⟨g, r.binding, hdecides, ?_⟩
  intro hg
  rcases hdecides with ⟨earlier', later', hsplit', -, hget', hlater'⟩
  -- who decides stands behind the group of the label, or is that group, or stands before it
  rcases mem_or_eq_of_append_cons_eq (hsplit.symm.trans hsplit') with hmem | rfl | hmem
  · -- behind the group of the label, groups without a condition leave the chord alone
    have hnone : g.get? c = none := hlater g hmem hg
    rw [hget'] at hnone
    contradiction
  · exact Option.some.inj (hget'.symm.trans hget)
  · have hnone : g₀.get? c = none := hlater' g₀ hmem hactive
    rw [hget] at hnone
    contradiction

/-- While no flag is on, a group with a condition decides that a chord does something else than the
action, or nothing. -/
def IsOverridden (t : Table) (c : Chord) (a : Action) : Prop :=
  ∃ g b, t.DecidedBy c .empty g b ∧ g.isUnconditional = false ∧ b ≠ .action a

/-- **The chord of a label triggers its action while no flag is on, unless a group with a condition
overrides it.** -/
theorem action?_of_acceleratorFor {label : String} (h : t.acceleratorFor a = some label) :
    ∃ c, t.labelChord? a = some c ∧ c.accelerator = label ∧
      (t.action? c .empty = some a ↔ ¬ t.IsOverridden c a) := by
  rcases Option.map_eq_some_iff.1 h with ⟨c, hc, hlabel⟩
  refine ⟨c, hc, hlabel, ?_⟩
  rw [action?_eq_some_iff]
  constructor
  · rintro ⟨g, hg⟩ ⟨g', b, hg', -, hne⟩
    -- two groups that decide say the same
    have hsame : some (Binding.action a) = some b :=
      (binding_eq_some_iff.2 ⟨g, hg⟩).symm.trans (binding_eq_some_iff.2 ⟨g', hg'⟩)
    exact hne (Option.some.inj hsame).symm
  · intro hnot
    rcases exists_decidedBy_of_labelChord? hc .empty with ⟨g, b, hdecides, hdoes⟩
    have hb : b = .action a := by
      by_contra hne
      have hcond : g.isUnconditional = false := by
        rw [← Bool.not_eq_true]
        exact fun hg => hne (hdoes hg)
      exact hnot ⟨g, b, hdecides, hcond, hne⟩
    exact ⟨g, hb ▸ hdecides⟩

/-! Three groups for one chord: one binds it always, one while the drawer has the focus, and one
takes it over whenever no modal is open. -/

def quitting : GroupText := ⟨none, [("cmd-q", some "app::quit")]⟩

def focused : GroupText := ⟨some "drawerFocused", [("Cmd+Q", some "drawer::closeTab")]⟩

def overriding : GroupText := ⟨some "!modalOpen", [("cmd-q", some "task::run")]⟩

/-- The table of two groups that bind one chord to commands, the second under a condition. -/
def boundTwice (first : Command) (condition : Condition) (second : Command) : Table :=
  ⟨[⟨none, Bindings.empty.insert ⟨.char 'q', ⟨true, false, false, false⟩⟩
      (.action (.builtin first))⟩],
    [⟨some condition, Bindings.empty.insert ⟨.char 'q', ⟨true, false, false, false⟩⟩
      (.action (.builtin second))⟩]⟩

/-- A group that does not count while no flag is on leaves the label true. -/
theorem action?_of_acceleratorFor_focused :
    ∃ t, build [quitting] [focused] = .ok t ∧
      t.acceleratorFor (.builtin .appQuit) = some "Cmd+Q" ∧
        ∃ c, c.accelerator = "Cmd+Q" ∧ t.action? c .empty = some (.builtin .appQuit) := by
  have hbuild : build [quitting] [focused] =
      .ok (boundTwice .appQuit (.flag .drawerFocused) .drawerCloseTab) := by
    decide +kernel
  have hlabel : (boundTwice .appQuit (.flag .drawerFocused) .drawerCloseTab).acceleratorFor
      (.builtin .appQuit) = some "Cmd+Q" := by
    decide +kernel
  refine ⟨_, hbuild, hlabel, ?_⟩
  rcases action?_of_acceleratorFor hlabel with ⟨c, -, hc, htriggers⟩
  refine ⟨c, hc, htriggers.2 ?_⟩
  rintro ⟨g, b, ⟨earlier, later, hsplit, hactive, -⟩, hcond, -⟩
  -- the only group with a condition does not count
  have hmem : g ∈ (boundTwice .appQuit (.flag .drawerFocused) .drawerCloseTab).groups := by
    simp [hsplit]
  rcases List.mem_cons.1 hmem with rfl | hmem
  · contradiction
  · obtain rfl := List.mem_singleton.1 hmem
    exact absurd hactive (by decide)

/-- **A menu can show a chord that does not trigger the action.** While no flag is on, no chord does
what the label promises. -/
theorem exists_label_of_untriggered_action :
    ∃ t, build [quitting] [overriding] = .ok t ∧
      t.acceleratorFor (.builtin .appQuit) = some "Cmd+Q" ∧
        ∀ c, t.action? c .empty ≠ some (.builtin .appQuit) := by
  refine ⟨boundTwice .appQuit (.not (.flag .modalOpen)) .taskRun, by decide +kernel,
    by decide +kernel, ?_⟩
  intro c htriggers
  by_cases hc : c = ⟨.char 'q', ⟨true, false, false, false⟩⟩
  · subst hc
    exact absurd htriggers (by decide)
  · -- no group binds any other chord
    rcases action?_eq_some_iff.1 htriggers with ⟨g, earlier, later, hsplit, -, hget, -⟩
    have hmem : g ∈ (boundTwice .appQuit (.not (.flag .modalOpen)) .taskRun).groups := by
      simp [hsplit]
    rcases List.mem_cons.1 hmem with rfl | hmem
    · simp [Group.get?, Bindings.get?_insert, hc] at hget
    · obtain rfl := List.mem_singleton.1 hmem
      simp [Group.get?, Bindings.get?_insert, hc] at hget

end Keybinding.Table
