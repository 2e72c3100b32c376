import Keybinding.Proofs.Table.Chords

/-!
# Labels and the groups without a condition

A label depends on nothing but the groups without a condition. In the table of these groups alone,
a chord is listed for an action exactly when it triggers the action, whatever flags are on
(`mem_chordsFor_unconditional_iff`), and the label of an action is the first chord in its list
(`labelChord?_eq_head?`).
-/

namespace Keybinding.Table

/-- The table without the groups that have a condition. -/
def unconditional (t : Table) : Table :=
  ⟨t.defaults.filter (·.isUnconditional), t.user.filter (·.isUnconditional)⟩

@[simp] theorem groups_unconditional (t : Table) :
    t.unconditional.groups = t.groups.filter (·.isUnconditional) := by
  simp [unconditional, groups]

variable {t : Table} {a : Action} {c : Chord}

/-! ## §1 Two ways to the first chord -/

theorem withLater_filter {α : Type} (p : α → Bool) (as : List α) :
    withLater (as.filter p) = ((withLater as).filter (p ·.1)).map fun q => (q.1, q.2.filter p) := by
  induction as with
  | nil => rfl
  | cons a as ih =>
    rw [withLater, List.filter_append, List.map_append, ← ih]
    cases hp : p a with
    | false => simp [hp]
    | true => simp [hp, withLater]

/-- Later groups with a condition close no chord. -/
theorem openChords_filter (a : Action) (g : Group) (later : List Group) :
    openChords a (g, later.filter (·.isUnconditional)) = openChords a (g, later) := by
  have hshadowed : ∀ c, isShadowed (later.filter (·.isUnconditional)) c = isShadowed later c := by
    intro c
    simp [isShadowed, List.any_filter]
  simp only [openChords, hshadowed]

theorem head?_eraseDups {α : Type} [DecidableEq α] (as : List α) :
    as.eraseDups.head? = as.head? := by
  cases as with
  | nil => rfl
  | cons a as => rw [List.eraseDups_cons, List.head?_cons, List.head?_cons]

/-- **The label of an action is the first chord in the list of the table without conditions.** -/
theorem labelChord?_eq_head? (t : Table) (a : Action) :
    t.labelChord? a = (t.unconditional.chordsFor a).head? := by
  rw [chordsFor_eq, head?_eraseDups, openIn, List.head?_flatMap, groups_unconditional,
    withLater_filter, List.findSome?_map, labelChord?]
  congr 1
  funext p
  simp only [Function.comp_apply, openChords_filter]

/-! ## §2 What the chords do where nothing is conditional -/

theorem isUnconditional_of_mem {g : Group} (h : g ∈ t.unconditional.groups) :
    g.isUnconditional = true := by
  rw [groups_unconditional] at h
  exact (List.mem_filter.1 h).2

/-- **Without conditions, the chords that are listed for an action are those that trigger it.** -/
theorem mem_chordsFor_unconditional_iff (active : FlagSet) :
    c ∈ t.unconditional.chordsFor a ↔ t.unconditional.action? c active = some a := by
  constructor
  · intro h
    rw [mem_chordsFor_iff] at h
    rcases h with ⟨earlier, g, later, hsplit, hget, hlater⟩
    rw [action?_eq_some_iff]
    -- every group counts, so that no later one binds the chord at all
    have hcond : ∀ f ∈ earlier ++ g :: later, f.isUnconditional = true := by
      intro f hf
      rw [← hsplit] at hf
      exact isUnconditional_of_mem hf
    refine ⟨g, earlier, later, hsplit, ?_, hget, ?_⟩
    · exact Group.isActive_of_isUnconditional (hcond g (by simp)) active
    · intro f hf _
      exact hlater f hf (hcond f (by simp [hf]))
  · exact mem_chordsFor_of_action?

theorem acceleratorFor_eq_none_iff (active : FlagSet) :
    t.acceleratorFor a = none ↔ ∀ c, t.unconditional.action? c active ≠ some a := by
  rw [acceleratorFor, Option.map_eq_none_iff, labelChord?_eq_head?, List.head?_eq_none_iff,
    List.eq_nil_iff_forall_not_mem]
  simp only [mem_chordsFor_unconditional_iff active, Ne]

/-- **Labels are those of the table without conditions.** The label of an action is that of the
first chord that is listed for the action there. This chord triggers the action there whatever flags
are on, and there is no label only if no chord triggers it there. Tables in which the groups without
a condition are the same have the same labels. -/
theorem acceleratorFor_eq_unconditional (t : Table) (a : Action) :
    t.acceleratorFor a = (t.unconditional.chordsFor a).head?.map Chord.accelerator ∧
      (∀ c, (t.unconditional.chordsFor a).head? = some c →
        ∀ active, t.unconditional.action? c active = some a) ∧
      (∀ active, t.acceleratorFor a = none ↔ ∀ c, t.unconditional.action? c active ≠ some a) ∧
      ∀ t' : Table, t'.unconditional.groups = t.unconditional.groups →
        t'.acceleratorFor a = t.acceleratorFor a := by
  refine ⟨?_, ?_, acceleratorFor_eq_none_iff, ?_⟩
  · rw [acceleratorFor, labelChord?_eq_head?]
  · intro c hc active
    exact (mem_chordsFor_unconditional_iff active).1 (List.mem_of_head? hc)
  · intro t' hsame
    -- the list for an action is made from the groups alone
    rw [acceleratorFor, acceleratorFor, labelChord?_eq_head?, labelChord?_eq_head?, chordsFor_eq,
      chordsFor_eq, hsame]

/-- A group with a condition changes no label, also where it decides while no flag is on. -/
theorem acceleratorFor_eq_unconditional_overriding :
    ∃ t t', build [quitting] [] = .ok t ∧ build [quitting] [overriding] = .ok t' ∧
      t'.action? ⟨.char 'q', ⟨true, false, false, false⟩⟩ .empty = some (.builtin .taskRun) ∧
      t.acceleratorFor (.builtin .appQuit) = some "Cmd+Q" ∧
      t'.acceleratorFor (.builtin .appQuit) = some "Cmd+Q" := by
  have hboth : build [quitting] [overriding] =
      .ok (boundTwice .appQuit (.not (.flag .modalOpen)) .taskRun) := by
    decide +kernel
  have hone : build [quitting] [] =
      .ok ⟨(boundTwice .appQuit (.not (.flag .modalOpen)) .taskRun).defaults, []⟩ := by
    decide +kernel
  have hlabel : (Table.mk (boundTwice .appQuit (.not (.flag .modalOpen)) .taskRun).defaults
      []).acceleratorFor (.builtin .appQuit) = some "Cmd+Q" := by
    decide +kernel
  refine ⟨_, _, hone, hboth, by decide, hlabel, ?_⟩
  rw [← hlabel]
  exact (acceleratorFor_eq_unconditional _ _).2.2.2 _ rfl

end Keybinding.Table
