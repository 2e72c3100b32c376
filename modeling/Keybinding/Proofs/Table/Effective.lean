import Keybinding.Proofs.Chord.Order
import Keybinding.Table.Basic
import Mathlib.Data.List.Basic

/-!
# What chords do

What a chord does is what the last group of the table says that counts and binds the chord
(`binding_eq_some_iff`). As long as identities of groups are left aside, this is a matter of the
list of groups alone.

The overview lists each chord that does something while some flags are on, with what it does. It
says neither more nor less than asking the table for one chord after the other: of all the chords
that can be struck, those it leaves out have no answer.
-/

namespace Keybinding

/-! ## §1 The group that decides -/

theorem Group.resolve?_eq_some_iff {g : Group} {c : Chord} {active : FlagSet} {b : Binding} :
    g.resolve? c active = some b ↔ g.isActive active = true ∧ g.get? c = some b := by
  rw [Group.resolve?]
  split
  · next h => simp [h]
  · next h => simp [h]

theorem Group.resolve?_eq_none_iff {g : Group} {c : Chord} {active : FlagSet} :
    g.resolve? c active = none ↔ (g.isActive active = true → g.get? c = none) := by
  rw [Group.resolve?]
  split
  · next h => simp [h]
  · next h => simp [h]

namespace Table

variable {t : Table} {c : Chord} {active : FlagSet}

/-- A group of the table counts and binds the chord, and no later group does both. -/
def DecidedBy (t : Table) (c : Chord) (active : FlagSet) (g : Group) (b : Binding) : Prop :=
  ∃ earlier later, t.groups = earlier ++ g :: later ∧
    g.isActive active = true ∧ g.get? c = some b ∧
      ∀ f ∈ later, f.isActive active = true → f.get? c = none

/-- The binding that decides is found among the groups without regard to their identities. -/
theorem binding_resolve? (t : Table) (c : Chord) (active : FlagSet) :
    (t.resolve? c active).map (·.binding) = t.groups.reverse.findSome? (·.resolve? c active) := by
  have hanswer : ∀ p : GroupId × Group,
      ((p.2.resolve? c active).map fun b => (⟨p.1, b⟩ : Resolution)).map (·.binding) =
        p.2.resolve? c active := by
    intro p
    rw [Option.map_map]
    exact Option.map_id_apply
  rw [resolve?, List.map_findSome?, ← map_snd_identified, ← List.map_reverse,
    List.findSome?_map]
  congr 1
  funext p
  exact hanswer p

/-- **The answer for a chord is that of the group that decides.** -/
theorem binding_eq_some_iff {b : Binding} :
    (t.resolve? c active).map (·.binding) = some b ↔ ∃ g, t.DecidedBy c active g b := by
  rw [binding_resolve?, List.findSome?_eq_some_iff]
  constructor
  · rintro ⟨later, g, earlier, hsplit, hg, hlater⟩
    rcases Group.resolve?_eq_some_iff.1 hg with ⟨hactive, hget⟩
    rw [List.reverse_eq_iff, List.reverse_append, List.reverse_cons, List.append_assoc] at hsplit
    refine ⟨g, earlier.reverse, later.reverse, hsplit, hactive, hget, ?_⟩
    intro f hf
    exact Group.resolve?_eq_none_iff.1 (hlater f (List.mem_reverse.1 hf))
  · rintro ⟨g, earlier, later, hsplit, hactive, hget, hlater⟩
    refine ⟨later.reverse, g, earlier.reverse, by simp [hsplit], ?_, ?_⟩
    · exact Group.resolve?_eq_some_iff.2 ⟨hactive, hget⟩
    · intro f hf
      exact Group.resolve?_eq_none_iff.2 (hlater f (List.mem_reverse.1 hf))

theorem action?_eq_some_iff {a : Action} :
    t.action? c active = some a ↔ ∃ g, t.DecidedBy c active g (.action a) := by
  rw [← binding_eq_some_iff, action?]
  cases t.resolve? c active with
  | none => simp
  | some r => cases hb : r.binding <;> simp [hb, Binding.action?]

/-- **A chord has an answer when a group that counts binds it.** -/
theorem exists_resolve?_iff :
    (∃ r, t.resolve? c active = some r) ↔
      ∃ g ∈ t.groups, g.isActive active = true ∧ ∃ b, g.get? c = some b := by
  rw [← Option.isSome_iff_exists, ← Option.isSome_map (f := (·.binding)), binding_resolve?,
    List.findSome?_isSome_iff]
  simp only [List.mem_reverse, Option.isSome_iff_exists, Group.resolve?_eq_some_iff,
    exists_and_left]

/-! ## §2 The overview of a table -/

theorem mem_chords_iff : c ∈ t.chords ↔ ∃ g ∈ t.groups, ∃ b, g.get? c = some b := by
  rw [chords, (Chord.sort_perm _).mem_iff, List.mem_eraseDups, List.mem_flatMap]
  have hbound : ∀ g : Group, c ∈ g.bindings.chords ↔ ∃ b, g.get? c = some b := by
    intro g
    simp [Bindings.chords, Group.get?, Bindings.get?_eq_some_iff]
  simp only [hbound]

theorem pairwise_chords (t : Table) : t.chords.Pairwise fun a b => a < b :=
  Chord.pairwise_lt_sort (nodup_eraseDups _)

theorem mem_effective_iff {r : Resolution} :
    (c, r) ∈ t.effective active ↔ c ∈ t.chords ∧ t.resolve? c active = some r := by
  simp only [effective, List.mem_filterMap, Option.map_eq_some_iff, Prod.mk.injEq]
  constructor
  · rintro ⟨d, hd, s, hs, rfl, rfl⟩
    exact ⟨hd, hs⟩
  · rintro ⟨hc, hr⟩
    exact ⟨c, hc, r, hr, rfl, rfl⟩

/-- A chord with an answer is bound somewhere in the table. -/
theorem mem_chords_of_resolve? {r : Resolution} (h : t.resolve? c active = some r) :
    c ∈ t.chords := by
  rcases exists_resolve?_iff.1 ⟨r, h⟩ with ⟨g, hg, -, b, hb⟩
  exact mem_chords_iff.2 ⟨g, hg, b, hb⟩

theorem pairwise_effective (t : Table) (active : FlagSet) :
    (t.effective active).Pairwise fun e f => e.1 < f.1 := by
  rw [effective, List.pairwise_filterMap]
  apply t.pairwise_chords.imp
  intro a b hlt e he f hf
  -- each line is about the chord that it was made for
  rcases Option.map_eq_some_iff.1 he with ⟨_, _, rfl⟩
  rcases Option.map_eq_some_iff.1 hf with ⟨_, _, rfl⟩
  exact hlt

/-- A chord with an answer has one line of its own. -/
theorem filter_effective {r : Resolution} (h : t.resolve? c active = some r) :
    (t.effective active).filter (fun e => decide (e.1 = c)) = [(c, r)] := by
  have hmem : (c, r) ∈ t.effective active :=
    mem_effective_iff.2 ⟨mem_chords_of_resolve? h, h⟩
  obtain ⟨before, after, hsplit⟩ := List.append_of_mem hmem
  have hsorted := t.pairwise_effective active
  rw [hsplit, List.pairwise_append, List.pairwise_cons] at hsorted
  obtain ⟨-, ⟨hafter, -⟩, hbefore⟩ := hsorted
  -- the order is strict, so that the lines on both sides are about other chords
  have hnone : ∀ es : List (Chord × Resolution), (∀ e ∈ es, e.1 ≠ c) →
      es.filter (fun e => decide (e.1 = c)) = [] := by
    intro es hes
    rw [List.filter_eq_nil_iff]
    exact fun e he => by simpa using hes e he
  rw [hsplit, List.filter_append, List.filter_cons_of_pos (by simp), hnone before, hnone after,
    List.nil_append]
  · intro e he heq
    exact Chord.lt_irrefl c (heq ▸ hafter e he)
  · intro e he heq
    exact Chord.lt_irrefl c (heq ▸ hbefore e he (c, r) List.mem_cons_self)

/-- **The overview is the graph of resolution.** It is in strictly increasing order of chords, it
has a line for a chord and an answer exactly when this is the answer for the chord, and it is about
the chords that some group binds which counts. -/
theorem effective_eq_graph (t : Table) (active : FlagSet) :
    (t.effective active).Pairwise (fun e f => e.1 < f.1) ∧
      (∀ c r, (c, r) ∈ t.effective active ↔ t.resolve? c active = some r) ∧
        ∀ c, c ∈ (t.effective active).map (·.1) ↔
          ∃ g ∈ t.groups, g.isActive active = true ∧ ∃ b, g.get? c = some b := by
  have hgraph : ∀ c r, (c, r) ∈ t.effective active ↔ t.resolve? c active = some r := by
    intro c r
    rw [mem_effective_iff]
    exact and_iff_right_of_imp mem_chords_of_resolve?
  refine ⟨t.pairwise_effective active, hgraph, ?_⟩
  intro c
  rw [← exists_resolve?_iff, List.mem_map]
  constructor
  · rintro ⟨⟨d, r⟩, hmem, rfl⟩
    exact ⟨r, (hgraph d r).1 hmem⟩
  · rintro ⟨r, hr⟩
    exact ⟨(c, r), (hgraph c r).2 hr, rfl⟩

end Table

end Keybinding
