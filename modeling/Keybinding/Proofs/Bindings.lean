import Keybinding.Bindings
import Mathlib.Data.List.Basic

/-!
# Entries of bindings

Two maps with the same entries up to order are equal, and a chord that is not bound yet adds its
entry to the others. Entries can therefore be kept in any order, as long as they are sorted before
they are listed (`listing_eq_entries`), and looked up in any order (`lookup_eq_get?`).
-/

namespace Keybinding.Bindings

/-! ## §1 Chords and entries -/

theorem mem_chords {m : Bindings} {c : Chord} : c ∈ m.chords ↔ ∃ b, (c, b) ∈ m.entries := by
  simp [chords]

theorem contains_iff {m : Bindings} {c : Chord} : m.contains c = true ↔ c ∈ m.chords := by
  rw [contains, Option.isSome_iff_exists, mem_chords]
  exact exists_congr fun b => get?_eq_some_iff

theorem get?_eq_none_iff {m : Bindings} {c : Chord} : m.get? c = none ↔ c ∉ m.chords := by
  rw [← contains_iff, contains, Bool.not_eq_true, Option.isSome_eq_false_iff,
    Option.isNone_iff_eq_none]

theorem nodup_chords (m : Bindings) : m.chords.Nodup := by
  rw [chords, List.Nodup, List.pairwise_map]
  refine m.sorted.imp ?_
  intro e f hlt heq
  rw [heq] at hlt
  exact Chord.lt_irrefl f.1 hlt

/-- The order of the entries says nothing that their chords do not say. -/
theorem eq_of_perm {m n : Bindings} (h : m.entries.Perm n.entries) : m = n := by
  refine ext_get? fun c => Option.ext fun b => ?_
  rw [get?_eq_some_iff, get?_eq_some_iff, h.mem_iff]

theorem insertEntry_perm {c : Chord} (b : Binding) {es : List (Chord × Binding)}
    (h : c ∉ es.map (·.1)) : (insertEntry c b es).Perm ((c, b) :: es) := by
  induction es with
  | nil => exact List.Perm.refl _
  | cons e rest ih =>
    -- the entry never takes the place of another one, since its chord is new
    obtain ⟨hne, hrest⟩ := List.ne_and_not_mem_of_not_mem_cons h
    unfold insertEntry
    split
    · exact List.Perm.refl _
    · exact ((ih hrest).cons e).trans (List.Perm.swap (c, b) e rest)

theorem entries_insert_perm {m : Bindings} {c : Chord} (b : Binding) (h : c ∉ m.chords) :
    (m.insert c b).entries.Perm ((c, b) :: m.entries) :=
  insertEntry_perm b h

/-- Entries of distinct chords are the entries of a map. -/
theorem exists_entries_perm {ps : List (Chord × Binding)} (h : (ps.map (·.1)).Nodup) :
    ∃ m : Bindings, m.entries.Perm ps := by
  induction ps with
  | nil => exact ⟨empty, List.Perm.refl _⟩
  | cons p ps ih =>
    obtain ⟨hp, hps⟩ := List.nodup_cons.1 h
    obtain ⟨m, hm⟩ := ih hps
    have hnew : p.1 ∉ m.chords := by
      rw [chords, (hm.map _).mem_iff]
      exact hp
    exact ⟨m.insert p.1 p.2, (entries_insert_perm p.2 hnew).trans (hm.cons p)⟩

/-! ## §2 Entries in any order -/

/-- Entries that are kept in whatever order, sorted by their chords. -/
def listing (es : List (Chord × Binding)) : List (Chord × Binding) :=
  es.mergeSort fun e f => !decide (f.1 < e.1)

theorem pairwise_listing (es : List (Chord × Binding)) :
    (listing es).Pairwise fun e f => ¬ f.1 < e.1 := by
  have htrans : ∀ e f g : Chord × Binding, (!decide (f.1 < e.1)) = true →
      (!decide (g.1 < f.1)) = true → (!decide (g.1 < e.1)) = true := by
    simp only [Bool.not_eq_true', decide_eq_false_iff_not]
    intro e f g hef hfg hge
    rcases Chord.lt_trichotomy e.1 f.1 with hlt | heq | hgt
    · exact hfg (Chord.lt_trans hge hlt)
    · exact hfg (heq ▸ hge)
    · exact hef hgt
  have htotal : ∀ e f : Chord × Binding,
      (!decide (f.1 < e.1) || !decide (e.1 < f.1)) = true := by
    intro e f
    simp only [Bool.or_eq_true, Bool.not_eq_true', decide_eq_false_iff_not]
    by_cases hlt : f.1 < e.1
    · exact .inr fun hgt => Chord.lt_irrefl _ (Chord.lt_trans hlt hgt)
    · exact .inl hlt
  refine (List.pairwise_mergeSort htrans htotal es).imp ?_
  intro e f hef
  simpa only [Bool.not_eq_true', decide_eq_false_iff_not] using hef

variable {m : Bindings} {es : List (Chord × Binding)} (h : es.Perm m.entries)
include h

theorem nodup_of_perm : (es.map (·.1)).Nodup :=
  (h.map _).nodup_iff.2 m.nodup_chords

/-- **The order of chords alone settles how entries are listed.** -/
theorem listing_eq_entries : listing es = m.entries := by
  have hperm : (listing es).Perm m.entries := (List.mergeSort_perm es _).trans h
  have hnodup : ((listing es).map (·.1)).Nodup := nodup_of_perm hperm
  -- different chords that do not decrease are increasing, so that the listing makes a map
  have hincreasing : (listing es).Pairwise fun e f => e.1 < f.1 := by
    rw [List.Nodup, List.pairwise_map] at hnodup
    apply ((pairwise_listing es).and hnodup).imp
    intro e f ⟨hnot, hne⟩
    rcases Chord.lt_trichotomy e.1 f.1 with hlt | heq | hlt
    · exact hlt
    · exact absurd heq hne
    · exact absurd hlt hnot
  exact congrArg entries (eq_of_perm (m := ⟨listing es, hincreasing⟩) hperm)

/-- A chord has one entry at most, which is found in any order. -/
theorem lookup_eq_get? (c : Chord) : es.lookup c = m.get? c := by
  apply Option.ext
  intro b
  rw [get?_eq_some_iff, ← h.mem_iff, List.lookup_eq_some_iff]
  constructor
  · rintro ⟨before, after, rfl, -⟩
    simp
  · intro hmem
    obtain ⟨before, after, rfl⟩ := List.append_of_mem hmem
    refine ⟨before, after, rfl, ?_⟩
    intro e he
    have hnodup := nodup_of_perm h
    rw [List.map_append, List.nodup_append] at hnodup
    have hne : e.1 ≠ c := hnodup.2.2 e.1 (List.mem_map_of_mem he) c (by simp)
    rw [bne_iff_ne]
    exact hne.symm

end Keybinding.Bindings
