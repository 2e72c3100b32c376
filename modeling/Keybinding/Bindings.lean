import Keybinding.Action
import Keybinding.Chord.Basic

/-!
# Bindings

What the chords of one group do: a finite map from chords to bindings, kept as a list of entries in
strictly increasing order of their chords. Insertion changes what is found at one chord
(`get?_insert`) and two maps in which the same is found are equal (`ext_get?`).
-/

namespace Keybinding

/-- What a chord does in a group. -/
inductive Binding where
  | action (a : Action)
  /-- The chord does nothing, and no earlier group is asked. -/
  | unbound
  deriving DecidableEq, Repr

def Binding.action? : Binding → Option Action
  | action a => some a
  | unbound => none

/-- A finite map from chords to bindings. -/
structure Bindings where
  /-- The entries in the canonical order of their chords. -/
  entries : List (Chord × Binding)
  /-- No chord has two entries. -/
  sorted : entries.Pairwise fun e f => e.1 < f.1
  deriving DecidableEq, Repr

namespace Bindings

/-! ## §1 Entries in order -/

/-- An entry put in its place among entries. An entry of the same chord gives way to it. -/
def insertEntry (c : Chord) (b : Binding) : List (Chord × Binding) → List (Chord × Binding)
  | [] => [(c, b)]
  | e :: rest =>
    if c < e.1 then (c, b) :: e :: rest
    else if c = e.1 then (c, b) :: rest
    else e :: insertEntry c b rest

theorem mem_of_mem_insertEntry {c : Chord} {b : Binding} {es : List (Chord × Binding)}
    {e : Chord × Binding} (h : e ∈ insertEntry c b es) : e = (c, b) ∨ e ∈ es := by
  induction es with
  | nil => simpa [insertEntry] using h
  | cons f rest ih => grind [insertEntry]

theorem sorted_insertEntry (c : Chord) (b : Binding) {es : List (Chord × Binding)}
    (h : es.Pairwise fun e f => e.1 < f.1) :
    (insertEntry c b es).Pairwise fun e f => e.1 < f.1 := by
  induction es with
  | nil => simp [insertEntry]
  | cons f rest ih =>
    obtain ⟨hf, hrest⟩ := List.pairwise_cons.1 h
    unfold insertEntry
    split
    · next hlt =>
      refine List.pairwise_cons.2 ⟨fun e he => ?_, h⟩
      rcases List.mem_cons.1 he with rfl | he
      · exact hlt
      · exact Chord.lt_trans hlt (hf e he)
    · split
      · next heq => exact List.pairwise_cons.2 ⟨fun e he => heq ▸ hf e he, hrest⟩
      · next hlt hne =>
        refine List.pairwise_cons.2 ⟨fun e he => ?_, ih hrest⟩
        rcases mem_of_mem_insertEntry he with rfl | he
        · rcases Chord.lt_trichotomy c f.1 with h' | h' | h'
          · exact absurd h' hlt
          · exact absurd h' hne
          · exact h'
        · exact hf e he

/-! ## §2 The map -/

/-- The map without entries. -/
def empty : Bindings := ⟨[], .nil⟩

/-- What is bound to a chord. -/
def get? (m : Bindings) (c : Chord) : Option Binding :=
  m.entries.lookup c

/-- Something is bound to a chord. -/
def contains (m : Bindings) (c : Chord) : Bool :=
  (m.get? c).isSome

/-- The map with one chord bound anew. -/
def insert (m : Bindings) (c : Chord) (b : Binding) : Bindings :=
  ⟨insertEntry c b m.entries, sorted_insertEntry c b m.sorted⟩

/-- The bound chords in order. -/
def chords (m : Bindings) : List Chord :=
  m.entries.map (·.1)

/-- The number of bound chords. -/
def size (m : Bindings) : Nat :=
  m.entries.length

/-- No chord is bound. -/
def isEmpty (m : Bindings) : Bool :=
  m.entries.isEmpty

/-! ## §3 What is found -/

@[simp] theorem get?_empty (c : Chord) : empty.get? c = none := rfl

theorem lookup_entries_cons (c : Chord) (e : Chord × Binding) (es : List (Chord × Binding)) :
    (e :: es).lookup c = if c = e.1 then some e.2 else es.lookup c := by
  obtain ⟨d, b⟩ := e
  by_cases h : c = d
  · simp [h]
  · simp [List.lookup_cons, h, beq_false_of_ne h]

/-- An entry is found exactly at its chord. -/
theorem get?_eq_some_iff {m : Bindings} {c : Chord} {b : Binding} :
    m.get? c = some b ↔ (c, b) ∈ m.entries := by
  obtain ⟨es, h⟩ := m
  simp only [get?]
  induction es with
  | nil => simp
  | cons e rest ih =>
    obtain ⟨he, hrest⟩ := List.pairwise_cons.1 h
    rw [lookup_entries_cons, List.mem_cons]
    split
    · next hc =>
      subst hc
      have hn : (e.1, b) ∉ rest := fun hm => Chord.lt_irrefl e.1 (he (e.1, b) hm)
      simp [hn, Prod.ext_iff, eq_comm]
    · next hc => simp [ih hrest, Prod.ext_iff, hc]

/-- Insertion changes what is found at one chord and nowhere else. -/
theorem get?_insert (m : Bindings) (c d : Chord) (b : Binding) :
    (m.insert c b).get? d = if d = c then some b else m.get? d := by
  obtain ⟨es, h⟩ := m
  simp only [get?, insert]
  induction es with
  | nil => simp [insertEntry, lookup_entries_cons]
  | cons e rest ih =>
    have ih := ih (List.pairwise_cons.1 h).2
    unfold insertEntry
    split
    · rw [lookup_entries_cons]
    · split
      · next hc => grind [lookup_entries_cons]
      · next hc => grind [lookup_entries_cons]

/-- Two maps in which the same is found at each chord are equal. -/
theorem ext_get? {m n : Bindings} (h : ∀ c, m.get? c = n.get? c) : m = n := by
  have hm : ∀ e, e ∈ m.entries ↔ e ∈ n.entries := fun e => by
    rw [← get?_eq_some_iff (c := e.1) (b := e.2), h, get?_eq_some_iff]
  obtain ⟨es, hes⟩ := m
  obtain ⟨fs, hfs⟩ := n
  simp only [mk.injEq]
  simp only at hm
  clear h
  induction es generalizing fs with
  | nil =>
    cases fs with
    | nil => rfl
    | cons f fs => simpa using hm f
  | cons e es ih =>
    cases fs with
    | nil => simpa using hm e
    | cons f fs =>
      obtain ⟨he, hes'⟩ := List.pairwise_cons.1 hes
      obtain ⟨hf, hfs'⟩ := List.pairwise_cons.1 hfs
      have hne : ∀ g ∈ es, g ≠ e := fun g hg hge => Chord.lt_irrefl e.1 (hge ▸ he g hg)
      have hnf : ∀ g ∈ fs, g ≠ f := fun g hg hgf => Chord.lt_irrefl f.1 (hgf ▸ hf g hg)
      have hef : e = f := by
        rcases List.mem_cons.1 ((hm e).1 List.mem_cons_self) with h | h
        · exact h
        · rcases List.mem_cons.1 ((hm f).2 List.mem_cons_self) with h' | h'
          · exact h'.symm
          · exact absurd (Chord.lt_trans (hf e h) (he f h')) (Chord.lt_irrefl _)
      subst hef
      congr 1
      refine ih hes' fs hfs' fun g => ?_
      by_cases hg : g = e
      · subst hg
        exact ⟨fun h => absurd rfl (hne g h), fun h => absurd rfl (hnf g h)⟩
      · simpa [hg] using hm g

end Bindings

end Keybinding
