import Keybinding.Chord.Reader
import Keybinding.Proofs.Steps
import Mathlib.Data.Finset.Card
import Mathlib.Data.List.Perm.Basic

/-!
# The canonical order of chords

Chords are compared by their keys: characters come before the named keys, and these before the
function keys. Chords with the same key are compared by the bits of their modifiers
(`compare_eq_lt_iff`). The comparison is total and tells any two different chords apart.

Sorting puts the chords of a list into this order, and neither adds a chord nor drops one. A list of
chords can be sorted in one way only (`eq_sort`). Equal chords then stand side by side, and a sorted
list has one rise less than it has different chords (`card_eq_countRises`). A list without
repetitions is sorted into a strictly increasing one (`pairwise_lt_sort`).
-/

namespace Keybinding

/-! ## §1 Lists without repetitions -/

/-- What is left of a list when repetitions are dropped has none. -/
theorem nodup_eraseDups {α : Type} [DecidableEq α] (as : List α) : as.eraseDups.Nodup := by
  -- the first element goes on without its later copies, which makes a shorter list
  induction h : as.length using Nat.strongRecOn generalizing as with
  | ind n ih =>
    cases as with
    | nil => simp
    | cons a rest =>
      have hshorter : (rest.filter fun b => !b == a).length < n := by
        have hle := List.length_filter_le (fun b => !b == a) rest
        simp only [List.length_cons] at h
        omega
      rw [List.eraseDups_cons, List.nodup_cons]
      refine ⟨?_, ih _ hshorter _ rfl⟩
      rw [List.mem_eraseDups]
      simp

theorem eraseDups_eq_self {α : Type} [DecidableEq α] {as : List α} (h : as.Nodup) :
    as.eraseDups = as := by
  induction as with
  | nil => rfl
  | cons a rest ih =>
    rcases List.nodup_cons.1 h with ⟨ha, hrest⟩
    -- the first element has no later copy to drop
    have hkeep : (rest.filter fun b => !b == a) = rest := by
      apply List.filter_eq_self.2
      intro b hb
      have hne : b ≠ a := fun hba => ha (hba ▸ hb)
      simp [hne]
    rw [List.eraseDups_cons, hkeep, ih hrest]

/-! ## §2 Keys and modifiers -/

/-- A key comes before another one. -/
inductive Key.Precedes : Key → Key → Prop where
  /-- Characters are ordered by code point. -/
  | char {c d : Char} (h : c.toNat < d.toNat) : Precedes (.char c) (.char d)
  | charNamed (c : Char) (k : NamedKey) : Precedes (.char c) (.named k)
  | charFunction (c : Char) (n : Nat) : Precedes (.char c) (.function n)
  /-- Named keys are ordered as they are listed. -/
  | named {k l : NamedKey} (h : NamedKey.all.idxOf k < NamedKey.all.idxOf l) :
    Precedes (.named k) (.named l)
  | namedFunction (k : NamedKey) (n : Nat) : Precedes (.named k) (.function n)
  /-- Function keys are ordered by number. -/
  | function {m n : Nat} (h : m < n) : Precedes (.function m) (.function n)

theorem NamedKey.idxOf_all (k : NamedKey) : all.idxOf k = k.index := by
  cases k <;> rfl

/-- The kind of a key decides, and within a kind the place. -/
theorem Key.precedes_iff {k l : Key} :
    k.Precedes l ↔ k.kind < l.kind ∨ k.kind = l.kind ∧ k.place < l.place := by
  constructor
  · intro h
    cases h with
    | char h => exact .inr ⟨rfl, h⟩
    | charNamed => exact .inl Nat.zero_lt_one
    | charFunction => exact .inl Nat.zero_lt_two
    | named h =>
      rw [NamedKey.idxOf_all, NamedKey.idxOf_all] at h
      exact .inr ⟨rfl, h⟩
    | namedFunction => exact .inl Nat.one_lt_two
    | function h => exact .inr ⟨rfl, h⟩
  · intro h
    cases k with
    | char c =>
      cases l with
      | char d => exact .char (by simpa [kind, place] using h)
      | named => exact .charNamed _ _
      | function => exact .charFunction _ _
    | named k =>
      cases l with
      | char => simp [kind] at h
      | named l =>
        apply Precedes.named
        rw [NamedKey.idxOf_all, NamedKey.idxOf_all]
        simpa [kind, place] using h
      | function => exact .namedFunction _ _
    | function m =>
      cases l with
      | char => simp [kind] at h
      | named => simp [kind] at h
      | function n => exact .function (by simpa [kind, place] using h)

/-- The weight of a modifier is its bit in the code of a set. -/
theorem Modifiers.has_iff_code_and_weight (s : Modifiers) (m : Modifier) :
    s.has m = true ↔ s.code &&& m.weight ≠ 0 := by
  obtain ⟨a, b, c, d⟩ := s
  revert a b c d
  cases m <;> decide

namespace Chord

/-! ## §3 The comparison -/

/-- A comparison of chords is a strict total order that keeps different chords apart. It looks at
the keys, and at the modifiers only if the keys are the same. -/
structure IsCanonicalOrder (cmp : Chord → Chord → Ordering) : Prop where
  eq_iff : ∀ a b, cmp a b = .eq ↔ a = b
  swap : ∀ a b, cmp b a = (cmp a b).swap
  trans : ∀ a b c, cmp a b = .lt → cmp b c = .lt → cmp a c = .lt
  lt_iff : ∀ a b, cmp a b = .lt ↔
    a.key.Precedes b.key ∨ a.key = b.key ∧ a.mods.code < b.mods.code

theorem lt_iff_compare {a b : Chord} : a < b ↔ a.compare b = .lt := by
  show (a.compare b == .lt) = true ↔ _
  exact beq_iff_eq

theorem compare_eq_eq_iff {a b : Chord} : a.compare b = .eq ↔ a = b := by
  rw [compare, Ordering.then_eq_eq, Ordering.then_eq_eq, Nat.compare_eq_eq, Nat.compare_eq_eq,
    Nat.compare_eq_eq]
  constructor
  · rintro ⟨hkind, hplace, hcode⟩
    exact eq_of_ranks hkind hplace hcode
  · intro h
    rw [h]
    exact ⟨rfl, rfl, rfl⟩

theorem compare_swap (a b : Chord) : b.compare a = (a.compare b).swap := by
  simp only [compare, Ordering.swap_then, Nat.compare_swap]

theorem compare_ne_gt_iff {a b : Chord} : a.compare b ≠ .gt ↔ ¬ b < a := by
  rw [lt_iff_compare, compare_swap a b, Ordering.swap_eq_lt]

theorem compare_eq_lt_iff {a b : Chord} : a.compare b = .lt ↔
    a.key.Precedes b.key ∨ a.key = b.key ∧ a.mods.code < b.mods.code := by
  rw [← lt_iff_compare, lt_iff, Key.precedes_iff]
  constructor
  · rintro (hkind | ⟨hkind, hplace | ⟨hplace, hcode⟩⟩)
    · exact .inl (.inl hkind)
    · exact .inl (.inr ⟨hkind, hplace⟩)
    · -- kind and place are all there is to a key
      exact .inr ⟨Key.eq_of_kind_place hkind hplace, hcode⟩
  · rintro ((hkind | ⟨hkind, hplace⟩) | ⟨hkey, hcode⟩)
    · exact .inl hkind
    · exact .inr ⟨hkind, .inl hplace⟩
    · rw [hkey]
      exact .inr ⟨rfl, .inr ⟨rfl, hcode⟩⟩

theorem isCanonicalOrder_compare : IsCanonicalOrder compare where
  eq_iff _ _ := compare_eq_eq_iff
  swap := compare_swap
  trans _ _ _ hab hbc :=
    lt_iff_compare.1 (lt_trans (lt_iff_compare.2 hab) (lt_iff_compare.2 hbc))
  lt_iff _ _ := compare_eq_lt_iff

/-! ## §4 Sorted lists -/

theorem insertSorted_perm (c : Chord) (cs : List Chord) : (insertSorted c cs).Perm (c :: cs) := by
  induction cs with
  | nil => exact List.Perm.refl _
  | cons d rest ih =>
    unfold insertSorted
    split
    · exact List.Perm.refl _
    · exact (ih.cons d).trans (List.Perm.swap c d rest)

theorem sort_perm (cs : List Chord) : (sort cs).Perm cs := by
  induction cs with
  | nil => exact List.Perm.refl _
  | cons c rest ih =>
    show (insertSorted c (sort rest)).Perm (c :: rest)
    exact (insertSorted_perm c (sort rest)).trans (ih.cons c)

/-- A chord put in its place among sorted chords leaves them sorted. -/
theorem pairwise_insertSorted (c : Chord) {cs : List Chord}
    (h : cs.Pairwise fun a b => ¬ b < a) : (insertSorted c cs).Pairwise fun a b => ¬ b < a := by
  induction cs with
  | nil => simp [insertSorted]
  | cons d rest ih =>
    rcases List.pairwise_cons.1 h with ⟨hd, hrest⟩
    unfold insertSorted
    split
    · next hlt =>
      refine List.pairwise_cons.2 ⟨?_, h⟩
      intro b hb
      rcases List.mem_cons.1 hb with rfl | hb
      · exact fun hbc => lt_irrefl c (lt_trans hlt hbc)
      · -- a chord below `c` would be below the head as well
        exact fun hbc => hd b hb (lt_trans hbc hlt)
    · next hnot =>
      refine List.pairwise_cons.2 ⟨?_, ih hrest⟩
      intro b hb
      have hmem : b ∈ c :: rest := (insertSorted_perm c rest).mem_iff.1 hb
      rcases List.mem_cons.1 hmem with rfl | hb
      · exact hnot
      · exact hd b hb

theorem pairwise_sort (cs : List Chord) : (sort cs).Pairwise fun a b => ¬ b < a := by
  induction cs with
  | nil => exact List.Pairwise.nil
  | cons c rest ih => exact pairwise_insertSorted c ih

/-- **Sorting orders different chords strictly.** -/
theorem pairwise_lt_sort {cs : List Chord} (h : cs.Nodup) :
    (sort cs).Pairwise fun a b => a < b := by
  have hnodup : (sort cs).Nodup := (sort_perm cs).nodup_iff.2 h
  have hboth := (pairwise_sort cs).and hnodup
  apply hboth.imp
  intro a b ⟨hnot, hne⟩
  -- the order is total, so that one of the two that are left has to hold
  rcases lt_trichotomy a b with hlt | heq | hgt
  · exact hlt
  · exact absurd heq hne
  · exact absurd hgt hnot

theorem eq_of_not_lt {a b : Chord} (hba : ¬ b < a) (hab : ¬ a < b) : a = b := by
  rcases lt_trichotomy a b with hlt | heq | hgt
  · exact absurd hlt hab
  · exact heq
  · exact absurd hgt hba

/-- **A list can be sorted in one way only.** -/
theorem eq_sort {cs l : List Chord} (hperm : l.Perm cs) (h : l.Pairwise fun a b => ¬ b < a) :
    l = sort cs := by
  apply List.Perm.eq_of_pairwise ?_ h (pairwise_sort cs) (hperm.trans (sort_perm cs).symm)
  intro a b _ _ hba hab
  exact eq_of_not_lt hba hab

theorem sort_eq_of_perm {cs cs' : List Chord} (h : cs'.Perm cs) : sort cs' = sort cs :=
  eq_sort ((sort_perm cs').trans h) (pairwise_sort cs')

/-- Texts in another order are read as the same chords in that order. -/
theorem exists_readAll_of_perm {texts texts' : List String} {cs : List Chord}
    (h : texts'.Perm texts) (hread : readAll texts = .ok cs) :
    ∃ cs', readAll texts' = .ok cs' ∧ cs'.Perm cs := by
  obtain ⟨cs', hcs', hperm⟩ := List.perm_comp_forall₂ h (mapM_eq_ok_iff.1 hread)
  exact ⟨cs', mapM_eq_ok_iff.2 hcs', hperm⟩

/-! ## §5 Different chords -/

theorem countDistinct_eq_card (cs : List Chord) : countDistinct cs = cs.toFinset.card := by
  have hsame : cs.eraseDups.toFinset = cs.toFinset := by
    ext c
    simp
  rw [countDistinct, ← hsame, List.toFinset_card_of_nodup (nodup_eraseDups cs)]

/-- The number of places in a list at which a greater chord follows. -/
def countRises (cs : List Chord) : Nat :=
  (cs.zip cs.tail).countP fun p => decide (p.1 < p.2)

theorem countRises_cons_cons (a b : Chord) (rest : List Chord) :
    countRises (a :: b :: rest) = countRises (b :: rest) + if a < b then 1 else 0 := by
  simp [countRises, List.countP_cons]

/-- **In a sorted list the different chords are told by the rises.** -/
theorem card_eq_countRises {a : Chord} {rest : List Chord}
    (h : (a :: rest).Pairwise fun a b => ¬ b < a) :
    (a :: rest).toFinset.card = countRises (a :: rest) + 1 := by
  induction rest generalizing a with
  | nil => rfl
  | cons b rest ih =>
    obtain ⟨ha, hrest⟩ := List.pairwise_cons.1 h
    obtain ⟨hb, -⟩ := List.pairwise_cons.1 hrest
    rw [List.toFinset_cons, countRises_cons_cons]
    by_cases hlt : a < b
    · -- what comes after a rise is greater than all that comes before
      have hnew : a ∉ (b :: rest).toFinset := by
        rw [List.mem_toFinset]
        intro hmem
        rcases List.mem_cons.1 hmem with rfl | hmem
        · exact lt_irrefl a hlt
        · exact hb a hmem hlt
      rw [Finset.card_insert_of_notMem hnew, ih hrest, if_pos hlt]
    · -- without a rise the next chord is the same
      have heq : a = b := eq_of_not_lt (ha b (by simp)) hlt
      have hold : a ∈ (b :: rest).toFinset := by
        rw [List.mem_toFinset, heq]
        exact List.mem_cons_self
      rw [Finset.insert_eq_of_mem hold, ih hrest, if_neg hlt]

theorem card_toFinset_eq (cs : List Chord) :
    cs.toFinset.card = if cs = [] then 0 else countRises (sort cs) + 1 := by
  have hsame : (sort cs).toFinset = cs.toFinset := List.toFinset_eq_of_perm _ _ (sort_perm cs)
  rw [← hsame]
  cases hsort : sort cs with
  | nil =>
    have hnil : cs = [] := List.nil_perm.1 (hsort ▸ sort_perm cs)
    rw [if_pos hnil]
    rfl
  | cons a rest =>
    have hne : cs ≠ [] := by
      rintro rfl
      cases hsort
    rw [if_neg hne]
    exact card_eq_countRises (hsort ▸ pairwise_sort cs)

/-! ## §6 Lists of texts -/

/-- The chords of a list of texts are sorted in one way only, whatever the order of the texts, and
the sorted list shows how many different chords there are. -/
structure SortsCanonically (texts : List String) (cs : List Chord) : Prop where
  reads : List.Forall₂ (fun t c => read t = .ok c) texts cs
  perm : (sort cs).Perm cs
  nondecreasing : (sort cs).Pairwise fun a b => a.compare b ≠ .gt
  /-- An arrangement of the chords that does not decrease is this one. -/
  unique : ∀ l : List Chord, l.Perm cs → l.Pairwise (fun a b => a.compare b ≠ .gt) → l = sort cs
  reordered : ∀ texts', texts'.Perm texts → ∃ cs', readAll texts' = .ok cs' ∧ sort cs' = sort cs ∧
    countDistinct cs' = countDistinct cs
  distinct : countDistinct cs = cs.toFinset.card
  rises : countDistinct cs = if cs = [] then 0 else countRises (sort cs) + 1

theorem sortsCanonically_of_readAll {texts : List String} {cs : List Chord}
    (h : readAll texts = .ok cs) : SortsCanonically texts cs where
  reads := mapM_eq_ok_iff.1 h
  perm := sort_perm cs
  nondecreasing := (pairwise_sort cs).imp compare_ne_gt_iff.2
  unique _ hperm hl := eq_sort hperm (hl.imp compare_ne_gt_iff.1)
  reordered texts' hperm := by
    obtain ⟨cs', hread, hcs⟩ := exists_readAll_of_perm hperm h
    refine ⟨cs', hread, sort_eq_of_perm hcs, ?_⟩
    rw [countDistinct_eq_card, countDistinct_eq_card, List.toFinset_eq_of_perm _ _ hcs]
  distinct := countDistinct_eq_card cs
  rises := (countDistinct_eq_card cs).trans (card_toFinset_eq cs)

/-- **The canonical order is total, and sorting by it is canonical.** The comparison of chords is a
strict total order in which only equal chords are level. It compares the keys and then the bits of
the modifiers. Texts that can all be read are sorted into a list that does not decrease, which is
the only such list and the same for any order of the texts. It rises once less than there are
different chords. -/
theorem sort_read_canonical :
    IsCanonicalOrder compare ∧
    (∀ (s : Modifiers) (m : Modifier), s.has m = true ↔ s.code &&& m.weight ≠ 0) ∧
    ∀ texts : List String, (∀ t ∈ texts, ∃ c, read t = .ok c) →
      ∃ cs, readAll texts = .ok cs ∧ SortsCanonically texts cs := by
  refine ⟨isCanonicalOrder_compare, Modifiers.has_iff_code_and_weight, ?_⟩
  intro texts h
  obtain ⟨cs, hcs⟩ := exists_forall₂_iff.2 h
  have hread : readAll texts = .ok cs := mapM_eq_ok_iff.2 hcs
  exact ⟨cs, hread, sortsCanonically_of_readAll hread⟩

/-! Six texts of five chords, with keys of all kinds. -/

def mixedTexts : List String := ["f2", "Cmd+A", "home", "shift-é", "ctrl-a", "cmd-a"]

/-- The two texts of one chord are sorted side by side, wherever they stand. -/
theorem sort_read_canonical_mixed :
    (∀ t ∈ mixedTexts, ∃ c, read t = .ok c) ∧
      ∃ cs, readAll mixedTexts = .ok cs ∧ cs.toFinset.card = 5 ∧ countRises (sort cs) = 4 ∧
        ∀ texts, texts.Perm mixedTexts → ∃ cs', readAll texts = .ok cs' ∧ sort cs' = sort cs := by
  have hsome : ∀ t ∈ mixedTexts, (read t).toOption.isSome = true := by decide +kernel
  have hread : ∀ t ∈ mixedTexts, ∃ c, read t = .ok c := by
    intro t ht
    obtain ⟨c, hc⟩ := Option.isSome_iff_exists.1 (hsome t ht)
    exact ⟨c, Except.toOption_eq_some_iff.1 hc⟩
  obtain ⟨cs, hcs, hsorts⟩ := sort_read_canonical.2.2 mixedTexts hread
  have hcount : (readAll mixedTexts).map countDistinct = .ok 5 := by decide +kernel
  have hfive : countDistinct cs = 5 := by
    rw [hcs] at hcount
    exact Except.ok.inj hcount
  have hne : cs ≠ [] := by
    rintro rfl
    cases hfive
  have hrises := hsorts.rises
  rw [hfive, if_neg hne] at hrises
  refine ⟨hread, cs, hcs, hsorts.distinct ▸ hfive, by omega, ?_⟩
  intro texts hperm
  obtain ⟨cs', hcs', hsort, -⟩ := hsorts.reordered texts hperm
  exact ⟨cs', hcs', hsort⟩

end Chord

end Keybinding
