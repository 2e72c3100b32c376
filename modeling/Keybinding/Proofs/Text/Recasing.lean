import Keybinding.Proofs.Steps
import Keybinding.Proofs.Text.Basic
import Keybinding.Proofs.Text.Case

/-!
# Letters in the other case

Two characters are the cases of a letter when the upper-case form of the one is the other alone, and
back. They have the same lower case (`AgreesUpToCase.lower_eq`), since no character that a run for
lower case leads to is moved by another one. White space and controls have no other case.

A text with some letters in the other case is trimmed at the same places (`IsRecased.trim`), and is
the same text in lower case (`IsRecased.lowered_eq`).
-/

namespace Keybinding.Text

open Case

/-! ## §1 The case tables -/

theorem mem_of_lookup {es : List (Nat × List Nat)} {n : Nat} {ns : List Nat}
    (h : es.lookup n = some ns) : (n, ns) ∈ es := by
  obtain ⟨before, after, rfl, -⟩ := List.lookup_eq_some_iff.1 h
  simp

/-- The other case of a character is what a table says, or the character itself. -/
theorem otherCase_cases (runs : List Run) (expansions : List (Nat × List Nat)) (c : Char) :
    (∃ ns, (c.toNat, ns) ∈ expansions ∧ otherCase runs expansions c = ns.map Char.ofNat) ∨
      (∃ r ∈ runs, r.covers c.toNat = true ∧
        otherCase runs expansions c = [Char.ofNat (c.toNat + r.shift).toNat]) ∨
      otherCase runs expansions c = [c] := by
  unfold otherCase
  split
  · next ns hns => exact .inl ⟨ns, mem_of_lookup hns, rfl⟩
  · split
    · next r hr =>
      have hcovers := List.find?_some hr
      exact .inr (.inl ⟨r, List.mem_of_find?_eq_some hr, hcovers, rfl⟩)
    · exact .inr (.inr rfl)

/-- An upper-case form of several characters does not hold the character itself. -/
theorem upper_eq_self_of_mem {c : Char} (h : c ∈ upper c) : upper c = [c] := by
  have htable : ∀ e ∈ upperExpansions, ∀ n ∈ e.2, (Char.ofNat n).toNat ≠ e.1 := by decide +kernel
  rw [upper] at h ⊢
  split at h
  · next hascii => rw [if_pos hascii, ← List.mem_singleton.1 h]
  · next hascii =>
    rw [if_neg hascii]
    rcases otherCase_cases upperRuns upperExpansions c with
      ⟨ns, hns, heq⟩ | ⟨r, -, -, heq⟩ | heq
    · rw [heq] at h
      obtain ⟨n, hn, hc⟩ := List.mem_map.1 h
      exact absurd (congrArg Char.toNat hc) (htable _ hns n hn)
    · rw [heq, List.mem_singleton] at h
      rw [heq, ← h]
    · exact heq

namespace Case.Run

/-- The places that a run leads to. -/
def target (r : Run) : Run :=
  ⟨(r.first + r.shift).toNat, (r.last + r.shift).toNat, r.step, -r.shift⟩

/-- Two runs have no place in common: one ends before the other begins, or the places of the one lie
between those of the other. -/
def isApart (r s : Run) : Bool :=
  r.last.blt s.first || s.last.blt r.first ||
    (r.step == 2 || r.first == r.last) && s.step == 2 && (r.first + s.first) % 2 == 1

theorem covers_eq_false_of_isApart {r s : Run} {n : Nat} (h : r.isApart s = true)
    (hn : r.covers n = true) : s.covers n = false := by
  rw [Bool.eq_false_iff]
  intro hs
  simp only [covers, Bool.and_eq_true, decide_eq_true_eq, beq_iff_eq] at hn hs
  simp only [isApart, Bool.and_eq_true, Bool.or_eq_true, Nat.blt_eq, beq_iff_eq] at h
  obtain ⟨⟨hfirst, hlast⟩, hstep⟩ := hn
  obtain ⟨⟨hfirst', hlast'⟩, hstep'⟩ := hs
  rcases h with (hbefore | hbehind) | ⟨⟨hshort | hone, htwo⟩, hodd⟩
  · omega
  · omega
  -- a run of step two holds places of one parity, and a run of one place holds that place
  · rw [hshort] at hstep
    rw [htwo] at hstep'
    omega
  · rw [htwo] at hstep'
    omega

theorem covers_target {r : Run} {n : Nat} (hpos : 0 ≤ r.first + r.shift) (hn : r.covers n = true) :
    r.target.covers (n + r.shift).toNat = true := by
  simp only [covers, Bool.and_eq_true, decide_eq_true_eq, beq_iff_eq] at hn ⊢
  obtain ⟨⟨hfirst, hlast⟩, hstep⟩ := hn
  have hlo : (r.first + r.shift).toNat ≤ (n + r.shift).toNat := by omega
  have hhi : (n + r.shift).toNat ≤ (r.last + r.shift).toNat := by omega
  have hdistance : (n + r.shift).toNat - (r.first + r.shift).toNat = n - r.first := by omega
  exact ⟨⟨hlo, hhi⟩, hdistance ▸ hstep⟩

end Case.Run

/-! ## §2 Lower case twice -/

/-- The runs for lower case, and those of one place for characters with several in lower case. -/
def loweredRuns : List Run :=
  lowerRuns ++ lowerExpansions.map fun e => ⟨e.1, e.1, 1, 0⟩

/-- What a run for lower case leads to stands in no table for lower case. -/
theorem loweredRuns_isApart {r s : Run} (hr : r ∈ lowerRuns) (hs : s ∈ loweredRuns) :
    0 ≤ r.first + r.shift ∧ r.target.isApart s = true := by
  have htable : (lowerRuns.all fun r =>
      decide (0 ≤ r.first + r.shift) && loweredRuns.all r.target.isApart) = true := by
    decide +kernel
  have hr := List.all_eq_true.1 htable r hr
  rw [Bool.and_eq_true, decide_eq_true_eq] at hr
  exact ⟨hr.1, List.all_eq_true.1 hr.2 s hs⟩

/-- A character whose place is in none of these runs is its own lower case. -/
theorem lower_eq_self_of_covers {c : Char} (h : ∀ s ∈ loweredRuns, s.covers c.toNat = false) :
    lower c = [c] := by
  by_cases hascii : c.toNat < 0x80
  · apply lower_of_not_isUpper hascii
    intro hupper
    -- the capital letters of ASCII are the first run
    have hletter := isUpper_iff.1 hupper
    have hnot := h ⟨0x41, 0x5A, 1, 32⟩ List.mem_cons_self
    simp [Run.covers] at hnot
    omega
  · have hexpansion : lowerExpansions.lookup c.toNat = none := by
      rw [List.lookup_eq_none_iff]
      intro e he
      have hnot := h _ (List.mem_append_right _ (List.mem_map_of_mem he))
      rw [Bool.eq_false_iff] at hnot
      rw [bne_iff_ne]
      exact fun heq => hnot (by simp [Run.covers, heq])
    have hrun : lowerRuns.find? (·.covers c.toNat) = none := by
      rw [List.find?_eq_none]
      intro s hs
      simp [h s (List.mem_append_left _ hs)]
    rw [lower, if_neg hascii, otherCase_eq_self hexpansion hrun]

/-- What a run for lower case leads to is its own lower case. -/
theorem lower_eq_self_of_run {r : Run} {n : Nat} (hr : r ∈ lowerRuns) (hn : r.covers n = true) :
    lower (Char.ofNat (n + r.shift).toNat) = [Char.ofNat (n + r.shift).toNat] := by
  by_cases hvalid : (n + r.shift).toNat.isValidChar
  · apply lower_eq_self_of_covers
    have htoNat : (Char.ofNat (n + r.shift).toNat).toNat = (n + r.shift).toNat := by
      rw [Char.ofNat, dif_pos hvalid]
      rfl
    rw [htoNat]
    intro s hs
    obtain ⟨hpos, hapart⟩ := loweredRuns_isApart hr hs
    exact Run.covers_eq_false_of_isApart hapart (Run.covers_target hpos hn)
  -- a number of no character makes the character zero, which has no case
  · rw [Char.ofNat, dif_neg hvalid]
    decide

/-- **The lower-case form of a character is its own lower case.** -/
theorem lower_eq_self_of_lower {c d : Char} (h : lower c = [d]) : lower d = [d] := by
  by_cases hascii : c.toNat < 0x80
  · rw [lower, if_pos hascii] at h
    obtain rfl := List.singleton_inj.1 h
    exact lower_of_not_isUpper (toNat_toLower_lt_iff.2 hascii) (not_isUpper_toLower c)
  · have hcase := h
    rw [lower, if_neg hascii] at hcase
    rcases otherCase_cases lowerRuns lowerExpansions c with
      ⟨ns, hns, heq⟩ | ⟨r, hr, hcovers, heq⟩ | heq
    · -- there is no expansion of one character
      have hlong : ∀ e ∈ lowerExpansions, e.2.length ≠ 1 := by decide
      have hlength := congrArg List.length (heq.symm.trans hcase)
      rw [List.length_map, List.length_singleton] at hlength
      exact absurd hlength (hlong _ hns)
    · obtain rfl := List.singleton_inj.1 (heq.symm.trans hcase)
      exact lower_eq_self_of_run hr hcovers
    · obtain rfl := List.singleton_inj.1 (heq.symm.trans hcase)
      exact h

/-! ## §3 Letters in the other case -/

/-- Two characters are the small and the capital form of one letter. -/
def IsCasePair (small capital : Char) : Prop :=
  upper small = [capital] ∧ lower capital = [small]

instance (small capital : Char) : Decidable (IsCasePair small capital) :=
  inferInstanceAs (Decidable (_ ∧ _))

/-- A character is another one, or the other case of it. -/
def AgreesUpToCase (c d : Char) : Prop :=
  d = c ∨ IsCasePair c d ∨ IsCasePair d c

instance (c d : Char) : Decidable (AgreesUpToCase c d) :=
  inferInstanceAs (Decidable (_ ∨ _ ∨ _))

namespace AgreesUpToCase

variable {c d : Char}

theorem symm (h : AgreesUpToCase c d) : AgreesUpToCase d c :=
  h.imp Eq.symm Or.symm

/-- **The cases of a letter have the same lower case.** -/
theorem lower_eq (h : AgreesUpToCase c d) : lower c = lower d := by
  have hpair : ∀ {small capital}, IsCasePair small capital → lower small = lower capital := by
    rintro small capital ⟨-, hlower⟩
    rw [lower_eq_self_of_lower hlower, hlower]
  rcases h with rfl | h | h
  · rfl
  · exact hpair h
  · exact (hpair h).symm

/-- A character that is its own upper and lower case is no case of another one. -/
theorem eq_of_caseless (hupper : upper c = [c]) (hlower : lower c = [c])
    (h : AgreesUpToCase c d) : d = c := by
  rcases h with h | ⟨h, -⟩ | ⟨-, h⟩
  · exact h
  · exact List.singleton_inj.1 (h.symm.trans hupper)
  · exact List.singleton_inj.1 (h.symm.trans hlower)

/-- A class of characters without case holds both or none. -/
theorem class_eq {p : Char → Bool} (hp : ∀ e, p e = true → upper e = [e] ∧ lower e = [e])
    (h : AgreesUpToCase c d) : p c = p d := by
  rw [Bool.eq_iff_iff]
  constructor
  · intro hc
    rwa [h.eq_of_caseless (hp c hc).1 (hp c hc).2]
  · intro hd
    rwa [h.symm.eq_of_caseless (hp d hd).1 (hp d hd).2]

theorem isSpace_eq (h : AgreesUpToCase c d) : isSpace c = isSpace d :=
  h.class_eq fun _ he => ⟨upper_of_unseen (.inl he), lower_of_unseen (.inl he)⟩

theorem isControl_eq (h : AgreesUpToCase c d) : isControl c = isControl d :=
  h.class_eq fun _ he => ⟨upper_of_unseen (.inr he), lower_of_unseen (.inr he)⟩

/-- The cases of a letter of ASCII are of ASCII, and `toLower` takes them for one. -/
theorem toLower_eq (hascii : c.toNat < 0x80) (h : AgreesUpToCase c d) :
    d.toNat < 0x80 ∧ d.toLower = c.toLower := by
  rcases h with rfl | ⟨h, -⟩ | ⟨-, h⟩
  · exact ⟨hascii, rfl⟩
  · rw [upper, if_pos hascii] at h
    obtain rfl := List.singleton_inj.1 h
    exact ⟨toNat_toUpper_lt hascii, toLower_toUpper c⟩
  · rw [lower, if_pos hascii] at h
    obtain rfl := List.singleton_inj.1 h
    exact ⟨toNat_toLower_lt_iff.2 hascii, toLower_eq_self_iff.2 (not_isUpper_toLower c)⟩

end AgreesUpToCase

/-! ## §4 Texts with letters in the other case -/

/-- A text is another one with some letters in the other case. -/
def IsRecased (s t : List Char) : Prop :=
  List.Forall₂ AgreesUpToCase s t

instance (s t : List Char) : Decidable (IsRecased s t) :=
  inferInstanceAs (Decidable (List.Forall₂ _ s t))

namespace IsRecased

variable {s t : List Char}

/-- **Lower case does not tell which letters were in the other case.** -/
theorem lowered_eq (h : IsRecased s t) : lowered s = lowered t := by
  rw [lowered, lowered]
  congr 1
  induction h with
  | nil => rfl
  | cons hc _ ih => rw [List.flatMap_cons, List.flatMap_cons, hc.lower_eq, ih]

theorem dropWhile_isSpace (h : IsRecased s t) :
    IsRecased (s.dropWhile isSpace) (t.dropWhile isSpace) := by
  induction h with
  | nil => exact .nil
  | @cons c d s t hc hrest ih =>
    by_cases hspace : isSpace c = true
    · rwa [List.dropWhile_cons_of_pos hspace, List.dropWhile_cons_of_pos (hc.isSpace_eq ▸ hspace)]
    · rw [List.dropWhile_cons_of_neg hspace, List.dropWhile_cons_of_neg (hc.isSpace_eq ▸ hspace)]
      exact hrest.cons hc

/-- Trimming cuts off as much. -/
theorem trim (h : IsRecased s t) : IsRecased (Text.trim s) (Text.trim t) := by
  -- white space has no other case, so that it is met at the same places from either end
  have hstart : IsRecased (trimStart s) (trimStart t) := h.dropWhile_isSpace
  have hend : IsRecased ((trimStart s).reverse.dropWhile isSpace)
      ((trimStart t).reverse.dropWhile isSpace) :=
    dropWhile_isSpace (List.forall₂_reverse_iff.2 hstart)
  exact List.forall₂_reverse_iff.2 hend

end IsRecased

end Keybinding.Text
