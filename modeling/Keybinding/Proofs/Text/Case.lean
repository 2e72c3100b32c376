import Keybinding.Proofs.Text.Basic
import Keybinding.Text.Case

/-!
# Texts in lower case

The two cases of a letter of ASCII lie 32 places apart, and nothing else of ASCII is moved
(`toNat_toLower`, `toNat_toUpper`).

A text is put into lower case character by character. A character that is its own lower case is
found again in the result, and a text of such characters stays as it is. Digits and the separators
of chords are of this kind. White space and controls have no case at all: they are their own lower
case and their own upper case.
-/

namespace Keybinding.Text

/-! ## §1 Letters of ASCII -/

/-- Capital letters are moved by 32 places, and all else stays. -/
theorem toNat_toLower (c : Char) :
    c.toLower.toNat = if 65 ≤ c.toNat ∧ c.toNat ≤ 90 then c.toNat + 32 else c.toNat := by
  delta Char.toLower
  split
  · next h =>
    have hupper : 65 ≤ c.toNat ∧ c.toNat ≤ 90 := h
    rw [if_pos hupper]
    show (c.val + 32).toNat = c.toNat + 32
    rw [UInt32.toNat_add]
    show (c.toNat + 32) % 2 ^ 32 = _
    omega
  · next h =>
    have hupper : ¬ (65 ≤ c.toNat ∧ c.toNat ≤ 90) := h
    rw [if_neg hupper]

/-- Small letters are moved back by 32 places, and all else stays. -/
theorem toNat_toUpper (c : Char) :
    c.toUpper.toNat = if 97 ≤ c.toNat ∧ c.toNat ≤ 122 then c.toNat - 32 else c.toNat := by
  delta Char.toUpper
  split
  · next h =>
    have hlower : 97 ≤ c.toNat ∧ c.toNat ≤ 122 := h
    rw [if_pos hlower]
    -- the word that is added stands for minus 32
    show (c.val + 4294967264).toNat = c.toNat - 32
    rw [UInt32.toNat_add]
    show (c.toNat + 4294967264) % 2 ^ 32 = _
    omega
  · next h =>
    have hlower : ¬ (97 ≤ c.toNat ∧ c.toNat ≤ 122) := h
    rw [if_neg hlower]

theorem toLower_eq_self_iff {c : Char} : c.toLower = c ↔ ¬ c.isUpper = true := by
  rw [← Char.toNat_inj, toNat_toLower, isUpper_iff]
  split <;> omega

theorem toUpper_eq_self_iff {c : Char} : c.toUpper = c ↔ ¬ c.isLower = true := by
  rw [← Char.toNat_inj, toNat_toUpper, isLower_iff]
  split <;> omega

/-- Behind ASCII, `toLower` leaves letters as they are. -/
theorem toLower_eq_self {c : Char} (hascii : ¬ c.toNat < 0x80) : c.toLower = c := by
  rw [toLower_eq_self_iff, isUpper_iff]
  omega

theorem not_isUpper_toLower (c : Char) : ¬ c.toLower.isUpper = true := by
  rw [isUpper_iff, toNat_toLower]
  split <;> omega

theorem toLower_toUpper (c : Char) : c.toUpper.toLower = c.toLower := by
  rw [← Char.toNat_inj, toNat_toLower, toNat_toLower, toNat_toUpper]
  -- a small letter is moved to a capital one, and back again
  by_cases hlower : 97 ≤ c.toNat ∧ c.toNat ≤ 122
  · rw [if_pos hlower]
    split <;> split <;> omega
  · rw [if_neg hlower]

/-- Both maps stay within ASCII. -/
theorem toNat_toLower_lt_iff {c : Char} : c.toLower.toNat < 0x80 ↔ c.toNat < 0x80 := by
  rw [toNat_toLower]
  split <;> omega

theorem toNat_toUpper_lt {c : Char} (hascii : c.toNat < 0x80) : c.toUpper.toNat < 0x80 := by
  rw [toNat_toUpper]
  split <;> omega

/-! ## §2 Texts in lower case -/

theorem toList_lowered (s : List Char) : (lowered s).toList = s.flatMap lower := by
  rw [lowered, String.toList_ofList]

/-- A character that is its own lower case does not get lost. -/
theorem mem_lowered {s : List Char} {c : Char} (hc : lower c = [c]) (h : c ∈ s) :
    c ∈ (lowered s).toList := by
  rw [toList_lowered, List.mem_flatMap]
  exact ⟨c, h, by simp [hc]⟩

theorem flatMap_lower_eq_self {s : List Char} (h : ∀ c ∈ s, lower c = [c]) :
    s.flatMap lower = s := by
  induction s with
  | nil => rfl
  | cons c rest ih =>
    rw [List.flatMap_cons, h c List.mem_cons_self, ih fun d hd => h d (List.mem_cons_of_mem c hd)]
    rfl

/-- A character of ASCII that is no capital letter is its own lower case. -/
theorem lower_of_not_isUpper {c : Char} (hascii : c.toNat < 0x80) (hupper : ¬ c.isUpper = true) :
    lower c = [c] := by
  rw [lower, if_pos hascii, toLower_eq_self_iff.2 hupper]

theorem lower_of_isDigit {c : Char} (h : c.isDigit = true) : lower c = [c] := by
  have hdigit := toNat_of_isDigit h
  apply lower_of_not_isUpper
  · omega
  · intro hupper
    have hletter := isUpper_iff.1 hupper
    omega

/-! ## §3 Characters without case -/

/-- The places of white space and controls behind ASCII. -/
def unseen : List Nat :=
  List.range' 0x80 0x21 ++ [0x1680] ++ List.range' 0x2000 11 ++
    [0x2028, 0x2029, 0x202F, 0x205F, 0x3000]

theorem mem_unseen {c : Char} (hascii : ¬ c.toNat < 0x80)
    (h : isSpace c = true ∨ isControl c = true) : c.toNat ∈ unseen := by
  simp only [isSpace, isControl, Bool.or_eq_true, Bool.and_eq_true, decide_eq_true_eq,
    beq_iff_eq] at h
  simp only [unseen, List.mem_append, List.mem_cons, List.mem_range'_1, List.not_mem_nil]
  omega

/-- White space and controls are no letters of ASCII. -/
theorem not_isAlpha_of_unseen {c : Char} (h : isSpace c = true ∨ isControl c = true) :
    ¬ c.isAlpha = true := by
  intro halpha
  have hletter := toNat_of_isAlpha halpha
  simp only [isSpace, isControl, Bool.or_eq_true, Bool.and_eq_true, decide_eq_true_eq,
    beq_iff_eq] at h
  omega

/-- A character that stands in no table is its own other case. -/
theorem otherCase_eq_self {runs : List Case.Run} {expansions : List (Nat × List Nat)} {c : Char}
    (hexpansion : expansions.lookup c.toNat = none)
    (hrun : runs.find? (·.covers c.toNat) = none) : otherCase runs expansions c = [c] := by
  rw [otherCase, hexpansion, hrun]

theorem lower_of_unseen {c : Char} (h : isSpace c = true ∨ isControl c = true) :
    lower c = [c] := by
  have htables : ∀ n ∈ unseen,
      Case.lowerExpansions.lookup n = none ∧ Case.lowerRuns.find? (·.covers n) = none := by
    decide +kernel
  by_cases hascii : c.toNat < 0x80
  · apply lower_of_not_isUpper hascii
    exact fun hupper => not_isAlpha_of_unseen h (Bool.or_eq_true_iff.2 (.inl hupper))
  · obtain ⟨hexpansion, hrun⟩ := htables _ (mem_unseen hascii h)
    rw [lower, if_neg hascii, otherCase_eq_self hexpansion hrun]

theorem upper_of_unseen {c : Char} (h : isSpace c = true ∨ isControl c = true) :
    upper c = [c] := by
  have htables : ∀ n ∈ unseen,
      Case.upperExpansions.lookup n = none ∧ Case.upperRuns.find? (·.covers n) = none := by
    decide +kernel
  by_cases hascii : c.toNat < 0x80
  · have hlower : ¬ c.isLower = true :=
      fun hlower => not_isAlpha_of_unseen h (Bool.or_eq_true_iff.2 (.inr hlower))
    rw [upper, if_pos hascii, toUpper_eq_self_iff.2 hlower]
  · obtain ⟨hexpansion, hrun⟩ := htables _ (mem_unseen hascii h)
    rw [upper, if_neg hascii, otherCase_eq_self hexpansion hrun]

theorem lower_of_isSpace {c : Char} (h : isSpace c = true) : lower c = [c] :=
  lower_of_unseen (.inl h)

/-- White space is not lost by putting a text into lower case. -/
theorem isSpace_of_lowered {s : List Char} (h : ∀ c ∈ (lowered s).toList, isSpace c = false) :
    ∀ c ∈ s, isSpace c = false := by
  intro c hc
  by_contra hspace
  rw [Bool.not_eq_false] at hspace
  have hkept := h c (mem_lowered (lower_of_isSpace hspace) hc)
  rw [hspace] at hkept
  contradiction

end Keybinding.Text
