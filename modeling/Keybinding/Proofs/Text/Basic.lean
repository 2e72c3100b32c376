import Keybinding.Text.Basic
import Mathlib.Data.List.DropRight

/-!
# Characters of ASCII, and trimming

Letters, digits and capital letters are ranges of code points. In a text of ASCII each character is
one byte of its own, so that the bytes of two such texts compare as the texts do.

White space is cut off the two ends of a text once and for all: a trimmed text stays as it is when
it is trimmed again.
-/

namespace Keybinding.Text

/-! ## §1 Classes -/

theorem toNat_of_isDigit {c : Char} (h : c.isDigit = true) : 48 ≤ c.toNat ∧ c.toNat ≤ 57 := by
  rcases Bool.and_eq_true_iff.1 h with ⟨hlo, hhi⟩
  have hlo : 48 ≤ c.toNat := of_decide_eq_true hlo
  have hhi : c.toNat ≤ 57 := of_decide_eq_true hhi
  exact ⟨hlo, hhi⟩

theorem isUpper_iff {c : Char} : c.isUpper = true ↔ 65 ≤ c.toNat ∧ c.toNat ≤ 90 :=
  decide_eq_true_iff

theorem isLower_iff {c : Char} : c.isLower = true ↔ 97 ≤ c.toNat ∧ c.toNat ≤ 122 := by
  show (decide (97 ≤ c.toNat) && decide (c.toNat ≤ 122)) = true ↔ _
  rw [Bool.and_eq_true, decide_eq_true_eq, decide_eq_true_eq]

theorem toNat_of_isAlpha {c : Char} (h : c.isAlpha = true) : 65 ≤ c.toNat ∧ c.toNat ≤ 122 := by
  have hcase : c.isUpper = true ∨ c.isLower = true := Bool.or_eq_true_iff.1 h
  rcases hcase with hupper | hlower
  · have hbounds := isUpper_iff.1 hupper
    omega
  · have hbounds := isLower_iff.1 hlower
    omega

theorem toNat_of_isAlphanum {c : Char} (h : c.isAlphanum = true) :
    48 ≤ c.toNat ∧ c.toNat ≤ 122 := by
  have hcase : c.isAlpha = true ∨ c.isDigit = true := Bool.or_eq_true_iff.1 h
  rcases hcase with halpha | hdigit
  · have hbounds := toNat_of_isAlpha halpha
    omega
  · have hbounds := toNat_of_isDigit hdigit
    omega

/-- The visible characters of ASCII are no white space. -/
theorem isSpace_of_visible {c : Char} (hlo : 33 ≤ c.toNat) (hhi : c.toNat ≤ 126) :
    isSpace c = false := by
  simp [isSpace]
  omega

/-! ## §2 Bytes -/

/-- The bytes of a text in UTF-8. -/
def bytes (s : String) : List UInt8 :=
  s.toUTF8.data.toList

theorem bytes_eq_flatMap (s : String) : bytes s = s.toList.flatMap String.utf8EncodeChar := by
  rw [bytes, String.toUTF8_eq_toByteArray]
  conv => lhs; rw [← String.ofList_toList (s := s)]
  rw [String.toByteArray_ofList, List.utf8Encode, List.data_toByteArray]

theorem utf8EncodeChar_of_ascii {c : Char} (h : c.toNat < 128) :
    String.utf8EncodeChar c = [c.val.toUInt8] := by
  apply String.utf8EncodeChar_eq_singleton
  rw [Char.utf8Size_eq_one_iff, UInt32.le_iff_toNat_le]
  exact Nat.le_of_lt_succ h

theorem toNat_toUInt8 {c : Char} (h : c.toNat < 128) : c.val.toUInt8.toNat = c.toNat := by
  rw [UInt32.toNat_toUInt8]
  exact Nat.mod_eq_of_lt (Nat.lt_trans h (by decide))

theorem toUInt8_lt_iff {c d : Char} (hc : c.toNat < 128) (hd : d.toNat < 128) :
    c.val.toUInt8 < d.val.toUInt8 ↔ c < d := by
  rw [UInt8.lt_iff_toNat_lt, toNat_toUInt8 hc, toNat_toUInt8 hd]
  rfl

theorem toUInt8_inj {c d : Char} (hc : c.toNat < 128) (hd : d.toNat < 128) :
    c.val.toUInt8 = d.val.toUInt8 ↔ c = d := by
  rw [← UInt8.toNat_inj, toNat_toUInt8 hc, toNat_toUInt8 hd]
  exact Char.toNat_inj

/-- **The bytes of texts of ASCII compare as the texts do.** -/
theorem bytes_lt_bytes_iff {s t : String} (hs : ∀ c ∈ s.toList, c.toNat < 128)
    (ht : ∀ c ∈ t.toList, c.toNat < 128) : bytes s < bytes t ↔ s < t := by
  rw [String.lt_iff, bytes_eq_flatMap, bytes_eq_flatMap]
  generalize s.toList = cs at hs
  generalize t.toList = ds at ht
  -- character by character, each of which is one byte
  induction cs generalizing ds with
  | nil =>
    cases ds with
    | nil => simp
    | cons d ds => simp [utf8EncodeChar_of_ascii (ht d List.mem_cons_self)]
  | cons c cs ih =>
    rw [List.forall_mem_cons] at hs
    rw [List.flatMap_cons, utf8EncodeChar_of_ascii hs.1]
    cases ds with
    | nil => simp
    | cons d ds =>
      rw [List.forall_mem_cons] at ht
      rw [List.flatMap_cons, utf8EncodeChar_of_ascii ht.1, List.singleton_append,
        List.singleton_append, List.cons_lt_cons_iff, List.cons_lt_cons_iff,
        toUInt8_lt_iff hs.1 ht.1, toUInt8_inj hs.1 ht.1, ih hs.2 ds ht.2]

/-! ## §3 Trimming -/

/-- A text without white space at its start gets none there when its end is cut off. -/
theorem trimStart_trimEnd {s : List Char} (h : trimStart s = s) :
    trimStart (trimEnd s) = trimEnd s := by
  rw [trimStart, List.dropWhile_eq_self_iff] at h
  rw [trimStart, List.dropWhile_eq_self_iff]
  intro hlt
  -- what is left starts like the whole, or is empty
  have hpre : trimEnd s <+: s := List.rdropWhile_prefix isSpace s
  rw [hpre.getElem hlt]
  exact h (Nat.lt_of_lt_of_le hlt hpre.length_le)

@[simp] theorem trim_trim (s : List Char) : trim (trim s) = trim s := by
  have hstart : trimStart (trimStart s) = trimStart s := List.dropWhile_idempotent isSpace s
  calc trim (trim s)
    _ = trimEnd (trimEnd (trimStart s)) := by rw [trim, trim, trimStart_trimEnd hstart]
    _ = trim s := List.rdropWhile_idempotent isSpace (trimStart s)

theorem trim_subset (s : List Char) : trim s ⊆ s := by
  intro c hc
  have hstart : c ∈ trimStart s := (List.rdropWhile_prefix isSpace (trimStart s)).subset hc
  exact (List.dropWhile_suffix isSpace).subset hstart

/-- A text without white space has none to cut off. -/
theorem trim_eq_self {s : List Char} (h : ∀ c ∈ s, isSpace c = false) : trim s = s := by
  have hkeep : ∀ l : List Char, (∀ c ∈ l, isSpace c = false) → l.dropWhile isSpace = l := by
    intro l hl
    rw [List.dropWhile_eq_self_iff]
    intro hlt
    simp [hl _ (List.getElem_mem hlt)]
  have hreverse : ∀ c ∈ s.reverse, isSpace c = false := by
    intro c hc
    exact h c (List.mem_reverse.1 hc)
  rw [trim, trimStart, hkeep s h, trimEnd, hkeep s.reverse hreverse, List.reverse_reverse]

/-- Only white space is trimmed to nothing. -/
theorem isEmpty_trim_iff {s : List Char} :
    (trim s).isEmpty = true ↔ ∀ c ∈ s, isSpace c = true := by
  show (List.rdropWhile isSpace (trimStart s)).isEmpty = true ↔ _
  rw [List.isEmpty_iff, List.rdropWhile_eq_nil_iff]
  constructor
  · intro h
    by_contra hnot
    rw [← List.dropWhile_eq_nil_iff] at hnot
    -- what is left starts with a character that is no white space
    have hhead := List.head_dropWhile_not isSpace hnot
    rw [h _ (List.head_mem hnot)] at hhead
    contradiction
  · intro h c hc
    exact h c ((List.dropWhile_suffix isSpace).subset hc)

theorem trimStart_trim (s : List Char) : trimStart (trim s) = trim s :=
  trimStart_trimEnd (List.dropWhile_idempotent isSpace s)

/-- A character that is no white space keeps what stands before it. -/
theorem trimEnd_append_cons {c : Char} (hc : isSpace c = false) (s t : List Char) :
    trimEnd (s ++ c :: t) = s ++ c :: trimEnd t := by
  have hstop : (c :: s.reverse).dropWhile isSpace = c :: s.reverse :=
    List.dropWhile_cons_of_neg (by simp [hc])
  rw [trimEnd, trimEnd, List.reverse_append, List.reverse_cons, List.append_assoc,
    List.singleton_append, List.dropWhile_append, hstop]
  split <;> simp_all

/-- Between the start of a trimmed text and the last visible character nothing is cut off. -/
theorem trim_append_cons {r s t u : List Char} {c : Char} (h : trim r = s ++ u) (hs : s ≠ [])
    (hc : isSpace c = false) : trim (s ++ c :: t) = s ++ c :: trimEnd t := by
  have hstart : trimStart (s ++ c :: t) = s ++ c :: t := by
    have htrim := trimStart_trim r
    obtain ⟨d, s, rfl⟩ := List.exists_cons_of_ne_nil hs
    rw [h] at htrim
    by_cases hd : isSpace d = true
    · -- white space at the start would have been cut off already
      have hlength := congrArg List.length htrim
      rw [trimStart, List.cons_append, List.dropWhile_cons_of_pos hd] at hlength
      have hle := (List.dropWhile_suffix isSpace (l := s ++ u)).length_le
      simp only [List.length_cons] at hlength
      omega
    · rw [trimStart, List.cons_append, List.dropWhile_cons_of_neg hd]
  rw [trim, hstart, trimEnd_append_cons hc]

/-- White space around a text is cut off together with that in its ends. -/
theorem trim_surrounded {s t u : List Char} (hs : ∀ c ∈ s, isSpace c = true)
    (hu : ∀ c ∈ u, isSpace c = true) : trim (s ++ t ++ u) = trim t := by
  have hstart : trimStart (s ++ t ++ u) = trimStart (t ++ u) := by
    rw [trimStart, List.append_assoc, List.dropWhile_append_of_pos hs]
    rfl
  have hend : ∀ l, trimEnd (l ++ u) = trimEnd l := by
    intro l
    have hreverse : ∀ c ∈ u.reverse, isSpace c = true := by
      intro c hc
      exact hu c (List.mem_reverse.1 hc)
    rw [trimEnd, List.reverse_append, List.dropWhile_append_of_pos hreverse]
    rfl
  rw [trim, trim, hstart, trimStart, List.dropWhile_append]
  split
  · next hempty =>
    -- nothing is left of the text, and what comes behind it is white space as well
    have hnone : u.dropWhile isSpace = [] := List.dropWhile_eq_nil_iff.2 hu
    rw [hnone, trimStart, List.isEmpty_iff.1 hempty]
  · exact hend _

theorem trimmed_surrounded {s t u : String} (hs : ∀ c ∈ s.toList, isSpace c = true)
    (hu : ∀ c ∈ u.toList, isSpace c = true) : trimmed (s ++ t ++ u) = trimmed t := by
  rw [trimmed, String.toList_append, String.toList_append, trim_surrounded hs hu, trimmed]

@[simp] theorem trimmed_trimmed (s : String) : trimmed (trimmed s) = trimmed s := by
  simp [trimmed]

end Keybinding.Text
