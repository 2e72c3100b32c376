import Keybinding.Json.Basic
import Keybinding.Json.Reader
import Mathlib.Data.List.TakeWhile
import Mathlib.Data.Nat.Digits.Defs

/-!
# The grammar of JSON numbers

A number has an integer part, then a fraction and an exponent where they are written, and a minus
sign may stand in front of it. The reader takes as much of a text as makes up a number:

- `isNumber_of_numberToken?`: what it takes is a number of the grammar.
- `numberToken?_append`: a number is taken whole if the text after it cannot go on with it.

A natural number is written as a number without a sign, a fraction or an exponent, and its digits
tell its value (`natural?_toString`).
-/

namespace Keybinding.Json

/-! ## §1 The grammar -/

/-- Digits, of which there is at least one. -/
structure IsDigits (ds : List Char) : Prop where
  ne_nil : ds ≠ []
  isDigit : ∀ d ∈ ds, d.isDigit = true

/-- The integer part of a number. Only `0` itself starts with the digit zero. -/
inductive IsIntegerPart : List Char → Prop where
  | zero : IsIntegerPart ['0']
  | digits {ds : List Char} (h : IsDigits ds) (hzero : ds.head? ≠ some '0') : IsIntegerPart ds

/-- The fraction of a number, or nothing. -/
inductive IsFraction : List Char → Prop where
  | none : IsFraction []
  | digits {ds : List Char} (h : IsDigits ds) : IsFraction ('.' :: ds)

/-- The exponent of a number, or nothing. -/
inductive IsExponent : List Char → Prop where
  | none : IsExponent []
  | digits {mark : Char} {sign ds : List Char} (hmark : mark = 'e' ∨ mark = 'E')
    (hsign : sign ∈ [[], ['+'], ['-']]) (h : IsDigits ds) : IsExponent (mark :: sign ++ ds)

/-- A number without a sign in front. -/
inductive IsUnsigned : List Char → Prop where
  | parts {whole fraction exponent : List Char} (hwhole : IsIntegerPart whole)
    (hfraction : IsFraction fraction) (hexponent : IsExponent exponent) :
    IsUnsigned (whole ++ fraction ++ exponent)

/-- A number. -/
inductive IsNumber : List Char → Prop where
  | unsigned {u : List Char} (h : IsUnsigned u) : IsNumber u
  | negative {u : List Char} (h : IsUnsigned u) : IsNumber ('-' :: u)

variable {s r ds u : List Char}

/-! ## §2 Where a number ends -/

/-- The first character of a text, if there is one, is not of the given class. -/
def StartsNot (p : Char → Bool) (s : List Char) : Prop :=
  ∀ c ∈ s.head?, p c = false

/-- A character that can go on with a number. -/
def continuesNumber (c : Char) : Bool :=
  c.isDigit || c == '.' || c == 'e' || c == 'E'

theorem startsNot_nil {p : Char → Bool} : StartsNot p [] := nofun

theorem startsNot_cons {p : Char → Bool} {c : Char} (h : p c = false) : StartsNot p (c :: s) := by
  intro d hd
  obtain rfl := Option.some.inj hd
  exact h

theorem StartsNot.append {p : Char → Bool} (hs : StartsNot p s) (hr : StartsNot p r) :
    StartsNot p (s ++ r) := by
  cases s with
  | nil => exact hr
  | cons c s => exact hs

theorem StartsNot.mono {p q : Char → Bool} (h : StartsNot q s)
    (himp : ∀ c, p c = true → q c = true) : StartsNot p s := by
  intro c hc
  by_contra hp
  rw [Bool.not_eq_false] at hp
  have hq := himp c hp
  rw [h c hc] at hq
  contradiction

/-- A text that cannot go on with a number does not go on with digits. -/
theorem StartsNot.digit (h : StartsNot continuesNumber s) : StartsNot Char.isDigit s := by
  apply h.mono
  intro c hc
  simp [continuesNumber, hc]

theorem IsFraction.startsNot_digit (h : IsFraction s) : StartsNot Char.isDigit s := by
  cases h with
  | none => exact startsNot_nil
  | digits h => exact startsNot_cons (by decide)

/-- An exponent goes on neither with digits nor with a fraction. -/
theorem IsExponent.startsNot (h : IsExponent s) :
    StartsNot Char.isDigit s ∧ StartsNot (· == '.') s := by
  cases h with
  | none => exact ⟨startsNot_nil, startsNot_nil⟩
  | digits hmark hsign h =>
    rcases hmark with rfl | rfl
    · exact ⟨startsNot_cons (by decide), startsNot_cons (by decide)⟩
    · exact ⟨startsNot_cons (by decide), startsNot_cons (by decide)⟩

/-! ## §3 Reading the parts -/

theorem digits?_append (h : IsDigits ds) (hr : StartsNot Char.isDigit r) :
    digits? (ds ++ r) = some (ds, r) := by
  have htake : r.takeWhile Char.isDigit = [] := by
    cases r with
    | nil => rfl
    | cons c r => exact List.takeWhile_cons_of_neg (by simp [hr c rfl])
  have hdrop : r.dropWhile Char.isDigit = r := by
    have happend := List.takeWhile_append_dropWhile (p := Char.isDigit) (l := r)
    rwa [htake] at happend
  rw [digits?, List.takeWhile_append_of_pos h.isDigit, List.dropWhile_append_of_pos h.isDigit,
    htake, hdrop, List.append_nil]
  cases ds with
  | nil => exact absurd rfl h.ne_nil
  | cons d ds => rfl

theorem isDigits_of_digits? (h : digits? s = some (ds, r)) : IsDigits ds ∧ s = ds ++ r := by
  unfold digits? at h
  split at h
  · contradiction
  · next hne =>
    cases h
    refine ⟨⟨hne, fun d => List.mem_takeWhile_imp⟩, ?_⟩
    exact List.takeWhile_append_dropWhile.symm

theorem integerPart?_append (h : IsIntegerPart s) (hr : StartsNot Char.isDigit r) :
    integerPart? (s ++ r) = some (s, r) := by
  cases h with
  | zero => rfl
  | digits h hzero =>
    cases s with
    | nil => exact absurd rfl h.ne_nil
    | cons d ds =>
      have hd : d ≠ '0' := fun he => hzero (congrArg some he)
      -- the case of a leading zero is ruled out
      have hread : integerPart? (d :: (ds ++ r)) = digits? (d :: (ds ++ r)) := by
        rw [integerPart?]
        intro rest he
        exact hd (List.cons.inj he).1
      rw [List.cons_append, hread]
      exact digits?_append h hr

theorem isIntegerPart_of_integerPart? (h : integerPart? s = some (ds, r)) :
    IsIntegerPart ds ∧ s = ds ++ r := by
  unfold integerPart? at h
  split at h
  · cases h
    exact ⟨.zero, rfl⟩
  · next hne =>
    obtain ⟨hdigits, rfl⟩ := isDigits_of_digits? h
    refine ⟨.digits hdigits ?_, rfl⟩
    intro hhead
    obtain ⟨ds, rfl⟩ := List.head?_eq_some_iff.1 hhead
    exact hne (ds ++ r) rfl

theorem fraction?_append (h : IsFraction s) (hr : StartsNot Char.isDigit r)
    (hdot : StartsNot (· == '.') r) : fraction? (s ++ r) = some (s, r) := by
  cases h with
  | none =>
    rw [List.nil_append, fraction?]
    rintro rest rfl
    exact absurd (hdot '.' rfl) (by decide)
  | digits h => rw [List.cons_append, fraction?, digits?_append h hr, Option.map_some]

theorem isFraction_of_fraction? (h : fraction? s = some (u, r)) : IsFraction u ∧ s = u ++ r := by
  unfold fraction? at h
  split at h
  · obtain ⟨⟨ds, rest⟩, hread, hp⟩ := Option.map_eq_some_iff.1 h
    obtain ⟨hdigits, rfl⟩ := isDigits_of_digits? hread
    cases hp
    exact ⟨.digits hdigits, rfl⟩
  · cases h
    exact ⟨.none, rfl⟩

theorem sign_append {sg : List Char} (h : sg ∈ [[], ['+'], ['-']]) (hds : IsDigits ds) :
    sign (sg ++ (ds ++ r)) = (sg, ds ++ r) := by
  obtain ⟨d, ds, rfl⟩ := List.exists_cons_of_ne_nil hds.ne_nil
  have hd := hds.isDigit d List.mem_cons_self
  simp only [List.mem_cons, List.not_mem_nil, or_false] at h
  rcases h with rfl | rfl | rfl
  · -- a digit is no sign
    show sign (d :: (ds ++ r)) = ([], d :: (ds ++ r))
    rw [sign]
    · rintro rest he
      rw [(List.cons.inj he).1] at hd
      exact absurd hd (by decide)
    · rintro rest he
      rw [(List.cons.inj he).1] at hd
      exact absurd hd (by decide)
  · rfl
  · rfl

theorem append_of_sign (s : List Char) :
    (sign s).1 ∈ [[], ['+'], ['-']] ∧ s = (sign s).1 ++ (sign s).2 := by
  unfold sign
  split <;> simp

theorem exponent?_append (h : IsExponent s) (hr : StartsNot continuesNumber r) :
    exponent? (s ++ r) = some (s, r) := by
  cases h with
  | none =>
    cases r with
    | nil => rfl
    | cons c r =>
      have hc := hr c rfl
      simp only [continuesNumber, Bool.or_eq_false_iff] at hc
      simp [exponent?, hc]
  | @digits mark sg ds hmark hsign h =>
    have hif : (mark == 'e' || mark == 'E') = true := by
      rcases hmark with rfl | rfl <;> rfl
    have hsplit : mark :: sg ++ ds ++ r = mark :: (sg ++ (ds ++ r)) := by simp
    rw [hsplit, exponent?, if_pos hif, sign_append hsign h]
    simp [digits?_append h hr.digit]

theorem isExponent_of_exponent? (h : exponent? s = some (u, r)) : IsExponent u ∧ s = u ++ r := by
  cases s with
  | nil =>
    cases h
    exact ⟨.none, rfl⟩
  | cons c rest =>
    rw [exponent?] at h
    split at h
    · next hmark =>
      obtain ⟨hsign, hsplit⟩ := append_of_sign rest
      generalize sign rest = signed at h hsign hsplit
      obtain ⟨sg, rest'⟩ := signed
      obtain ⟨⟨ds, r'⟩, hread, hp⟩ := Option.map_eq_some_iff.1 h
      obtain ⟨hdigits, rfl⟩ := isDigits_of_digits? hread
      cases hp
      refine ⟨.digits (by simpa using hmark) hsign hdigits, ?_⟩
      simpa using hsplit
    · cases h
      exact ⟨.none, rfl⟩

/-! ## §4 Reading a number -/

theorem unsigned?_append (h : IsUnsigned u) (hr : StartsNot continuesNumber r) :
    unsigned? (u ++ r) = some (u, r) := by
  obtain @⟨whole, fraction, exponent, hwhole, hfraction, hexponent⟩ := h
  obtain ⟨hdigit, hdot⟩ := hexponent.startsNot
  -- each part ends where the next one that is written starts
  have hrdot : StartsNot (· == '.') r := by
    apply hr.mono
    intro c hc
    simp [continuesNumber, hc]
  have hafter : StartsNot Char.isDigit (exponent ++ r) := hdigit.append hr.digit
  have hwhole' := integerPart?_append hwhole (hfraction.startsNot_digit.append hafter)
  have hfraction' := fraction?_append hfraction hafter (hdot.append hrdot)
  have hexponent' := exponent?_append hexponent hr
  simp [unsigned?, List.append_assoc, hwhole', hfraction', hexponent']

theorem isUnsigned_of_unsigned? (h : unsigned? s = some (u, r)) : IsUnsigned u ∧ s = u ++ r := by
  obtain ⟨⟨whole, afterWhole⟩, hreadWhole, h⟩ := Option.bind_eq_some_iff.1 h
  obtain ⟨⟨fraction, afterFraction⟩, hreadFraction, h⟩ := Option.bind_eq_some_iff.1 h
  obtain ⟨⟨exponent, rest⟩, hreadExponent, h⟩ := Option.bind_eq_some_iff.1 h
  obtain ⟨rfl, rfl⟩ := Prod.mk.inj (Option.some.inj h)
  obtain ⟨hwhole, rfl⟩ := isIntegerPart_of_integerPart? hreadWhole
  obtain ⟨hfraction, rfl⟩ := isFraction_of_fraction? hreadFraction
  obtain ⟨hexponent, rfl⟩ := isExponent_of_exponent? hreadExponent
  exact ⟨.parts hwhole hfraction hexponent, by simp⟩

/-- A number without a sign starts with a digit. -/
theorem IsUnsigned.exists_cons (h : IsUnsigned u) : ∃ d rest, u = d :: rest ∧ d.isDigit = true := by
  obtain ⟨hwhole, hfraction, hexponent⟩ := h
  cases hwhole with
  | zero => exact ⟨_, _, rfl, by decide⟩
  | digits h hzero =>
    obtain ⟨d, ds, rfl⟩ := List.exists_cons_of_ne_nil h.ne_nil
    exact ⟨d, _, rfl, h.isDigit d List.mem_cons_self⟩

theorem numberToken?_append (h : IsNumber u) (hr : StartsNot continuesNumber r) :
    numberToken? (u ++ r) = some (.number (String.ofList u), r) := by
  cases h with
  | unsigned h =>
    have hread := unsigned?_append h hr
    obtain ⟨d, rest, rfl, hd⟩ := h.exists_cons
    -- what starts with a digit does not start with a minus
    have hminus : numberToken? (d :: rest ++ r) =
        (unsigned? (d :: rest ++ r)).map fun p => (.number (String.ofList p.1), p.2) := by
      rw [List.cons_append, numberToken?]
      rintro rest he
      rw [(List.cons.inj he).1] at hd
      exact absurd hd (by decide)
    rw [hminus, hread, Option.map_some]
  | negative h => rw [List.cons_append, numberToken?, unsigned?_append h hr, Option.map_some]

theorem isNumber_of_numberToken? {t : Token} (h : numberToken? s = some (t, r)) :
    ∃ u, t = .number (String.ofList u) ∧ IsNumber u ∧ s = u ++ r := by
  unfold numberToken? at h
  split at h
  · obtain ⟨⟨u, rest⟩, hread, hp⟩ := Option.map_eq_some_iff.1 h
    obtain ⟨hunsigned, rfl⟩ := isUnsigned_of_unsigned? hread
    cases hp
    exact ⟨_, rfl, .negative hunsigned, rfl⟩
  · obtain ⟨⟨u, rest⟩, hread, hp⟩ := Option.map_eq_some_iff.1 h
    obtain ⟨hunsigned, rfl⟩ := isUnsigned_of_unsigned? hread
    cases hp
    exact ⟨_, rfl, .unsigned hunsigned, rfl⟩

/-! ## §5 Natural numbers -/

/-- The digits of a positive number do not start with zero. -/
theorem head?_toDigits {n : Nat} (h : 0 < n) : (Nat.toDigits 10 n).head? ≠ some '0' := by
  -- the first digit of a number of several digits is that of a tenth of it
  induction n using Nat.strong_induction_on with
  | h n ih =>
    by_cases hlt : n < 10
    · rw [Nat.toDigits_of_lt_base hlt, List.head?_cons]
      have hsmall : ∀ m < 10, 0 < m → some (Nat.digitChar m) ≠ some '0' := by decide
      exact hsmall n hlt h
    · have hshorter := ih (n / 10) (by omega) (by omega)
      rw [Nat.toDigits_of_base_le (by omega) (by omega)]
      have hne : Nat.toDigits 10 (n / 10) ≠ [] := Nat.toDigits_ne_nil
      obtain ⟨d, ds, hds⟩ := List.exists_cons_of_ne_nil hne
      rw [hds] at hshorter ⊢
      exact hshorter

theorem isNumber_toString (n : Nat) : IsNumber (toString n).toList := by
  rw [Nat.toString_eq_ofList_toDigits, String.toList_ofList]
  have hwhole : IsIntegerPart (Nat.toDigits 10 n) := by
    rcases Nat.eq_zero_or_pos n with rfl | hpos
    · exact .zero
    · have hdigits : IsDigits (Nat.toDigits 10 n) := by
        refine ⟨Nat.toDigits_ne_nil, fun d hd => ?_⟩
        exact Nat.isDigit_of_mem_toDigits (by omega) (by omega) hd
      exact .digits hdigits (head?_toDigits hpos)
  have hparts := IsUnsigned.parts hwhole .none .none
  rw [List.append_nil, List.append_nil] at hparts
  exact .unsigned hparts

/-- A natural number is read back from its digits. -/
theorem natural?_toString (n : Nat) : (number (toString n)).natural? = some n := by
  have hdigits : (Nat.toDigits 10 n).all Char.isDigit = true := by
    rw [List.all_eq_true]
    intro d hd
    exact Nat.isDigit_of_mem_toDigits (by omega) (by omega) hd
  have hvalue : digitsValue (Nat.toDigits 10 n) = n := by
    rw [digitsValue, ← Nat.ofDigitChars_eq_foldl, Nat.ofDigitChars_ten_toDigits]
  rw [natural?, Nat.toString_eq_ofList_toDigits, String.toList_ofList, if_pos hdigits, hvalue]

end Keybinding.Json
