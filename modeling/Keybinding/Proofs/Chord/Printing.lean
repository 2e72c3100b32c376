import Keybinding.Proofs.Chord.Reading
import Keybinding.Proofs.Text.Basic

/-!
# Printing and reading chords

The printed form of a chord is one of its spellings, as long as its key can be written at all: a
character has to be visible and in lower case, and the number of a function key lies between 1 and
24. Reading gives such keys only, and so what has been read is printed in a way that reads back.
-/

namespace Keybinding

open Text

/-! ## §1 Keys that can be written -/

/-- A key that a text can mean: a visible character that is no capital letter of ASCII, a named key,
or one of the function keys from 1 to 24. -/
def Key.IsCanonical : Key → Prop
  | char c => isSpace c = false ∧ isControl c = false ∧ c.isUpper = false
  | named _ => True
  | function n => 1 ≤ n ∧ n ≤ 24

namespace Chord

theorem isCanonical_toLower {c : Char} (hspace : isSpace c = false)
    (hcontrol : isControl c = false) : (Key.char c.toLower).IsCanonical := by
  refine ⟨?_, ?_, Bool.eq_false_iff.2 (not_isUpper_toLower c)⟩
  all_goals
    by_cases hupper : c.isUpper = true
    · -- the small letter lies among the other letters of ASCII
      have hrange := isUpper_iff.1 hupper
      have hmoved : c.toLower.toNat = c.toNat + 32 := by rw [toNat_toLower, if_pos hrange]
      simp [isSpace, isControl, hmoved]
      omega
    · rw [toLower_eq_self_iff.2 hupper]
      assumption

theorem isCanonical_of_mem_names {s : String} {k : Key} (h : s ∈ k.names) : k.IsCanonical := by
  unfold Key.names at h
  split at h
  all_goals first
    | exact trivial
    | exact ⟨by decide, by decide, by decide⟩
    | contradiction

/-- **A key that a part means can be written.** -/
theorem IsKey.isCanonical {part : List Char} {k : Key} (h : IsKey part k) : k.IsCanonical := by
  cases h with
  | char hspace hcontrol => exact isCanonical_toLower hspace hcontrol
  | named _ hname => exact isCanonical_of_mem_names hname
  | function _ _ _ _ _ hlo hhi => exact ⟨hlo, hhi⟩

/-! ## §2 The printed spelling -/

theorem toList_display_function (n : Nat) :
    (Key.function n).display.toList = 'f' :: Nat.toDigits 10 n := by
  rw [Key.display, Nat.toString_eq_ofList_toDigits]
  simp

/-- A function key is written as its number behind an `f` of either case. -/
theorem isKey_function {first : Char} (hfirst : lower first = ['f']) {n : Nat} (hlo : 1 ≤ n)
    (hhi : n ≤ 24) : IsKey (first :: Nat.toDigits 10 n) (.function n) := by
  have hdigits : ∀ d ∈ Nat.toDigits 10 n, d.isDigit = true := by
    intro d hd
    exact Nat.isDigit_of_mem_toDigits (by omega) (by omega) hd
  -- digits are their own lower case, so that the number is read as it is printed
  have hname : lowered (first :: Nat.toDigits 10 n) = String.ofList ('f' :: Nat.toDigits 10 n) := by
    rw [lowered, List.flatMap_cons, hfirst,
      flatMap_lower_eq_self fun d hd => lower_of_isDigit (hdigits d hd)]
    rfl
  have hlong : 1 < (first :: Nat.toDigits 10 n).length := by
    have hpos := List.length_pos_of_ne_nil (Nat.toDigits_ne_nil (n := n) (b := 10))
    rw [List.length_cons]
    omega
  exact .function hlong hname Nat.toDigits_ne_nil hdigits Nat.ofDigitChars_ten_toDigits hlo hhi

/-- A key is printed as a part that means it. -/
theorem isKey_display {k : Key} (h : k.IsCanonical) : IsKey k.display.toList k := by
  cases k with
  | char c =>
    rcases h with ⟨hspace, hcontrol, hupper⟩
    have hself : c.toLower = c := toLower_eq_self_iff.2 (Bool.eq_false_iff.1 hupper)
    have hkey := IsKey.char hspace hcontrol
    rw [hself] at hkey
    simpa [Key.display] using hkey
  | named k => exact .named (by cases k <;> decide) (by cases k <;> decide +kernel)
  | function n =>
    rw [toList_display_function]
    exact isKey_function (by decide) h.1 h.2

/-- Names of modifiers, each with a separator behind it, and a key. -/
def Spelling.joined (name : Modifier → String) (sep : Char) (ms : List Modifier) (key : String) :
    Spelling :=
  ⟨ms.map fun m => ((name m).toList, sep), key.toList⟩

theorem Spelling.text_joined (name : Modifier → String) (sep : Char) (ms : List Modifier)
    (key : String) : (joined name sep ms key).text =
      (String.intercalate (String.singleton sep) (ms.map name ++ [key])).toList := by
  induction ms with
  | nil => simp [joined, Spelling.text]
  | cons m ms ih =>
    -- something stands behind the modifier in any case, so that a separator comes between
    have hbehind : ms.map name ++ [key] ≠ [] := by simp
    rw [joined, List.map_cons, Spelling.text_cons, ← joined, ih, List.map_cons, List.cons_append,
      String.intercalate_cons_of_ne_nil hbehind]
    simp

theorem Spelling.names_joined {name : Modifier → String} {sep : Char}
    (hname : ∀ m, lowered (name m).toList ∈ m.names) (hsep : isSeparator sep = true)
    (ms : List Modifier) (key : String) : (joined name sep ms key).Names ms := by
  rw [Names, joined, List.forall₂_map_left_iff, List.forall₂_same]
  exact fun m _ => ⟨hname m, hsep⟩

/-- The modifiers of a chord in order, by whatever names, are spelled before its key. -/
theorem Spelling.means_joined {name : Modifier → String} {sep : Char}
    (hname : ∀ m, lowered (name m).toList ∈ m.names) (hsep : isSeparator sep = true) {c : Chord}
    {key : String} (hkey : IsKey key.toList c.key) :
    (joined name sep c.mods.toList key).Means c := by
  refine ⟨⟨c.mods.toList, names_joined hname hsep _ _, ?_, ?_⟩, hkey⟩
  · have hall : Modifier.all.Nodup := by decide
    exact hall.filter _
  · intro m
    have hm : m ∈ Modifier.all := by cases m <;> decide
    simp [Modifiers.toList, hm]

/-- The spelling that a chord is printed in. -/
def spelling (c : Chord) : Spelling :=
  ⟨c.mods.toList.map fun m => (m.name.toList, '-'), c.key.display.toList⟩

theorem text_spelling (c : Chord) : c.spelling.text = c.display.toList :=
  Spelling.text_joined Modifier.name '-' c.mods.toList c.key.display

theorem lowered_name_mem_names (m : Modifier) : lowered m.name.toList ∈ m.names := by
  cases m <;> decide +kernel

/-- **The printed form of a chord means it.** -/
theorem means_spelling {c : Chord} (h : c.key.IsCanonical) : c.spelling.Means c :=
  Spelling.means_joined lowered_name_mem_names (by decide) (isKey_display h)

theorem isSpace_of_mem_display {c : Chord} (h : c.key.IsCanonical) :
    ∀ d ∈ c.display.toList, isSpace d = false := by
  rw [← text_spelling]
  exact (means_spelling h).isSpace_of_mem_text

/-! ## §3 Reading what is printed -/

/-- A text that a spelling makes up is read as what the spelling means. -/
theorem read_of_means {w : Spelling} {c : Chord} {text : String} (h : w.Means c)
    (htext : w.text = text.toList) : read text = .ok c := by
  refine read_eq_ok_iff.2 ⟨w, ?_, h⟩
  rw [← htext, trim_eq_self h.isSpace_of_mem_text]

theorem read_display {c : Chord} (h : c.key.IsCanonical) : read c.display = .ok c :=
  read_of_means (means_spelling h) (text_spelling c)

theorem isCanonical_of_read {text : String} {c : Chord} (h : read text = .ok c) :
    c.key.IsCanonical := by
  rcases read_eq_ok_iff.1 h with ⟨w, -, hmeans⟩
  exact hmeans.key.isCanonical

theorem readsBack_iff_isCanonical {c : Chord} : c.readsBack = true ↔ c.key.IsCanonical :=
  readsBack_iff.trans ⟨isCanonical_of_read, read_display⟩

theorem readsBack_of_read {text : String} {c : Chord} (h : read text = .ok c) :
    c.readsBack = true :=
  readsBack_iff_isCanonical.2 (isCanonical_of_read h)

/-- Chords that can be written are told apart by their printed forms. -/
theorem display_eq_iff {c d : Chord} (hc : c.key.IsCanonical) (hd : d.key.IsCanonical) :
    c.display = d.display ↔ c = d := by
  refine ⟨?_, congrArg display⟩
  -- both chords are what their common printed form is read as
  intro hdisplay
  have hread : read c.display = .ok c := read_display hc
  rw [hdisplay, read_display hd] at hread
  exact (Except.ok.inj hread).symm

/-- **Printing and reading chords are inverse.** A chord is read back from its printed form exactly
when its key can be written. Each chord that has been read is of this kind, and the printed forms of
such chords tell them apart. -/
theorem read_display_iff_canonical :
    (∀ c : Chord, read c.display = .ok c ↔ c.key.IsCanonical) ∧
      (∀ text c, read text = .ok c → c.key.IsCanonical ∧ read c.display = .ok c) ∧
        ∀ text text' c c', read text = .ok c → read text' = .ok c' →
          (c.display = c'.display ↔ c = c') := by
  refine ⟨?_, ?_, ?_⟩
  · intro c
    exact ⟨isCanonical_of_read, read_display⟩
  · intro text c h
    have hkey := isCanonical_of_read h
    exact ⟨hkey, read_display hkey⟩
  · intro text text' c c' h h'
    exact display_eq_iff (isCanonical_of_read h) (isCanonical_of_read h')

/-- The plus key has a name, and is printed as the character behind a separator. -/
theorem read_display_iff_canonical_plus :
    read "Shift+Command-PLUS" = .ok ⟨.char '+', ⟨true, false, false, true⟩⟩ ∧
      read "super--" = .ok ⟨.char '-', ⟨true, false, false, false⟩⟩ ∧
        read (display ⟨.char '+', ⟨true, false, false, true⟩⟩) =
            .ok ⟨.char '+', ⟨true, false, false, true⟩⟩ ∧
          display ⟨.char '+', ⟨true, false, false, true⟩⟩ ≠
            display ⟨.char '-', ⟨true, false, false, false⟩⟩ := by
  have hplus : read "Shift+Command-PLUS" = .ok ⟨.char '+', ⟨true, false, false, true⟩⟩ := by
    decide +kernel
  have hminus : read "super--" = .ok ⟨.char '-', ⟨true, false, false, false⟩⟩ := by
    decide +kernel
  refine ⟨hplus, hminus, (read_display_iff_canonical.2.1 _ _ hplus).2, ?_⟩
  rw [Ne, read_display_iff_canonical.2.2 _ _ _ _ hplus hminus]
  decide

end Chord

end Keybinding
