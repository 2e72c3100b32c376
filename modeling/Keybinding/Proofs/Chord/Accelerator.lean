import Keybinding.Proofs.Chord.Printing
import Keybinding.Proofs.Text.Recasing

/-!
# Menu texts of chords that can be typed back

A menu shows the labels of the modifiers, the key in upper case, and `+` between them. This is a
spelling of the chord again, unless the key is a letter behind ASCII with an upper case: only
letters of ASCII are read in either case. Such a letter is then not found in the menu text at all
(`mem_label_of_read_accelerator`, `upper_eq_self_of_mem`).
-/

namespace Keybinding

open Text

/-- A key that is read back from its label: a character has to be one of ASCII or its own upper
case. -/
def Key.IsTypeable : Key → Prop
  | char c => c.toNat < 0x80 ∨ upper c = [c]
  | named _ => True
  | function _ => True

namespace Chord

/-! ## §1 The spelling in menus -/

/-- The label of a character that can be typed back is the character in another case at most. -/
theorem exists_label_of_isTypeable {c : Char} (hupper : c.isUpper = false)
    (h : (Key.char c).IsTypeable) :
    ∃ d, (Key.char c).label.toList = [d] ∧ AgreesUpToCase c d ∧ d.toLower = c := by
  have hself : c.toLower = c := toLower_eq_self_iff.2 (Bool.eq_false_iff.1 hupper)
  rcases h with hascii | hfixed
  · have hlabel : upper c = [c.toUpper] := by rw [upper, if_pos hascii]
    have hback : c.toUpper.toLower = c := by rw [toLower_toUpper, hself]
    have hlower : lower c.toUpper = [c] := by
      rw [lower, if_pos (toNat_toUpper_lt hascii), hback]
    exact ⟨c.toUpper, by simp [Key.label, hlabel], .inr (.inl ⟨hlabel, hlower⟩), hback⟩
  · exact ⟨c, by simp [Key.label, hfixed], .inl rfl, hself⟩

theorem toList_label_function (n : Nat) :
    (Key.function n).label.toList = 'F' :: Nat.toDigits 10 n := by
  rw [Key.label, Nat.toString_eq_ofList_toDigits]
  simp

/-- The label of a key that can be typed back is a part that means it. -/
theorem isKey_label {k : Key} (h : k.IsCanonical) (htypeable : k.IsTypeable) :
    IsKey k.label.toList k := by
  cases k with
  | char c =>
    obtain ⟨d, hlabel, hcase, hback⟩ := exists_label_of_isTypeable h.2.2 htypeable
    have hkey := IsKey.char (hcase.isSpace_eq ▸ h.1) (hcase.isControl_eq ▸ h.2.1)
    rwa [hback, ← hlabel] at hkey
  | named k => exact .named (by cases k <;> decide) (by cases k <;> decide +kernel)
  | function n =>
    rw [toList_label_function]
    exact isKey_function (by decide) h.1 h.2

/-- The spelling of a chord in menus. -/
def menuSpelling (c : Chord) : Spelling :=
  .joined Modifier.label '+' c.mods.toList c.key.label

theorem text_menuSpelling (c : Chord) : c.menuSpelling.text = c.accelerator.toList :=
  Spelling.text_joined Modifier.label '+' c.mods.toList c.key.label

theorem lowered_label_mem_names (m : Modifier) : lowered m.label.toList ∈ m.names := by
  cases m <;> decide +kernel

/-- **The menu text of a chord whose key can be typed back means the chord.** -/
theorem read_accelerator {c : Chord} (h : c.key.IsCanonical) (htypeable : c.key.IsTypeable) :
    read c.accelerator = .ok c :=
  read_of_means
    (Spelling.means_joined lowered_label_mem_names (by decide) (isKey_label h htypeable))
    (text_menuSpelling c)

/-! ## §2 Letters behind ASCII -/

theorem Spelling.mem_text_iff {w : Spelling} {d : Char} :
    d ∈ w.text ↔ (∃ p ∈ w.modifiers, d ∈ p.1 ∨ d = p.2) ∨ d ∈ w.key := by
  obtain ⟨ps, key⟩ := w
  induction ps with
  | nil => simp [text]
  | cons p ps ih =>
    rw [text_cons, List.mem_append, List.mem_cons, ih]
    simp [or_assoc]

/-- Labels of modifiers and separators are texts of ASCII. -/
theorem mem_label_of_mem_accelerator {c : Chord} {d : Char} (hascii : ¬ d.toNat < 0x80)
    (h : d ∈ c.accelerator.toList) : d ∈ c.key.label.toList := by
  have hlabels : ∀ m : Modifier, ∀ e ∈ m.label.toList, e.toNat < 0x80 := by
    intro m
    cases m <;> simp [Modifier.label]
  have hplus : '+'.toNat < 0x80 := by decide
  rw [← text_menuSpelling, Spelling.mem_text_iff] at h
  rcases h with ⟨p, hp, hmem⟩ | h
  · obtain ⟨m, -, rfl⟩ := List.mem_map.1 hp
    rcases hmem with hmem | rfl
    · exact absurd (hlabels m d hmem) hascii
    · exact absurd hplus hascii
  · exact h

/-- A character behind ASCII is read from a menu text only if its label holds it. -/
theorem mem_label_of_read_accelerator {c : Chord} {l : Char} (hkey : c.key = .char l)
    (hascii : ¬ l.toNat < 0x80) (h : read c.accelerator = .ok c) : l ∈ c.key.label.toList := by
  obtain ⟨w, htext, hmeans⟩ := read_eq_ok_iff.1 h
  -- the part of the key is the letter itself, and no modifier before it holds it
  have hpart : w.key = [l] := (hkey ▸ hmeans.key).eq_singleton hascii
  have hmem : l ∈ w.text := Spelling.mem_text_iff.2 (.inr (by simp [hpart]))
  rw [htext] at hmem
  exact mem_label_of_mem_accelerator hascii (trim_subset _ hmem)

theorem isTypeable_of_read_accelerator {c : Chord} (h : read c.accelerator = .ok c) :
    c.key.IsTypeable := by
  cases hkey : c.key with
  | char l =>
    by_cases hascii : l.toNat < 0x80
    · exact .inl hascii
    · have hmem := mem_label_of_read_accelerator hkey hascii h
      rw [hkey, Key.label, String.toList_ofList] at hmem
      exact .inr (upper_eq_self_of_mem hmem)
  | named k => exact trivial
  | function n => exact trivial

/-! ## §3 Typing menu texts -/

/-- **Which menu texts can be typed back.** A chord is read from its menu text again exactly when
its key can be written, and is no character, a character of ASCII, or its own upper case. Of the
chords that have been read, those are told apart by their menu texts whose keys are of this kind. -/
theorem read_accelerator_iff_typeable :
    (∀ c : Chord, read c.accelerator = .ok c ↔ c.key.IsCanonical ∧ c.key.IsTypeable) ∧
      (∀ text c, read text = .ok c → (read c.accelerator = .ok c ↔ c.key.IsTypeable)) ∧
        ∀ text text' c c', read text = .ok c → read text' = .ok c' → c.key.IsTypeable →
          c'.key.IsTypeable → c ≠ c' → c.accelerator ≠ c'.accelerator := by
  have hback : ∀ c : Chord, read c.accelerator = .ok c ↔ c.key.IsCanonical ∧ c.key.IsTypeable := by
    intro c
    constructor
    · exact fun h => ⟨isCanonical_of_read h, isTypeable_of_read_accelerator h⟩
    · rintro ⟨hcanonical, htypeable⟩
      exact read_accelerator hcanonical htypeable
  refine ⟨hback, ?_, ?_⟩
  · intro text c h
    rw [hback, and_iff_right (isCanonical_of_read h)]
  · intro text text' c c' h h' htypeable htypeable' hne haccelerator
    -- both chords are what their common menu text is read as
    have hread := (hback c).2 ⟨isCanonical_of_read h, htypeable⟩
    rw [haccelerator, (hback c').2 ⟨isCanonical_of_read h', htypeable'⟩] at hread
    exact hne (Except.ok.inj hread).symm

/-- A small letter of ASCII and a capital letter behind it can be typed back, the sharp `s` cannot:
its upper case are two letters. -/
theorem read_accelerator_iff_typeable_letters :
    read "Option-Shift-W" = .ok ⟨.char 'w', ⟨false, false, true, true⟩⟩ ∧
      read "ctrl-É" = .ok ⟨.char 'É', ⟨false, true, false, false⟩⟩ ∧
        read "ctrl-ß" = .ok ⟨.char 'ß', ⟨false, true, false, false⟩⟩ ∧
          read (accelerator ⟨.char 'É', ⟨false, true, false, false⟩⟩) =
              .ok ⟨.char 'É', ⟨false, true, false, false⟩⟩ ∧
            read (accelerator ⟨.char 'ß', ⟨false, true, false, false⟩⟩) ≠
                .ok ⟨.char 'ß', ⟨false, true, false, false⟩⟩ ∧
              accelerator ⟨.char 'w', ⟨false, false, true, true⟩⟩ ≠
                accelerator ⟨.char 'É', ⟨false, true, false, false⟩⟩ := by
  have hw : read "Option-Shift-W" = .ok ⟨.char 'w', ⟨false, false, true, true⟩⟩ := by
    decide +kernel
  have he : read "ctrl-É" = .ok ⟨.char 'É', ⟨false, true, false, false⟩⟩ := by
    decide +kernel
  have hs : read "ctrl-ß" = .ok ⟨.char 'ß', ⟨false, true, false, false⟩⟩ := by
    decide +kernel
  have hcapital : (Key.char 'É').IsTypeable := .inr (by decide +kernel)
  have hsharp : ¬ (Key.char 'ß').IsTypeable := by
    rintro (hascii | hfixed)
    · exact absurd hascii (by decide)
    · exact absurd hfixed (by decide +kernel)
  refine ⟨hw, he, hs, (read_accelerator_iff_typeable.2.1 _ _ he).2 hcapital, ?_, ?_⟩
  · exact fun h => hsharp ((read_accelerator_iff_typeable.2.1 _ _ hs).1 h)
  · exact read_accelerator_iff_typeable.2.2 _ _ _ _ hw he (.inl (by decide)) hcapital (by decide)

end Chord

end Keybinding
