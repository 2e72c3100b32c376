import Keybinding.Chord.Reader
import Keybinding.Proofs.Text.Case
import Mathlib.Data.List.Forall2

/-!
# How chords are spelled

A chord is spelled as any number of modifiers, each with a separator behind it, and a key. Modifiers
and keys go by names that are compared in lower case, and a single character is a key of its own,
the separators among them.

No part of a spelling has a separator behind its first character, and therefore a text has one
spelling at most (`Spelling.eq_of_text_eq`).
-/

namespace Keybinding

open Text

/-! ## §1 Names -/

/-- The names of a modifier in lower case. -/
def Modifier.names : Modifier → List String
  | cmd => ["cmd", "command", "meta", "super"]
  | ctrl => ["ctrl", "control", "mod", "cmdorctrl", "cmdorcontrol"]
  | alt => ["alt", "option", "opt"]
  | shift => ["shift"]

/-- The names of a key in lower case. Function keys go by their numbers, and of the characters only
a few have names. -/
def Key.names : Key → List String
  | named .enter => ["enter", "return"]
  | named .escape => ["escape", "esc"]
  | named .tab => ["tab"]
  | named .backspace => ["backspace"]
  | named .delete => ["delete", "del"]
  | named .space => ["space"]
  | named .up => ["up", "arrowup"]
  | named .down => ["down", "arrowdown"]
  | named .left => ["left", "arrowleft"]
  | named .right => ["right", "arrowright"]
  | named .home => ["home"]
  | named .end => ["end"]
  | named .pageUp => ["pageup", "pgup"]
  | named .pageDown => ["pagedown", "pgdown", "pgdn"]
  | char '-' => ["minus"]
  | char '+' => ["plus"]
  | char '=' => ["equal", "equals"]
  | char '\x60' => ["backquote", "backtick"]
  | char _ => []
  | function _ => []

theorem Modifier.named?_eq_some_iff {s : String} {m : Modifier} :
    Modifier.named? s = some m ↔ s ∈ m.names := by
  constructor
  · intro h
    unfold Modifier.named? at h
    split at h <;> cases h <;> decide
  · intro h
    cases m <;> simp only [Modifier.names, List.mem_cons, List.not_mem_nil, or_false] at h
    all_goals
      rcases h with rfl | rfl | rfl | rfl | rfl <;> rfl

theorem Key.named?_eq_some_iff {s : String} {k : Key} :
    Key.named? s = some k ↔ s ∈ k.names := by
  constructor
  · intro h
    unfold Key.named? at h
    split at h <;> cases h <;> decide
  · intro h
    unfold Key.names at h
    split at h <;> simp only [List.mem_cons, List.not_mem_nil, or_false] at h
    all_goals
      rcases h with rfl | rfl | rfl <;> rfl

namespace Chord

theorem isSeparator_iff {c : Char} : isSeparator c = true ↔ c = '-' ∨ c = '+' := by
  simp [isSeparator]

/-- A text without separators. -/
def IsPlain (s : List Char) : Prop :=
  ∀ c ∈ s, isSeparator c = false

instance (s : List Char) : Decidable (IsPlain s) :=
  decidable_of_iff (s.all (!isSeparator ·) = true) (by simp [IsPlain])

theorem isPlain_of_mem_modifierNames {m : Modifier} :
    ∀ s ∈ m.names, s ≠ "" ∧ IsPlain s.toList := by
  cases m <;> decide +kernel

theorem isPlain_of_mem_keyNames {k : Key} : ∀ s ∈ k.names, IsPlain s.toList := by
  unfold Key.names
  split <;> decide +kernel

/-- A separator is not made or lost by putting a text into lower case. -/
theorem isPlain_of_lowered {s : List Char} (h : IsPlain (lowered s).toList) : IsPlain s := by
  intro c hc
  by_contra hsep
  rw [Bool.not_eq_false] at hsep
  have hlower : lower c = [c] := by
    rcases isSeparator_iff.1 hsep with rfl | rfl <;> decide
  have hplain := h c (mem_lowered hlower hc)
  rw [hsep] at hplain
  contradiction

/-! ## §2 Parts -/

/-- The key that a part of a spelling means: a character that can be seen, a name, or `f` and a
number from 1 to 24. -/
inductive IsKey : List Char → Key → Prop where
  | char {c : Char} (hspace : isSpace c = false) (hcontrol : isControl c = false) :
    IsKey [c] (.char c.toLower)
  | named {part : List Char} {k : Key} (hlong : 1 < part.length) (hname : lowered part ∈ k.names) :
    IsKey part k
  | function {part ds : List Char} {n : Nat} (hlong : 1 < part.length)
    (hname : lowered part = String.ofList ('f' :: ds)) (hne : ds ≠ [])
    (hdigits : ∀ d ∈ ds, d.isDigit = true) (hvalue : Nat.ofDigitChars 10 ds 0 = n)
    (hlo : 1 ≤ n) (hhi : n ≤ 24) : IsKey part (.function n)

/-- A character behind ASCII has no name but itself. -/
theorem IsKey.eq_singleton {part : List Char} {c : Char} (h : IsKey part (.char c))
    (hascii : ¬ c.toNat < 0x80) : part = [c] := by
  generalize hk : Key.char c = k at h
  cases h with
  | @char d _ _ =>
    obtain rfl := Key.char.inj hk
    rw [toNat_toLower_lt_iff] at hascii
    rw [toLower_eq_self hascii]
  | named _ hname =>
    subst hk
    unfold Key.names at hname
    split at hname
    all_goals first
      | contradiction
      | next heq =>
        obtain rfl := Key.char.inj heq
        exact absurd (by decide) hascii
  | function => contradiction

/-- No separator stands behind the first character of a text. -/
def IsPart (s : List Char) : Prop :=
  ∃ c rest, s = c :: rest ∧ IsPlain rest

theorem IsPlain.isPart {s : List Char} (h : IsPlain s) (hne : s ≠ []) : IsPart s := by
  cases s with
  | nil => contradiction
  | cons c rest => exact ⟨c, rest, rfl, fun d hd => h d (List.mem_cons_of_mem c hd)⟩

theorem isPart_of_modifier {part : List Char} {m : Modifier} (h : lowered part ∈ m.names) :
    IsPart part := by
  rcases isPlain_of_mem_modifierNames _ h with ⟨hne, hplain⟩
  apply (isPlain_of_lowered hplain).isPart
  rintro rfl
  exact hne rfl

theorem IsKey.isPart {part : List Char} {k : Key} (h : IsKey part k) : IsPart part := by
  cases h with
  | @char c _ _ => exact ⟨c, [], rfl, by simp [IsPlain]⟩
  | named hlong hname =>
    apply (isPlain_of_lowered (isPlain_of_mem_keyNames _ hname)).isPart
    rintro rfl
    contradiction
  | @function _ ds _ hlong hname _ hdigits _ _ _ =>
    have hplain : IsPlain (lowered part).toList := by
      rw [hname, String.toList_ofList]
      intro c hc
      rcases List.mem_cons.1 hc with rfl | hc
      · decide
      · -- digits and separators differ in their numbers
        by_contra hsep
        rw [Bool.not_eq_false, isSeparator_iff] at hsep
        have hdigit := hdigits c hc
        rcases hsep with rfl | rfl <;> contradiction
    apply (isPlain_of_lowered hplain).isPart
    rintro rfl
    contradiction

/-- A part has no modifier to split off. -/
theorem splitModifier?_of_isPart {s : List Char} (h : IsPart s) : splitModifier? s = none := by
  rcases h with ⟨c, rest, rfl, hplain⟩
  have hdrop : rest.dropWhile (!isSeparator ·) = [] := by
    rw [List.dropWhile_eq_nil_iff]
    intro d hd
    simp [hplain d hd]
  rw [splitModifier?, hdrop]

/-- A part is split off at the separator behind it. -/
theorem splitModifier?_append {part after : List Char} {sep : Char} (h : IsPart part)
    (hsep : isSeparator sep = true) :
    splitModifier? (part ++ sep :: after) = some (part, after) := by
  rcases h with ⟨c, rest, rfl, hplain⟩
  have hpass : ∀ d ∈ rest, (!isSeparator d) = true := by
    intro d hd
    simp [hplain d hd]
  -- the scan starts behind the first character, and stops at the separator
  have hdrop : (rest ++ sep :: after).dropWhile (!isSeparator ·) = sep :: after := by
    rw [List.dropWhile_append_of_pos hpass]
    simp [hsep]
  have htake : (rest ++ sep :: after).takeWhile (!isSeparator ·) = rest := by
    rw [List.takeWhile_append_of_pos hpass]
    simp [hsep]
  rw [List.cons_append, splitModifier?, hdrop, htake]

/-! ## §3 Spellings -/

/-- A writing of a chord in parts. -/
structure Spelling where
  /-- The names of modifiers, each with the separator behind it. -/
  modifiers : List (List Char × Char)
  key : List Char

namespace Spelling

/-- The text that a spelling makes up. -/
def text (w : Spelling) : List Char :=
  w.modifiers.foldr (fun p rest => p.1 ++ p.2 :: rest) w.key

/-- The parts before the key are names of these modifiers, with separators behind them. -/
def Names (w : Spelling) (ms : List Modifier) : Prop :=
  List.Forall₂ (fun p m => lowered p.1 ∈ m.names ∧ isSeparator p.2 = true) w.modifiers ms

/-- A spelling means a chord: it names each modifier of the chord once, and the key. -/
structure Means (w : Spelling) (c : Chord) : Prop where
  modifiers : ∃ ms, w.Names ms ∧ ms.Nodup ∧ ∀ m, c.mods.has m = true ↔ m ∈ ms
  key : IsKey w.key c.key

/-- Each part is one that the reader takes whole. -/
structure IsParted (w : Spelling) : Prop where
  modifiers : ∀ p ∈ w.modifiers, IsPart p.1 ∧ isSeparator p.2 = true
  key : IsPart w.key

theorem Names.isParted {w : Spelling} {ms : List Modifier} {k : Key} (hnames : w.Names ms)
    (hkey : IsKey w.key k) : w.IsParted := by
  refine ⟨?_, hkey.isPart⟩
  intro p hp
  rcases List.forall₂_iff_get.1 hnames with ⟨hlen, hget⟩
  rcases List.mem_iff_get.1 hp with ⟨i, rfl⟩
  rcases hget i i.isLt (hlen ▸ i.isLt) with ⟨hname, hsep⟩
  exact ⟨isPart_of_modifier hname, hsep⟩

theorem Means.isParted {w : Spelling} {c : Chord} (h : w.Means c) : w.IsParted := by
  rcases h.modifiers with ⟨ms, hnames, -, -⟩
  exact hnames.isParted h.key

theorem text_cons (p : List Char × Char) (ps : List (List Char × Char)) (key : List Char) :
    text ⟨p :: ps, key⟩ = p.1 ++ p.2 :: text ⟨ps, key⟩ := rfl

theorem IsParted.text_ne_nil {w : Spelling} (h : w.IsParted) : w.text ≠ [] := by
  obtain ⟨ps, key⟩ := w
  cases ps with
  | nil =>
    rcases h.key with ⟨c, rest, hkey, -⟩
    obtain rfl : key = c :: rest := hkey
    exact List.cons_ne_nil c rest
  | cons p ps => simp [text_cons]

/-- The first modifier of a spelling, and the text that comes after it. -/
def front? (w : Spelling) : Option (List Char × List Char) :=
  w.modifiers.head?.map fun p => (p.1, text ⟨w.modifiers.tail, w.key⟩)

theorem splitModifier?_text {w : Spelling} (h : w.IsParted) : splitModifier? w.text = w.front? := by
  obtain ⟨ps, key⟩ := w
  cases ps with
  | nil => exact splitModifier?_of_isPart h.key
  | cons p ps =>
    rcases h.modifiers p List.mem_cons_self with ⟨hpart, hsep⟩
    exact splitModifier?_append hpart hsep

theorem front?_eq_of_text_eq {w w' : Spelling} (h : w.IsParted) (h' : w'.IsParted)
    (htext : w.text = w'.text) : w.front? = w'.front? := by
  rw [← splitModifier?_text h, ← splitModifier?_text h', htext]

theorem IsParted.tail {p : List Char × Char} {ps : List (List Char × Char)} {key : List Char}
    (h : IsParted ⟨p :: ps, key⟩) : IsParted ⟨ps, key⟩ :=
  ⟨fun q hq => h.modifiers q (List.mem_cons_of_mem p hq), h.key⟩

/-- **A text has one spelling at most.** -/
theorem eq_of_text_eq {w w' : Spelling} (h : w.IsParted) (h' : w'.IsParted)
    (htext : w.text = w'.text) : w = w' := by
  obtain ⟨ps, key⟩ := w
  obtain ⟨ps', key'⟩ := w'
  induction ps generalizing ps' with
  | nil =>
    have hfront : front? ⟨[], key⟩ = front? ⟨ps', key'⟩ := front?_eq_of_text_eq h h' htext
    cases ps' with
    | nil =>
      obtain rfl : key = key' := htext
      rfl
    | cons p' ps' => contradiction
  | cons p ps ih =>
    have hfront : front? ⟨p :: ps, key⟩ = front? ⟨ps', key'⟩ := front?_eq_of_text_eq h h' htext
    cases ps' with
    | nil => contradiction
    | cons p' ps' =>
      obtain ⟨part, sep⟩ := p
      obtain ⟨part', sep'⟩ := p'
      rcases Prod.mk.inj (Option.some.inj hfront) with ⟨hpart, hrest⟩
      obtain rfl : part = part' := hpart
      -- the separators are not part of what is split off, but stand between
      have hcons := List.append_cancel_left htext
      obtain rfl : sep = sep' := (List.cons.inj hcons).1
      have htail := ih h.tail ps' h'.tail hrest
      cases htail
      rfl

end Spelling

/-! ## §4 White space -/

theorem isSpace_of_isSeparator {c : Char} (h : isSeparator c = true) : isSpace c = false := by
  rcases isSeparator_iff.1 h with rfl | rfl <;> decide

theorem isSpace_of_mem_modifierNames {m : Modifier} {s : String} (h : s ∈ m.names) :
    ∀ c ∈ s.toList, isSpace c = false := by
  have hall : ∀ s ∈ m.names, s.toList.all (!isSpace ·) = true := by cases m <;> decide +kernel
  simpa using hall s h

theorem isSpace_of_mem_keyNames {k : Key} {s : String} (h : s ∈ k.names) :
    ∀ c ∈ s.toList, isSpace c = false := by
  have hall : ∀ s ∈ k.names, s.toList.all (!isSpace ·) = true := by
    unfold Key.names
    split <;> decide +kernel
  simpa using hall s h

theorem IsKey.isSpace_of_mem {part : List Char} {k : Key} (h : IsKey part k) :
    ∀ c ∈ part, isSpace c = false := by
  cases h with
  | char hspace _ => simpa using hspace
  | named _ hname => exact isSpace_of_lowered (isSpace_of_mem_keyNames hname)
  | function _ hname _ hdigits _ _ _ =>
    apply isSpace_of_lowered
    rw [hname, String.toList_ofList]
    intro c hc
    rcases List.mem_cons.1 hc with rfl | hc
    · decide
    · have hdigit := toNat_of_isDigit (hdigits c hc)
      exact isSpace_of_visible (by omega) (by omega)

/-- There is no white space in a spelling. -/
theorem isSpace_of_mem_text {ps : List (List Char × Char)} {ms : List Modifier}
    (hnames : Spelling.Names ⟨ps, []⟩ ms) {key : List Char} {k : Key} (hkey : IsKey key k) :
    ∀ c ∈ Spelling.text ⟨ps, key⟩, isSpace c = false := by
  induction ps generalizing ms with
  | nil => exact hkey.isSpace_of_mem
  | cons p ps ih =>
    rcases List.forall₂_cons_left_iff.1 hnames with ⟨m, ms, ⟨hname, hsep⟩, hrest, rfl⟩
    rw [Spelling.text_cons]
    intro c hc
    rcases List.mem_append.1 hc with hc | hc
    · exact isSpace_of_lowered (isSpace_of_mem_modifierNames hname) c hc
    · rcases List.mem_cons.1 hc with rfl | hc
      · exact isSpace_of_isSeparator hsep
      · exact ih hrest c hc

theorem Spelling.Means.isSpace_of_mem_text {w : Spelling} {c : Chord} (h : w.Means c) :
    ∀ d ∈ w.text, isSpace d = false := by
  rcases h.modifiers with ⟨ms, hnames, -⟩
  exact Chord.isSpace_of_mem_text hnames h.key

end Chord

end Keybinding
