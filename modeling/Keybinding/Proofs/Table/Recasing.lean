import Keybinding.Proofs.Chord.Printing
import Keybinding.Proofs.Group.Reading
import Keybinding.Proofs.Text.Recasing
import Keybinding.Table.Query
import Mathlib.Data.List.Perm.Subperm

/-!
# Letter case in chords and tables

A spelling of a chord with some letters in the other case is split at the same separators. Its names
are compared in lower case, and mean the same. A key of one character means the same if it is of
ASCII; a letter behind ASCII counts as it is written, and its two cases are two keys.

Two texts of one chord are duplicates of each other: no group lists both, and a table says the same
about both. Texts of different chords are not. A text of a chord with some letters in the other case
is a duplicate of it unless its key is a letter behind ASCII that stands in the other case
(`areDuplicates_of_isRecased`).
-/

namespace Keybinding

open Text

namespace Chord

/-! ## §1 Spellings in another letter case -/

theorem eq_of_isSeparator {c d : Char} (hsep : isSeparator c = true) (h : AgreesUpToCase c d) :
    d = c := by
  rcases isSeparator_iff.1 hsep with rfl | rfl
  · exact h.eq_of_caseless (by decide) (by decide)
  · exact h.eq_of_caseless (by decide) (by decide)

/-- A modifier with its separator, with some letters in the other case. -/
def IsRecasedPart (p q : List Char × Char) : Prop :=
  IsRecased p.1 q.1 ∧ q.2 = p.2

/-- **A spelling in another letter case is split at the same places.** -/
theorem Spelling.exists_of_isRecased {ps : List (List Char × Char)} {key t : List Char}
    (hsep : ∀ p ∈ ps, isSeparator p.2 = true) (h : IsRecased (text ⟨ps, key⟩) t) :
    ∃ ps' key', text ⟨ps', key'⟩ = t ∧ List.Forall₂ IsRecasedPart ps ps' ∧
      IsRecased key key' := by
  -- on the modifiers: the first separator is found again, since it has no other case
  induction ps generalizing t with
  | nil => exact ⟨[], t, rfl, .nil, h⟩
  | cons p ps ih =>
    rw [List.forall_mem_cons] at hsep
    rw [text_cons] at h
    obtain ⟨part, sep, rest, rfl, hpart, hcase, hrest⟩ := exists_split_of_forall₂ h
    obtain ⟨ps', key', rfl, hps, hkey⟩ := ih hsep.2 hrest
    exact ⟨(part, sep) :: ps', key', rfl, hps.cons ⟨hpart, eq_of_isSeparator hsep.1 hcase⟩, hkey⟩

/-- The same modifiers are named. -/
theorem Spelling.names_of_isRecased {ps ps' : List (List Char × Char)} {key key' : List Char}
    {ms : List Modifier} (hps : List.Forall₂ IsRecasedPart ps ps') (h : Names ⟨ps, key⟩ ms) :
    Names ⟨ps', key'⟩ ms := by
  induction hps generalizing ms with
  | nil => exact h
  | cons hp _ ih =>
    obtain ⟨m, ms, ⟨hname, hsep⟩, hrest, rfl⟩ := List.forall₂_cons_left_iff.1 h
    exact (ih hrest).cons ⟨hp.1.lowered_eq ▸ hname, hp.2 ▸ hsep⟩

/-- Modifiers in another letter case mean the same, whatever the key. -/
theorem Spelling.Means.exists_of_isRecased {w : Spelling} {c : Chord} {t : List Char}
    (h : w.Means c) (hcase : IsRecased w.text t) :
    ∃ w' : Spelling, w'.text = t ∧ IsRecased w.key w'.key ∧
      ∀ k, IsKey w'.key k → w'.Means ⟨k, c.mods⟩ := by
  have hsep := fun p hp => (h.isParted.modifiers p hp).2
  obtain ⟨ps', key', htext, hps, hkey⟩ := Spelling.exists_of_isRecased hsep hcase
  obtain ⟨ms, hnames, hnodup, hmods⟩ := h.modifiers
  have hnames' : Names ⟨ps', key'⟩ ms := names_of_isRecased hps hnames
  exact ⟨⟨ps', key'⟩, htext, hkey, fun k hk => ⟨⟨ms, hnames', hnodup, hmods⟩, hk⟩⟩

/-! ## §2 Keys in another letter case -/

section Keys

variable {part part' : List Char} {k : Key} {l : Char}

/-- Names, and single characters of ASCII, mean the same key. -/
theorem IsKey.of_isRecased (h : IsKey part k) (hascii : ∀ l, k = .char l → l.toNat < 0x80)
    (hcase : IsRecased part part') : IsKey part' k := by
  cases h with
  | @char c hspace hcontrol =>
    obtain ⟨d, _, hd, hnil, rfl⟩ := List.forall₂_cons_left_iff.1 hcase
    obtain rfl := List.forall₂_nil_left_iff.1 hnil
    rw [← (hd.toLower_eq (toNat_toLower_lt_iff.1 (hascii _ rfl))).2]
    exact .char (hd.isSpace_eq ▸ hspace) (hd.isControl_eq ▸ hcontrol)
  | named hlong hname =>
    exact .named (hcase.length_eq ▸ hlong) (hcase.lowered_eq ▸ hname)
  | function hlong hname hne hdigits hvalue hlo hhi =>
    exact .function (hcase.length_eq ▸ hlong) (hcase.lowered_eq ▸ hname) hne hdigits hvalue hlo hhi

/-- A letter behind ASCII means the key of the case that it is written in. -/
theorem IsKey.exists_of_isRecased (h : IsKey part (.char l)) (hascii : ¬ l.toNat < 0x80)
    (hcase : IsRecased part part') : ∃ l', part' = [l'] ∧ IsKey part' (.char l') := by
  obtain rfl := h.eq_singleton hascii
  obtain ⟨hspace, hcontrol, -⟩ := h.isCanonical
  obtain ⟨l', _, hl, hnil, rfl⟩ := List.forall₂_cons_left_iff.1 hcase
  obtain rfl := List.forall₂_nil_left_iff.1 hnil
  -- the other case of the letter lies behind ASCII too, where letters are left as they are
  have hascii' : ¬ l'.toNat < 0x80 := fun hl' => hascii (hl.symm.toLower_eq hl').1
  have hkey := IsKey.char (hl.isSpace_eq ▸ hspace) (hl.isControl_eq ▸ hcontrol)
  rw [toLower_eq_self hascii'] at hkey
  exact ⟨l', rfl, hkey⟩

end Keys

/-! ## §3 Texts in another letter case -/

/-- A spelling ends with its key. -/
theorem Spelling.getLast?_text (ps : List (List Char × Char)) (l : Char) :
    (text ⟨ps, [l]⟩).getLast? = some l := by
  induction ps with
  | nil => rfl
  | cons p ps ih => rw [text_cons, List.getLast?_append, List.getLast?_cons, ih]; rfl

section Texts

variable {text text' : String} {c : Chord}

/-- **A chord without a letter behind ASCII is read in any letter case.** -/
theorem read_of_isRecased (h : read text = .ok c) (hascii : ∀ l, c.key = .char l → l.toNat < 0x80)
    (hcase : IsRecased text.toList text'.toList) : read text' = .ok c := by
  obtain ⟨w, htext, hmeans⟩ := read_eq_ok_iff.1 h
  obtain ⟨w', htext', hkey, hmeans'⟩ := hmeans.exists_of_isRecased (htext ▸ hcase.trim)
  exact read_eq_ok_iff.2 ⟨w', htext', hmeans' c.key (hmeans.key.of_isRecased hascii hkey)⟩

/-- **A letter behind ASCII is read in the case it is written in.** -/
theorem exists_read_of_isRecased {l : Char} (h : read text = .ok c) (hl : c.key = .char l)
    (hascii : ¬ l.toNat < 0x80) (hcase : IsRecased text.toList text'.toList) :
    ∃ l', (trim text'.toList).getLast? = some l' ∧ read text' = .ok ⟨.char l', c.mods⟩ := by
  obtain ⟨w, htext, hmeans⟩ := read_eq_ok_iff.1 h
  obtain ⟨⟨ps, key⟩, htext', hkey, hmeans'⟩ := hmeans.exists_of_isRecased (htext ▸ hcase.trim)
  obtain ⟨l', rfl, hl'⟩ := (hl ▸ hmeans.key).exists_of_isRecased hascii hkey
  refine ⟨l', ?_, read_eq_ok_iff.2 ⟨_, htext', hmeans' _ hl'⟩⟩
  rw [← htext', Spelling.getLast?_text]

end Texts

end Chord

namespace Table

/-! ## §4 Duplicates -/

/-- Two chord texts are duplicates: a group that lists both cannot be read, and what a table does
for one it does for the other. -/
structure AreDuplicates (text text' : String) : Prop where
  refused : ∀ (g : GroupText) (action action' : Option String),
    [(text, action), (text', action')].Subperm g.bindings →
      ∃ fault, Group.read g = .error fault
  answered : ∀ (t : Table) (active : ActiveText),
    t.answer (.resolve text active) = t.answer (.resolve text' active)

variable {text text' : String} {c c' : Chord}

/-- A group does not list two texts of one chord. -/
theorem exists_error_of_subperm (h : Chord.read text = .ok c) (h' : Chord.read text' = .ok c)
    {g : GroupText} {action action' : Option String}
    (hsub : [(text, action), (text', action')].Subperm g.bindings) :
    ∃ fault, Group.read g = .error fault := by
  cases hread : Group.read g with
  | error fault => exact ⟨fault, rfl⟩
  | ok G =>
    -- the entries of a valid group are of different chords in pairs, and in any order
    have hdistinct := ((Group.exists_read_iff g).1 ⟨G, hread⟩).distinct
    obtain ⟨listed, hperm, hsublist⟩ := hsub
    have hpair := (hperm.pairwise_iff GroupText.distinct_symm).1 (hdistinct.sublist hsublist)
    exact absurd h' ((List.pairwise_pair.1 hpair) c h)

/-- A group can list two texts of different chords. -/
theorem exists_read_pair (h : Chord.read text = .ok c) (h' : Chord.read text' = .ok c')
    (hne : c' ≠ c) : ∃ G, Group.read ⟨none, [(text, none), (text', none)]⟩ = .ok G := by
  apply (Group.exists_read_iff _).2
  refine ⟨by simp, ?_, by simp, ?_⟩
  · simp [h, h']
  · simpa [h, h'] using hne

/-- **Texts are duplicates when they are read as the same chord.** -/
theorem areDuplicates_iff (h : Chord.read text = .ok c) (h' : Chord.read text' = .ok c') :
    AreDuplicates text text' ↔ c' = c := by
  constructor
  · intro hduplicates
    by_contra hne
    -- a group of these two entries could be read, and is not refused
    obtain ⟨G, hG⟩ := exists_read_pair h h' hne
    obtain ⟨fault, hfault⟩ := hduplicates.refused ⟨none, [(text, none), (text', none)]⟩ none none
      (List.Subperm.refl _)
    rw [hG] at hfault
    cases hfault
  · rintro rfl
    refine ⟨fun g action action' hsub => exists_error_of_subperm h h' hsub, ?_⟩
    intro t active
    simp only [answer, h, h']

/-! ## §5 Letters in the other case -/

/-- **Letter case matters for letters behind ASCII only.** A text of a chord with some letters in
the other case is read, with the same modifiers. It is a duplicate unless the key is a letter behind
ASCII, which is read in the case it is written in. -/
theorem areDuplicates_of_isRecased {text text' : String} {c : Chord}
    (h : Chord.read text = .ok c) (hcase : IsRecased text.toList text'.toList) :
    ∃ c', Chord.read text' = .ok c' ∧ c'.mods = c.mods ∧ (AreDuplicates text text' ↔ c' = c) ∧
      ((∀ l, c.key = .char l → l.toNat < 0x80) → c' = c) ∧
        ∀ l, c.key = .char l → 0x80 ≤ l.toNat →
          ∃ l', (trim text'.toList).getLast? = some l' ∧ c'.key = .char l' := by
  by_cases hascii : ∀ l, c.key = .char l → l.toNat < 0x80
  · have h' := Chord.read_of_isRecased h hascii hcase
    refine ⟨c, h', rfl, areDuplicates_iff h h', fun _ => rfl, ?_⟩
    intro l hl hbehind
    have hbefore := hascii l hl
    omega
  · push Not at hascii
    obtain ⟨l, hl, hbehind⟩ := hascii
    obtain ⟨l', hlast, h'⟩ := Chord.exists_read_of_isRecased h hl (by omega) hcase
    refine ⟨_, h', rfl, areDuplicates_iff h h', ?_, ?_⟩
    · intro hascii
      have hbefore := hascii l hl
      omega
    · intro _ _ _
      exact ⟨l', hlast, rfl⟩

/-- A named key and a letter of ASCII are duplicates of themselves in capital letters. -/
theorem areDuplicates_of_isRecased_ascii :
    Chord.read "cmd-pageup" = .ok ⟨.named .pageUp, ⟨true, false, false, false⟩⟩ ∧
      Chord.read "opt+w" = .ok ⟨.char 'w', ⟨false, false, true, false⟩⟩ ∧
        AreDuplicates "cmd-pageup" "CMD-PageUp" ∧ AreDuplicates "opt+w" "Opt+W" := by
  have hnamed : Chord.read "cmd-pageup" = .ok ⟨.named .pageUp, ⟨true, false, false, false⟩⟩ := by
    decide +kernel
  have hletter : Chord.read "opt+w" = .ok ⟨.char 'w', ⟨false, false, true, false⟩⟩ := by
    decide +kernel
  have hnamedCase : IsRecased "cmd-pageup".toList "CMD-PageUp".toList := by decide +kernel
  have hletterCase : IsRecased "opt+w".toList "Opt+W".toList := by decide +kernel
  refine ⟨hnamed, hletter, ?_, ?_⟩
  · obtain ⟨c', -, -, hiff, hascii, -⟩ := areDuplicates_of_isRecased hnamed hnamedCase
    exact hiff.2 (hascii (by simp))
  · obtain ⟨c', -, -, hiff, hascii, -⟩ := areDuplicates_of_isRecased hletter hletterCase
    exact hiff.2 (hascii (by simp))

/-- The two cases of a letter behind ASCII are two keys, and a group can bind both. -/
theorem not_areDuplicates_of_isRecased_umlaut :
    Chord.read "cmd-ä" = .ok ⟨.char 'ä', ⟨true, false, false, false⟩⟩ ∧
      IsRecased "cmd-ä".toList "cmd-Ä".toList ∧
        Chord.read "cmd-Ä" = .ok ⟨.char 'Ä', ⟨true, false, false, false⟩⟩ ∧
          (∃ G, Group.read ⟨none, [("cmd-ä", none), ("cmd-Ä", none)]⟩ = .ok G) ∧
            ¬ AreDuplicates "cmd-ä" "cmd-Ä" := by
  have hsmall : Chord.read "cmd-ä" = .ok ⟨.char 'ä', ⟨true, false, false, false⟩⟩ := by
    decide +kernel
  have hcapital : Chord.read "cmd-Ä" = .ok ⟨.char 'Ä', ⟨true, false, false, false⟩⟩ := by
    decide +kernel
  have hne : (⟨.char 'Ä', ⟨true, false, false, false⟩⟩ : Chord) ≠
      ⟨.char 'ä', ⟨true, false, false, false⟩⟩ := by
    decide
  exact ⟨hsmall, by decide +kernel, hcapital, exists_read_pair hsmall hcapital hne,
    fun hduplicates => hne ((areDuplicates_iff hsmall hcapital).1 hduplicates)⟩

end Table

end Keybinding
