import Keybinding.Proofs.Chord.Spelling
import Keybinding.Proofs.Steps

/-!
# Which texts are chords

A text is read as a chord when what is left of it after trimming has a spelling that means the chord
(`read_eq_ok_iff_spelled`). The reader takes one modifier after the other off the front. What it
makes of the rest is said with the modifiers that are held by then (`readFrom_eq_ok_iff`).
-/

namespace Keybinding.Chord

open Text

/-! ## §1 Reading one part -/

theorem digitsValue?_eq_some_iff {ds : List Char} {n : Nat} :
    digitsValue? ds = some n ↔
      ds ≠ [] ∧ (∀ d ∈ ds, d.isDigit = true) ∧ Nat.ofDigitChars 10 ds 0 = n := by
  have hnumber : (ds.isEmpty || !ds.all Char.isDigit) = false ↔
      ds ≠ [] ∧ ∀ d ∈ ds, d.isDigit = true := by
    simp
  rw [digitsValue?, ← Nat.ofDigitChars_eq_foldl, ← and_assoc, ← hnumber]
  cases ds.isEmpty || !ds.all Char.isDigit <;> simp

theorem functionKey?_eq_some_iff {s : List Char} {k : Key} :
    functionKey? s = some k ↔
      ∃ ds n, s = 'f' :: ds ∧ ds ≠ [] ∧ (∀ d ∈ ds, d.isDigit = true) ∧
        Nat.ofDigitChars 10 ds 0 = n ∧ 1 ≤ n ∧ n ≤ 24 ∧ k = .function n := by
  constructor
  · intro h
    unfold functionKey? at h
    split at h
    · next ds =>
      split at h
      · next n hn =>
        rcases digitsValue?_eq_some_iff.1 hn with ⟨hne, hdigits, hvalue⟩
        split at h
        · next hrange =>
          cases h
          exact ⟨ds, n, rfl, hne, hdigits, hvalue, hrange.1, hrange.2, rfl⟩
        · contradiction
      · contradiction
    · contradiction
  · rintro ⟨ds, n, rfl, hne, hdigits, hvalue, hlo, hhi, rfl⟩
    have hn : digitsValue? ds = some n := digitsValue?_eq_some_iff.2 ⟨hne, hdigits, hvalue⟩
    simp [functionKey?, hn, hlo, hhi]

theorem all_not_isDigit_of_mem_keyNames {k : Key} :
    ∀ s ∈ k.names, s.toList.all (!·.isDigit) = true := by
  unfold Key.names
  split <;> decide +kernel

/-- No key has a name and a number. -/
theorem named?_of_digits {ds : List Char} (hne : ds ≠ []) (hdigits : ∀ d ∈ ds, d.isDigit = true) :
    Key.named? (String.ofList ('f' :: ds)) = none := by
  rw [Option.eq_none_iff_forall_ne_some]
  intro k hk
  have hall := all_not_isDigit_of_mem_keyNames _ (Key.named?_eq_some_iff.1 hk)
  rw [String.toList_ofList, List.all_eq_true] at hall
  rcases List.exists_mem_of_ne_nil ds hne with ⟨d, hd⟩
  have hnot := hall d (List.mem_cons_of_mem _ hd)
  rw [hdigits d hd] at hnot
  contradiction

theorem lookup_eq_some_iff {part : List Char} {k : Key} (hshort : ∀ c, part ≠ [c]) :
    (Key.named? (lowered part) <|> functionKey? (lowered part).toList) = some k ↔ IsKey part k := by
  have hlong : lowered part ≠ "" → 1 < part.length := by
    intro hne
    match part with
    | [] => exact absurd rfl hne
    | [c] => exact absurd rfl (hshort c)
    | _ :: _ :: _ => simp
  rw [Option.orElse_eq_orElse, Option.orElse_eq_or, Option.or_eq_some_iff]
  -- the numbers have their turn when no name fits, which is no restriction: no name is a number
  constructor
  · rintro (hnamed | ⟨-, hfunction⟩)
    · refine .named (hlong ?_) (Key.named?_eq_some_iff.1 hnamed)
      intro hempty
      rw [hempty] at hnamed
      contradiction
    · rcases functionKey?_eq_some_iff.1 hfunction with
        ⟨ds, n, hds, hne, hdigits, hvalue, hlo, hhi, rfl⟩
      have hname : lowered part = String.ofList ('f' :: ds) := by
        rw [← hds, String.ofList_toList]
      refine .function (hlong ?_) hname hne hdigits hvalue hlo hhi
      intro hempty
      rw [hempty] at hds
      contradiction
  · intro h
    cases h with
    | @char c => exact absurd rfl (hshort c)
    | named _ hname => exact .inl (Key.named?_eq_some_iff.2 hname)
    | @function _ ds n _ hname hne hdigits hvalue hlo hhi =>
      rw [hname, String.toList_ofList]
      exact .inr ⟨named?_of_digits hne hdigits,
        functionKey?_eq_some_iff.2 ⟨ds, n, rfl, hne, hdigits, hvalue, hlo, hhi, rfl⟩⟩

/-- **A part is read as the key that it means.** -/
theorem readKey_eq_ok_iff {part : List Char} {k : Key} : readKey part = .ok k ↔ IsKey part k := by
  unfold readKey
  split
  · next c =>
    -- a single character is never looked up, and no name is that short
    constructor
    · intro h
      split at h
      · contradiction
      · next hseen =>
        rw [Bool.or_eq_true, not_or, Bool.not_eq_true, Bool.not_eq_true] at hseen
        cases h
        exact .char hseen.1 hseen.2
    · intro h
      cases h with
      | char hspace hcontrol => simp [hspace, hcontrol, Key.ofChar]
      | named hlong => contradiction
      | function hlong => contradiction
  · next hshort =>
    rw [← lookup_eq_some_iff hshort]
    dsimp only
    cases Key.named? (lowered part) <|> functionKey? (lowered part).toList <;> simp

theorem readModifier_eq_ok_iff {held held' : Modifiers} {part : List Char} :
    readModifier held part = .ok held' ↔
      ∃ m, lowered part ∈ m.names ∧ held.has m = false ∧ held' = held.insert m := by
  simp only [← Modifier.named?_eq_some_iff, readModifier]
  cases Modifier.named? (lowered part) with
  | none => simp
  | some m =>
    simp only [Option.some.injEq, exists_eq_left']
    cases held.has m with
    | true => simp
    | false => simp [eq_comm]

/-! ## §2 Reading one modifier after the other -/

/-- A text without modifiers is a key. -/
theorem readFrom_of_isPart {held : Modifiers} {s : List Char} (h : IsPart s) :
    readFrom held s = (readKey s).map fun k => ⟨k, held⟩ := by
  have hsplit := splitModifier?_of_isPart h
  rw [readFrom]
  split
  · rfl
  · next hsome =>
    rw [hsplit] at hsome
    contradiction

/-- A modifier at the front is held while the rest is read. -/
theorem readFrom_append {held : Modifiers} {part after : List Char} {sep : Char} (h : IsPart part)
    (hsep : isSeparator sep = true) (hafter : after ≠ []) :
    readFrom held (part ++ sep :: after) = readModifier held part >>= (readFrom · after) := by
  have hsplit : splitModifier? (part ++ sep :: after) = some (part, after) :=
    splitModifier?_append h hsep
  rw [readFrom]
  split
  · next hnone =>
    rw [hsplit] at hnone
    contradiction
  · next hsome =>
    rw [hsplit] at hsome
    cases hsome
    rw [if_neg (by simpa using hafter)]
    cases readModifier held part <;> rfl

/-- What a spelling means where some modifiers are held already: it adds others to them. -/
structure Spelling.Adds (w : Spelling) (held : Modifiers) (c : Chord) : Prop where
  modifiers : ∃ ms, w.Names ms ∧ ms.Nodup ∧ (∀ m ∈ ms, held.has m = false) ∧
    ∀ m, c.mods.has m = true ↔ held.has m = true ∨ m ∈ ms
  key : IsKey w.key c.key

theorem Spelling.adds_none_iff {w : Spelling} {c : Chord} : w.Adds .none c ↔ w.Means c := by
  constructor
  · rintro ⟨⟨ms, hnames, hnodup, -, hmods⟩, hkey⟩
    exact ⟨⟨ms, hnames, hnodup, by simpa using hmods⟩, hkey⟩
  · rintro ⟨⟨ms, hnames, hnodup, hmods⟩, hkey⟩
    exact ⟨⟨ms, hnames, hnodup, by simp, by simpa using hmods⟩, hkey⟩

theorem Spelling.adds_nil_iff {key : List Char} {held : Modifiers} {c : Chord} :
    Spelling.Adds ⟨[], key⟩ held c ↔ c.mods = held ∧ IsKey key c.key := by
  constructor
  · rintro ⟨⟨ms, hnames, -, -, hmods⟩, hkey⟩
    obtain rfl := List.forall₂_nil_left_iff.1 hnames
    refine ⟨Modifiers.ext_has fun m => ?_, hkey⟩
    rw [Bool.eq_iff_iff, hmods]
    simp
  · rintro ⟨rfl, hkey⟩
    exact ⟨⟨[], List.Forall₂.nil, List.nodup_nil, by simp, by simp⟩, hkey⟩

/-- A modifier in front is added first. -/
theorem Spelling.adds_cons_iff {p : List Char × Char} {ps : List (List Char × Char)}
    {key : List Char} {held : Modifiers} {c : Chord} :
    Spelling.Adds ⟨p :: ps, key⟩ held c ↔
      isSeparator p.2 = true ∧ ∃ m, lowered p.1 ∈ m.names ∧ held.has m = false ∧
        Spelling.Adds ⟨ps, key⟩ (held.insert m) c := by
  constructor
  · rintro ⟨⟨_, hnames, hnodup, hnew, hmods⟩, hkey⟩
    rcases List.forall₂_cons_left_iff.1 hnames with ⟨m, ms, ⟨hname, hsep⟩, hrest, rfl⟩
    rcases List.nodup_cons.1 hnodup with ⟨hm, hnodup⟩
    refine ⟨hsep, m, hname, hnew m List.mem_cons_self, ⟨ms, hrest, hnodup, ?_, ?_⟩, hkey⟩
    · intro m' hm'
      have hne : m' ≠ m := fun h => hm (h ▸ hm')
      simp [hnew m' (List.mem_cons_of_mem m hm'), hne]
    · intro m'
      rw [hmods]
      simp [or_assoc]
  · rintro ⟨hsep, m, hname, hheld, ⟨ms, hnames, hnodup, hnew, hmods⟩, hkey⟩
    -- the modifiers that are added later are new beside this one
    have hm : m ∉ ms := by
      intro hmem
      have hnot := hnew m hmem
      simp at hnot
    refine ⟨⟨m :: ms, hnames.cons ⟨hname, hsep⟩, List.nodup_cons.2 ⟨hm, hnodup⟩, ?_, ?_⟩, hkey⟩
    · intro m' hm'
      rcases List.mem_cons.1 hm' with rfl | hm'
      · exact hheld
      · have hnot := hnew m' hm'
        rw [Modifiers.has_insert, Bool.or_eq_false_iff] at hnot
        exact hnot.1
    · intro m'
      rw [hmods]
      simp [or_assoc]

theorem Spelling.Adds.isParted {w : Spelling} {held : Modifiers} {c : Chord} (h : w.Adds held c) :
    w.IsParted := by
  rcases h.modifiers with ⟨ms, hnames, -⟩
  exact hnames.isParted h.key

/-- **A text is read as what one of its spellings adds to the modifiers that are held.** -/
theorem readFrom_eq_ok_iff {held : Modifiers} {s : List Char} {c : Chord} :
    readFrom held s = .ok c ↔ ∃ w : Spelling, w.text = s ∧ w.Adds held c := by
  constructor
  · intro h
    -- the reader takes the modifiers off, and a spelling is put together on the way back
    fun_induction readFrom held s with
    | case1 held s hsplit =>
      rcases Except.map_eq_ok_iff.1 h with ⟨k, hk, rfl⟩
      exact ⟨⟨[], s⟩, rfl, Spelling.adds_nil_iff.2 ⟨rfl, readKey_eq_ok_iff.1 hk⟩⟩
    | case2 => contradiction
    | case3 => contradiction
    | case4 held s part after hsplit hafter held' hheld' ih =>
      rcases append_of_splitModifier? hsplit with ⟨sep, hsep, rfl⟩
      rcases readModifier_eq_ok_iff.1 hheld' with ⟨m, hname, hheld, rfl⟩
      rcases ih h with ⟨⟨ps, key⟩, rfl, hadds⟩
      exact ⟨⟨(part, sep) :: ps, key⟩, rfl,
        Spelling.adds_cons_iff.2 ⟨hsep, m, hname, hheld, hadds⟩⟩
  · rintro ⟨⟨ps, key⟩, rfl, hadds⟩
    -- on the modifiers of the spelling: the reader splits its text where the spelling does
    induction ps generalizing held with
    | nil =>
      rcases Spelling.adds_nil_iff.1 hadds with ⟨rfl, hkey⟩
      show readFrom c.mods key = .ok c
      rw [readFrom_of_isPart hkey.isPart, readKey_eq_ok_iff.2 hkey]
      rfl
    | cons p ps ih =>
      rcases Spelling.adds_cons_iff.1 hadds with ⟨hsep, m, hname, hheld, hadds⟩
      rw [Spelling.text_cons,
        readFrom_append (isPart_of_modifier hname) hsep hadds.isParted.text_ne_nil,
        Except.bind_eq_ok_iff]
      exact ⟨_, readModifier_eq_ok_iff.2 ⟨m, hname, hheld, rfl⟩, ih hadds⟩

theorem read_eq_ok_iff {text : String} {c : Chord} :
    read text = .ok c ↔ ∃ w : Spelling, w.text = trim text.toList ∧ w.Means c := by
  simp only [← Spelling.adds_none_iff]
  rw [← readFrom_eq_ok_iff, read]
  split
  · next hempty =>
    -- the empty text has no spelling either
    rw [hempty, readFrom_eq_ok_iff]
    constructor
    · intro h
      contradiction
    · rintro ⟨w, hw, hadds⟩
      exact absurd hw hadds.isParted.text_ne_nil
  · rfl

/-- **The texts that are chords.** What is left of a text after trimming has to have a spelling that
means the chord. It never has more than one. -/
theorem read_eq_ok_iff_spelled (text : String) :
    (∀ c, read text = .ok c ↔ ∃ w : Spelling, w.text = trim text.toList ∧ w.Means c) ∧
      ∀ (w w' : Spelling) (c c' : Chord), w.text = trim text.toList → w'.text = trim text.toList →
        w.Means c → w'.Means c' → w = w' := by
  refine ⟨fun c => read_eq_ok_iff, ?_⟩
  intro w w' c c' hw hw' hmeans hmeans'
  exact Spelling.eq_of_text_eq hmeans.isParted hmeans'.isParted (hw.trans hw'.symm)

/-- The minus key behind two modifiers, where `-` and `+` are separators as well. -/
theorem read_eq_ok_iff_spelled_minus :
    read " Mod-Shift+- " = .ok ⟨.char '-', ⟨false, true, false, true⟩⟩ ∧
      ∀ (w : Spelling) (c : Chord), w.text = trim " Mod-Shift+- ".toList → w.Means c →
        w = ⟨[(['M', 'o', 'd'], '-'), (['S', 'h', 'i', 'f', 't'], '+')], ['-']⟩ := by
  have htext : Spelling.text ⟨[(['M', 'o', 'd'], '-'), (['S', 'h', 'i', 'f', 't'], '+')], ['-']⟩ =
      trim " Mod-Shift+- ".toList := by
    decide +kernel
  have hmeans : Spelling.Means
      ⟨[(['M', 'o', 'd'], '-'), (['S', 'h', 'i', 'f', 't'], '+')], ['-']⟩
      ⟨.char '-', ⟨false, true, false, true⟩⟩ := by
    refine ⟨⟨[.ctrl, .shift], ?_, by decide, ?_⟩, .char (c := '-') (by decide) (by decide)⟩
    · exact .cons ⟨by decide +kernel, by decide⟩ (.cons ⟨by decide +kernel, by decide⟩ .nil)
    · intro m
      cases m <;> decide
  refine ⟨((read_eq_ok_iff_spelled _).1 _).2 ⟨_, htext, hmeans⟩, ?_⟩
  intro w c hw hwc
  exact (read_eq_ok_iff_spelled _).2 w _ c _ hw htext hwc hmeans

end Keybinding.Chord
