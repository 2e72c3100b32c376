import Keybinding.Proofs.Chord.Reading
import Keybinding.Proofs.Text.Basic
import Mathlib.Data.List.Nodup

/-!
# The part that is to blame

A text that is no chord starts with modifiers that are all right, each with a separator behind it.
The part behind them is to blame: these modifiers with any key behind them are a chord, and no chord
starts with them and this part. What is wrong with the part is said by `Wrong`, one rule for each
cause.

- `read_eq_error_iff`: where the reader fails, and why.
- `read_blames_leftmost`: what a failure says about the text.
-/

namespace Keybinding

open Text

/-! ## §1 Modifiers in front -/

@[simp] theorem Modifiers.has_ofList {ms : List Modifier} {m : Modifier} :
    (Modifiers.ofList ms).has m = true ↔ m ∈ ms := by
  have hfold : ∀ s : Modifiers, (ms.foldl insert s).has m = true ↔ s.has m = true ∨ m ∈ ms := by
    induction ms with
    | nil => simp
    | cons n ms ih =>
      intro s
      rw [List.foldl_cons, ih]
      simp [or_assoc]
  simp [ofList, hfold]

namespace Chord

theorem Spelling.text_append (ps : List (List Char × Char)) (s t : List Char) :
    Spelling.text ⟨ps, s ++ t⟩ = Spelling.text ⟨ps, s⟩ ++ t := by
  induction ps with
  | nil => rfl
  | cons p ps ih => simp [Spelling.text_cons, ih]

theorem Spelling.text_ne_nil (ps : List (List Char × Char)) {s : List Char} (hs : s ≠ []) :
    Spelling.text ⟨ps, s⟩ ≠ [] := by
  cases ps with
  | nil => exact hs
  | cons p ps => simp [Spelling.text_cons]

variable {ps : List (List Char × Char)} {ms taken : List Modifier} {held : Modifiers}

/-- Reading goes over modifiers that are not held yet. -/
theorem readFrom_text (hnames : Spelling.Names ⟨ps, []⟩ ms) (hnodup : (taken ++ ms).Nodup)
    {s : List Char} (hs : s ≠ []) :
    readFrom (.ofList taken) (Spelling.text ⟨ps, s⟩) = readFrom (.ofList (taken ++ ms)) s := by
  induction ps generalizing taken ms with
  | nil =>
    obtain rfl := List.forall₂_nil_left_iff.1 hnames
    rw [List.append_nil]
    rfl
  | cons p ps ih =>
    rcases List.forall₂_cons_left_iff.1 hnames with ⟨m, ms, ⟨hname, hsep⟩, hrest, rfl⟩
    have hnew : (Modifiers.ofList taken).has m = false := by
      rw [List.nodup_middle] at hnodup
      have hm := (List.nodup_cons.1 hnodup).1
      rw [Bool.eq_false_iff, Ne, Modifiers.has_ofList]
      exact fun h => hm (List.mem_append_left ms h)
    have hinsert : (Modifiers.ofList taken).insert m = .ofList (taken ++ [m]) := by
      simp [Modifiers.ofList]
    have hread : readModifier (.ofList taken) p.1 = .ok (.ofList (taken ++ [m])) :=
      readModifier_eq_ok_iff.2 ⟨m, hname, hnew, hinsert.symm⟩
    rw [Spelling.text_cons,
      readFrom_append (isPart_of_modifier hname) hsep (Spelling.text_ne_nil ps hs), hread]
    show readFrom (.ofList (taken ++ [m])) (Spelling.text ⟨ps, s⟩) = _
    rw [ih hrest (by simpa using hnodup)]
    simp

/-! ## §2 What is wrong with a part -/

/-- What is wrong with the part `part` that has `rest` behind it, where `taken` are the modifiers in
front of it. -/
inductive Wrong (taken : List Modifier) (part : List Char) : List Char → Error → Prop
  /-- There is nothing behind the separator. -/
  | missingKey {sep : Char} (hsep : isSeparator sep = true) : Wrong taken part [sep] .missingKey
  /-- The part stands before a separator, but is no name of a modifier. -/
  | unknownModifier {sep : Char} {after : List Char} (hsep : isSeparator sep = true)
      (hafter : after ≠ []) (hname : ∀ m : Modifier, lowered part ∉ m.names) :
      Wrong taken part (sep :: after) (.unknownModifier (String.ofList part))
  /-- The part stands before a separator, and names a modifier that stands in front already. -/
  | repeatedModifier {sep : Char} {after : List Char} {m : Modifier} (hsep : isSeparator sep = true)
      (hafter : after ≠ []) (hname : lowered part ∈ m.names) (hm : m ∈ taken) :
      Wrong taken part (sep :: after) (.repeatedModifier (String.ofList part))
  /-- The part is the last one, and no key. -/
  | unknownKey (hkey : ∀ k, ¬ IsKey part k) : Wrong taken part [] (.unknownKey (String.ofList part))

theorem readKey_eq_error_iff {part : List Char} {e : Error} :
    readKey part = .error e ↔ (∀ k, ¬ IsKey part k) ∧ e = .unknownKey (String.ofList part) := by
  simp only [← readKey_eq_ok_iff]
  constructor
  · intro h
    refine ⟨fun k hk => by simp [h] at hk, ?_⟩
    simp only [readKey] at h
    split at h <;> split at h <;> simp_all
  · rintro ⟨hnone, rfl⟩
    cases hread : readKey part with
    | ok k => exact absurd hread (hnone k)
    | error e =>
      simp only [readKey] at hread
      split at hread <;> split at hread <;> simp_all

theorem readModifier_eq_error_iff {part : List Char} {e : Error} :
    readModifier held part = .error e ↔
      (∀ m : Modifier, lowered part ∉ m.names) ∧ e = .unknownModifier (String.ofList part) ∨
        ∃ m : Modifier, lowered part ∈ m.names ∧ held.has m = true ∧
          e = .repeatedModifier (String.ofList part) := by
  simp only [← Modifier.named?_eq_some_iff, readModifier]
  cases Modifier.named? (lowered part) with
  | none => simpa using eq_comm
  | some m =>
    cases hheld : held.has m with
    | true => simpa [hheld] using eq_comm
    | false => simp [hheld]

/-! ## §3 Where the reader fails -/

theorem isPart_of_splitModifier?_eq_none {s : List Char} (hs : s ≠ [])
    (h : splitModifier? s = none) : IsPart s := by
  obtain ⟨c, rest, rfl⟩ := List.exists_cons_of_ne_nil hs
  refine ⟨c, rest, rfl, fun d hd => ?_⟩
  rw [splitModifier?] at h
  split at h
  · next hdrop => simpa using List.dropWhile_eq_nil_iff.1 hdrop d hd
  · cases h

theorem isPart_of_splitModifier? {s part after : List Char}
    (h : splitModifier? s = some (part, after)) : IsPart part := by
  unfold splitModifier? at h
  split at h
  · cases h
  · next c rest =>
    split at h
    · cases h
    · cases h
      refine ⟨c, _, rfl, fun d hd => ?_⟩
      simpa using List.mem_takeWhile_imp hd

/-- The reader fails at a part with which something is wrong. -/
theorem readFrom_of_wrong {part rest : List Char} {e : Error} (hpart : IsPart part)
    (h : Wrong taken part rest e) : readFrom (.ofList taken) (part ++ rest) = .error e := by
  cases h with
  | @missingKey sep hsep =>
    rw [readFrom]
    split
    · next hnone =>
      rw [splitModifier?_append hpart hsep] at hnone
      contradiction
    · next hsome =>
      rw [splitModifier?_append hpart hsep] at hsome
      cases hsome
      rfl
  | unknownModifier hsep hafter hname =>
    rw [readFrom_append hpart hsep hafter, readModifier_eq_error_iff.2 (.inl ⟨hname, rfl⟩)]
    rfl
  | repeatedModifier hsep hafter hname hm =>
    have hheld := Modifiers.has_ofList.2 hm
    rw [readFrom_append hpart hsep hafter,
      readModifier_eq_error_iff.2 (.inr ⟨_, hname, hheld, rfl⟩)]
    rfl
  | unknownKey hkey =>
    rw [List.append_nil, readFrom_of_isPart hpart, readKey_eq_error_iff.2 ⟨hkey, rfl⟩]
    rfl

/-- Behind the modifiers `taken` stands `s`: more modifiers that are all right, and then a part with
which something is wrong. -/
def GoesWrong (taken : List Modifier) (s : List Char) (e : Error) : Prop :=
  ∃ ps ms part rest, Spelling.text ⟨ps, part ++ rest⟩ = s ∧ Spelling.Names ⟨ps, []⟩ ms ∧
    (taken ++ ms).Nodup ∧ IsPart part ∧ Wrong (taken ++ ms) part rest e

theorem GoesWrong.here {part rest : List Char} {e : Error} (htaken : taken.Nodup)
    (hpart : IsPart part) (h : Wrong taken part rest e) : GoesWrong taken (part ++ rest) e := by
  refine ⟨[], [], part, rest, rfl, .nil, ?_, hpart, ?_⟩
  · rwa [List.append_nil]
  · rwa [List.append_nil]

theorem GoesWrong.behind {m : Modifier} {name after : List Char} {sep : Char} {e : Error}
    (hname : lowered name ∈ m.names) (hsep : isSeparator sep = true)
    (h : GoesWrong (taken ++ [m]) after e) : GoesWrong taken (name ++ sep :: after) e := by
  obtain ⟨ps, ms, part, rest, rfl, hnames, hnodup, hpart, hwrong⟩ := h
  rw [List.append_assoc, List.singleton_append] at hnodup hwrong
  exact ⟨(name, sep) :: ps, m :: ms, part, rest, rfl, .cons ⟨hname, hsep⟩ hnames, hnodup, hpart,
    hwrong⟩

/-- Where the reader fails, something is wrong with a part behind modifiers that are all right. -/
theorem goesWrong_of_readFrom {s : List Char} {e : Error} (hs : s ≠ []) (htaken : taken.Nodup)
    (h : readFrom (.ofList taken) s = .error e) : GoesWrong taken s e := by
  generalize hheld : Modifiers.ofList taken = held at h
  -- the reader takes the modifiers off, and the front is put together on the way back
  fun_induction readFrom held s generalizing taken with
  | case1 held s hsplit =>
    have hpart := isPart_of_splitModifier?_eq_none hs hsplit
    have herror : readKey s = .error e := by
      cases hkey : readKey s with
      | ok k => simp [hkey, Except.map] at h
      | error e' => simpa [hkey, Except.map] using h
    obtain ⟨hkey, rfl⟩ := readKey_eq_error_iff.1 herror
    simpa using GoesWrong.here htaken hpart (.unknownKey hkey)
  | case2 held s part after hsplit hafter =>
    obtain ⟨sep, hsep, rfl⟩ := append_of_splitModifier? hsplit
    obtain rfl : after = [] := by simpa using hafter
    cases h
    exact .here htaken (isPart_of_splitModifier? hsplit) (.missingKey hsep)
  | case3 held s part after hsplit hafter e' herror =>
    obtain ⟨sep, hsep, rfl⟩ := append_of_splitModifier? hsplit
    have hafter : after ≠ [] := by simpa using hafter
    cases h
    apply GoesWrong.here htaken (isPart_of_splitModifier? hsplit)
    rcases readModifier_eq_error_iff.1 herror with ⟨hname, rfl⟩ | ⟨m, hname, hm, rfl⟩
    · exact .unknownModifier hsep hafter hname
    · rw [← hheld, Modifiers.has_ofList] at hm
      exact .repeatedModifier hsep hafter hname hm
  | case4 held s part after hsplit hafter held' hheld' ih =>
    obtain ⟨sep, hsep, rfl⟩ := append_of_splitModifier? hsplit
    obtain ⟨m, hname, hnew, rfl⟩ := readModifier_eq_ok_iff.1 hheld'
    have hm : m ∉ taken := by
      rw [← hheld, Bool.eq_false_iff, Ne, Modifiers.has_ofList] at hnew
      exact hnew
    have htaken' : (taken ++ [m]).Nodup := by
      rw [← List.concat_eq_append, List.nodup_concat]
      exact ⟨hm, htaken⟩
    have hmore : Modifiers.ofList (taken ++ [m]) = held.insert m := by
      simp [Modifiers.ofList, ← hheld]
    exact .behind hname hsep (ih (by simpa using hafter) htaken' hmore h)

/-! ## §4 Whole texts -/

/-- The text `s` is blamed on `part`: it stands behind the different modifiers `ms`, which are
written as `ps`, and in front of `rest`. -/
structure IsBlamed (s : List Char) (ps : List (List Char × Char)) (ms : List Modifier)
    (part rest : List Char) (e : Error) : Prop where
  text : Spelling.text ⟨ps, part ++ rest⟩ = s
  names : Spelling.Names ⟨ps, []⟩ ms
  nodup : ms.Nodup
  /-- The part is not empty, and no separator stands behind its first character. -/
  isPart : IsPart part
  wrong : Wrong ms part rest e

theorem IsBlamed.part_ne_nil {s part rest : List Char} {e : Error}
    (h : IsBlamed s ps ms part rest e) : part ≠ [] := by
  obtain ⟨c, part, rfl, -⟩ := h.isPart
  exact List.cons_ne_nil c part

/-- Behind the front, the reader goes on with the modifiers of the front. -/
theorem IsBlamed.readFrom_text {s part rest t : List Char} {e : Error}
    (h : IsBlamed s ps ms part rest e) (ht : t ≠ []) :
    readFrom .none (Spelling.text ⟨ps, t⟩) = readFrom (.ofList ms) t := by
  have hnodup : ([] ++ ms).Nodup := h.nodup
  exact Chord.readFrom_text h.names hnodup ht

/-- **A text that is no chord is empty or blamed on one of its parts.** -/
theorem read_eq_error_iff {text : String} {e : Error} :
    read text = .error e ↔ trim text.toList = [] ∧ e = .empty ∨
      ∃ ps ms part rest, IsBlamed (trim text.toList) ps ms part rest e := by
  rw [read]
  generalize trim text.toList = s
  cases s with
  | nil =>
    have hnone : ∀ ps ms part rest, ¬ IsBlamed [] ps ms part rest e := by
      intro ps ms part rest h
      exact Spelling.text_ne_nil ps (List.append_ne_nil_of_left_ne_nil h.part_ne_nil rest) h.text
    simp [hnone, eq_comm]
  | cons c s =>
    simp only [reduceCtorEq, false_and, false_or]
    constructor
    · intro h
      have hread : readFrom (.ofList []) (c :: s) = .error e := h
      obtain ⟨ps, ms, part, rest, htext, hnames, hnodup, hpart, hwrong⟩ :=
        goesWrong_of_readFrom (List.cons_ne_nil c s) List.nodup_nil hread
      exact ⟨ps, ms, part, rest, htext, hnames, hnodup, hpart, hwrong⟩
    · rintro ⟨ps, ms, part, rest, h⟩
      rw [← h.text, h.readFrom_text (List.append_ne_nil_of_left_ne_nil h.part_ne_nil rest)]
      exact readFrom_of_wrong h.isPart h.wrong

/-! ## §5 What the front and the part leave open -/

/-- **The front can be completed**: with a key behind it, it is a chord. -/
theorem IsBlamed.read_front {s part rest : List Char} {e : Error}
    (h : IsBlamed s ps ms part rest e) {key : List Char} {k : Key} (hkey : IsKey key k) :
    read (String.ofList (Spelling.text ⟨ps, key⟩)) = .ok ⟨k, .ofList ms⟩ := by
  refine read_eq_ok_iff.2 ⟨⟨ps, key⟩, ?_, ⟨ms, h.names, h.nodup, fun m => ?_⟩, hkey⟩
  · rw [String.toList_ofList, trim_eq_self (isSpace_of_mem_text h.names hkey)]
  · exact Modifiers.has_ofList

theorem Wrong.isSeparator {part after : List Char} {sep : Char} {e : Error}
    (h : Wrong taken part (sep :: after) e) : isSeparator sep = true := by
  cases h with
  | missingKey hsep | unknownModifier hsep | repeatedModifier hsep => exact hsep

/-- Whatever stands behind its separator, a part is wrong that means no new modifier. -/
theorem Wrong.exists_of_sep {part after : List Char} {sep : Char} {e : Error}
    (h : Wrong taken part (sep :: after) e) (hafter : after ≠ []) (tail : List Char) :
    ∃ e', Wrong taken part (sep :: tail) e' := by
  by_cases htail : tail = []
  · subst htail
    exact ⟨.missingKey, .missingKey h.isSeparator⟩
  · cases h with
    | missingKey hsep => contradiction
    | unknownModifier hsep _ hname => exact ⟨_, .unknownModifier hsep htail hname⟩
    | repeatedModifier hsep _ hname hm => exact ⟨_, .repeatedModifier hsep htail hname hm⟩

/-- **The part cannot be completed**: no text that goes on behind its separator is a chord. -/
theorem IsBlamed.read_part {text : String} {part after : List Char} {sep : Char} {e : Error}
    (h : IsBlamed (trim text.toList) ps ms part (sep :: after) e) (hafter : after ≠ [])
    (tail : List Char) (c : Chord) :
    read (String.ofList (Spelling.text ⟨ps, part ++ sep :: tail⟩)) ≠ .ok c := by
  have hsep : isSpace sep = false := isSpace_of_isSeparator h.wrong.isSeparator
  -- what is trimmed off at the end stands behind the separator
  have htrim : trim (Spelling.text ⟨ps, part ++ sep :: tail⟩) =
      Spelling.text ⟨ps, part ++ sep :: trimEnd tail⟩ := by
    have htext := h.text
    rw [Spelling.text_append] at htext ⊢
    rw [Spelling.text_append]
    exact trim_append_cons htext.symm (Spelling.text_ne_nil ps h.part_ne_nil) hsep
  obtain ⟨e', hwrong⟩ := h.wrong.exists_of_sep hafter (trimEnd tail)
  have hblamed : IsBlamed (trim (Spelling.text ⟨ps, part ++ sep :: tail⟩)) ps ms part
      (sep :: trimEnd tail) e' :=
    ⟨htrim.symm, h.names, h.nodup, h.isPart, hwrong⟩
  rw [read_eq_error_iff.2 (.inr ⟨ps, ms, part, _, by rwa [String.toList_ofList]⟩)]
  exact nofun

/-- **A failure blames the leftmost part that cannot be right.** A text that is no chord is empty
after trimming, or it is blamed on a part of it for one of four causes. In front of the part there
are different modifiers, which are a chord with any key behind them. When the part stands before a
separator and more, no text is a chord that starts as far as this separator. -/
theorem read_blames_leftmost (text : String) :
    (read text = .error .empty ↔ trim text.toList = []) ∧
      (∀ e, read text = .error e ↔ trim text.toList = [] ∧ e = .empty ∨
        ∃ ps ms part rest, IsBlamed (trim text.toList) ps ms part rest e) ∧
      ∀ ps ms part rest e, IsBlamed (trim text.toList) ps ms part rest e →
        (∀ key k, IsKey key k →
          read (String.ofList (Spelling.text ⟨ps, key⟩)) = .ok ⟨k, .ofList ms⟩) ∧
        ∀ sep after, rest = sep :: after → after ≠ [] → ∀ tail c,
          read (String.ofList (Spelling.text ⟨ps, part ++ sep :: tail⟩)) ≠ .ok c := by
  refine ⟨?_, fun e => read_eq_error_iff,
    fun ps ms part rest e h => ⟨fun key k => h.read_front, ?_⟩⟩
  · rw [read_eq_error_iff]
    constructor
    · rintro (⟨hempty, -⟩ | ⟨ps, ms, part, rest, h⟩)
      · exact hempty
      · cases h.wrong
    · intro hempty
      exact .inl ⟨hempty, rfl⟩
  · rintro sep after rfl hafter tail c
    exact h.read_part hafter tail c

/-- The second part means the modifier of the first one under another name. -/
theorem read_blames_leftmost_repeated :
    read " mod-Control+k" = .error (.repeatedModifier "Control") ∧
      read "mod-PgDn" = .ok ⟨.named .pageDown, .ofList [.ctrl]⟩ ∧
      (∀ tail c, read (String.ofList ("mod-Control+".toList ++ tail)) ≠ .ok c) ∧
      read "\t " = .error .empty := by
  have hblamed : IsBlamed (trim " mod-Control+k".toList) [("mod".toList, '-')] [.ctrl]
      "Control".toList "+k".toList (.repeatedModifier "Control") := by
    refine ⟨by decide, .cons ⟨by decide +kernel, rfl⟩ .nil, by decide, ?_, ?_⟩
    · exact ⟨'C', "ontrol".toList, rfl, by decide⟩
    · exact .repeatedModifier (m := .ctrl) rfl (by decide) (by decide +kernel) (by decide)
  have hkey : IsKey "PgDn".toList (.named .pageDown) := .named (by decide) (by decide +kernel)
  obtain ⟨-, hiff, hopen⟩ := read_blames_leftmost " mod-Control+k"
  obtain ⟨hfront, hpart⟩ := hopen _ _ _ _ _ hblamed
  refine ⟨(hiff _).2 (.inr ⟨_, _, _, _, hblamed⟩), hfront _ _ hkey, fun tail c => ?_, ?_⟩
  · exact hpart '+' ['k'] rfl (by simp) tail c
  · exact (read_blames_leftmost "\t ").1.2 (by decide)

end Chord

end Keybinding
