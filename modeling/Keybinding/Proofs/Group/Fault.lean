import Keybinding.Proofs.Group.Reading

/-!
# What is wrong with a written group

A group that means nothing is told with one fault, though it can have many. The condition is looked
at first, then the entries from the first to the last. Of one entry the chord is looked at first,
then the action, and last whether an entry before it has the same chord. What comes behind the first
fault plays no part (`read_eq_error_iff`).
-/

namespace Keybinding

namespace GroupText

/-! ## §1 Faults -/

/-- What is wrong with an entry that stands behind other entries of its group. -/
inductive EntryFault (before : List (String × Option String)) :
    String × Option String → Group.Error → Prop where
  /-- The chord cannot be read, and is quoted as written. -/
  | chord {chord : String} {action : Option String} {cause : Chord.Error}
    (hchord : Chord.read chord = .error cause) :
    EntryFault before (chord, action) (.chord chord cause)
  /-- The action is neither null nor the word nor an id, and is quoted without white space around
  it. -/
  | action {chord text : String} {c : Chord} (hchord : Chord.read chord = .ok c)
    (hword : Text.trimmed text ≠ "unbound") (hid : ¬ Action.IsId (Text.trimmed text)) :
    EntryFault before (chord, some text) (.action ⟨Text.trimmed text⟩)
  /-- Nothing but that an entry before it has the same chord. -/
  | repeated {chord : String} {action : Option String} {c : Chord} {b : Binding}
    {f : String × Option String} (hchord : Chord.read chord = .ok c)
    (haction : Binding.IsMeant action b) (hmem : f ∈ before) (hsame : Chord.read f.1 = .ok c) :
    EntryFault before (chord, action) (.repeated c)

/-- Nothing is wrong with any of some entries, each behind those that stand before it. -/
def IsFaultless (es : List (String × Option String)) : Prop :=
  ∀ before e later fault, es = before ++ e :: later → ¬ EntryFault before e fault

/-- The first thing that is wrong with a group. -/
inductive HasFault (g : GroupText) : Group.Error → Prop where
  /-- The condition cannot be read, and is quoted as written. -/
  | condition {text : String} {cause : Condition.Error} (htext : g.context = some text)
    (hcause : Condition.read text = .error cause) : HasFault g (.condition text cause)
  /-- An entry is wrong, while the condition and the entries before it are not. -/
  | entry {before later : List (String × Option String)} {e : String × Option String}
    {fault : Group.Error}
    (hcondition : ∀ text, g.context = some text → ∃ c, Condition.read text = .ok c)
    (hsplit : g.bindings = before ++ e :: later) (hbefore : IsFaultless before)
    (hfault : EntryFault before e fault) : HasFault g fault

end GroupText

namespace Group

open GroupText

variable {m : Bindings} {es before : List (String × Option String)} {fault : Error}

/-! ## §2 One entry -/

theorem readBinding_eq_error_iff {text : Option String} {cause : Action.Error} :
    readBinding text = .error cause ↔
      ∃ s, text = some s ∧ Text.trimmed s ≠ "unbound" ∧ ¬ Action.IsId (Text.trimmed s) ∧
        cause = ⟨Text.trimmed s⟩ := by
  cases text with
  | none => simp [readBinding]
  | some s =>
    simp only [readBinding, Option.some.injEq, exists_eq_left']
    split
    · next hword => simp [hword]
    · next hword =>
      -- what is quoted has been trimmed before it was read
      have hmap : (Action.read (Text.trimmed s)).map Binding.action = .error cause ↔
          Action.read (Text.trimmed s) = .error cause := by
        cases Action.read (Text.trimmed s) <;> simp [Except.map]
      rw [hmap, Action.read_eq_error_iff, Text.trimmed_trimmed]
      simp [hword]

/-- Along a run, the map knows the chords of the entries that it has gone over. -/
theorem contains_iff_of_foldlM (h : before.foldlM readEntry .empty = .ok m) (c : Chord) :
    m.contains c = true ↔ ∃ f ∈ before, Chord.read f.1 = .ok c := by
  obtain ⟨ps, hps, -, hperm⟩ := foldlM_readEntry_eq_ok_iff.1 h
  rw [Bindings.contains_iff, Bindings.chords, (hperm.map _).mem_iff, ← mem_chords_iff hps]
  rfl

/-- **An entry fails for the first thing that is wrong with it.** -/
theorem readEntry_eq_error_iff (h : before.foldlM readEntry .empty = .ok m)
    {e : String × Option String} :
    readEntry m e = .error fault ↔ EntryFault before e fault := by
  have hcontains := contains_iff_of_foldlM h
  obtain ⟨chord, action⟩ := e
  constructor
  · intro hfail
    unfold readEntry at hfail
    split at hfail
    · next cause hchord =>
      cases hfail
      exact .chord hchord
    · next c hchord =>
      split at hfail
      · next cause haction =>
        cases hfail
        obtain ⟨s, rfl, hword, hid, rfl⟩ := readBinding_eq_error_iff.1 haction
        exact .action hchord hword hid
      · next b haction =>
        split at hfail
        · next hrepeated =>
          cases hfail
          obtain ⟨f, hmem, hsame⟩ := (hcontains c).1 hrepeated
          exact .repeated hchord (readBinding_eq_ok_iff.1 haction) hmem hsame
        · cases hfail
  · intro hfault
    cases hfault with
    | chord hchord => simp [readEntry, hchord]
    | action hchord hword hid =>
      have haction := readBinding_eq_error_iff.2 ⟨_, rfl, hword, hid, rfl⟩
      simp [readEntry, hchord, haction]
    | repeated hchord haction hmem hsame =>
      have hrepeated := (hcontains _).2 ⟨_, hmem, hsame⟩
      simp [readEntry, hchord, readBinding_eq_ok_iff.2 haction, hrepeated]

/-! ## §3 All entries -/

/-- The entries are read to the end when nothing is wrong with any of them. -/
theorem exists_foldlM_iff :
    (∃ m, es.foldlM readEntry .empty = .ok m) ↔ IsFaultless es := by
  constructor
  · rintro ⟨m, hm⟩ before e later fault rfl hfault
    -- the run has gone over the entry, and so it has not failed there
    rw [List.foldlM_append, Except.bind_eq_ok_iff] at hm
    obtain ⟨n, hn, hrest⟩ := hm
    obtain ⟨k, hk, -⟩ := foldlM_cons_eq_ok_iff.1 hrest
    rw [(readEntry_eq_error_iff hn).2 hfault] at hk
    cases hk
  · intro hfaultless
    cases hrun : es.foldlM readEntry .empty with
    | ok m => exact ⟨m, rfl⟩
    | error fault =>
      obtain ⟨before, e, later, n, hsplit, hn, hfail⟩ := foldlM_eq_error_iff.1 hrun
      exact absurd ((readEntry_eq_error_iff hn).1 hfail) (hfaultless before e later fault hsplit)

/-- **The entries fail for the first of them that is wrong.** -/
theorem foldlM_readEntry_eq_error_iff :
    es.foldlM readEntry .empty = .error fault ↔
      ∃ before e later, es = before ++ e :: later ∧ IsFaultless before ∧
        EntryFault before e fault := by
  rw [foldlM_eq_error_iff]
  constructor
  · rintro ⟨before, e, later, m, hsplit, hm, hfail⟩
    exact ⟨before, e, later, hsplit, exists_foldlM_iff.1 ⟨m, hm⟩,
      (readEntry_eq_error_iff hm).1 hfail⟩
  · rintro ⟨before, e, later, hsplit, hbefore, hfault⟩
    obtain ⟨m, hm⟩ := exists_foldlM_iff.2 hbefore
    exact ⟨before, e, later, m, hsplit, hm, (readEntry_eq_error_iff hm).2 hfault⟩

/-! ## §4 A group -/

theorem readCondition_eq_error_iff {text : Option String} :
    readCondition text = .error fault ↔
      ∃ s cause, text = some s ∧ Condition.read s = .error cause ∧ fault = .condition s cause := by
  cases text with
  | none => simp [readCondition]
  | some s =>
    simp only [readCondition, Option.some.injEq, exists_and_left, exists_eq_left']
    cases Condition.read s <;> simp [eq_comm]

theorem exists_readCondition_iff {text : Option String} :
    (∃ c, readCondition text = .ok c) ↔ ∀ s, text = some s → ∃ c, Condition.read s = .ok c := by
  cases text with
  | none => simp [readCondition]
  | some s =>
    simp only [readCondition, Option.some.injEq, forall_eq']
    cases Condition.read s <;> simp

/-- **A group fails for the first thing that is wrong with it.** -/
theorem read_eq_error_iff {g : GroupText} : read g = .error fault ↔ g.HasFault fault := by
  rw [read, Except.bind_eq_error_iff]
  constructor
  · rintro (h | ⟨c, hc, h⟩)
    · obtain ⟨text, cause, htext, hcause, rfl⟩ := readCondition_eq_error_iff.1 h
      exact .condition htext hcause
    · rw [Except.bind_eq_error_iff] at h
      rcases h with h | ⟨m, -, h⟩
      · obtain ⟨before, e, later, hsplit, hbefore, hfault⟩ := foldlM_readEntry_eq_error_iff.1 h
        exact .entry (exists_readCondition_iff.1 ⟨c, hc⟩) hsplit hbefore hfault
      · cases h
  · intro h
    cases h with
    | condition htext hcause =>
      exact .inl (readCondition_eq_error_iff.2 ⟨_, _, htext, hcause, rfl⟩)
    | entry hcondition hsplit hbefore hfault =>
      obtain ⟨c, hc⟩ := exists_readCondition_iff.2 hcondition
      have hentries := foldlM_readEntry_eq_error_iff.2 ⟨_, _, _, hsplit, hbefore, hfault⟩
      exact .inr ⟨c, hc, Except.bind_eq_error_iff.2 (.inl hentries)⟩

/-- A group that is not valid has a fault. -/
theorem exists_hasFault_iff (g : GroupText) : (∃ fault, g.HasFault fault) ↔ ¬ g.IsValid := by
  rw [← exists_read_iff]
  simp only [← read_eq_error_iff]
  cases read g <;> simp

end Group

end Keybinding
