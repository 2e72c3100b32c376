import Keybinding.Proofs.Action
import Keybinding.Proofs.Bindings
import Keybinding.Proofs.Steps
import Keybinding.Table.Reader

/-!
# What written groups mean

A written group means a group when its condition and its chords can be read, its actions are null,
the word `unbound` or ids, and no two of its entries mean the same chord. The group that is read
then binds each chord as the one entry of this chord says, and nothing else.

Entries are read one after the other into a map. The map after a run holds, up to order, what was in
it before and what the entries mean (`foldlM_readEntry_eq_ok_iff`).
-/

namespace Keybinding

/-! ## §1 What entries mean -/

/-- The binding that the text of an action means. -/
inductive Binding.IsMeant : Option String → Binding → Prop where
  | null : IsMeant none .unbound
  /-- The word that takes a chord away. -/
  | word {text : String} (h : Text.trimmed text = "unbound") : IsMeant (some text) .unbound
  | action {text : String} {a : Action} (h : Action.read text = .ok a) :
    IsMeant (some text) (.action a)

namespace GroupText

/-- The chord and the binding that an entry means. -/
structure IsMeant (e : String × Option String) (p : Chord × Binding) : Prop where
  chord : Chord.read e.1 = .ok p.1
  binding : Binding.IsMeant e.2 p.2

/-- The entries whose chord is read as the given one. -/
def entriesFor (g : GroupText) (c : Chord) : List (String × Option String) :=
  g.bindings.filter fun e => Chord.read e.1 = .ok c

theorem entriesFor_ne_nil_iff {g : GroupText} {c : Chord} :
    g.entriesFor c ≠ [] ↔ ∃ e ∈ g.bindings, Chord.read e.1 = .ok c := by
  rw [Ne, entriesFor, List.filter_eq_nil_iff]
  simp

/-- The group can be read. -/
structure IsValid (g : GroupText) : Prop where
  condition : ∀ text, g.context = some text → ∃ c, Condition.read text = .ok c
  chords : ∀ e ∈ g.bindings, ∃ c, Chord.read e.1 = .ok c
  actions : ∀ e ∈ g.bindings, ∀ text, e.2 = some text →
    Text.trimmed text = "unbound" ∨ Action.IsId (Text.trimmed text)
  /-- Two entries are never read as the same chord. -/
  distinct : g.bindings.Pairwise fun e f => ∀ c, Chord.read e.1 = .ok c → Chord.read f.1 ≠ .ok c

theorem distinct_symm {e f : String × Option String}
    (h : ∀ c, Chord.read e.1 = .ok c → Chord.read f.1 ≠ .ok c) :
    ∀ c, Chord.read f.1 = .ok c → Chord.read e.1 ≠ .ok c :=
  fun c hf he => h c he hf

/-- A group has the condition and the bindings that are written. -/
structure Means (g : GroupText) (G : Group) : Prop where
  condition : G.condition.map Except.ok = g.context.map Condition.read
  /-- No entry, no binding. -/
  absent : ∀ c, g.entriesFor c = [] → G.get? c = none
  /-- Where there is an entry, it is the only one. -/
  present : ∀ c, g.entriesFor c ≠ [] →
    ∃ e b, g.entriesFor c = [e] ∧ Binding.IsMeant e.2 b ∧ G.get? c = some b
  size : G.bindings.size = g.bindings.length
  listed : ∀ c b, (c, b) ∈ G.bindings.entries ↔ ∃ e ∈ g.bindings, IsMeant e (c, b)
  increasing : G.bindings.entries.Pairwise fun p q => p.1 < q.1

end GroupText

namespace Group

/-! ## §2 Reading one entry -/

theorem readBinding_eq_ok_iff {text : Option String} {b : Binding} :
    readBinding text = .ok b ↔ Binding.IsMeant text b := by
  cases text with
  | none =>
    constructor
    · intro h
      cases h
      exact .null
    · intro h
      cases h
      rfl
  | some text =>
    simp only [readBinding]
    -- the word is no id, so no text is both
    split
    · next hword =>
      constructor
      · intro h
        cases h
        exact .word hword
      · intro h
        cases h with
        | word => rfl
        | action ha =>
          have hid : Action.IsId (Text.trimmed text) := (Action.exists_read_iff text).1 ⟨_, ha⟩
          exact absurd (hword ▸ hid) Action.not_isId_unbound
    · next hword =>
      rw [Except.map_eq_ok_iff]
      constructor
      · rintro ⟨a, ha, rfl⟩
        exact .action ((Action.read_trimmed_eq_ok_iff text a).1 ha)
      · intro h
        cases h with
        | word h => exact absurd h hword
        | action ha => exact ⟨_, (Action.read_trimmed_eq_ok_iff text _).2 ha, rfl⟩

/-- What a text means is settled by the text. -/
theorem binding_unique {text : Option String} {b b' : Binding}
    (h : Binding.IsMeant text b) (h' : Binding.IsMeant text b') : b = b' :=
  Except.ok.inj ((readBinding_eq_ok_iff.2 h).symm.trans (readBinding_eq_ok_iff.2 h'))

/-- One entry adds what it means, if its chord is new. -/
theorem readEntry_eq_ok_iff {m n : Bindings} {e : String × Option String} :
    readEntry m e = .ok n ↔
      ∃ p, GroupText.IsMeant e p ∧ p.1 ∉ m.chords ∧ n = m.insert p.1 p.2 := by
  constructor
  · intro h
    unfold readEntry at h
    split at h
    · contradiction
    · next c hc =>
      split at h
      · contradiction
      · next b hb =>
        split at h
        · contradiction
        · next hnew =>
          cases h
          have hnew : c ∉ m.chords := fun h => hnew (Bindings.contains_iff.2 h)
          exact ⟨(c, b), ⟨hc, readBinding_eq_ok_iff.1 hb⟩, hnew, rfl⟩
  · rintro ⟨⟨c, b⟩, ⟨hc, hb⟩, hnew, rfl⟩
    have hcontains : m.contains c = false := by
      rw [← Bool.not_eq_true, Bindings.contains_iff]
      exact hnew
    simp only [readEntry, hc, readBinding_eq_ok_iff.2 hb, hcontains]
    rfl

/-- An entry has a meaning when its chord can be read and its action is null, the word or an id. -/
theorem exists_isMeant_iff (e : String × Option String) :
    (∃ p, GroupText.IsMeant e p) ↔
      (∃ c, Chord.read e.1 = .ok c) ∧
        ∀ text, e.2 = some text →
          Text.trimmed text = "unbound" ∨ Action.IsId (Text.trimmed text) := by
  obtain ⟨chord, action⟩ := e
  constructor
  · rintro ⟨⟨c, b⟩, hc, hb⟩
    refine ⟨⟨c, hc⟩, ?_⟩
    rintro text rfl
    cases hb with
    | word h => exact .inl h
    | action ha => exact .inr ((Action.exists_read_iff text).1 ⟨_, ha⟩)
  · rintro ⟨⟨c, hc⟩, haction⟩
    cases action with
    | none => exact ⟨(c, .unbound), hc, .null⟩
    | some text =>
      rcases haction text rfl with hword | hid
      · exact ⟨(c, .unbound), hc, .word hword⟩
      · obtain ⟨a, ha⟩ := (Action.exists_read_iff text).2 hid
        exact ⟨(c, .action a), hc, .action ha⟩

/-! ## §3 Reading all entries -/

section Insert

variable {m : Bindings} {p : Chord × Binding} (h : p.1 ∉ m.chords) (ps : List (Chord × Binding))
include h

theorem entries_insert_append_perm :
    ((m.insert p.1 p.2).entries ++ ps).Perm (m.entries ++ p :: ps) :=
  ((Bindings.entries_insert_perm p.2 h).append_right ps).trans List.perm_middle.symm

theorem nodup_insert_append_iff :
    ((m.insert p.1 p.2).chords ++ ps.map (·.1)).Nodup ↔
      (m.chords ++ (p :: ps).map (·.1)).Nodup := by
  have hperm := (entries_insert_append_perm h ps).map (·.1)
  rw [List.map_append, List.map_append] at hperm
  exact hperm.nodup_iff

end Insert

/-- **What the entries mean joins what was there before.** -/
theorem foldlM_readEntry_eq_ok_iff {es : List (String × Option String)} {m n : Bindings} :
    es.foldlM readEntry m = .ok n ↔
      ∃ ps, List.Forall₂ GroupText.IsMeant es ps ∧ (m.chords ++ ps.map (·.1)).Nodup ∧
        n.entries.Perm (m.entries ++ ps) := by
  -- along the run the map grows, and what it lacks at the start moves over from the entries
  induction es generalizing m with
  | nil =>
    simp only [List.foldlM_nil, List.forall₂_nil_left_iff, exists_eq_left, List.map_nil,
      List.append_nil]
    constructor
    · intro h
      obtain rfl : m = n := Except.ok.inj h
      exact ⟨m.nodup_chords, List.Perm.refl _⟩
    · rintro ⟨-, hperm⟩
      -- maps know no order but that of their chords
      exact congrArg Except.ok (Bindings.eq_of_perm hperm.symm)
  | cons e es ih =>
    rw [foldlM_cons_eq_ok_iff]
    constructor
    · rintro ⟨k, hk, hn⟩
      obtain ⟨p, hp, hnew, rfl⟩ := readEntry_eq_ok_iff.1 hk
      obtain ⟨ps, hps, hnodup, hperm⟩ := ih.1 hn
      exact ⟨p :: ps, hps.cons hp, (nodup_insert_append_iff hnew ps).1 hnodup,
        hperm.trans (entries_insert_append_perm hnew ps)⟩
    · rintro ⟨_, hes, hnodup, hperm⟩
      obtain ⟨p, ps, hp, hps, rfl⟩ := List.forall₂_cons_left_iff.1 hes
      -- a chord that was there before would stand twice in the whole
      have hnew : p.1 ∉ m.chords := fun hmem =>
        (List.nodup_append.1 hnodup).2.2 p.1 hmem p.1 List.mem_cons_self rfl
      exact ⟨m.insert p.1 p.2, readEntry_eq_ok_iff.2 ⟨p, hp, hnew, rfl⟩,
        ih.2 ⟨ps, hps, (nodup_insert_append_iff hnew ps).2 hnodup,
          hperm.trans (entries_insert_append_perm hnew ps).symm⟩⟩

/-! ## §4 Chords of entries -/

section Entries

variable {es : List (String × Option String)} {ps : List (Chord × Binding)}

/-- The chords of the entries are the chords of what they mean. -/
theorem mem_chords_iff (h : List.Forall₂ GroupText.IsMeant es ps) (c : Chord) :
    c ∈ ps.map (·.1) ↔ ∃ e ∈ es, Chord.read e.1 = .ok c := by
  induction h with
  | nil => simp
  | @cons e p es ps hp _ ih =>
    rw [List.map_cons, List.mem_cons, ih, List.exists_mem_cons_iff, hp.chord, Except.ok.injEq]
    exact or_congr_left eq_comm

theorem nodup_chords_iff (h : List.Forall₂ GroupText.IsMeant es ps) :
    (ps.map (·.1)).Nodup ↔
      es.Pairwise fun e f => ∀ c, Chord.read e.1 = .ok c → Chord.read f.1 ≠ .ok c := by
  induction h with
  | nil => simp
  | @cons e p es ps hp hps ih =>
    rw [List.map_cons, List.nodup_cons, List.pairwise_cons, ih, mem_chords_iff hps]
    refine and_congr_left fun _ => ?_
    constructor
    · intro hnew f hf c hc hfc
      rw [hp.chord] at hc
      exact hnew ⟨f, hf, (Except.ok.inj hc) ▸ hfc⟩
    · rintro hapart ⟨f, hf, hfc⟩
      exact hapart f hf p.1 hp.chord hfc

/-- What an entry means is settled by its texts. -/
theorem isMeant_unique {e : String × Option String} {p q : Chord × Binding}
    (hp : GroupText.IsMeant e p) (hq : GroupText.IsMeant e q) : p = q := by
  have hchord : p.1 = q.1 := Except.ok.inj (hp.chord.symm.trans hq.chord)
  exact Prod.ext hchord (binding_unique hp.binding hq.binding)

theorem mem_iff_exists_isMeant (h : List.Forall₂ GroupText.IsMeant es ps)
    (p : Chord × Binding) : p ∈ ps ↔ ∃ e ∈ es, GroupText.IsMeant e p := by
  induction h with
  | nil => simp
  | @cons e q es ps hq _ ih =>
    rw [List.mem_cons, ih, List.exists_mem_cons_iff]
    refine or_congr_left ?_
    constructor
    · rintro rfl
      exact hq
    · intro hp
      exact isMeant_unique hp hq

/-- Where chords are bound once, one entry is found at a chord that is bound. -/
theorem filter_eq_singleton (h : List.Forall₂ GroupText.IsMeant es ps)
    (hnodup : (ps.map (·.1)).Nodup) {c : Chord} {b : Binding} (hmem : (c, b) ∈ ps) :
    ∃ e, es.filter (fun e => Chord.read e.1 = .ok c) = [e] ∧ GroupText.IsMeant e (c, b) := by
  induction h with
  | nil => contradiction
  | @cons e p es ps hp hps ih =>
    obtain ⟨hnew, hnodup⟩ := List.nodup_cons.1 hnodup
    rcases List.mem_cons.1 hmem with rfl | hmem
    -- the first entry is the one, and the chords behind it are others
    · refine ⟨e, ?_, hp⟩
      rw [List.filter_cons, if_pos (decide_eq_true hp.chord), List.cons_inj_right,
        List.filter_eq_nil_iff]
      intro f hf hfc
      exact hnew ((mem_chords_iff hps c).2 ⟨f, hf, of_decide_eq_true hfc⟩)
    -- the one is behind the first entry, which has another chord
    · have hne : Chord.read e.1 ≠ .ok c := by
        rintro hc
        rw [hp.chord] at hc
        exact hnew (List.mem_map.2 ⟨_, hmem, (Except.ok.inj hc).symm⟩)
      rw [List.filter_cons, if_neg fun h => hne (of_decide_eq_true h)]
      exact ih hnodup hmem

end Entries

/-! ## §5 Reading a group -/

theorem readCondition_eq_ok_iff {text : Option String} {c : Option Condition} :
    readCondition text = .ok c ↔ c.map Except.ok = text.map Condition.read := by
  cases text with
  | none =>
    constructor
    · intro h
      cases h
      rfl
    · intro h
      rw [Option.map_none, Option.map_eq_none_iff] at h
      exact congrArg Except.ok h.symm
  | some text =>
    simp only [readCondition]
    cases h : Condition.read text <;> cases c <;> simp [h, eq_comm]

theorem read_eq_ok_iff {g : GroupText} {G : Group} :
    read g = .ok G ↔
      G.condition.map Except.ok = g.context.map Condition.read ∧
        ∃ ps, List.Forall₂ GroupText.IsMeant g.bindings ps ∧ (ps.map (·.1)).Nodup ∧
          G.bindings.entries.Perm ps := by
  have hrun : g.bindings.foldlM readEntry .empty = .ok G.bindings ↔ _ :=
    foldlM_readEntry_eq_ok_iff
  rw [show Bindings.empty.chords = [] from rfl, show Bindings.empty.entries = [] from rfl] at hrun
  simp only [List.nil_append] at hrun
  rw [← readCondition_eq_ok_iff, ← hrun, read, Except.bind_eq_ok_iff]
  simp only [Except.bind_eq_ok_iff]
  constructor
  · rintro ⟨c, hc, m, hm, h⟩
    cases h
    exact ⟨hc, hm⟩
  · rintro ⟨hc, hm⟩
    exact ⟨_, hc, _, hm, rfl⟩

/-- **A written group can be read when it is valid.** -/
theorem exists_read_iff (g : GroupText) : (∃ G, read g = .ok G) ↔ g.IsValid := by
  constructor
  · rintro ⟨G, hG⟩
    obtain ⟨hcondition, ps, hps, hnodup, -⟩ := read_eq_ok_iff.1 hG
    have hmeant := exists_forall₂_iff.1 ⟨ps, hps⟩
    refine ⟨?_, ?_, ?_, (nodup_chords_iff hps).1 hnodup⟩
    · intro text htext
      rw [htext, Option.map_some, Option.map_eq_some_iff] at hcondition
      obtain ⟨c, -, hc⟩ := hcondition
      exact ⟨c, hc.symm⟩
    · exact fun e he => ((exists_isMeant_iff e).1 (hmeant e he)).1
    · exact fun e he => ((exists_isMeant_iff e).1 (hmeant e he)).2
  · intro hvalid
    have hmeant : ∀ e ∈ g.bindings, ∃ p, GroupText.IsMeant e p := fun e he =>
      (exists_isMeant_iff e).2 ⟨hvalid.chords e he, hvalid.actions e he⟩
    obtain ⟨ps, hps⟩ := exists_forall₂_iff.2 hmeant
    -- distinct chords make a map of what the entries mean, in whatever order they come
    have hnodup := (nodup_chords_iff hps).2 hvalid.distinct
    obtain ⟨m, hm⟩ := Bindings.exists_entries_perm hnodup
    obtain ⟨c, hc⟩ : ∃ c : Option Condition,
        c.map Except.ok = g.context.map Condition.read := by
      cases htext : g.context with
      | none => exact ⟨none, rfl⟩
      | some text =>
        obtain ⟨c, hc⟩ := hvalid.condition text htext
        exact ⟨some c, congrArg some hc.symm⟩
    exact ⟨⟨c, m⟩, read_eq_ok_iff.2 ⟨hc, ps, hps, hnodup, hm⟩⟩

/-- **A group that has been read is what was written.** -/
theorem means_of_read {g : GroupText} {G : Group} (h : read g = .ok G) : g.Means G := by
  obtain ⟨hcondition, ps, hps, hnodup, hperm⟩ := read_eq_ok_iff.1 h
  have hget : ∀ c b, G.get? c = some b ↔ (c, b) ∈ ps := by
    intro c b
    rw [Group.get?, Bindings.get?_eq_some_iff, hperm.mem_iff]
  have hchords : ∀ c, c ∈ G.bindings.chords ↔ ∃ e ∈ g.bindings, Chord.read e.1 = .ok c := by
    intro c
    rw [← mem_chords_iff hps, Bindings.chords, (hperm.map _).mem_iff]
  refine ⟨hcondition, ?_, ?_, ?_, ?_, G.bindings.sorted⟩
  · intro c habsent
    rw [Group.get?, Bindings.get?_eq_none_iff, hchords]
    intro hentry
    exact GroupText.entriesFor_ne_nil_iff.2 hentry habsent
  · intro c hpresent
    have hentry := GroupText.entriesFor_ne_nil_iff.1 hpresent
    obtain ⟨⟨_, b⟩, hmem, rfl⟩ := List.mem_map.1 ((mem_chords_iff hps c).2 hentry)
    obtain ⟨f, hf, hmeant⟩ := filter_eq_singleton hps hnodup hmem
    exact ⟨f, b, hf, hmeant.binding, (hget _ b).2 hmem⟩
  · rw [Bindings.size, hperm.length_eq, hps.length_eq]
  · intro c b
    rw [hperm.mem_iff, mem_iff_exists_isMeant hps]

end Group

end Keybinding
