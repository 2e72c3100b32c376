import Keybinding.Action
import Keybinding.Proofs.Text.Basic

/-!
# Which texts are actions

A text is read as an action when what is left of it after trimming is an id: two names with `::`
between them. The id of an action that has been read is read as the same action again, so that no
two of these actions share an id.
-/

namespace Keybinding.Action

/-! ## §1 Ids -/

/-- The text is a namespace and a verb with `::` between them. -/
def IsId (s : String) : Prop :=
  ∃ space verb : List Char,
    isName space = true ∧ isName verb = true ∧ s.toList = space ++ ':' :: ':' :: verb

theorem append_of_splitId? {s space verb : List Char} (h : splitId? s = some (space, verb)) :
    s = space ++ ':' :: ':' :: verb := by
  fun_induction splitId? s generalizing space with
  | case1 rest =>
    cases h
    rfl
  | case2 c rest _ ih =>
    obtain ⟨⟨space', verb'⟩, hp, heq⟩ := Option.map_eq_some_iff.1 h
    cases heq
    rw [ih hp]
    rfl
  | case3 => contradiction

/-- The first `::` is found behind a text without colons. -/
theorem splitId?_append {space : List Char} (hspace : ':' ∉ space) (verb : List Char) :
    splitId? (space ++ ':' :: ':' :: verb) = some (space, verb) := by
  induction space with
  | nil => rfl
  | cons c space ih =>
    -- the namespace has no colon, so the search goes on behind its first character
    have hc : c ≠ ':' := fun h => hspace (h ▸ List.mem_cons_self)
    have hrest : ':' ∉ space := fun h => hspace (List.mem_cons_of_mem c h)
    simp [splitId?, hc, ih hrest]

theorem colon_not_mem_of_isName {s : List Char} (h : isName s = true) : ':' ∉ s := by
  cases s with
  | nil => simp
  | cons c rest =>
    simp only [isName, Bool.and_eq_true, List.all_eq_true, Bool.or_eq_true, beq_iff_eq] at h
    intro hmem
    rcases List.mem_cons.1 hmem with rfl | hmem
    · exact absurd h.1 (by decide)
    · exact absurd (h.2 _ hmem) (by decide)

theorem isId_iff (s : String) : isId s.toList = true ↔ IsId s := by
  unfold isId IsId
  constructor
  · intro h
    split at h
    · next space verb hsplit =>
      obtain ⟨hspace, hverb⟩ := Bool.and_eq_true_iff.1 h
      exact ⟨space, verb, hspace, hverb, append_of_splitId? hsplit⟩
    · contradiction
  · rintro ⟨space, verb, hspace, hverb, hs⟩
    rw [hs, splitId?_append (colon_not_mem_of_isName hspace)]
    simp [hspace, hverb]

/-- The id of a command is an id. -/
theorem isId_command (c : Command) : isId c.id.toList = true := by
  cases c <;> decide +kernel

theorem not_isId_unbound : ¬ IsId "unbound" := by
  rw [← isId_iff]
  decide

/-- The characters of an id are visible characters of ASCII. -/
theorem IsId.toNat_of_mem {s : String} (h : IsId s) {c : Char} (hc : c ∈ s.toList) :
    48 ≤ c.toNat ∧ c.toNat ≤ 122 := by
  have hname : ∀ {cs : List Char}, isName cs = true → ∀ d ∈ cs, 48 ≤ d.toNat ∧ d.toNat ≤ 122 := by
    intro cs hcs d hd
    cases cs with
    | nil => simp at hd
    | cons e rest =>
      simp only [isName, Bool.and_eq_true, List.all_eq_true, Bool.or_eq_true, beq_iff_eq] at hcs
      rcases List.mem_cons.1 hd with rfl | hd
      · have hbounds := Text.toNat_of_isAlpha hcs.1
        omega
      · rcases hcs.2 d hd with hd | rfl
        · exact Text.toNat_of_isAlphanum hd
        · decide
  obtain ⟨space, verb, hspace, hverb, hs⟩ := h
  rw [hs, List.mem_append, List.mem_cons, List.mem_cons] at hc
  rcases hc with hc | rfl | rfl | hc
  · exact hname hspace c hc
  · decide
  · decide
  · exact hname hverb c hc

/-- There is nothing to trim at an id. -/
theorem IsId.trimmed_eq {s : String} (h : IsId s) : Text.trimmed s = s := by
  have hvisible : ∀ c ∈ s.toList, Text.isSpace c = false := by
    intro c hc
    have hbounds := h.toNat_of_mem hc
    exact Text.isSpace_of_visible (by omega) (by omega)
  rw [Text.trimmed, Text.trim_eq_self hvisible, String.ofList_toList]

/-! ## §2 Reading -/

/-- **A text is an action when an id is left of it after trimming.** -/
theorem exists_read_iff (text : String) :
    (∃ a, read text = .ok a) ↔ IsId (Text.trimmed text) := by
  rw [← isId_iff]
  simp only [read]
  split
  -- an id of a command is an id as well, so the two ways of reading ask for the same
  · next c hc =>
    rw [← Command.id_of_ofId? hc]
    simp [isId_command]
  · split <;> simp_all

/-- A text that is no action is quoted as it was given. -/
theorem read_eq_error_iff {text : String} {e : Error} :
    read text = .error e ↔ ¬ IsId (Text.trimmed text) ∧ e = ⟨text⟩ := by
  rw [← exists_read_iff]
  constructor
  · intro h
    refine ⟨by simp [h], ?_⟩
    simp only [read] at h
    split at h
    · cases h
    · split at h <;> cases h
      rfl
  · rintro ⟨hno, rfl⟩
    simp only [read] at hno ⊢
    split
    · next hc => simp [hc] at hno
    · next hc =>
      split
      · next hid => simp [hc, hid] at hno
      · rfl

theorem read_trimmed_eq_ok_iff (text : String) (a : Action) :
    read (Text.trimmed text) = .ok a ↔ read text = .ok a := by
  simp only [read, Text.trimmed_trimmed]
  split
  · rfl
  · split <;> simp

/-! ## §3 Reading an id -/

/-- An action that its id tells: a command, or an id that is the id of no command. -/
def IsCanonical : Action → Prop
  | builtin _ => True
  | custom id => IsId id ∧ Command.ofId? id = none

theorem IsCanonical.isId {a : Action} (h : a.IsCanonical) : IsId a.id := by
  cases a with
  | builtin c => exact (isId_iff _).1 (isId_command c)
  | custom id => exact h.1

/-- **What is read is told by its id.** -/
theorem isCanonical_of_read {text : String} {a : Action} (h : read text = .ok a) :
    a.IsCanonical := by
  simp only [read] at h
  split at h
  · cases h
    trivial
  · next hnone =>
    split at h
    · next hid =>
      cases h
      exact ⟨(isId_iff _).1 hid, hnone⟩
    · cases h

/-- **An id is read as its action.** -/
theorem read_id {a : Action} (h : a.IsCanonical) : read a.id = .ok a := by
  simp only [read, h.isId.trimmed_eq]
  cases a with
  | builtin c => simp [id, Command.ofId?_id]
  | custom id =>
    have hid : isId id.toList = true := (isId_iff id).2 h.1
    simp [Action.id, h.2, hid]

/-- Actions that their ids tell do not share one. -/
theorem eq_of_id_eq {a b : Action} (ha : a.IsCanonical) (hb : b.IsCanonical) (h : a.id = b.id) :
    a = b := by
  have hread := read_id ha
  rw [h, read_id hb] at hread
  exact (Except.ok.inj hread).symm

end Keybinding.Action
