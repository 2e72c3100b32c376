import Keybinding.Proofs.Action

/-!
# Ids and their parts

An id is a namespace and a verb with `::` between them, both of them words of ASCII. It has no other
`::`, and therefore it can be taken apart in one way only. An action that has been read is as good
as its id: the id is what is left of the text after trimming, and it is the id of a command exactly
when the action is this command.

- `read_tells_id`: which texts are actions, and what their actions are.
-/

namespace Keybinding.Action

open Text

/-! ## §1 Words -/

/-- A letter of ASCII. -/
def IsLetter (c : Char) : Prop :=
  'A' ≤ c ∧ c ≤ 'Z' ∨ 'a' ≤ c ∧ c ≤ 'z'

/-- A letter with letters, digits and underscores behind it, all of ASCII. -/
def IsWord (s : String) : Prop :=
  ∃ c rest, s.toList = c :: rest ∧ IsLetter c ∧
    ∀ d ∈ rest, IsLetter d ∨ '0' ≤ d ∧ d ≤ '9' ∨ d = '_'

theorem isLetter_iff {c : Char} : IsLetter c ↔ c.isAlpha = true := by
  have hupper : c.isUpper = true ↔ 'A' ≤ c ∧ c ≤ 'Z' := decide_eq_true_iff
  have hlower : c.isLower = true ↔ 'a' ≤ c ∧ c ≤ 'z' :=
    Bool.and_eq_true_iff.trans (and_congr decide_eq_true_iff decide_eq_true_iff)
  have halpha : c.isAlpha = true ↔ c.isUpper = true ∨ c.isLower = true := Bool.or_eq_true_iff
  rw [IsLetter, halpha, hupper, hlower]

theorem isName_toList_iff {s : String} : isName s.toList = true ↔ IsWord s := by
  have hdigit : ∀ d : Char, '0' ≤ d ∧ d ≤ '9' ↔ d.isDigit = true := by
    intro d
    simp [Char.isDigit, Char.le_def]
  unfold IsWord
  cases s.toList with
  | nil => simp [isName]
  | cons c rest => simp [isName, isLetter_iff, hdigit, Char.isAlphanum, or_assoc]

/-! ## §2 Taking an id apart -/

/-- The text is the words `space` and `verb` with `::` between them. -/
structure IsParted (s space verb : String) : Prop where
  isWord_space : IsWord space
  isWord_verb : IsWord verb
  eq : s = space ++ "::" ++ verb

theorem isId_iff_exists_isParted {s : String} : IsId s ↔ ∃ space verb, IsParted s space verb := by
  constructor
  · rintro ⟨space, verb, hspace, hverb, hs⟩
    refine ⟨String.ofList space, String.ofList verb, ?_, ?_, ?_⟩
    · rwa [← isName_toList_iff, String.toList_ofList]
    · rwa [← isName_toList_iff, String.toList_ofList]
    · rw [← String.toList_inj, hs]
      simp
  · rintro ⟨space, verb, hspace, hverb, rfl⟩
    refine ⟨space.toList, verb.toList, isName_toList_iff.2 hspace, isName_toList_iff.2 hverb, ?_⟩
    simp

/-- Between texts without colons there is one `::`. -/
theorem eq_of_append_colons {space verb space' verb' : List Char} (hspace : ':' ∉ space)
    (hverb : ':' ∉ verb) (h : space ++ ':' :: ':' :: verb = space' ++ ':' :: ':' :: verb') :
    space' = space ∧ verb' = verb := by
  induction space generalizing space' with
  | nil =>
    -- the text starts with its only two colons
    match space' with
    | [] => simpa using h.symm
    | [c] => simp_all
    | c :: d :: space' => simp_all
  | cons c space ih =>
    simp only [List.mem_cons, not_or] at hspace
    cases space' with
    | nil => simp_all
    | cons d space' =>
      obtain ⟨rfl, hrest⟩ := List.cons.inj h
      obtain ⟨rfl, rfl⟩ := ih hspace.2 hrest
      exact ⟨rfl, rfl⟩

theorem IsParted.colon_not_mem {s space verb : String} (h : IsParted s space verb) :
    ':' ∉ space.toList ∧ ':' ∉ verb.toList :=
  ⟨colon_not_mem_of_isName (isName_toList_iff.2 h.isWord_space),
    colon_not_mem_of_isName (isName_toList_iff.2 h.isWord_verb)⟩

/-- An id has no `::` but the one between its parts. -/
theorem IsParted.eq_of_append {s space verb space' verb' : String} (h : IsParted s space verb)
    (h' : s = space' ++ "::" ++ verb') : space' = space ∧ verb' = verb := by
  have htext : space.toList ++ ':' :: ':' :: verb.toList =
      space'.toList ++ ':' :: ':' :: verb'.toList := by
    have heq := congrArg String.toList (h.eq.symm.trans h')
    simpa using heq
  rw [← String.toList_inj, ← String.toList_inj]
  exact eq_of_append_colons h.colon_not_mem.1 h.colon_not_mem.2 htext

/-- The parts of the id of an action are its namespace and its verb. -/
theorem IsParted.parts_eq {a : Action} {space verb : String} (h : IsParted a.id space verb) :
    a.namespacePart = space ∧ a.verb = verb := by
  have hsplit : splitId? a.id.toList = some (space.toList, verb.toList) := by
    rw [h.eq, ← splitId?_append h.colon_not_mem.1 verb.toList]
    simp
  simp [namespacePart, Action.verb, hsplit]

/-! ## §3 Reading -/

theorem id_of_read {text : String} {a : Action} (h : read text = .ok a) : a.id = trimmed text := by
  simp only [read] at h
  split at h
  · next c hc =>
    cases h
    exact Command.id_of_ofId? hc
  · split at h
    · cases h
      rfl
    · cases h

/-- An action that its id tells is a command when its id is the one of the command. -/
theorem IsCanonical.eq_builtin_iff {a : Action} (h : a.IsCanonical) {c : Command} :
    a = .builtin c ↔ c.id = a.id := by
  constructor
  · rintro rfl
    rfl
  · intro hid
    exact eq_of_id_eq h (b := .builtin c) trivial hid.symm

theorem isBuiltin_iff {a : Action} : a.isBuiltin = true ↔ ∃ c, a = .builtin c := by
  cases a <;> simp [isBuiltin]

/-- The text `s` without white space around it is the id of an action, and all that the action is
can be told from it. -/
structure IsIdOf (s : String) (a : Action) : Prop where
  id : a.id = s
  /-- The namespace and the verb are the words before and after `::`. -/
  parted : IsParted s a.namespacePart a.verb
  /-- There is no other `::`. -/
  parted_unique : ∀ space verb, s = space ++ "::" ++ verb →
    space = a.namespacePart ∧ verb = a.verb
  /-- The action is a command exactly when the id is the one of the command. -/
  builtin : ∀ c : Command, a = .builtin c ↔ c.id = s
  isBuiltin : a.isBuiltin = true ↔ ∃ c : Command, c.id = s
  /-- The id is read as the action again. -/
  read : read a.id = .ok a

theorem isIdOf_of_read {text : String} {a : Action} (h : read text = .ok a) :
    IsIdOf (trimmed text) a := by
  have hid := id_of_read h
  have hcanonical := isCanonical_of_read h
  obtain ⟨space, verb, hparted⟩ := isId_iff_exists_isParted.1 hcanonical.isId
  obtain ⟨rfl, rfl⟩ := hparted.parts_eq
  rw [← hid]
  refine ⟨rfl, hparted, fun _ _ => hparted.eq_of_append, fun c => hcanonical.eq_builtin_iff, ?_,
    read_id hcanonical⟩
  simp [isBuiltin_iff, hcanonical.eq_builtin_iff]

/-- **The texts that are actions, and what they mean.** What is left of a text after trimming has to
be two words with `::` between them. It is the id of the action then, and the action is told by it:
texts mean the same action exactly when the same is left of them. A text that is no action is quoted
with the white space around it. -/
theorem read_tells_id :
    (∀ text, (∃ a, read text = .ok a) ↔ ∃ space verb, IsParted (trimmed text) space verb) ∧
      (∀ text a, read text = .ok a → IsIdOf (trimmed text) a) ∧
      (∀ text text' a a', read text = .ok a → read text' = .ok a' →
        (a = a' ↔ trimmed text = trimmed text')) ∧
      ∀ text e, read text = .error e →
        e.message = "invalid action id `" ++ text ++ "`: expected `namespace::verb`" := by
  refine ⟨fun text => ?_, fun text a => isIdOf_of_read, fun text text' a a' h h' => ?_,
    fun text e h => ?_⟩
  · rw [exists_read_iff, isId_iff_exists_isParted]
  · rw [← id_of_read h, ← id_of_read h']
    exact ⟨congrArg id, eq_of_id_eq (isCanonical_of_read h) (isCanonical_of_read h')⟩
  · obtain ⟨-, rfl⟩ := read_eq_error_iff.1 h
    rfl

/-- A command, an id of the host, and a text with a colon too many. -/
theorem read_tells_id_spaced :
    (read " app::quit\n" = .ok (.builtin .appQuit) ∧ IsIdOf "app::quit" (.builtin .appQuit)) ∧
      (read "app::quit_2" = .ok (.custom "app::quit_2") ∧
        (Action.builtin .appQuit = .custom "app::quit_2" ↔ "app::quit" = "app::quit_2")) ∧
      ∃ e, read " a:::b" = .error e ∧
        e.message = "invalid action id ` a:::b`: expected `namespace::verb`" := by
  obtain ⟨-, htold, hequal, hquoted⟩ := read_tells_id
  have hcommand : read " app::quit\n" = .ok (.builtin .appQuit) := by decide +kernel
  have hcustom : read "app::quit_2" = .ok (.custom "app::quit_2") := by decide +kernel
  have herror : read " a:::b" = .error ⟨" a:::b"⟩ := by decide +kernel
  have htrimmed : trimmed " app::quit\n" = "app::quit" := by decide +kernel
  have htrimmed' : trimmed "app::quit_2" = "app::quit_2" := by decide +kernel
  refine ⟨⟨hcommand, ?_⟩, ⟨hcustom, ?_⟩, _, herror, hquoted _ _ herror⟩
  · rw [← htrimmed]
    exact htold _ _ hcommand
  · have hiff := hequal _ _ _ _ hcommand hcustom
    rwa [htrimmed, htrimmed'] at hiff

end Keybinding.Action
