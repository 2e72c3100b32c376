import Keybinding.CommandLine.Response
import Keybinding.Proofs.Table.Effective
import Keybinding.Proofs.Table.Writing

/-!
# Lines and columns of a list

A list is printed as a line with the active flags and below it a line for each chord, in columns
that are filled up with spaces. A column that is too long pushes the others to the right. The lines
can be taken apart again all the same: each ends with the only line feed in it, and neither a chord
nor the id of an action holds a space, so that the columns lie on both sides of the first two runs
of spaces.
-/

namespace Keybinding

/-! ## §1 Lines -/

theorem not_mem_intercalate {α : Type} {a : α} {sep : List α} {ps : List (List α)} (hsep : a ∉ sep)
    (h : ∀ p ∈ ps, a ∉ p) : a ∉ List.intercalate sep ps := by
  induction ps with
  | nil => simp
  | cons p ps ih =>
    rw [List.forall_mem_cons] at h
    cases ps with
    | nil => simpa using h.1
    | cons q ps =>
      rw [List.intercalate_cons_cons, List.mem_append, List.mem_append, not_or, not_or]
      exact ⟨⟨h.1, hsep⟩, ih h.2⟩

namespace CommandLine

/-- The lines of a text, each of which ends with a line feed. -/
def linesOf (text : String) : List String :=
  (Text.split '\n' text).dropLast

theorem toList_unlines (lines : List String) :
    (unlines lines).toList = lines.flatMap fun l => l.toList ++ ['\n'] := by
  simp [unlines, List.flatMap_map]

/-- The lines of a text are those that it was made of. -/
theorem linesOf_unlines {lines : List String} (h : ∀ l ∈ lines, '\n' ∉ l.toList) :
    linesOf (unlines lines) = lines := by
  have hpieces : Text.pieces '\n' (unlines lines).toList = lines.map String.toList ++ [[]] := by
    rw [toList_unlines]
    induction lines with
    | nil => rfl
    | cons l lines ih =>
      rw [List.forall_mem_cons] at h
      rw [List.flatMap_cons, List.append_assoc, List.singleton_append,
        Text.pieces_append, Text.pieces_eq_singleton h.1, ih h.2]
      rfl
  rw [linesOf, Text.split, hpieces]
  simp

/-! ## §2 Columns -/

/-- A text is cut at its first run of spaces, which is left out. -/
def cutSpaces (s : List Char) : List Char × List Char :=
  (s.takeWhile (· ≠ ' '), (s.dropWhile (· ≠ ' ')).dropWhile (· = ' '))

/-- The columns of a line of a list. -/
structure Columns where
  chord : String
  action : String
  group : String
  deriving DecidableEq, Repr

/-- A line is cut at its first two runs of spaces. -/
def columns (line : String) : Columns :=
  let (chord, rest) := cutSpaces line.toList
  let (action, group) := cutSpaces rest
  ⟨String.ofList chord, String.ofList action, String.ofList group⟩

theorem cutSpaces_append {s rest : List Char} (n : Nat) (hs : ' ' ∉ s)
    (hrest : rest.head? ≠ some ' ') :
    cutSpaces (s ++ (List.replicate (n + 1) ' ' ++ rest)) = (s, rest) := by
  have hfirst : ∀ c ∈ s, decide (c ≠ ' ') = true := by
    intro c hc
    exact decide_eq_true fun h => hs (h ▸ hc)
  have hspaces : ∀ c ∈ List.replicate (n + 1) ' ', decide (c = ' ') = true := by
    intro c hc
    exact decide_eq_true (List.eq_of_mem_replicate hc)
  have hlast : rest.dropWhile (· = ' ') = rest := by
    cases rest with
    | nil => rfl
    | cons c rest =>
      have hc : c ≠ ' ' := by simpa using hrest
      rw [List.dropWhile_cons_of_neg (by simpa using hc)]
  rw [cutSpaces, List.takeWhile_append_of_pos hfirst, List.dropWhile_append_of_pos hfirst]
  -- the run of spaces stops the first column, and is dropped to its end
  have hstop : ∀ xs : List Char, (List.replicate (n + 1) ' ' ++ xs).dropWhile (· ≠ ' ') =
      List.replicate (n + 1) ' ' ++ xs := by
    intro xs
    rfl
  rw [hstop, List.dropWhile_append_of_pos hspaces, hlast]
  simp [List.replicate_succ]

theorem toList_padRight_append (width : Nat) (s t : String) :
    (Text.padRight width s ++ " " ++ t).toList =
      s.toList ++ (List.replicate (width - s.toList.length + 1) ' ' ++ t.toList) := by
  simp [Text.padRight, List.replicate_succ']

/-- **Columns are told apart whatever their widths.** -/
theorem columns_padRight {chord action group : String} (w v : Nat) (hchord : ' ' ∉ chord.toList)
    (haction : ' ' ∉ action.toList) (hne : action ≠ "") (hgroup : group.toList.head? ≠ some ' ') :
    columns (Text.padRight w chord ++ " " ++ (Text.padRight v action ++ " " ++ group)) =
      ⟨chord, action, group⟩ := by
  have hrest : (Text.padRight v action ++ " " ++ group).toList.head? ≠ some ' ' := by
    rw [toList_padRight_append]
    cases h : action.toList with
    | nil => exact absurd (String.toList_eq_nil_iff.1 h) hne
    | cons c cs =>
      rw [h, List.mem_cons, not_or] at haction
      simpa using fun hc => haction.1 hc.symm
  rw [columns, toList_padRight_append, cutSpaces_append _ hchord hrest, toList_padRight_append]
  simp only [cutSpaces_append _ haction hgroup, String.ofList_toList]

/-! ## §3 The lines of a list -/

/-- What is printed for a binding. -/
def actionText (b : Binding) : String :=
  (b.action?.map Action.id).getD "(unbound)"

/-- The columns that are printed for a chord. -/
def columnsOf (c : Chord) (r : Resolution) : Columns :=
  ⟨c.display, actionText r.binding, r.group.display⟩

/-- The line that is printed for a chord, without the line feed. -/
def lineOf (c : Chord) (r : Resolution) : String :=
  Text.padRight 24 c.display ++ " " ++
    (Text.padRight 32 (actionText r.binding) ++ " " ++ r.group.display)

theorem listLine_eq (c : Chord) (r : Resolution) : listLine c r = lineOf c r ++ "\n" := by
  simp only [listLine, lineOf, actionText, String.append_assoc]

theorem isSpace_of_mem_actionText {b : Binding} (h : b.IsCanonical) :
    ∀ d ∈ (actionText b).toList, Text.isSpace d = false := by
  cases b with
  | action a =>
    intro d hd
    have hbounds := (Action.IsCanonical.isId h).toNat_of_mem hd
    exact Text.isSpace_of_visible (by omega) (by omega)
  | unbound =>
    have hall : (actionText .unbound).toList.all (!Text.isSpace ·) = true := by decide +kernel
    intro d hd
    simpa using List.all_eq_true.1 hall d hd

theorem actionText_ne_empty {b : Binding} (h : b.IsCanonical) : actionText b ≠ "" := by
  cases b with
  | action a =>
    rcases Action.IsCanonical.isId h with ⟨space, verb, -, -, hid⟩
    intro hempty
    have hnil : a.id.toList = [] := String.toList_eq_nil_iff.2 hempty
    simp [hid] at hnil
  | unbound => decide

/-- An id is not taken for the mark of a chord that is taken away. -/
theorem id_ne_unbound {a : Action} (h : a.IsCanonical) : a.id ≠ "(unbound)" := by
  intro heq
  have hbounds := h.isId.toNat_of_mem (c := '(') (by rw [heq]; decide)
  exact absurd hbounds.1 (by decide)

theorem newline_not_mem_group (id : GroupId) : '\n' ∉ id.display.toList := by
  have hname : '\n' ∉ id.origin.name.toList := by
    cases id.origin <;> decide
  have hindex : '\n' ∉ Nat.toDigits 10 id.index := by
    intro hmem
    have hdigit := Text.toNat_of_isDigit (Nat.isDigit_of_mem_toDigits (by omega) (by omega) hmem)
    exact absurd hdigit.1 (by decide)
  simp [GroupId.display, hname, hindex]

theorem head?_group (id : GroupId) : id.display.toList.head? ≠ some ' ' := by
  have hname : id.origin.name.toList.head? ≠ some ' ' ∧ id.origin.name.toList ≠ [] := by
    cases id.origin <;> decide
  rw [GroupId.display, String.toList_append, String.toList_append, List.append_assoc,
    List.head?_append_of_ne_nil _ hname.2]
  exact hname.1

theorem newline_not_mem_active (active : FlagSet) : '\n' ∉ active.display.toList := by
  have hname : ∀ f : Flag, '\n' ∉ f.name.toList := by
    intro f
    cases f <;> decide
  simp only [FlagSet.display, String.toList_append, String.toList_intercalate, List.mem_append,
    not_or]
  refine ⟨⟨by decide, not_mem_intercalate (by decide) ?_⟩, by decide⟩
  intro p hp
  simp only [List.map_map, List.mem_map] at hp
  rcases hp with ⟨f, -, rfl⟩
  exact hname f

variable {c : Chord} {r : Resolution}

theorem space_not_mem_display (hc : c.key.IsCanonical) {d : Char} (hd : Text.isSpace d = true) :
    d ∉ c.display.toList := by
  intro hmem
  rw [Chord.isSpace_of_mem_display hc d hmem] at hd
  contradiction

theorem space_not_mem_actionText {b : Binding} (h : b.IsCanonical) {d : Char}
    (hd : Text.isSpace d = true) : d ∉ (actionText b).toList := by
  intro hmem
  rw [isSpace_of_mem_actionText h d hmem] at hd
  contradiction

theorem newline_not_mem_lineOf (hc : c.key.IsCanonical) (hr : r.binding.IsCanonical) :
    '\n' ∉ (lineOf c r).toList := by
  have hspace : Text.isSpace '\n' = true := by decide
  simp [lineOf, Text.padRight, space_not_mem_display hc hspace,
    space_not_mem_actionText hr hspace, newline_not_mem_group r.group]

/-- **The columns of a line are those that were printed.** -/
theorem columns_lineOf (hc : c.key.IsCanonical) (hr : r.binding.IsCanonical) :
    columns (lineOf c r) = columnsOf c r := by
  have hspace : Text.isSpace ' ' = true := by decide
  exact columns_padRight 24 32 (space_not_mem_display hc hspace)
    (space_not_mem_actionText hr hspace) (actionText_ne_empty hr) (head?_group r.group)

end CommandLine

end Keybinding
