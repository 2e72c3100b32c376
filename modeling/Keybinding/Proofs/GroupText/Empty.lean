import Keybinding.Proofs.Loading
import Keybinding.Proofs.Text.Basic
import Keybinding.Proofs.Yaml.Blank

/-!
# Documents without content

A document without content should list no groups. Only one that is all white space does. As soon as
one of its lines is a comment, the document is looked at, no node is found in it, and it is refused.
A file in which everything is commented out can thus not be used.
-/

namespace Keybinding

open Yaml

/-! ## §1 Lines -/

namespace Text

/-- The lines of a text. -/
def lines (cs : List Char) : List (List Char) :=
  cs.splitOnP endsLine

/-- There is nothing on a line but blanks. -/
def IsBlankLine (line : List Char) : Prop :=
  ∀ c ∈ line, isBlank c = true

/-- There is nothing on a line but blanks and a comment after them. -/
def IsCommentLine (line : List Char) : Prop :=
  ∃ blanks comment, line = blanks ++ '#' :: comment ∧ IsBlankLine blanks

variable {c : Char} {cs line : List Char}

theorem isSpace_of_endsLine (hc : endsLine c = true) : isSpace c = true := by
  simp only [endsLine, isBreak, Bool.or_eq_true, beq_iff_eq] at hc
  rcases hc with (rfl | rfl) | (rfl | rfl) | rfl <;> decide

theorem isSpace_of_isBlank (hc : isBlank c = true) : isSpace c = true := by
  simp only [isBlank, Bool.or_eq_true, beq_iff_eq] at hc
  rcases hc with rfl | rfl <;> decide

theorem lines_cons_of_endsLine (hc : endsLine c = true) : lines (c :: cs) = [] :: lines cs := by
  rw [lines, List.splitOnP_cons_eq_if_modifyHead, if_pos hc]
  rfl

/-- Every text has a first line. -/
theorem exists_lines (cs : List Char) : ∃ line rest, lines cs = line :: rest :=
  List.exists_cons_of_ne_nil (List.splitOnP_ne_nil endsLine cs)

/-- A character that ends no line belongs to the first one. -/
theorem exists_lines_cons (hc : ¬ endsLine c = true) (cs : List Char) :
    ∃ line rest, lines cs = line :: rest ∧ lines (c :: cs) = (c :: line) :: rest := by
  obtain ⟨line, rest, hlines⟩ := exists_lines cs
  refine ⟨line, rest, hlines, ?_⟩
  rw [lines] at hlines ⊢
  rw [List.splitOnP_cons_eq_if_modifyHead, if_neg hc, hlines]
  rfl

/-- The characters of a text that end no line are those of its lines. -/
theorem mem_iff_exists_line (hc : ¬ endsLine c = true) :
    c ∈ cs ↔ ∃ line ∈ lines cs, c ∈ line := by
  induction cs with
  | nil => simp [lines]
  | cons d cs ih =>
    rw [List.mem_cons, ih]
    by_cases hd : endsLine d = true
    · rw [lines_cons_of_endsLine hd]
      -- the line that ends here is empty
      have hne : c ≠ d := by
        rintro rfl
        exact hc hd
      simp [hne]
    · obtain ⟨line, rest, hrest, hlines⟩ := exists_lines_cons hd cs
      rw [hrest, hlines]
      simp [or_assoc]

/-- A blank is no comment. -/
theorem IsCommentLine.not_isBlankLine (h : IsCommentLine line) : ¬ IsBlankLine line := by
  obtain ⟨blanks, comment, rfl, -⟩ := h
  intro hblank
  have hmark := hblank '#' (List.mem_append_right blanks List.mem_cons_self)
  contradiction

/-- There is no content on a line. -/
def IsIdleLine (line : List Char) : Prop :=
  IsBlankLine line ∨ IsCommentLine line

/-- A line without content that does not start with a comment goes on without content. -/
theorem isIdleLine_cons (h : IsIdleLine (c :: line)) :
    c = '#' ∨ isBlank c = true ∧ IsIdleLine line := by
  rcases h with h | ⟨blanks, comment, hline, hblanks⟩
  · obtain ⟨hc, hline⟩ := List.forall_mem_cons.1 h
    exact .inr ⟨hc, .inl hline⟩
  · cases blanks with
    | nil => exact .inl (List.cons.inj hline).1
    | cons b blanks =>
      obtain ⟨rfl, rfl⟩ := List.cons.inj hline
      obtain ⟨hc, hblanks⟩ := List.forall_mem_cons.1 hblanks
      exact .inr ⟨hc, .inr ⟨blanks, comment, rfl, hblanks⟩⟩

/-- A text is idle if its lines have no content. On the first one anything can stand if it goes on
with a comment. -/
theorem isIdle_of_lines {comment : Bool} {rest : List (List Char)} (h : lines cs = line :: rest)
    (hline : comment = true ∨ IsIdleLine line) (hrest : ∀ l ∈ rest, IsIdleLine l) :
    IsIdle comment cs := by
  -- the first line gets shorter, and where it ends the next one takes its place
  induction cs generalizing comment line rest with
  | nil => trivial
  | cons c cs ih =>
    by_cases hc : endsLine c = true
    · obtain ⟨first, later, hlines⟩ := exists_lines cs
      rw [lines_cons_of_endsLine hc] at h
      obtain ⟨-, rfl⟩ := List.cons.inj h
      rw [hlines, List.forall_mem_cons] at hrest
      rw [isIdle_of_endsLine hc]
      exact ih hlines (.inr hrest.1) hrest.2
    · obtain ⟨first, later, hfirst, hlines⟩ := exists_lines_cons hc cs
      obtain ⟨rfl, rfl⟩ := List.cons.inj (hlines.symm.trans h)
      have hcomment : IsIdle true cs := ih hfirst (.inl rfl) hrest
      cases comment with
      | true => rwa [isIdle_true_cons hc]
      | false =>
        -- a blank, or the mark of a comment that takes up the rest of the line
        have hidle := isIdleLine_cons (hline.resolve_left Bool.false_ne_true)
        rw [isIdle_false_cons hc]
        obtain rfl | ⟨hblank, hgoes⟩ := hidle
        · exact ⟨rfl, hcomment⟩
        · rw [if_pos hblank]
          exact ih hfirst (.inr hgoes) hrest

end Text

namespace GroupText

variable {text : String}

/-! ## §2 Documents without content -/

/-- There is no content on any line of a text. -/
def IsWithoutContent (text : String) : Prop :=
  ∀ line ∈ Text.lines text.toList, Text.IsIdleLine line

theorem IsWithoutContent.isIdle (h : IsWithoutContent text) : IsIdle false text.toList := by
  obtain ⟨line, rest, hlines⟩ := Text.exists_lines text.toList
  rw [IsWithoutContent, hlines, List.forall_mem_cons] at h
  exact Text.isIdle_of_lines hlines (.inr h.1) h.2

/-- A text with blanks on its lines is all white space. -/
theorem isEmpty_trim_of_isBlankLine (h : ∀ line ∈ Text.lines text.toList, Text.IsBlankLine line) :
    (Text.trim text.toList).isEmpty = true := by
  rw [Text.isEmpty_trim_iff]
  intro c hc
  by_cases hends : endsLine c = true
  · exact Text.isSpace_of_endsLine hends
  · obtain ⟨line, hline, hmem⟩ := (Text.mem_iff_exists_line hends).1 hc
    exact Text.isSpace_of_isBlank (h line hline c hmem)

/-- A text with a comment is not all white space. -/
theorem not_isEmpty_trim_of_isCommentLine
    (h : ∃ line ∈ Text.lines text.toList, Text.IsCommentLine line) :
    ¬ (Text.trim text.toList).isEmpty = true := by
  rw [Text.isEmpty_trim_iff]
  intro hspace
  obtain ⟨_, hline, blanks, comment, rfl, -⟩ := h
  have hmem : '#' ∈ text.toList := by
    rw [Text.mem_iff_exists_line (by decide)]
    exact ⟨_, hline, List.mem_append_right blanks List.mem_cons_self⟩
  exact absurd (hspace _ hmem) (by decide)

theorem readTable_of_isBlankLine (h : ∀ line ∈ Text.lines text.toList, Text.IsBlankLine line) :
    readTable text = .ok [] := by
  rw [readTable_eq_ok_iff]
  exact if_pos (isEmpty_trim_of_isBlankLine h)

/-- In a document without content there is no node. -/
theorem readTable_of_isCommentLine (h : IsWithoutContent text)
    (hcomment : ∃ line ∈ Text.lines text.toList, Text.IsCommentLine line) :
    readTable text = .error .malformed := by
  have hnone : readTable? text = none := by
    rw [readTable?, if_neg (not_isEmpty_trim_of_isCommentLine hcomment),
      Node.read?_of_isIdle h.isIdle]
    rfl
  rw [readTable, hnone]

end GroupText

/-! ## §3 Files without content -/

namespace Loading

variable {look : String → PathState} {path text : String}

theorem isPresent_of_text? (h : (look path).text? = some text) :
    (look path).isPresent = true := by
  cases hstate : look path with
  | missing | folder =>
    rw [hstate] at h
    contradiction
  | file => rfl

/-- A file that lists no groups is used, and changes nothing. -/
theorem load_of_readTable_nil (h : (look path).text? = some text)
    (hread : GroupText.readTable text = .ok []) :
    load look (some path) = ⟨DefaultKeymap.table, none⟩ := by
  obtain ⟨t, hload, ht⟩ := load_of_isUsable ⟨⟨text, h, hread⟩, nofun⟩
  rw [DefaultKeymap.build_groups] at ht
  obtain rfl := Except.ok.inj ht
  exact hload

theorem load_of_readTable_error {e : LoadError} (h : (look path).text? = some text)
    (hread : GroupText.readTable text = .error e) :
    load look (some path) = ⟨DefaultKeymap.table, some e⟩ := by
  apply load_of_error (isPresent_of_text? h)
  rw [tableAt, Except.bind_eq_error_iff, groupsAt_eq_error_iff]
  exact .inl (.inr ⟨text, h, hread⟩)

/-- **Of the documents without content, those with blanks alone list no groups.** If there is a
comment on one of the lines, the document is refused. A file with such a text changes nothing in
either case, but it is only without a comment that the file can be used. -/
theorem load_of_isWithoutContent (h : GroupText.IsWithoutContent text) :
    (GroupText.readTable text = .ok [] ↔
      ∀ line ∈ Text.lines text.toList, Text.IsBlankLine line) ∧
    (GroupText.readTable text = .error .malformed ↔
      ∃ line ∈ Text.lines text.toList, Text.IsCommentLine line) ∧
    ∀ look path, PathState.text? (look path) = some text →
      (load look (some path)).table = DefaultKeymap.table ∧
      ((load look (some path)).error = none ↔
        ∀ line ∈ Text.lines text.toList, Text.IsBlankLine line) ∧
      ((load look (some path)).error = some .malformed ↔
        ∃ line ∈ Text.lines text.toList, Text.IsCommentLine line) := by
  by_cases hcomment : ∃ line ∈ Text.lines text.toList, Text.IsCommentLine line
  · -- the reader is asked, and it finds no node
    have hnot : ¬ ∀ line ∈ Text.lines text.toList, Text.IsBlankLine line := by
      obtain ⟨line, hline, hmark⟩ := hcomment
      exact fun hblank => hmark.not_isBlankLine (hblank line hline)
    have hread := GroupText.readTable_of_isCommentLine h hcomment
    refine ⟨by simp [hread, hnot], by simp [hread, hcomment], ?_⟩
    intro look path htext
    rw [load_of_readTable_error htext hread]
    simp [hnot, hcomment]
  · -- the text is all white space, and the reader is not asked
    have hblank : ∀ line ∈ Text.lines text.toList, Text.IsBlankLine line := by
      intro line hline
      exact (h line hline).resolve_right fun hmark => hcomment ⟨line, hline, hmark⟩
    have hread := GroupText.readTable_of_isBlankLine hblank
    refine ⟨by simpa [hread] using hblank, by simpa [hread] using hcomment, ?_⟩
    intro look path htext
    rw [load_of_readTable_nil htext hread]
    exact ⟨rfl, iff_of_true rfl hblank, iff_of_false nofun hcomment⟩

/-- A file with an empty line is used, and one with a comment above it is not. -/
theorem load_of_isWithoutContent_line :
    (load (filledWith " \n") (some "keys")).error = none ∧
    (load (filledWith "# none\n \n") (some "keys")).error = some .malformed := by
  have hempty : Text.lines " \n".toList = [[' '], []] := by decide +kernel
  have hcomment : Text.lines "# none\n \n".toList =
      [['#', ' ', 'n', 'o', 'n', 'e'], [' '], []] := by
    decide +kernel
  have hblank : Text.IsBlankLine [' '] ∧ Text.IsBlankLine [] := by
    simp [Text.IsBlankLine, isBlank]
  have hline : Text.IsCommentLine ['#', ' ', 'n', 'o', 'n', 'e'] := ⟨[], _, rfl, hblank.2⟩
  have hlines : ∀ line ∈ Text.lines " \n".toList, Text.IsBlankLine line := by
    rw [hempty]
    simpa using hblank
  have hwithout : GroupText.IsWithoutContent "# none\n \n" := by
    rw [GroupText.IsWithoutContent, hcomment]
    simpa [Text.IsIdleLine, hblank] using Or.inr hline
  constructor
  · have hfile := (load_of_isWithoutContent fun line hline => .inl (hlines line hline)).2.2
      (filledWith " \n") "keys" (PathState.text?_file_toUTF8 _)
    exact hfile.2.1.2 hlines
  · have hfile := (load_of_isWithoutContent hwithout).2.2
      (filledWith "# none\n \n") "keys" (PathState.text?_file_toUTF8 _)
    rw [hfile.2.2, hcomment]
    exact ⟨_, List.mem_cons_self, hline⟩

/-- A comment is no content, but it is not read as no groups. -/
theorem readTable_comment_ne :
    GroupText.IsWithoutContent "# comment\n" ∧ GroupText.readTable "# comment\n" ≠ .ok [] := by
  have hlines : Text.lines "# comment\n".toList =
      [['#', ' ', 'c', 'o', 'm', 'm', 'e', 'n', 't'], []] := by
    decide +kernel
  constructor
  · rw [GroupText.IsWithoutContent, hlines, List.forall_mem_cons]
    refine ⟨.inr ⟨[], _, rfl, nofun⟩, ?_⟩
    simp [Text.IsIdleLine, Text.IsBlankLine]
  · decide +kernel

end Loading

end Keybinding
