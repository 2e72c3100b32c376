import Keybinding.Proofs.CommandLine.Arguments
import Keybinding.Proofs.CommandLine.Check
import Keybinding.Proofs.CommandLine.Columns

/-!
# The answer for one chord and the list of all chords

To ask for one chord and to list all chords are two commands. Under the same options they agree:
the line that the list has for the chord, taken apart into its columns, tells the answer for the
chord, and a chord without a line has no answer.
-/

namespace Keybinding.CommandLine

open Loading (load)

/-! ## §1 Answers and columns -/

/-- The lines on chords in what a list prints, below the line with the active flags. -/
def Response.bindingLines (r : Response) : List String :=
  (linesOf r.out).tail

/-- The answer that the columns of a line tell. -/
def Columns.answer (cols : Columns) : String :=
  if cols.action = "(unbound)" then "none\t(unbound in " ++ cols.group ++ ")\n"
  else cols.action ++ "\t(" ++ cols.group ++ ")\n"

variable {c : Chord} {r : Resolution}

theorem answer_columnsOf (hr : r.binding.IsCanonical) :
    (columnsOf c r).answer = resolutionLine (some r) := by
  rcases r with ⟨group, binding⟩
  cases binding with
  | action a =>
    have hid : (columnsOf c ⟨group, .action a⟩).action ≠ "(unbound)" := id_ne_unbound hr
    rw [Columns.answer, if_neg hid]
    rfl
  | unbound =>
    have hmark : (columnsOf c ⟨group, .unbound⟩).action = "(unbound)" := rfl
    rw [Columns.answer, if_pos hmark]
    rfl

/-- An answer holds a tab, so that it is not taken for the lack of one. -/
theorem resolutionLine_some_ne (r : Resolution) : resolutionLine (some r) ≠ "none\n" := by
  have htab : '\t' ∈ (resolutionLine (some r)).toList := by
    rcases r with ⟨group, binding⟩
    cases binding with
    | action a =>
      show '\t' ∈ (a.id ++ "\t(" ++ group.display ++ ")\n").toList
      simp
    | unbound =>
      show '\t' ∈ ("none\t(unbound in " ++ group.display ++ ")\n").toList
      simp
  intro heq
  rw [heq] at htab
  exact absurd htab (by decide)

/-! ## §2 What is loaded -/

variable {look : String → PathState} {path : Option String} {active : FlagSet}

/-- All that a list of a loaded table tells has been read from texts. -/
theorem isCanonical_of_mem_effective (h : (c, r) ∈ (load look path).table.effective active) :
    c.key.IsCanonical ∧ r.binding.IsCanonical := by
  obtain ⟨user, hbuild⟩ := Loading.exists_build_load look path
  have hgroups := Table.isCanonical_of_build hbuild
  exact Table.isCanonical_of_resolve? hgroups (Table.mem_effective_iff.1 h).2

/-- The lines on the chords of a table. -/
def linesFor (t : Table) (active : FlagSet) : List String :=
  (t.effective active).map fun p => lineOf p.1 p.2

theorem listText_eq_unlines (t : Table) (active : FlagSet) :
    listText active t = unlines (("# active: " ++ active.display) :: linesFor t active) := by
  simp only [listText, linesFor, unlines, List.map_cons, List.map_map, String.join_cons,
    listLine_eq]
  rfl

/-- A list of a loaded table is taken apart into the lines that it was made of. -/
theorem linesOf_listText (look : String → PathState) (path : Option String) (active : FlagSet) :
    linesOf (listText active (load look path).table) =
      ("# active: " ++ active.display) :: linesFor (load look path).table active := by
  rw [listText_eq_unlines]
  apply linesOf_unlines
  rw [List.forall_mem_cons]
  refine ⟨?_, ?_⟩
  · simp [newline_not_mem_active]
  · intro l hl
    obtain ⟨p, hp, rfl⟩ := List.mem_map.1 hl
    obtain ⟨hkey, hbinding⟩ := isCanonical_of_mem_effective hp
    exact newline_not_mem_lineOf hkey hbinding

/-- The line of a chord is found by its first column. -/
theorem chord_columns_eq_iff {p : Chord × Resolution}
    (hp : p ∈ (load look path).table.effective active) (hc : c.key.IsCanonical) :
    (columns (lineOf p.1 p.2)).chord = c.display ↔ p.1 = c := by
  obtain ⟨hkey, hbinding⟩ := isCanonical_of_mem_effective hp
  rw [columns_lineOf hkey hbinding]
  exact Chord.display_eq_iff hkey hc

/-- A chord has no answer exactly if no line is about it. -/
theorem resolve?_eq_none_iff_linesFor (hc : c.key.IsCanonical) :
    (load look path).table.resolve? c active = none ↔
      ∀ l ∈ linesFor (load look path).table active, (columns l).chord ≠ c.display := by
  constructor
  · intro hnone l hl heq
    obtain ⟨p, hp, rfl⟩ := List.mem_map.1 hl
    obtain rfl := (chord_columns_eq_iff hp hc).1 heq
    rw [(Table.mem_effective_iff.1 hp).2] at hnone
    contradiction
  · intro hne
    cases hr : (load look path).table.resolve? c active with
    | none => rfl
    | some r =>
      have hp := Table.mem_effective_iff.2 ⟨Table.mem_chords_of_resolve? hr, hr⟩
      have hl := List.mem_map_of_mem (f := fun p => lineOf p.1 p.2) hp
      exact absurd ((chord_columns_eq_iff hp hc).2 rfl) (hne _ hl)

/-- The lines on a chord are those that were made for it. -/
theorem filter_linesFor (hc : c.key.IsCanonical)
    (hr : (load look path).table.resolve? c active = some r) :
    ((linesFor (load look path).table active).filter fun l =>
      decide ((columns l).chord = c.display)) = [lineOf c r] := by
  have hsame : ∀ p ∈ (load look path).table.effective active,
      ((fun l => decide ((columns l).chord = c.display)) ∘ fun p => lineOf p.1 p.2) p =
        decide (p.1 = c) := by
    intro p hp
    simp only [Function.comp_apply, chord_columns_eq_iff hp hc]
  rw [linesFor, List.filter_map, List.filter_congr hsame, Table.filter_effective hr,
    List.map_singleton]

theorem map_columns_linesFor (look : String → PathState) (path : Option String)
    (active : FlagSet) :
    (linesFor (load look path).table active).map columns =
      ((load look path).table.effective active).map fun p => columnsOf p.1 p.2 := by
  rw [linesFor, List.map_map]
  apply List.map_congr_left
  intro p hp
  obtain ⟨hkey, hbinding⟩ := isCanonical_of_mem_effective hp
  exact columns_lineOf hkey hbinding

theorem pairwise_linesFor (look : String → PathState) (path : Option String) (active : FlagSet) :
    (linesFor (load look path).table active).Pairwise fun l l' =>
      ∃ d d', Chord.read (columns l).chord = .ok d ∧ Chord.read (columns l').chord = .ok d' ∧
        d < d' := by
  rw [linesFor, List.pairwise_map]
  apply (Table.pairwise_effective _ active).imp_of_mem
  intro p q hp hq hlt
  obtain ⟨hkey, hbinding⟩ := isCanonical_of_mem_effective hp
  obtain ⟨hkey', hbinding'⟩ := isCanonical_of_mem_effective hq
  rw [columns_lineOf hkey hbinding, columns_lineOf hkey' hbinding']
  exact ⟨p.1, q.1, Chord.read_display hkey, Chord.read_display hkey', hlt⟩

/-! ## §3 Agreement -/

/-- What is printed for one chord agrees with what is printed for all chords of a table. -/
structure Agreement (t : Table) (active : FlagSet) (c : Chord) (one all : Response) : Prop where
  codes : one.code = 0 ∧ all.code = 0
  /-- Nothing is printed but the active flags and the lines. -/
  header : all.out = unlines (("# active: " ++ active.display) :: all.bindingLines)
  /-- There is no answer exactly if no line is about the chord. -/
  none_iff : one.out = "none\n" ↔ ∀ l ∈ all.bindingLines, (columns l).chord ≠ c.display
  /-- Else one line is, and its columns tell the answer. -/
  unique (h : ∃ l ∈ all.bindingLines, (columns l).chord = c.display) :
    ∃ l, (all.bindingLines.filter fun l => decide ((columns l).chord = c.display)) = [l] ∧
      one.out = (columns l).answer
  /-- The columns are what was to be printed. -/
  columns : all.bindingLines.map columns = (t.effective active).map fun p => columnsOf p.1 p.2
  /-- The first two columns hold no space. -/
  spaceless : ∀ p ∈ t.effective active,
    ' ' ∉ p.1.display.toList ∧ ' ' ∉ (actionText p.2.binding).toList
  /-- The chords of the lines are in strictly increasing order. -/
  sorted : all.bindingLines.Pairwise fun l l' =>
    ∃ d d', Chord.read (CommandLine.columns l).chord = .ok d ∧
      Chord.read (CommandLine.columns l').chord = .ok d' ∧ d < d'

/-- What is printed for one chord and for all chords of a loaded table agrees. -/
theorem agreement_of_out {one all : Response} (hc : c.key.IsCanonical)
    (hcodes : one.code = 0 ∧ all.code = 0)
    (hone : one.out = resolutionLine ((load look path).table.resolve? c active))
    (hall : all.out = listText active (load look path).table) :
    Agreement (load look path).table active c one all := by
  have hlines := linesOf_listText look path active
  rw [← hall] at hlines
  have hbelow : all.bindingLines = linesFor (load look path).table active := by
    rw [Response.bindingLines, hlines, List.tail_cons]
  refine
    { codes := hcodes
      header := ?header
      none_iff := ?none_iff
      unique := ?unique
      columns := ?columns
      spaceless := ?spaceless
      sorted := ?sorted }
  case header => rw [hbelow, hall, listText_eq_unlines]
  case none_iff =>
    rw [hbelow, ← resolve?_eq_none_iff_linesFor hc, hone]
    cases (load look path).table.resolve? c active with
    | none => exact iff_of_true rfl rfl
    | some r => exact iff_of_false (resolutionLine_some_ne r) nofun
  case unique =>
    intro ⟨l, hl, heq⟩
    rw [hbelow] at hl ⊢
    -- a line on the chord is there for an answer, and is the only one
    cases hr : (load look path).table.resolve? c active with
    | none => exact absurd heq ((resolve?_eq_none_iff_linesFor hc).1 hr l hl)
    | some r =>
      have hp := Table.mem_effective_iff.2 ⟨Table.mem_chords_of_resolve? hr, hr⟩
      obtain ⟨hkey, hbinding⟩ := isCanonical_of_mem_effective hp
      refine ⟨lineOf c r, filter_linesFor hc hr, ?_⟩
      rw [hone, hr, columns_lineOf hkey hbinding, answer_columnsOf hbinding]
  case columns =>
    rw [hbelow]
    exact map_columns_linesFor look path active
  case spaceless =>
    intro p hp
    obtain ⟨hkey, hbinding⟩ := isCanonical_of_mem_effective hp
    have hspace : Text.isSpace ' ' = true := by decide
    exact ⟨space_not_mem_display hkey hspace, space_not_mem_actionText hbinding hspace⟩
  case sorted =>
    rw [hbelow]
    exact pairwise_linesFor look path active

/-- **The answer for one chord agrees with the list of all chords.** A command line that asks for
one chord becomes one that lists all chords when the word for the command is exchanged and the word
for the chord is left out. Whatever file is loaded, whatever flags are active and however the chord
is spelled, the two tell the same: there is no answer exactly if no line is about the chord, and
else one line is, whose columns tell the answer. Any line can be taken apart into its columns, and
the lines are in strictly increasing order of their chords. -/
theorem resolve_agrees_with_list (env : Environment) (sys : Surroundings) {words : List String}
    {file : Option String} {text : String} {context : ContextText}
    (hwords : Reading.ofWords words = .run ⟨file, .resolve text context⟩)
    (hchord : Chord.read text = .ok c) (hactive : context.read sys.look = .ok active) :
    (∃ us vs ws, words = us ++ "resolve" :: (vs ++ text :: ws) ∧
      Reading.ofWords (us ++ "list" :: (vs ++ ws)) = .run ⟨file, .list context⟩) ∧
    ∀ words', Reading.ofWords words' = .run ⟨file, .list context⟩ →
      Agreement (load sys.look (some (file.getD env.mappingsFile))).table active c
        ((Reading.ofWords words).response env fun _ => sys)
        ((Reading.ofWords words').response env fun _ => sys) := by
  refine ⟨Reading.exists_ofWords_list hwords, ?_⟩
  intro words' hwords'
  rw [hwords, hwords']
  -- both commands load the file under the same path
  show Agreement _ active c (Request.response ⟨file, .resolve text context⟩ env sys)
    (Request.response ⟨file, .list context⟩ env sys)
  rw [response_of_asks (.resolve hchord hactive), response_of_asks (.list hactive)]
  apply agreement_of_out (Chord.isCanonical_of_read hchord)
  · exact ⟨rfl, rfl⟩
  · rfl
  · rfl

/-- The options can stand before the command and behind it, and the chord behind an escape. -/
theorem resolve_agrees_with_list_quit :
    ∃ active c, Chord.read "Cmd+Q" = .ok c ∧
      Agreement DefaultKeymap.table active c
        ((Reading.ofWords ["-fkeys", "resolve", "--context", "modalOpen", "--", "Cmd+Q"]).response
          homely fun _ => unobstructed fun _ => .missing)
        ((Reading.ofWords ["list", "--file=keys", "--context=modalOpen"]).response
          homely fun _ => unobstructed fun _ => .missing) := by
  obtain ⟨c, hc⟩ : ∃ c, Chord.read "Cmd+Q" = .ok c :=
    ⟨⟨.char 'q', ⟨true, false, false, false⟩⟩, by decide +kernel⟩
  obtain ⟨active, hactive⟩ : ∃ active,
      ContextText.read (fun _ => .missing) ⟨none, ["modalOpen"]⟩ = .ok active :=
    ⟨FlagSet.empty.union (FlagSet.empty.insert .modalOpen), by decide +kernel⟩
  have hwords :
      Reading.ofWords ["-fkeys", "resolve", "--context", "modalOpen", "--", "Cmd+Q"] =
        .run ⟨some "keys", .resolve "Cmd+Q" ⟨none, ["modalOpen"]⟩⟩ := by decide +kernel
  have hlist : Reading.ofWords ["list", "--file=keys", "--context=modalOpen"] =
      .run ⟨some "keys", .list ⟨none, ["modalOpen"]⟩⟩ := by decide +kernel
  have hagree := (resolve_agrees_with_list homely (unobstructed fun _ => .missing) hwords hc
    hactive).2 _ hlist
  rw [Loading.load_of_missing rfl] at hagree
  exact ⟨active, c, hc, hagree⟩

end Keybinding.CommandLine
