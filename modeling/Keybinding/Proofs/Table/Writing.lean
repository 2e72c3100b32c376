import Keybinding.Proofs.Chord.Printing
import Keybinding.Proofs.Condition.Printing
import Keybinding.Proofs.Table.Building
import Keybinding.Proofs.Table.Effective
import Mathlib.Data.List.Perm.Basic

/-!
# Writing a table and building it again

A table that has been built is written back group by group: the condition and the chords as they are
printed, the actions by their ids, and null where a chord is taken away. The groups that are written
build the same table again, in whatever order the entries of a group come.

The two halves meet in `Group.IsCanonical`: what has been read is canonical
(`Group.isCanonical_of_read`), and what is canonical is read from any way to write it
(`Group.read_of_isWrittenAs`).
-/

namespace Keybinding

/-! ## §1 Writing -/

def Binding.written (b : Binding) : Option String :=
  b.action?.map Action.id

def Group.written (g : Group) : GroupText where
  context := g.condition.map Condition.display
  bindings := g.bindings.entries.map fun e => (e.1.display, e.2.written)

def Table.writtenDefaults (t : Table) : List GroupText :=
  t.defaults.map Group.written

/-- The groups of the user as written. -/
def Table.writtenUser (t : Table) : List GroupText :=
  t.user.map Group.written

/-! ## §2 What can be written -/

/-- A binding that what is written for it tells. -/
def Binding.IsCanonical : Binding → Prop
  | action a => a.IsCanonical
  | unbound => True

/-- A group of which all parts are read back from what is written for them. -/
structure Group.IsCanonical (G : Group) : Prop where
  condition : ∀ c, G.condition = some c → Condition.read c.display = .ok c
  chords : ∀ e ∈ G.bindings.entries, e.1.key.IsCanonical
  bindings : ∀ e ∈ G.bindings.entries, e.2.IsCanonical

/-- The group is written with its entries in some order. -/
structure Group.IsWrittenAs (G : Group) (g : GroupText) : Prop where
  context : g.context = G.written.context
  bindings : g.bindings.Perm G.written.bindings

theorem Binding.isCanonical_of_isMeant {text : Option String} {b : Binding}
    (h : Binding.IsMeant text b) : b.IsCanonical := by
  cases h with
  | null => trivial
  | word => trivial
  | action ha => exact Action.isCanonical_of_read ha

theorem Binding.isMeant_written {b : Binding} (h : b.IsCanonical) :
    Binding.IsMeant b.written b := by
  cases b with
  | action a => exact .action (Action.read_id h)
  | unbound => exact .null

namespace Group

variable {g : GroupText} {G : Group}

/-- **What has been read can be written.** -/
theorem isCanonical_of_read (h : read g = .ok G) : G.IsCanonical := by
  have hmeans := means_of_read h
  have hentry : ∀ e ∈ G.bindings.entries, ∃ f ∈ g.bindings, GroupText.IsMeant f e := by
    intro e he
    exact (hmeans.listed e.1 e.2).1 he
  refine ⟨?_, ?_, ?_⟩
  · intro c hc
    have hcondition := hmeans.condition
    rw [hc, Option.map_some, eq_comm, Option.map_eq_some_iff] at hcondition
    obtain ⟨text, -, hread⟩ := hcondition
    -- a condition that was read stays within the limits when it is printed
    exact c.read_display_iff.2 (Condition.within_limits_of_read hread)
  · intro e he
    obtain ⟨f, -, hf⟩ := hentry e he
    exact Chord.isCanonical_of_read hf.chord
  · intro e he
    obtain ⟨f, -, hf⟩ := hentry e he
    exact Binding.isCanonical_of_isMeant hf.binding

/-! ## §3 Reading what is written -/

/-- What is written for the entries means the entries. -/
theorem forall₂_isMeant_written (h : G.IsCanonical) :
    List.Forall₂ GroupText.IsMeant G.written.bindings G.bindings.entries := by
  rw [written, List.forall₂_map_left_iff, List.forall₂_same]
  intro e he
  exact ⟨Chord.read_display (h.chords e he), Binding.isMeant_written (h.bindings e he)⟩

/-- **A group is read from any way to write it.** -/
theorem read_of_isWrittenAs (h : G.IsCanonical) (hg : G.IsWrittenAs g) : read g = .ok G := by
  -- the entries that are meant come in the order in which they are written
  obtain ⟨ps, hmeant, hperm⟩ :=
    List.perm_comp_forall₂ hg.bindings (forall₂_isMeant_written h)
  refine read_eq_ok_iff.2 ⟨?_, ps, hmeant, ?_, hperm.symm⟩
  · rw [hg.context, written]
    cases hG : G.condition with
    | none => rfl
    | some c => simp [h.condition c hG]
  · have hnodup : (G.bindings.entries.map (·.1)).Nodup := G.bindings.nodup_chords
    exact (hperm.map _).nodup_iff.2 hnodup

end Group

/-! ## §4 Tables -/

namespace Table

variable {defaults user : List GroupText} {t : Table}

/-- Groups that were read are read again from what is written for them. -/
theorem forall₂_read_of_written {gs gs' : List GroupText} {Gs : List Group}
    (h : List.Forall₂ (fun text G => Group.read text = .ok G) gs Gs)
    (hw : List.Forall₂ Group.IsWrittenAs Gs gs') :
    List.Forall₂ (fun text G => Group.read text = .ok G) gs' Gs := by
  induction h generalizing gs' with
  | nil =>
    cases hw
    exact .nil
  | @cons g G gs Gs hread _ ih =>
    cases hw with
    | cons hfirst hrest =>
      exact .cons (Group.read_of_isWrittenAs (Group.isCanonical_of_read hread) hfirst) (ih hrest)

theorem isCanonical_of_build (h : build defaults user = .ok t) : ∀ G ∈ t.groups, G.IsCanonical := by
  intro G hG
  obtain ⟨i, hi⟩ := List.mem_iff_getElem?.1 hG
  have hflip := List.Forall₂.flip (forall₂_groups_of_build h)
  obtain ⟨g, -, hread⟩ :=
    exists_getElem?_of_forall₂ (R := fun G text => Group.read text = .ok G) hflip hi
  exact Group.isCanonical_of_read hread

/-- A chord with an answer can be written, and so can what it does. -/
theorem isCanonical_of_resolve? (h : ∀ G ∈ t.groups, G.IsCanonical) {c : Chord} {active : FlagSet}
    {r : Resolution} (hr : t.resolve? c active = some r) :
    c.key.IsCanonical ∧ r.binding.IsCanonical := by
  have hbinding := congrArg (Option.map Resolution.binding) hr
  obtain ⟨G, earlier, later, hsplit, -, hget, -⟩ := binding_eq_some_iff.1 hbinding
  have hmem : G ∈ t.groups := by simp [hsplit]
  have hentry := Bindings.get?_eq_some_iff.1 hget
  exact ⟨(h G hmem).chords _ hentry, (h G hmem).bindings _ hentry⟩

/-- A chord leads only to actions that their ids tell. -/
theorem isCanonical_of_action? (h : ∀ G ∈ t.groups, G.IsCanonical) {c : Chord} {active : FlagSet}
    {a : Action} (ha : t.action? c active = some a) : a.IsCanonical := by
  obtain ⟨G, earlier, later, hsplit, -, hget, -⟩ := action?_eq_some_iff.1 ha
  have hmem : G ∈ t.groups := by simp [hsplit]
  exact (h G hmem).bindings _ (Bindings.get?_eq_some_iff.1 hget)

theorem forall₂_isWrittenAs_written (Gs : List Group) :
    List.Forall₂ Group.IsWrittenAs Gs (Gs.map Group.written) := by
  rw [List.forall₂_map_right_iff, List.forall₂_same]
  exact fun G _ => ⟨rfl, List.Perm.refl _⟩

/-- **A table is built again from what is written for it.** The groups of each origin are written in
their order, and the entries of each group in the order of their chords or in any other. The table
that they build is the same one: it has the same groups with the same conditions and bindings at the
same places, and so it answers all questions alike. -/
theorem build_of_isWrittenAs (h : build defaults user = .ok t) :
    build t.writtenDefaults t.writtenUser = .ok t ∧
      ∀ defaults' user', List.Forall₂ Group.IsWrittenAs t.defaults defaults' →
        List.Forall₂ Group.IsWrittenAs t.user user' → build defaults' user' = .ok t := by
  have hany : ∀ defaults' user', List.Forall₂ Group.IsWrittenAs t.defaults defaults' →
      List.Forall₂ Group.IsWrittenAs t.user user' → build defaults' user' = .ok t := by
    intro defaults' user' hdefaults huser
    obtain ⟨hds, hus⟩ := build_eq_ok_iff.1 h
    exact build_eq_ok_iff.2
      ⟨forall₂_read_of_written hds hdefaults, forall₂_read_of_written hus huser⟩
  exact ⟨hany _ _ (forall₂_isWrittenAs_written _) (forall₂_isWrittenAs_written _), hany⟩

/-! A group whose texts are not as they are printed, the group that it means, and one of the ways in
which that is written. -/

def spacious : GroupText :=
  ⟨some "!((modalOpen)||pickerOpen)", [("Super+Plus", some " unbound "), ("K", some " host::ask ")]⟩

def spaciousMeant : Group :=
  ⟨some (.not (.or (.flag .modalOpen) (.flag .pickerOpen))),
    (Bindings.empty.insert ⟨.char 'k', ⟨false, false, false, false⟩⟩
      (.action (.custom "host::ask"))).insert ⟨.char '+', ⟨true, false, false, false⟩⟩ .unbound⟩

def spaciousWritten : GroupText :=
  ⟨some "!(modalOpen || pickerOpen)", [("k", some "host::ask"), ("cmd-+", none)]⟩

/-- The entries can be written in an order that is not that of their chords. -/
theorem build_of_isWrittenAs_spacious :
    build [] [spacious] = .ok ⟨[], [spaciousMeant]⟩ ∧
      spaciousWritten.bindings ≠ spaciousMeant.written.bindings ∧
        build [] [spaciousWritten] = .ok ⟨[], [spaciousMeant]⟩ := by
  have hbuild : build [] [spacious] = .ok ⟨[], [spaciousMeant]⟩ := by decide +kernel
  have hwritten : spaciousMeant.IsWrittenAs spaciousWritten :=
    ⟨by decide +kernel, by decide +kernel⟩
  exact ⟨hbuild, by decide +kernel, (build_of_isWrittenAs hbuild).2 _ _ .nil (.cons hwritten .nil)⟩

end Table

end Keybinding
