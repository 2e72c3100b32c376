import Keybinding.Proofs.Table.Effective
import Keybinding.Table.Reader

/-!
# Which flags matter

What a chord does hangs only on the flags that the conditions of the groups mention which bind the
chord or take it away. Two sets of active flags that hold the same of these give the same answer, by
the same group. Sets that hold the same of all flags that the table mentions give the same overview.
-/

namespace Keybinding

/-! ## §1 Flags that are mentioned -/

/-- Of each flag of a list, two sets say the same. -/
def FlagSet.AgreeOn (fs : List Flag) (s t : FlagSet) : Prop :=
  ∀ f ∈ fs, f ∈ s ↔ f ∈ t

instance (fs : List Flag) (s t : FlagSet) : Decidable (FlagSet.AgreeOn fs s t) :=
  inferInstanceAs (Decidable (∀ f ∈ fs, f ∈ s ↔ f ∈ t))

/-- The flags of the condition of a group. -/
def Group.flags (g : Group) : List Flag :=
  (g.condition.map Condition.flags).getD []

namespace Table

/-- The flags of the conditions of all groups. -/
def flags (t : Table) : List Flag :=
  t.groups.flatMap Group.flags

/-- The flags of the conditions of the groups that bind a chord or take it away. -/
def flagsFor (t : Table) (c : Chord) : List Flag :=
  (t.groups.filter fun g => (g.get? c).isSome).flatMap Group.flags

end Table

variable {s s' : FlagSet}

theorem FlagSet.AgreeOn.of_subset {fs gs : List Flag} (h : FlagSet.AgreeOn gs s s')
    (hsub : ∀ f ∈ fs, f ∈ gs) : FlagSet.AgreeOn fs s s' := by
  intro f hf
  exact h f (hsub f hf)

/-! ## §2 One condition -/

namespace Condition

/-- Each flag that occurs is listed, though it is listed once only. -/
theorem mem_flags {c : Condition} {f : Flag} : f ∈ c.flags ↔ f ∈ c.mentions :=
  List.mem_eraseDups

theorem eval_eq_of_agreeOn_mentions {c : Condition} (h : FlagSet.AgreeOn c.mentions s s') :
    c.eval s = c.eval s' := by
  -- the sets agree on both sides of an operator, though the left side alone can settle the value
  induction c with
  | flag f =>
    have hf : f ∈ s ↔ f ∈ s' := h f (List.mem_singleton_self f)
    show s.contains f = s'.contains f
    rwa [FlagSet.mem_def, FlagSet.mem_def, ← Bool.eq_iff_iff] at hf
  | not c ih =>
    simp only [eval]
    rw [ih h]
  | and l r ihl ihr =>
    obtain ⟨hl, hr⟩ := List.forall_mem_append.1 h
    simp only [eval]
    rw [ihl hl, ihr hr]
  | or l r ihl ihr =>
    obtain ⟨hl, hr⟩ := List.forall_mem_append.1 h
    simp only [eval]
    rw [ihl hl, ihr hr]

/-- **A condition depends on its flags only.** -/
theorem eval_eq_of_agreeOn {c : Condition} (h : FlagSet.AgreeOn c.flags s s') :
    c.eval s = c.eval s' := by
  apply eval_eq_of_agreeOn_mentions
  exact h.of_subset fun f hf => mem_flags.2 hf

end Condition

/-! ## §3 Groups and tables -/

theorem Group.isActive_eq_of_agreeOn {g : Group} (h : FlagSet.AgreeOn g.flags s s') :
    g.isActive s = g.isActive s' := by
  rw [Group.isActive, Group.isActive, Condition.holds, Condition.holds]
  rw [Group.flags] at h
  cases hg : g.condition with
  | none => rfl
  | some c =>
    rw [hg] at h
    exact Condition.eval_eq_of_agreeOn h

namespace Table

variable {t : Table} {c : Chord}

theorem mem_flags_of_mem {g : Group} (hg : g ∈ t.groups) : ∀ f ∈ g.flags, f ∈ t.flags := by
  intro f hf
  exact List.mem_flatMap.2 ⟨g, hg, hf⟩

theorem mem_flagsFor_of_get? {g : Group} {b : Binding} (hg : g ∈ t.groups)
    (hb : g.get? c = some b) : ∀ f ∈ g.flags, f ∈ t.flagsFor c := by
  intro f hf
  have hbound : (g.get? c).isSome = true := by simp [hb]
  exact List.mem_flatMap.2 ⟨g, List.mem_filter.2 ⟨hg, hbound⟩, hf⟩

theorem mem_flags_of_mem_flagsFor : ∀ f ∈ t.flagsFor c, f ∈ t.flags := by
  intro f hf
  obtain ⟨g, hg, hf⟩ := List.mem_flatMap.1 hf
  exact mem_flags_of_mem (List.mem_filter.1 hg).1 f hf

/-- A group that says nothing about the chord is silent whether it counts or not. -/
theorem resolve?_group_eq_of_agreeOn (h : FlagSet.AgreeOn (t.flagsFor c) s s') {g : Group}
    (hg : g ∈ t.groups) : g.resolve? c s = g.resolve? c s' := by
  rw [Group.resolve?, Group.resolve?]
  cases hb : g.get? c with
  | none => simp
  | some b =>
    have hactive : g.isActive s = g.isActive s' :=
      Group.isActive_eq_of_agreeOn (h.of_subset (mem_flagsFor_of_get? hg hb))
    rw [hactive]

theorem resolve?_eq_of_agreeOn (h : FlagSet.AgreeOn (t.flagsFor c) s s') :
    t.resolve? c s = t.resolve? c s' := by
  -- the scan finds the first of all answers, and each group gives the same one to both sets
  rw [resolve?, resolve?, ← List.head?_filterMap, ← List.head?_filterMap]
  congr 1
  apply List.filterMap_congr
  intro p hp
  have hg : p.2 ∈ t.groups := by
    rw [← map_snd_identified]
    exact List.mem_map_of_mem (List.mem_reverse.1 hp)
  rw [resolve?_group_eq_of_agreeOn h hg]

/-- **Only the flags matter that are mentioned.** Two sets that say the same of the flags of all
groups that bind a chord or take it away lead to the same binding for it, by the same group. Two
sets that say the same of all flags in the table have the same overview. -/
theorem resolution_of_agreeOn (t : Table) (s s' : FlagSet) :
    (∀ c, FlagSet.AgreeOn (t.flagsFor c) s s' → t.resolve? c s = t.resolve? c s') ∧
      (FlagSet.AgreeOn t.flags s s' → t.effective s = t.effective s') := by
  refine ⟨fun c h => resolve?_eq_of_agreeOn h, ?_⟩
  intro h
  rw [effective, effective]
  apply List.filterMap_congr
  intro c _
  rw [resolve?_eq_of_agreeOn (h.of_subset mem_flags_of_mem_flagsFor)]

/-! A table in which one chord asks for a modal, and another one for a view. -/

def cmdW : Chord := ⟨.char 'w', ⟨true, false, false, false⟩⟩

def justK : Chord := ⟨.char 'k', .none⟩

def everywhere : GroupText := ⟨none, [("cmd-w", some "session::closeTab"), ("k", none)]⟩

def inModal : GroupText := ⟨some "modalOpen", [("Cmd+W", some "unbound")]⟩

def inView : GroupText := ⟨some "diffViewOpen && !canGoBack", [("k", some "host::ask")]⟩

/-- What these groups mean. -/
def layered : Table where
  defaults :=
    [ ⟨none,
        (Bindings.empty.insert cmdW (.action (.builtin .sessionCloseTab))).insert justK .unbound⟩,
      ⟨some (.flag .modalOpen), Bindings.empty.insert cmdW .unbound⟩ ]
  user :=
    [ ⟨some (.and (.flag .diffViewOpen) (.not (.flag .canGoBack))),
        Bindings.empty.insert justK (.action (.custom "host::ask"))⟩ ]

/-- An open view is nothing to the chord that closes tabs, and changed files are nothing to any
chord. -/
theorem resolution_of_agreeOn_layered :
    build [everywhere, inModal] [inView] = .ok layered ∧
      layered.flagsFor cmdW = [.modalOpen] ∧
      layered.resolve? cmdW (.ofList [.modalOpen, .diffViewOpen]) =
        some ⟨⟨.default, 1⟩, .unbound⟩ ∧
      layered.flags = [.modalOpen, .diffViewOpen, .canGoBack] ∧
      layered.effective (.ofList [.modalOpen, .hasChangedFiles]) =
        layered.effective (.ofList [.modalOpen]) := by
  have hbuild : build [everywhere, inModal] [inView] = .ok layered := by decide +kernel
  have hcmdW : layered.flagsFor cmdW = [.modalOpen] := by decide +kernel
  have hall : layered.flags = [.modalOpen, .diffViewOpen, .canGoBack] := by decide +kernel
  refine ⟨hbuild, hcmdW, ?_, hall, ?_⟩
  · have hmodal : layered.resolve? cmdW (.ofList [.modalOpen]) =
        some ⟨⟨.default, 1⟩, .unbound⟩ := by decide +kernel
    -- the second flag is mentioned where the chord is not bound
    rw [← hmodal]
    apply (resolution_of_agreeOn layered _ _).1
    rw [hcmdW]
    decide
  · apply (resolution_of_agreeOn layered _ _).2
    rw [hall]
    decide

end Table

end Keybinding
