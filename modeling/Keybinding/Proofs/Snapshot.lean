import Keybinding.Proofs.Snapshot.Reading
import Keybinding.Proofs.Steps
import Keybinding.Table.Query

/-!
# The active flags of a snapshot

The set of active flags says what a snapshot shows. Nothing in a set of flags keeps two focus flags
apart, or the focus away from a panel that is closed. That the flags fit together is due to the way
in which they are derived, whatever has the focus and whichever panels are open.

- `isConsistent_activeFlags`: the flags of a snapshot are consistent.
- `IsConsistent.eq_activeFlags`: no other set of flags is consistent with the snapshot.
- `isConsistent_of_read`: from the text of a snapshot to its flags.
-/

namespace Keybinding

/-! ## §1 Entities and views -/

namespace Entity

/-- The flags of the entities. -/
def flags : List Flag := [.scratchFocused, .worktreeFocused, .projectFocused]

theorem mem_flags_of_flag? {e : Entity} {f : Flag} (h : e.flag? = some f) : f ∈ flags := by
  cases e with
  | scratch | worktree | project =>
    obtain rfl := Option.some.inj h
    decide
  | unknown => contradiction

theorem flag?_injective {e e' : Entity} {f : Flag} (h : e.flag? = some f)
    (h' : e'.flag? = some f) : e = e' := by
  cases e <;> cases h <;> cases e' <;> first | rfl | contradiction

theorem exists_flag?_iff {e : Entity} : (∃ f, e.flag? = some f) ↔ e ≠ .unknown := by
  cases e <;> simp [flag?]

/-- A known kind of entity is told by its name alone. -/
theorem ofName_eq_iff {n : String} {e : Entity} (he : e ≠ .unknown) :
    ofName n = e ↔ n = e.name := by
  cases e with
  | scratch | worktree | project => unfold ofName; split <;> simp_all [name]
  | unknown => contradiction

end Entity

namespace View

/-- The flags of the views. -/
def flags : List Flag := [.mainFocused, .drawerFocused, .rightPanelFocused]

/-- A known view is told by its name alone. -/
theorem ofName_eq_iff {n : String} {v : View} (hv : v ≠ .unknown) :
    ofName n = v ↔ n = v.name := by
  cases v with
  | main | drawer | rightPanel => unfold ofName; split <;> simp_all [name]
  | unknown => contradiction

end View

namespace Snapshot

variable {s : Snapshot} {v : View} {f : Flag} {a : FlagSet}

theorem viewFlag?_eq_drawerFocused_iff :
    s.viewFlag? v = some .drawerFocused ↔ v = .drawer ∧ s.showsDrawer = true := by
  cases v <;> simp [viewFlag?, ite_eq_iff]

theorem viewFlag?_eq_rightPanelFocused_iff :
    s.viewFlag? v = some .rightPanelFocused ↔ v = .rightPanel ∧ s.rightPanelOpen = true := by
  cases v <;> simp [viewFlag?, ite_eq_iff]

/-- The main view has its own focus and that of each panel which is closed. -/
theorem viewFlag?_eq_mainFocused_iff :
    s.viewFlag? v = some .mainFocused ↔ v = .main ∨ v = .drawer ∧ s.showsDrawer = false ∨
      v = .rightPanel ∧ s.rightPanelOpen = false := by
  cases v <;> simp [viewFlag?]

theorem exists_viewFlag?_iff : (∃ f, s.viewFlag? v = some f) ↔ v ≠ .unknown := by
  cases v <;> simp [viewFlag?]

theorem mem_flags_of_viewFlag? (h : s.viewFlag? v = some f) : f ∈ View.flags := by
  cases v with
  | main =>
    obtain rfl := Option.some.inj h
    decide
  | drawer | rightPanel =>
    obtain rfl := Option.some.inj h
    split <;> decide
  | unknown => contradiction

/-! ## §2 The flags that are on -/

/-- A flag of a field is on when the field says so. -/
theorem mem_activeFlags_of_field {on : Bool} (h : (f, on) ∈ s.fieldFlags) :
    f ∈ s.activeFlags ↔ on = true := by
  have hfields : s.fieldFlags.map Prod.fst = Flag.all.drop 6 := rfl
  have hnodup : (s.fieldFlags.map Prod.fst).Nodup := by
    rw [hfields]
    decide
  exact FlagSet.mem_foldl_assign_of_mem hnodup h

/-- No field turns a flag of the focus on or off. -/
theorem mem_activeFlags_of_focus (h : f ∉ Flag.all.drop 6) :
    f ∈ s.activeFlags ↔
      s.focusedEntity.bind Entity.flag? = some f ∨ s.focusedView.bind s.viewFlag? = some f := by
  rw [activeFlags, FlagSet.mem_foldl_assign_of_not_mem h, FlagSet.mem_ofList, focusFlags,
    List.mem_append, Option.mem_toList, Option.mem_toList]

theorem mem_flags_of_focusedEntity (h : s.focusedEntity.bind Entity.flag? = some f) :
    f ∈ Entity.flags := by
  obtain ⟨e, -, he⟩ := Option.bind_eq_some_iff.1 h
  exact Entity.mem_flags_of_flag? he

theorem mem_flags_of_focusedView (h : s.focusedView.bind s.viewFlag? = some f) :
    f ∈ View.flags := by
  obtain ⟨v, -, hv⟩ := Option.bind_eq_some_iff.1 h
  exact mem_flags_of_viewFlag? hv

theorem mem_activeFlags_of_entity (h : f ∈ Entity.flags) :
    f ∈ s.activeFlags ↔ s.focusedEntity.bind Entity.flag? = some f := by
  have hapart : ∀ f ∈ Entity.flags, f ∉ Flag.all.drop 6 ∧ f ∉ View.flags := by decide
  obtain ⟨hfield, hview⟩ := hapart f h
  -- the view has the say about its own flags only
  rw [mem_activeFlags_of_focus hfield]
  exact or_iff_left fun hv => hview (mem_flags_of_focusedView hv)

theorem mem_activeFlags_of_view (h : f ∈ View.flags) :
    f ∈ s.activeFlags ↔ s.focusedView.bind s.viewFlag? = some f := by
  have hapart : ∀ f ∈ View.flags, f ∉ Flag.all.drop 6 ∧ f ∉ Entity.flags := by decide
  obtain ⟨hfield, hentity⟩ := hapart f h
  -- the entity has the say about its own flags only
  rw [mem_activeFlags_of_focus hfield]
  exact or_iff_right fun he => hentity (mem_flags_of_focusedEntity he)

/-- Among some flags, the given one is on, if one is given, and no other. -/
structure Tells (a : FlagSet) (fs : List Flag) (o : Option Flag) : Prop where
  mem : ∀ f, o = some f → f ∈ fs
  on : ∀ f ∈ fs, f ∈ a ↔ o = some f

theorem Tells.unique {fs : List Flag} {o : Option Flag} (h : Tells a fs o) :
    ∀ f ∈ fs, ∀ g ∈ fs, f ∈ a → g ∈ a → f = g := by
  intro f hf g hg hfa hga
  have hfo := (h.on f hf).1 hfa
  have hgo := (h.on g hg).1 hga
  exact Option.some.inj (hfo.symm.trans hgo)

theorem Tells.exists_iff {fs : List Flag} {o : Option Flag} (h : Tells a fs o) :
    (∃ f ∈ fs, f ∈ a) ↔ ∃ f, o = some f := by
  constructor
  · rintro ⟨f, hf, hfa⟩
    exact ⟨f, (h.on f hf).1 hfa⟩
  · rintro ⟨f, hfo⟩
    have hf := h.mem f hfo
    exact ⟨f, hf, (h.on f hf).2 hfo⟩

theorem tells_entity (s : Snapshot) :
    Tells s.activeFlags Entity.flags (s.focusedEntity.bind Entity.flag?) :=
  ⟨fun _ => mem_flags_of_focusedEntity, fun _ => mem_activeFlags_of_entity⟩

theorem tells_view (s : Snapshot) :
    Tells s.activeFlags View.flags (s.focusedView.bind s.viewFlag?) :=
  ⟨fun _ => mem_flags_of_focusedView, fun _ => mem_activeFlags_of_view⟩

/-! ## §3 Consistency -/

/-- The flags that are on for a switch of the same name. -/
def switchFlags (s : Snapshot) : List (Flag × Bool) :=
  [ (.drawerExpanded, s.drawerExpanded),
    (.rightPanelOpen, s.rightPanelOpen),
    (.pickerOpen, s.pickerOpen),
    (.modalOpen, s.modalOpen),
    (.paletteOpen, s.paletteOpen),
    (.diffViewOpen, s.diffViewOpen),
    (.hasPreviousView, s.hasPreviousView),
    (.canGoBack, s.canGoBack),
    (.canGoForward, s.canGoForward) ]

/-- The flags fit together, and they fit the snapshot. -/
structure IsConsistent (s : Snapshot) (a : FlagSet) : Prop where
  /-- At most one entity flag is on. -/
  entity_unique : ∀ f ∈ Entity.flags, ∀ g ∈ Entity.flags, f ∈ a → g ∈ a → f = g
  /-- At most one view flag is on. -/
  view_unique : ∀ f ∈ View.flags, ∀ g ∈ View.flags, f ∈ a → g ∈ a → f = g
  /-- An entity flag is on when a known kind of entity has the focus. -/
  exists_entity : (∃ f ∈ Entity.flags, f ∈ a) ↔ ∃ e, e ≠ .unknown ∧ s.focusedEntity = some e
  /-- A view flag is on when a known view has the focus. -/
  exists_view : (∃ f ∈ View.flags, f ∈ a) ↔ ∃ v, v ≠ .unknown ∧ s.focusedView = some v
  entity : ∀ e f, e.flag? = some f → (f ∈ a ↔ s.focusedEntity = some e)
  /-- The main view has its own focus and that of each panel which is closed. -/
  main : .mainFocused ∈ a ↔ s.focusedView = some .main ∨
    s.focusedView = some .drawer ∧ s.drawerOpen = false ∧ s.drawerExpanded = false ∨
    s.focusedView = some .rightPanel ∧ s.rightPanelOpen = false
  drawer : .drawerFocused ∈ a ↔
    s.focusedView = some .drawer ∧ (s.drawerOpen = true ∨ s.drawerExpanded = true)
  rightPanel : .rightPanelFocused ∈ a ↔
    s.focusedView = some .rightPanel ∧ s.rightPanelOpen = true
  open_of_drawerFocused : .drawerFocused ∈ a → .drawerOpen ∈ a
  open_of_drawerExpanded : .drawerExpanded ∈ a → .drawerOpen ∈ a
  open_of_rightPanelFocused : .rightPanelFocused ∈ a → .rightPanelOpen ∈ a
  drawerOpen : .drawerOpen ∈ a ↔ s.drawerOpen = true ∨ s.drawerExpanded = true
  hasMultipleEntities : .hasMultipleEntities ∈ a ↔ 1 < s.entityCount
  hasChangedFiles : .hasChangedFiles ∈ a ↔ 0 < s.changedFileCount
  switches : ∀ p ∈ s.switchFlags, p.1 ∈ a ↔ p.2 = true

theorem mem_entity_iff {e : Entity} (h : e.flag? = some f) :
    f ∈ s.activeFlags ↔ s.focusedEntity = some e := by
  rw [mem_activeFlags_of_entity (Entity.mem_flags_of_flag? h), Option.bind_eq_some_iff]
  constructor
  · rintro ⟨e', he', hf⟩
    rwa [Entity.flag?_injective h hf]
  · intro he
    exact ⟨e, he, h⟩

theorem mem_main_iff : .mainFocused ∈ s.activeFlags ↔ s.focusedView = some .main ∨
    s.focusedView = some .drawer ∧ s.drawerOpen = false ∧ s.drawerExpanded = false ∨
    s.focusedView = some .rightPanel ∧ s.rightPanelOpen = false := by
  rw [mem_activeFlags_of_view (by decide)]
  cases s.focusedView <;> simp [viewFlag?_eq_mainFocused_iff, showsDrawer]

theorem mem_drawer_iff : .drawerFocused ∈ s.activeFlags ↔
    s.focusedView = some .drawer ∧ (s.drawerOpen = true ∨ s.drawerExpanded = true) := by
  rw [mem_activeFlags_of_view (by decide)]
  cases s.focusedView <;> simp [viewFlag?_eq_drawerFocused_iff, showsDrawer]

theorem mem_rightPanel_iff : .rightPanelFocused ∈ s.activeFlags ↔
    s.focusedView = some .rightPanel ∧ s.rightPanelOpen = true := by
  rw [mem_activeFlags_of_view (by decide)]
  cases s.focusedView <;> simp [viewFlag?_eq_rightPanelFocused_iff]

theorem mem_drawerOpen_iff :
    .drawerOpen ∈ s.activeFlags ↔ s.drawerOpen = true ∨ s.drawerExpanded = true := by
  have hfield : (.drawerOpen, s.showsDrawer) ∈ s.fieldFlags := List.mem_cons_self
  rw [mem_activeFlags_of_field hfield, showsDrawer, Bool.or_eq_true]

theorem mem_switch_iff {p : Flag × Bool} (h : p ∈ s.switchFlags) :
    p.1 ∈ s.activeFlags ↔ p.2 = true := by
  have hsub : s.switchFlags ⊆ s.fieldFlags := by
    simp [switchFlags, fieldFlags]
  exact mem_activeFlags_of_field (hsub h)

/-- **The flags of a snapshot are consistent.** -/
theorem isConsistent_activeFlags (s : Snapshot) : IsConsistent s s.activeFlags where
  entity_unique := (tells_entity s).unique
  view_unique := (tells_view s).unique
  exists_entity := by
    rw [(tells_entity s).exists_iff]
    cases s.focusedEntity <;> simp [Entity.exists_flag?_iff]
  exists_view := by
    rw [(tells_view s).exists_iff]
    cases s.focusedView <;> simp [exists_viewFlag?_iff]
  entity _ _ := mem_entity_iff
  main := mem_main_iff
  drawer := mem_drawer_iff
  rightPanel := mem_rightPanel_iff
  open_of_drawerFocused h := mem_drawerOpen_iff.2 (mem_drawer_iff.1 h).2
  open_of_drawerExpanded h := by
    have hfield : (Flag.drawerExpanded, s.drawerExpanded) ∈ s.switchFlags := by simp [switchFlags]
    exact mem_drawerOpen_iff.2 (.inr ((mem_switch_iff hfield).1 h))
  open_of_rightPanelFocused h := by
    have hfield : (Flag.rightPanelOpen, s.rightPanelOpen) ∈ s.switchFlags := by simp [switchFlags]
    exact (mem_switch_iff hfield).2 (mem_rightPanel_iff.1 h).2
  drawerOpen := mem_drawerOpen_iff
  hasMultipleEntities := by
    have hfield : (.hasMultipleEntities, decide (1 < s.entityCount)) ∈ s.fieldFlags := by
      simp [fieldFlags]
    rw [mem_activeFlags_of_field hfield, decide_eq_true_iff]
  hasChangedFiles := by
    have hfield : (.hasChangedFiles, decide (0 < s.changedFileCount)) ∈ s.fieldFlags := by
      simp [fieldFlags]
    rw [mem_activeFlags_of_field hfield, decide_eq_true_iff]
  switches _ := mem_switch_iff

/-- Two sets that are consistent with a snapshot agree on the flag of each switch. -/
theorem IsConsistent.mem_switch_iff {b : FlagSet} (h : IsConsistent s a) (h' : IsConsistent s b)
    (hf : f ∈ s.switchFlags.map Prod.fst) : f ∈ a ↔ f ∈ b := by
  obtain ⟨p, hp, rfl⟩ := List.mem_map.1 hf
  rw [h.switches p hp, h'.switches p hp]

/-- **No other set of flags is consistent with a snapshot.** -/
theorem IsConsistent.eq_activeFlags (h : IsConsistent s a) : a = s.activeFlags := by
  have h' := isConsistent_activeFlags s
  apply FlagSet.ext
  intro f
  cases f with
  | scratchFocused => rw [h.entity .scratch _ rfl, h'.entity .scratch _ rfl]
  | worktreeFocused => rw [h.entity .worktree _ rfl, h'.entity .worktree _ rfl]
  | projectFocused => rw [h.entity .project _ rfl, h'.entity .project _ rfl]
  | mainFocused => rw [h.main, h'.main]
  | drawerFocused => rw [h.drawer, h'.drawer]
  | rightPanelFocused => rw [h.rightPanel, h'.rightPanel]
  | drawerOpen => rw [h.drawerOpen, h'.drawerOpen]
  | hasMultipleEntities => rw [h.hasMultipleEntities, h'.hasMultipleEntities]
  | hasChangedFiles => rw [h.hasChangedFiles, h'.hasChangedFiles]
  | drawerExpanded | rightPanelOpen | pickerOpen | modalOpen | paletteOpen | diffViewOpen
  | hasPreviousView | canGoBack | canGoForward => exact h.mem_switch_iff h' (by simp [switchFlags])

/-! ## §4 From the text of a snapshot -/

/-- The field of a name: a member of an object, or an item of an array at the place of the name. -/
def fieldOf : Json → String → Option Json
  | .object members, n => members.lookup (some n)
  | .array items, n => (fieldNames.zip items).lookup n
  | _, _ => none

/-- The name as which a focus is written. -/
def focusName? : Json → Option String
  | .string n => n
  | .object [(n, .null)] => n
  | _ => none

theorem focus?_eq_some {α : Type} {ofName : String → α} {j : Option Json} {o : Option α}
    (h : focus? ofName j = some o) : o = (j.bind focusName?).map ofName := by
  unfold focus? at h
  split at h <;> simp_all [focusName?]

theorem switch?_eq_some {j : Option Json} {b : Bool} (h : switch? j = some b) :
    b = true ↔ j = some (.bool true) := by
  unfold switch? at h
  split at h <;> simp_all

theorem count?_eq_some {j : Option Json} {n : Nat} (h : count? j = some n) :
    n = (j.bind Json.natural?).getD 0 ∧ n < UInt64.size := by
  unfold count? at h
  split at h
  · obtain rfl := Option.some.inj h
    exact ⟨rfl, by decide⟩
  · obtain rfl := Option.some.inj h
    exact ⟨rfl, by decide⟩
  · split at h
    · next m hm =>
      obtain ⟨hlt, hmn⟩ := Option.ite_none_right_eq_some.1 h
      obtain rfl := Option.some.inj hmn
      exact ⟨by simp [hm], hlt⟩
    · contradiction

/-- A snapshot has what is written in the fields of a JSON value. -/
structure IsWritten (j : Json) (s : Snapshot) : Prop where
  entity : ∀ e, e ≠ .unknown →
    (s.focusedEntity = some e ↔ (fieldOf j "focusedEntity").bind focusName? = some e.name)
  view : ∀ v, v ≠ .unknown →
    (s.focusedView = some v ↔ (fieldOf j "focusedView").bind focusName? = some v.name)
  /-- A switch has the name of its flag. -/
  switches : ∀ p ∈ (.drawerOpen, s.drawerOpen) :: s.switchFlags,
    p.2 = true ↔ fieldOf j p.1.name = some (.bool true)
  entityCount : s.entityCount = ((fieldOf j "entityCount").bind Json.natural?).getD 0
  entityCount_lt : s.entityCount < UInt64.size
  changedFileCount :
    s.changedFileCount = ((fieldOf j "changedFileCount").bind Json.natural?).getD 0
  changedFileCount_lt : s.changedFileCount < UInt64.size

theorem ofFields?_of_ofJson? {j : Json} (h : ofJson? j = some s) :
    ofFields? (fieldOf j) = some s := by
  cases j with
  | object members => exact (Option.ite_none_right_eq_some.1 h).2
  | array items => exact (Option.ite_none_right_eq_some.1 h).2
  | null | bool | number | string => contradiction

theorem isWritten_of_ofJson? {j : Json} (h : ofJson? j = some s) : IsWritten j s := by
  have hread := ofFields?_eq_some_iff.1 (ofFields?_of_ofJson? h)
  have hentities := count?_eq_some (hread.counts ("entityCount", _) List.mem_cons_self)
  have hfiles := count?_eq_some
    (hread.counts ("changedFileCount", _) (List.mem_cons_of_mem _ List.mem_cons_self))
  constructor
  case entity =>
    intro e he
    simp only [focus?_eq_some hread.entity, Option.map_eq_some_iff, Entity.ofName_eq_iff he,
      exists_eq_right]
  case view =>
    intro v hv
    simp only [focus?_eq_some hread.view, Option.map_eq_some_iff, View.ofName_eq_iff hv,
      exists_eq_right]
  case switches =>
    have hnames : ((.drawerOpen, s.drawerOpen) :: s.switchFlags).map (fun p => (p.1.name, p.2)) =
        s.namedSwitches := rfl
    intro p hp
    apply switch?_eq_some
    apply hread.switches (p.1.name, p.2)
    rw [← hnames]
    exact List.mem_map_of_mem hp
  case entityCount => exact hentities.1
  case entityCount_lt => exact hentities.2
  case changedFileCount => exact hfiles.1
  case changedFileCount_lt => exact hfiles.2

/-- **From the text of a snapshot to consistent flags.** A text that denotes a snapshot tells a set
of flags, which is the one that is consistent with what is written in the text. -/
theorem isConsistent_of_read {text : String} (h : read? text = some s) :
    ActiveText.read (.snapshot text) = .ok s.activeFlags ∧ IsConsistent s s.activeFlags ∧
      ∃ j, Json.read? text = some j ∧ IsWritten j s := by
  obtain ⟨j, hj, hs⟩ := Option.bind_eq_some_iff.1 h
  refine ⟨?_, isConsistent_activeFlags s, j, hj, isWritten_of_ofJson? hs⟩
  rw [ActiveText.read, h]

/-- An unknown kind of entity sets no flag, and the focus on a drawer that is expanded stays there,
although nothing says that the drawer is open. -/
theorem isConsistent_of_read_expanded :
    ∃ s, read? ("\x7b\"focusedEntity\": \"terminal\", \"focusedView\": \"drawer\", " ++
        "\"drawerOpen\": null, \"drawerExpanded\": true, " ++
        "\"entityCount\": 18446744073709551615, \"note\": 1\x7d") = some s ∧
      s.focusedEntity = some .unknown ∧ s.drawerOpen = false ∧ s.entityCount = UInt64.size - 1 ∧
      (∀ f ∈ Entity.flags, f ∉ s.activeFlags) ∧ .drawerFocused ∈ s.activeFlags ∧
      .drawerOpen ∈ s.activeFlags ∧ .hasMultipleEntities ∈ s.activeFlags := by
  have hread : read? ("\x7b\"focusedEntity\": \"terminal\", \"focusedView\": \"drawer\", " ++
        "\"drawerOpen\": null, \"drawerExpanded\": true, " ++
        "\"entityCount\": 18446744073709551615, \"note\": 1\x7d") =
      some ⟨some .unknown, some .drawer, false, true, false, false, false, false, false,
        18446744073709551615, false, false, false, 0⟩ := by
    decide +kernel
  obtain ⟨-, hconsistent, -⟩ := isConsistent_of_read hread
  have hdrawer := hconsistent.drawer.2 ⟨rfl, .inr rfl⟩
  refine ⟨_, hread, rfl, rfl, rfl, ?_, hdrawer, hconsistent.open_of_drawerFocused hdrawer,
    hconsistent.hasMultipleEntities.2 (by decide)⟩
  intro f hf hfa
  obtain ⟨e, hknown, he⟩ := hconsistent.exists_entity.1 ⟨f, hf, hfa⟩
  exact hknown (Option.some.inj he).symm

end Snapshot

end Keybinding
