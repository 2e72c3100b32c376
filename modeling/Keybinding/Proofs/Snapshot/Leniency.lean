import Keybinding.Proofs.Json.Printing
import Keybinding.Proofs.Snapshot
import Keybinding.Proofs.Snapshot.Reading

/-!
# What a snapshot does not depend on

The same snapshot can be written as many objects. Their members can stand in any order, members with
foreign keys can be among them, and a field can be null instead of missing. A focus can have a name
that nothing is known about, and it then turns no flag on. A field that occurs twice is refused.

Objects are what texts denote. So each of these facts is stated of all texts of an object, of which
there is at least one (`Denotes`).
-/

namespace Keybinding.Snapshot

variable {s : Snapshot} {n : String} {j : Json} {ms ms' : List (Option String × Json)}

/-! ## §1 Members in another order and members left out -/

/-- The key of a member is the name of a field. -/
def isField (m : Option String × Json) : Bool :=
  (fieldNames.map some).contains m.1

/-- A member is that of a field which is null. -/
def isNullField : Option String × Json → Bool
  | (some n, .null) => fieldNames.contains n
  | _ => false

/-- The order of the members does not matter. -/
theorem ofJson?_of_perm (hs : ofJson? (.object ms) = some s) (h : ms'.Perm ms) :
    ofJson? (.object ms') = some s := by
  apply ofJson?_of_subperm hs h.subperm
  intro n hn j hj hmem
  exact h.symm.subset hmem

/-- Members with foreign keys do not matter. -/
theorem ofJson?_filter_isField (hs : ofJson? (.object ms) = some s) :
    ofJson? (.object (ms.filter isField)) = some s := by
  apply ofJson?_of_subperm hs List.filter_sublist.subperm
  intro n hn j hj hmem
  apply List.mem_filter.2
  refine ⟨hmem, ?_⟩
  rw [isField, List.contains_iff_mem]
  exact List.mem_map_of_mem hn

/-- Fields that are null do not matter. -/
theorem ofJson?_filter_isNullField (hs : ofJson? (.object ms) = some s) :
    ofJson? (.object (ms.filter (!isNullField ·))) = some s := by
  apply ofJson?_of_subperm hs List.filter_sublist.subperm
  intro n hn j hj hmem
  apply List.mem_filter.2
  refine ⟨hmem, ?_⟩
  cases j with
  | null => contradiction
  | bool | number | string | array | object => rfl

/-! ## §2 Another focus -/

variable {before after : List (Option String × Json)}

/-- Where the value of a field is replaced, the field has the new value, and all others have the
value that they had before. -/
theorem lookup_replaced (hn : n ∈ fieldNames) (j' : Json)
    (h : keysAllowed (before ++ (some n, j) :: after) = true) :
    keysAllowed (before ++ (some n, j') :: after) = true ∧
      (before ++ (some n, j') :: after).lookup (some n) = some j' ∧
      ∀ n', n' ≠ n → (before ++ (some n, j') :: after).lookup (some n') =
        (before ++ (some n, j) :: after).lookup (some n') := by
  have hallowed : keysAllowed (before ++ (some n, j') :: after) = true := by
    rw [← h]
    apply keysAllowed_congr
    simp
  have hunique := (keysAllowed_iff.1 hallowed).2 n hn
  refine ⟨hallowed, ?_, ?_⟩
  · rw [lookup_eq_some_iff_mem hunique]
    exact List.mem_append_right before List.mem_cons_self
  · intro n' hne
    have hkey : (some n' == some n) = false := beq_false_of_ne (mt Option.some.inj hne)
    rw [List.lookup_append, List.lookup_append, List.lookup_cons, List.lookup_cons, hkey]

/-- The switches and the counts are read in fields of their own. -/
theorem IsRead.switches_counts_of_eq {field field' : String → Option Json} (h : IsRead field s)
    (hn : n = "focusedEntity" ∨ n = "focusedView") (heq : ∀ n', n' ≠ n → field' n' = field n') :
    (∀ p ∈ s.namedSwitches, switch? (field' p.1) = some p.2) ∧
      ∀ p ∈ s.namedCounts, count? (field' p.1) = some p.2 := by
  -- neither focus has the name of a switch or of a count
  have hnames : (∀ p ∈ s.namedSwitches, p.1 ≠ n) ∧ ∀ p ∈ s.namedCounts, p.1 ≠ n := by
    rcases hn with rfl | rfl
    · simp [namedSwitches, namedCounts]
    · simp [namedSwitches, namedCounts]
  constructor
  · intro p hp
    rw [heq _ (hnames.1 p hp)]
    exact h.switches p hp
  · intro p hp
    rw [heq _ (hnames.2 p hp)]
    exact h.counts p hp

theorem ofJson?_entity_replaced
    (hs : ofJson? (.object (before ++ (some "focusedEntity", j) :: after)) = some s) (m : String) :
    ofJson? (.object (before ++ (some "focusedEntity", .string (some m)) :: after)) =
      some { s with focusedEntity := some (Entity.ofName m) } := by
  obtain ⟨hallowed, hfields⟩ := ofJson?_object_eq_some_iff.1 hs
  obtain ⟨hallowed', hnew, hother⟩ := lookup_replaced (by decide) (.string (some m)) hallowed
  have hread := ofFields?_eq_some_iff.1 hfields
  obtain ⟨hswitches, hcounts⟩ := hread.switches_counts_of_eq (.inl rfl) hother
  rw [ofJson?_object_eq_some_iff, ofFields?_eq_some_iff]
  -- only the entity is read anew
  refine ⟨hallowed', ?_, ?_, hswitches, hcounts⟩
  · rw [hnew]
    rfl
  · rw [hother _ (by decide)]
    exact hread.view

theorem ofJson?_view_replaced
    (hs : ofJson? (.object (before ++ (some "focusedView", j) :: after)) = some s) (m : String) :
    ofJson? (.object (before ++ (some "focusedView", .string (some m)) :: after)) =
      some { s with focusedView := some (View.ofName m) } := by
  obtain ⟨hallowed, hfields⟩ := ofJson?_object_eq_some_iff.1 hs
  obtain ⟨hallowed', hnew, hother⟩ := lookup_replaced (by decide) (.string (some m)) hallowed
  have hread := ofFields?_eq_some_iff.1 hfields
  obtain ⟨hswitches, hcounts⟩ := hread.switches_counts_of_eq (.inr rfl) hother
  rw [ofJson?_object_eq_some_iff, ofFields?_eq_some_iff]
  -- only the view is read anew
  refine ⟨hallowed', ?_, ?_, hswitches, hcounts⟩
  · rw [hother _ (by decide)]
    exact hread.entity
  · rw [hnew]
    rfl

/-- A string is proper, whatever it replaces. -/
theorem isProper_replaced {k : Option String}
    (h : ∀ p ∈ before ++ (k, j) :: after, p.2.IsProper) (m : String) :
    ∀ p ∈ before ++ (k, .string (some m)) :: after, p.2.IsProper := by
  simp only [List.forall_mem_append, List.forall_mem_cons] at h ⊢
  exact ⟨h.1, Json.isProper_string m, h.2.2⟩

/-- A name that is none of a known kind is that of an unknown one. -/
theorem ofName_eq_unknown_entity {m : String} (h : ∀ e : Entity, e ≠ .unknown → m ≠ e.name) :
    Entity.ofName m = .unknown := by
  by_contra hknown
  exact h _ hknown ((Entity.ofName_eq_iff hknown).1 rfl)

theorem ofName_eq_unknown_view {m : String} (h : ∀ v : View, v ≠ .unknown → m ≠ v.name) :
    View.ofName m = .unknown := by
  by_contra hknown
  exact h _ hknown ((View.ofName_eq_iff hknown).1 rfl)

theorem not_mem_activeFlags_of_entity (h : s.focusedEntity = some .unknown) :
    ∀ f ∈ Entity.flags, f ∉ s.activeFlags := by
  intro f hf hmem
  obtain ⟨e, hknown, he⟩ := (isConsistent_activeFlags s).exists_entity.1 ⟨f, hf, hmem⟩
  rw [h] at he
  exact hknown (Option.some.inj he).symm

theorem not_mem_activeFlags_of_view (h : s.focusedView = some .unknown) :
    ∀ f ∈ View.flags, f ∉ s.activeFlags := by
  intro f hf hmem
  obtain ⟨v, hknown, hv⟩ := (isConsistent_activeFlags s).exists_view.1 ⟨f, hf, hmem⟩
  rw [h] at hv
  exact hknown (Option.some.inj hv).symm

/-! ## §3 Texts -/

/-- There are texts of an object with the given members, and all of them denote the snapshot. -/
structure Denotes (ms : List (Option String × Json)) (s : Snapshot) : Prop where
  exists_text : ∃ text, Json.read? text = some (.object ms)
  read_eq : ∀ text, Json.read? text = some (.object ms) → read? text = some s

/-- What does not matter about an object that denotes a snapshot. -/
structure IsLenient (ms : List (Option String × Json)) (s : Snapshot) : Prop where
  /-- The order of the members. -/
  permuted : ∀ ms', ms'.Perm ms → Denotes ms' s
  /-- Members with keys that are not the names of fields. -/
  withoutForeign : Denotes (ms.filter isField) s
  /-- Fields that are null. -/
  withoutNull : Denotes (ms.filter (!isNullField ·)) s
  /-- Which name an entity has that nothing is known about. It turns no flag on. -/
  entity : ∀ before after n m, ms = before ++ (some "focusedEntity", .string (some n)) :: after →
    (∀ e : Entity, e ≠ .unknown → m ≠ e.name) →
    Denotes (before ++ (some "focusedEntity", .string (some m)) :: after)
        { s with focusedEntity := some .unknown } ∧
      ∀ f ∈ Entity.flags, f ∉ { s with focusedEntity := some .unknown }.activeFlags
  /-- Which name a view has that nothing is known about. It turns no flag on. -/
  view : ∀ before after n m, ms = before ++ (some "focusedView", .string (some n)) :: after →
    (∀ v : View, v ≠ .unknown → m ≠ v.name) →
    Denotes (before ++ (some "focusedView", .string (some m)) :: after)
        { s with focusedView := some .unknown } ∧
      ∀ f ∈ View.flags, f ∉ { s with focusedView := some .unknown }.activeFlags

/-- An object that is read as a snapshot has a text if the values of its members have one. -/
theorem denotes_of_ofJson? (hproper : ∀ m ∈ ms, m.2.IsProper)
    (h : ofJson? (.object ms) = some s) : Denotes ms s := by
  constructor
  · exact ⟨_, Json.read?_display (Json.isProper_object_iff.2 hproper)⟩
  · intro text htext
    rw [read?, htext]
    exact h

theorem isLenient_of_ofJson? (hproper : ∀ m ∈ ms, m.2.IsProper)
    (hs : ofJson? (.object ms) = some s) : IsLenient ms s where
  permuted ms' hperm := by
    apply denotes_of_ofJson?
    · intro m hm
      exact hproper m (hperm.subset hm)
    · exact ofJson?_of_perm hs hperm
  withoutForeign := by
    apply denotes_of_ofJson?
    · intro m hm
      exact hproper m (List.mem_of_mem_filter hm)
    · exact ofJson?_filter_isField hs
  withoutNull := by
    apply denotes_of_ofJson?
    · intro m hm
      exact hproper m (List.mem_of_mem_filter hm)
    · exact ofJson?_filter_isNullField hs
  entity := by
    intro before after n m hms hunknown
    subst hms
    have hread := ofJson?_entity_replaced hs m
    rw [ofName_eq_unknown_entity hunknown] at hread
    refine ⟨denotes_of_ofJson? ?_ hread, not_mem_activeFlags_of_entity rfl⟩
    exact isProper_replaced hproper m
  view := by
    intro before after n m hms hunknown
    subst hms
    have hread := ofJson?_view_replaced hs m
    rw [ofName_eq_unknown_view hunknown] at hread
    refine ⟨denotes_of_ofJson? ?_ hread, not_mem_activeFlags_of_view rfl⟩
    exact isProper_replaced hproper m

theorem keysAllowed_repeated (hn : n ∈ fieldNames) (j j' : Json)
    (between : List (Option String × Json)) :
    keysAllowed (before ++ (some n, j) :: between ++ (some n, j') :: after) = false := by
  rw [← Bool.not_eq_true, keysAllowed_iff]
  intro h
  -- the field would be counted twice
  have hcount := h.2 n hn
  simp only [List.map_append, List.map_cons, List.count_append, List.count_cons_self] at hcount
  omega

/-- **A snapshot depends on nothing else in its object.** When the members of an object change their
order, when those with foreign keys are left out, or when the fields are left out that are null,
then every text of the new object denotes the same snapshot, and there are such texts. A name of a
focus about which nothing is known turns no flag of that focus on. An object in which a field occurs
twice denotes no snapshot, whatever its two values are. -/
theorem isLenient_of_read :
    (∀ text ms s, Json.read? text = some (.object ms) → read? text = some s → IsLenient ms s) ∧
    ∀ text n j j' before between after, n ∈ fieldNames →
      Json.read? text = some (.object (before ++ (some n, j) :: between ++ (some n, j') :: after)) →
      read? text = none := by
  constructor
  · intro text ms s hobject hs
    have hproper := Json.isProper_object_iff.1 (Json.isProper_of_read? hobject)
    rw [read?, hobject] at hs
    exact isLenient_of_ofJson? hproper hs
  · intro text n j j' before between after hn hobject
    rw [read?, hobject]
    exact if_neg (by rw [keysAllowed_repeated hn]; exact Bool.false_ne_true)

/-! An object with a note that belongs to no field, and with a field that is null. -/

def notedMembers : List (Option String × Json) :=
  [ (some "note", .number "-1.5e3"), (some "focusedEntity", .string (some "project")),
    (some "drawerOpen", .null), (some "modalOpen", .bool true) ]

def notedSnapshot : Snapshot :=
  ⟨some .project, none, false, false, false, false, true, false, false, 0, false, false, false, 0⟩

/-- Neither the order nor the note nor the field that is null matters, and an entity of another name
is an unknown one. With a second entity there is no snapshot. -/
theorem isLenient_of_read_noted :
    ∃ text twice, Json.read? text = some (.object notedMembers) ∧ read? text = some notedSnapshot ∧
      Denotes notedMembers.reverse notedSnapshot ∧
      Denotes (notedMembers.filter isField) notedSnapshot ∧
      Denotes (notedMembers.filter (!isNullField ·)) notedSnapshot ∧
      Denotes [ (some "note", .number "-1.5e3"), (some "focusedEntity", .string (some "terminal")),
          (some "drawerOpen", .null), (some "modalOpen", .bool true) ]
        { notedSnapshot with focusedEntity := some .unknown } ∧
      Json.read? twice =
        some (.object (notedMembers ++ [(some "focusedEntity", .string (some "project"))])) ∧
      read? twice = none := by
  have hnumber : Json.IsNumber "-1.5e3".toList := by
    have htoken : Json.numberToken? "-1.5e3".toList = some (.number "-1.5e3", []) := by decide
    obtain ⟨u, -, hu, hsplit⟩ := Json.isNumber_of_numberToken? htoken
    rwa [hsplit, List.append_nil]
  have hproper : ∀ m ∈ notedMembers, m.2.IsProper := by
    simpa [notedMembers, Json.isProper_null, Json.isProper_bool, Json.isProper_string,
      Json.isProper_number_iff] using hnumber
  have hobject := Json.read?_display (Json.isProper_object_iff.2 hproper)
  have hread : read? (Json.object notedMembers).display = some notedSnapshot := by
    rw [read?, hobject]
    decide +kernel
  have htwice : (Json.object
      (notedMembers ++ [(some "focusedEntity", .string (some "project"))])).IsProper := by
    rw [Json.isProper_object_iff, List.forall_mem_append]
    exact ⟨hproper, List.forall_mem_singleton.2 (Json.isProper_string _)⟩
  have h := isLenient_of_read.1 _ _ _ hobject hread
  refine ⟨_, _, hobject, hread, h.permuted _ (List.reverse_perm _), h.withoutForeign,
    h.withoutNull, ?_, Json.read?_display htwice, ?_⟩
  · have hknown : ∀ e : Entity, e ≠ .unknown → "terminal" ≠ e.name := by
      intro e he
      cases e with
      | scratch | worktree | project => decide
      | unknown => contradiction
    exact (h.entity [(some "note", .number "-1.5e3")]
      [(some "drawerOpen", .null), (some "modalOpen", .bool true)] "project" "terminal" rfl
      hknown).1
  · exact isLenient_of_read.2 _ "focusedEntity" _ _ [(some "note", .number "-1.5e3")]
      [(some "drawerOpen", .null), (some "modalOpen", .bool true)] [] (by decide)
      (Json.read?_display htwice)

end Keybinding.Snapshot
