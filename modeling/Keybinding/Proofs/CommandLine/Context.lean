import Keybinding.Proofs.CommandLine.Options
import Keybinding.Proofs.Steps
import Keybinding.Proofs.Text.Basic
import Mathlib.Logic.Relation

/-!
# The union of what a command line tells

The active flags of a command line are those of its snapshot together with those that it names. They
are told exactly if the snapshot can be read and each name is that of a flag, or nothing but white
space (`read_eq_ok_iff`). A mistake in the snapshot is blamed before a mistake in a name, and of the
names the first wrong one is blamed (`read_eq_error_iff`).

All that counts of the names is which of them there are (`toOption_read_congr`). They can be told in
any order, more than once, with white space around them, and in one value or several (`Rewording`).
-/

namespace Keybinding

/-! ## §1 Names of flags -/

theorem Flag.name_ne_empty (f : Flag) : f.name ≠ "" := by
  cases f <;> decide

namespace FlagSet

theorem ofNames.flag_eq_ok_iff {n : String} {f : Flag} : flag n = .ok f ↔ f.name = n := by
  rw [flag]
  constructor
  · intro h
    split at h
    · next hread =>
      cases h
      exact Flag.name_of_ofName? hread
    · cases h
  · intro h
    rw [← h, Flag.ofName?_name]

/-- Names tell a set if each is the name of a flag, and the set is that of these flags. -/
theorem ofNames_eq_ok_iff {names : List String} {s : FlagSet} :
    ofNames names = .ok s ↔
      (∀ n ∈ names, ∃ f : Flag, f.name = n) ∧ ∀ f, f ∈ s ↔ f.name ∈ names := by
  have hread : ∀ fs, names.mapM ofNames.flag = .ok fs ↔
      List.Forall₂ (fun n f => f.name = n) names fs := by
    intro fs
    simp only [mapM_eq_ok_iff, ofNames.flag_eq_ok_iff]
  have hmem : ∀ fs : List Flag, List.Forall₂ (fun n f => f.name = n) names fs →
      ∀ f, f ∈ ofList fs ↔ f.name ∈ names := by
    intro fs hfs f
    have hnames : fs.map Flag.name = names := by
      rw [← List.forall₂_eq_eq_eq, List.forall₂_map_left_iff]
      exact hfs.flip
    rw [mem_ofList, ← hnames, List.mem_map_of_injective fun _ _ => Flag.name_injective]
  rw [ofNames, Except.map_eq_ok_iff]
  constructor
  · rintro ⟨fs, hfs, rfl⟩
    rw [hread] at hfs
    exact ⟨exists_forall₂_iff.1 ⟨fs, hfs⟩, hmem fs hfs⟩
  · rintro ⟨hnames, hs⟩
    obtain ⟨fs, hfs⟩ := exists_forall₂_iff.2 hnames
    refine ⟨fs, (hread fs).2 hfs, FlagSet.ext fun f => ?_⟩
    rw [hmem fs hfs, hs]

theorem exists_ofNames {names : List String} (h : ∀ n ∈ names, ∃ f : Flag, f.name = n) :
    ∃ s, ofNames names = .ok s := by
  refine ⟨ofList (Flag.all.filter fun f => decide (f.name ∈ names)), ?_⟩
  rw [ofNames_eq_ok_iff]
  exact ⟨h, fun f => by simp [Flag.mem_all]⟩

/-- The first name of no flag is blamed. -/
theorem ofNames_of_unknown {before later : List String} {n : String}
    (hbefore : ∀ m ∈ before, ∃ f : Flag, f.name = m) (hn : ∀ f : Flag, f.name ≠ n) :
    ofNames (before ++ n :: later) = .error n := by
  have hunknown : ofNames.flag n = .error n := by
    rw [ofNames.flag]
    split
    · next f hread => exact absurd (Flag.name_of_ofName? hread) (hn f)
    · rfl
  have hknown : ∀ m ∈ before, ∃ f, ofNames.flag m = .ok f := by
    intro m hm
    obtain ⟨f, hf⟩ := hbefore m hm
    exact ⟨f, ofNames.flag_eq_ok_iff.2 hf⟩
  rw [ofNames, mapM_of_error hknown hunknown]
  rfl

end FlagSet

namespace CommandLine.ContextText

/-! ## §2 Snapshots -/

/-- The flags that a snapshot tells, if a file of one is named at all. -/
inductive Tells (look : String → PathState) : Option String → FlagSet → Prop where
  | nothing : Tells look none .empty
  | snapshot {path text : String} {s : Snapshot} (hfile : (look path).text? = some text)
    (hread : Snapshot.read? text = some s) : Tells look (some path) s.activeFlags

/-- The mistake in a snapshot. -/
inductive Fails (look : String → PathState) : Option String → Error → Prop where
  | unreadable {path : String} (hfile : (look path).text? = none) :
    Fails look (some path) (.unreadable path)
  | invalid {path text : String} (hfile : (look path).text? = some text)
    (hread : Snapshot.read? text = none) : Fails look (some path) (.invalidSnapshot path)

variable {look : String → PathState} {state : Option String}

/-- The flags of the snapshot are told, or there is a mistake in it. -/
theorem exists_tells_or_fails (look : String → PathState) (state : Option String) :
    (∃ told, Tells look state told) ∨ ∃ e, Fails look state e := by
  cases state with
  | none => exact .inl ⟨_, .nothing⟩
  | some path =>
    cases hfile : (look path).text? with
    | none => exact .inr ⟨_, .unreadable hfile⟩
    | some text =>
      cases hread : Snapshot.read? text with
      | none => exact .inr ⟨_, .invalid hfile hread⟩
      | some s => exact .inl ⟨_, .snapshot hfile hread⟩

theorem stateFlags_some (look : String → PathState) (path : String) :
    ((some path).mapM (snapshotFlags look)).map (·.getD .empty) = snapshotFlags look path := by
  show (some <$> snapshotFlags look path).map (·.getD .empty) = _
  cases snapshotFlags look path <;> rfl

theorem stateFlags_of_tells {told : FlagSet} (h : Tells look state told) :
    (state.mapM (snapshotFlags look)).map (·.getD .empty) = .ok told := by
  cases h with
  | nothing => rfl
  | snapshot hfile hread => simp only [stateFlags_some, snapshotFlags, hfile, hread]

theorem stateFlags_of_fails {e : Error} (h : Fails look state e) :
    (state.mapM (snapshotFlags look)).map (·.getD .empty) = .error e := by
  cases h with
  | unreadable hfile => simp only [stateFlags_some, snapshotFlags, hfile]
  | invalid hfile hread => simp only [stateFlags_some, snapshotFlags, hfile, hread]

variable {context : ContextText} {told : FlagSet}

/-- The names are added to the flags of the snapshot. -/
theorem read_of_tells (h : Tells look context.state told) :
    context.read look =
      ((FlagSet.ofNames context.trimmedNames).mapError .unknownFlag).map told.union := by
  rw [read, stateFlags_of_tells h]
  rfl

/-- After a mistake in the snapshot no name is looked at. -/
theorem read_of_fails {e : Error} (h : Fails look context.state e) :
    context.read look = .error e := by
  rw [read, stateFlags_of_fails h]
  rfl

/-! ## §3 Names as they are given -/

/-- A name is allowed if it is that of a flag when the white space around it is cut off, or if there
is nothing but white space, which is left out. -/
def IsAllowed (n : String) : Prop :=
  Text.trimmed n = "" ∨ ∃ f : Flag, f.name = Text.trimmed n

theorem mem_trimmedNames {n : String} :
    n ∈ context.trimmedNames ↔ n ≠ "" ∧ ∃ m ∈ context.names, Text.trimmed m = n := by
  simp [trimmedNames, and_comm]

theorem forall_trimmedNames_iff :
    (∀ n ∈ context.trimmedNames, ∃ f : Flag, f.name = n) ↔ ∀ n ∈ context.names, IsAllowed n := by
  constructor
  · intro h n hn
    by_cases hempty : Text.trimmed n = ""
    · exact .inl hempty
    · exact .inr (h _ (mem_trimmedNames.2 ⟨hempty, n, hn, rfl⟩))
  · intro h n hn
    obtain ⟨hne, m, hm, rfl⟩ := mem_trimmedNames.1 hn
    exact (h m hm).resolve_left hne

theorem name_mem_trimmedNames_iff {f : Flag} :
    f.name ∈ context.trimmedNames ↔ ∃ n ∈ context.names, Text.trimmed n = f.name := by
  rw [mem_trimmedNames, and_iff_right f.name_ne_empty]

/-! ## §4 What is told and what is blamed -/

/-- The union is told by the names that are left after trimming, in whatever order they come. -/
theorem read_eq_ok_iff_trimmedNames {active : FlagSet} :
    context.read look = .ok active ↔
      ∃ told, Tells look context.state told ∧ (∀ n ∈ context.trimmedNames, ∃ f : Flag, f.name = n) ∧
        ∀ f, f ∈ active ↔ f ∈ told ∨ f.name ∈ context.trimmedNames := by
  constructor
  · intro h
    rcases exists_tells_or_fails look context.state with ⟨told, htold⟩ | ⟨e, hfails⟩
    · rw [read_of_tells htold, Except.map_eq_ok_iff] at h
      obtain ⟨named, hnamed, rfl⟩ := h
      rw [Except.mapError_eq_ok_iff, FlagSet.ofNames_eq_ok_iff] at hnamed
      refine ⟨told, htold, hnamed.1, fun f => ?_⟩
      rw [FlagSet.mem_union, hnamed.2]
    · rw [read_of_fails hfails] at h
      cases h
  · rintro ⟨told, htold, hnames, hactive⟩
    obtain ⟨named, hnamed⟩ := FlagSet.exists_ofNames hnames
    rw [read_of_tells htold, Except.map_eq_ok_iff]
    refine ⟨named, Except.mapError_eq_ok_iff.2 hnamed, FlagSet.ext fun f => ?_⟩
    rw [FlagSet.mem_union, hactive, (FlagSet.ofNames_eq_ok_iff.1 hnamed).2]

/-- **The flags that are told are those of the snapshot and those that are named.** -/
theorem read_eq_ok_iff {active : FlagSet} :
    context.read look = .ok active ↔
      ∃ told, Tells look context.state told ∧ (∀ n ∈ context.names, IsAllowed n) ∧
        ∀ f, f ∈ active ↔ f ∈ told ∨ ∃ n ∈ context.names, Text.trimmed n = f.name := by
  simp only [read_eq_ok_iff_trimmedNames, forall_trimmedNames_iff, name_mem_trimmedNames_iff]

theorem exists_read_iff :
    (∃ active, context.read look = .ok active) ↔
      (∃ told, Tells look context.state told) ∧ ∀ n ∈ context.names, IsAllowed n := by
  constructor
  · rintro ⟨active, h⟩
    obtain ⟨told, htold, hallowed, -⟩ := read_eq_ok_iff.1 h
    exact ⟨⟨told, htold⟩, hallowed⟩
  · rintro ⟨⟨told, htold⟩, hallowed⟩
    obtain ⟨named, hnamed⟩ := FlagSet.exists_ofNames (forall_trimmedNames_iff.2 hallowed)
    refine ⟨told.union named, ?_⟩
    rw [read_of_tells htold, hnamed]
    rfl

/-- What is to blame when no flags are told: the snapshot, or else the first wrong name. -/
inductive IsBlamed (look : String → PathState) (context : ContextText) : Error → Prop where
  | snapshot {e : Error} (h : Fails look context.state e) : IsBlamed look context e
  | name {told : FlagSet} {before later : List String} {n : String}
    (hstate : Tells look context.state told) (hnames : context.names = before ++ n :: later)
    (hbefore : ∀ m ∈ before, IsAllowed m) (hn : ¬ IsAllowed n) :
    IsBlamed look context (.unknownFlag (Text.trimmed n))

theorem read_of_isBlamed {e : Error} (h : IsBlamed look context e) :
    context.read look = .error e := by
  cases h with
  | snapshot h => exact read_of_fails h
  | @name told before later n hstate hnames hbefore hn =>
    obtain ⟨hne, hunknown⟩ := not_or.1 hn
    -- of the names before, those that are left are names of flags
    have hknown : ∀ m ∈ ContextText.trimmedNames ⟨none, before⟩, ∃ f : Flag, f.name = m :=
      forall_trimmedNames_iff.2 hbefore
    have htrimmed : context.trimmedNames = ContextText.trimmedNames ⟨none, before⟩ ++
        Text.trimmed n :: ContextText.trimmedNames ⟨none, later⟩ := by
      simp [trimmedNames, hnames, hne]
    rw [read_of_tells hstate, htrimmed,
      FlagSet.ofNames_of_unknown hknown fun f hf => hunknown ⟨f, hf⟩]
    rfl

/-- **The snapshot is blamed before the names, and of these the first wrong one.** -/
theorem read_eq_error_iff {e : Error} :
    context.read look = .error e ↔ IsBlamed look context e := by
  refine ⟨?_, read_of_isBlamed⟩
  intro h
  have hblamed : ∃ e', IsBlamed look context e' := by
    rcases exists_tells_or_fails look context.state with ⟨told, htold⟩ | ⟨e', hfails⟩
    · -- were all names allowed, flags would be told
      have hnames : ¬ ∀ n ∈ context.names, IsAllowed n := by
        intro hallowed
        obtain ⟨active, hactive⟩ := exists_read_iff.2 ⟨⟨told, htold⟩, hallowed⟩
        rw [hactive] at h
        cases h
      obtain ⟨before, n, later, hsplit, hbefore, hn⟩ := exists_first_not hnames
      exact ⟨_, .name htold hsplit hbefore hn⟩
    · exact ⟨e', .snapshot hfails⟩
  obtain ⟨e', hblamed⟩ := hblamed
  rw [read_of_isBlamed hblamed] at h
  exact Except.error.inj h ▸ hblamed

/-! ## §5 Other ways to give the same names -/

/-- The same names are given, but for white space around them and for names that are empty. -/
def SameNames (ns ms : List String) : Prop :=
  ∀ n, n ≠ "" → ((∃ m ∈ ns, Text.trimmed m = n) ↔ ∃ m ∈ ms, Text.trimmed m = n)

/-- **All that counts of the names is which of them there are.** -/
theorem toOption_read_congr {ns ms : List String} (h : SameNames ns ms) :
    (read look ⟨state, ns⟩).toOption = (read look ⟨state, ms⟩).toOption := by
  have hmem : ∀ n, n ∈ trimmedNames ⟨state, ns⟩ ↔ n ∈ trimmedNames ⟨state, ms⟩ := by
    intro n
    rw [mem_trimmedNames, mem_trimmedNames]
    exact and_congr_right (h n)
  apply Option.ext
  intro active
  simp only [Except.toOption_eq_some_iff, read_eq_ok_iff_trimmedNames, hmem]

/-- The values of an option are given in another way that names the same flags. -/
inductive Rewording : List String → List String → Prop where
  | reorder {vs ws : List String} (h : vs.Perm ws) : Rewording vs ws
  /-- A value is given once more. -/
  | again {v : String} {vs : List String} (h : v ∈ vs) : Rewording vs (v :: vs)
  /-- White space is put around a name. -/
  | spaced {s v t : String} (vs : List String) (hs : ∀ c ∈ s.toList, Text.isSpace c = true)
    (hv : ',' ∉ v.toList) (ht : ∀ c ∈ t.toList, Text.isSpace c = true) :
    Rewording (v :: vs) ((s ++ v ++ t) :: vs)
  | empty (vs : List String) : Rewording vs ("" :: vs)
  /-- Several values are given as one, with commas between them. -/
  | joined {ps : List String} (vs : List String) (h : ps ≠ []) :
    Rewording (ps ++ vs) (String.intercalate "," ps :: vs)

/-- A value lists a name, apart from white space around it. -/
def IsListed (n v : String) : Prop :=
  ∃ m ∈ Text.split ',' v, Text.trimmed m = n

theorem exists_mem_namesIn_iff {vs : List String} {n : String} :
    (∃ m ∈ namesIn vs, Text.trimmed m = n) ↔ ∃ v ∈ vs, IsListed n v := by
  simp only [mem_namesIn, IsListed]
  constructor
  · rintro ⟨m, ⟨v, hv, hm⟩, h⟩
    exact ⟨v, hv, m, hm, h⟩
  · rintro ⟨v, hv, m, hm, h⟩
    exact ⟨m, ⟨v, hv, hm⟩, h⟩

theorem isListed_iff {n v : String} (h : ',' ∉ v.toList) : IsListed n v ↔ Text.trimmed v = n := by
  simp [IsListed, Text.split_eq_singleton h]

theorem isListed_intercalate_iff {n : String} {ps : List String} (h : ps ≠ []) :
    IsListed n (String.intercalate "," ps) ↔ ∃ p ∈ ps, IsListed n p := by
  rw [← exists_mem_namesIn_iff, IsListed]
  show (∃ m ∈ Text.split ',' (String.intercalate (String.singleton ',') ps), _) ↔ _
  rw [Text.split_intercalate ',' h]
  rfl

theorem sameNames_of_rewording {vs ws : List String} (h : Rewording vs ws) :
    SameNames (namesIn vs) (namesIn ws) := by
  intro n hne
  rw [exists_mem_namesIn_iff, exists_mem_namesIn_iff]
  cases h with
  | reorder h => simp only [h.mem_iff]
  | @again v vs h =>
    simp only [List.mem_cons, exists_eq_or_imp]
    exact (or_iff_right_of_imp fun hv => ⟨v, h, hv⟩).symm
  | @spaced s v t vs hs hv ht =>
    -- a comma is no white space, so that the value is still a single name
    have hcomma : ∀ u : String, (∀ c ∈ u.toList, Text.isSpace c = true) → ',' ∉ u.toList := by
      intro u hu hmem
      exact absurd (hu ',' hmem) (by decide)
    have hsurrounded : ',' ∉ (s ++ v ++ t).toList := by
      simp [hv, hcomma s hs, hcomma t ht]
    simp only [List.mem_cons, exists_eq_or_imp, isListed_iff hv, isListed_iff hsurrounded,
      Text.trimmed_surrounded hs ht]
  | empty vs =>
    have hnot : ¬ IsListed n "" := by
      rw [isListed_iff (by simp)]
      exact hne.symm
    simp only [List.mem_cons, exists_eq_or_imp, hnot, false_or]
  | joined vs h =>
    simp only [List.mem_cons, List.mem_append, or_and_right, exists_or, exists_eq_left,
      isListed_intercalate_iff h]

theorem sameNames_of_eqvGen {vs ws : List String} (h : Relation.EqvGen Rewording vs ws) :
    SameNames (namesIn vs) (namesIn ws) := by
  induction h with
  | rel vs ws h => exact sameNames_of_rewording h
  | refl vs => exact fun n _ => Iff.rfl
  | symm vs ws _ ih => exact fun n hn => (ih n hn).symm
  | trans vs ws us _ _ ih ih' => exact fun n hn => (ih n hn).trans (ih' n hn)

/-! ## §6 Command lines -/

theorem Tells.unique {told told' : FlagSet} (h : Tells look state told)
    (h' : Tells look state told') : told = told' := by
  have heq := (stateFlags_of_tells h).symm.trans (stateFlags_of_tells h')
  exact Except.ok.inj heq

/-- The active flags are the union of what a snapshot tells and of what some values name. -/
structure UnitesSources (look : String → PathState) (state : Option String)
    (values : List String) : Prop where
  succeeds_iff : (∃ active, read look ⟨state, namesIn values⟩ = .ok active) ↔
    (∃ told, Tells look state told) ∧ ∀ n ∈ namesIn values, IsAllowed n
  union : ∀ told active, Tells look state told → read look ⟨state, namesIn values⟩ = .ok active →
    ∀ f, f ∈ active ↔ f ∈ told ∨ ∃ n ∈ namesIn values, Text.trimmed n = f.name
  /-- No flag of the snapshot is taken away. -/
  keeps : ∀ told active, Tells look state told → read look ⟨state, namesIn values⟩ = .ok active →
    ∀ f ∈ told, f ∈ active
  fails_iff : ∀ e, read look ⟨state, namesIn values⟩ = .error e ↔
    IsBlamed look ⟨state, namesIn values⟩ e
  /-- Values that name the same flags tell the same, or fail both. -/
  sameNames : ∀ values', SameNames (namesIn values) (namesIn values') →
    (read look ⟨state, namesIn values⟩).toOption = (read look ⟨state, namesIn values'⟩).toOption
  reworded : ∀ values', Relation.EqvGen Rewording values values' →
    (read look ⟨state, namesIn values⟩).toOption = (read look ⟨state, namesIn values'⟩).toOption

theorem unitesSources (look : String → PathState) (state : Option String)
    (values : List String) : UnitesSources look state values := by
  have hunion : ∀ told active, Tells look state told →
      read look ⟨state, namesIn values⟩ = .ok active →
      ∀ f, f ∈ active ↔ f ∈ told ∨ ∃ n ∈ namesIn values, Text.trimmed n = f.name := by
    intro told active htold h
    obtain ⟨told', htold', -, hactive⟩ := read_eq_ok_iff.1 h
    obtain rfl := htold.unique htold'
    exact hactive
  exact {
    succeeds_iff := exists_read_iff
    union := hunion
    keeps := fun told active htold h f hf => (hunion told active htold h f).2 (.inl hf)
    fails_iff := fun e => read_eq_error_iff
    sameNames := fun values' h => toOption_read_congr h
    reworded := fun values' h => toOption_read_congr (sameNames_of_eqvGen h) }

/-- **The active flags of a command line are the union of its sources.** Whatever file of a snapshot
and whatever values are given: flags are told exactly if the snapshot can be read and all names are
allowed. They are the flags of the snapshot and those that are named, in whatever way the names are
given. Else the snapshot is blamed, or the first wrong name without the white space around it. A
command line tells its flags by the values of its two options, and any values can be given. -/
theorem read_unites_sources (look : String → PathState) :
    (∀ state values, UnitesSources look state values) ∧
    (∀ (words : List String) (r : Request) (context : ContextText),
      Reading.ofWords words = .run r → r.task.context? = some context →
      context.state.toList = valuesOf .state (Argument.ofWords words) ∧
        context.names = namesIn (valuesOf .context (Argument.ofWords words))) ∧
    ∀ (state : Option String) (values : List String), state ≠ some "" →
      Reading.ofWords ("list" :: flagWords state values) =
        .run ⟨none, .list ⟨state, namesIn values⟩⟩ := by
  refine ⟨unitesSources look, ?_, ?_⟩
  · intro words r context hwords hcontext
    exact Reading.isTold_of_ofWords hcontext hwords
  · intro state values hstate
    exact Reading.ofWords_flagWords hstate values

/-! A snapshot with an open drawer, and two flags that are named in one value or in two. -/

def drawerText : String := "\x7b\"drawerOpen\": true\x7d"

def joinedWords : List String := ["list", "--state=s", "--context=modalOpen,drawerFocused"]

def apartWords : List String :=
  ["list", "--state=s", "--context=drawerFocused", "--context= modalOpen"]

theorem eqvGen_joined_apart : Relation.EqvGen Rewording ["modalOpen,drawerFocused"]
    ["drawerFocused", " modalOpen"] := by
  have hjoined : Rewording ["modalOpen", "drawerFocused"] ["modalOpen,drawerFocused"] :=
    @Rewording.joined ["modalOpen", "drawerFocused"] [] (by simp)
  have hspaced : Rewording ["modalOpen", "drawerFocused"] [" modalOpen", "drawerFocused"] :=
    @Rewording.spaced " " "modalOpen" "" ["drawerFocused"] (by simp [Text.isSpace]) (by simp)
      (by simp)
  have hreordered : Rewording [" modalOpen", "drawerFocused"] ["drawerFocused", " modalOpen"] :=
    .reorder (.swap _ _ [])
  exact ((Relation.EqvGen.rel _ _ hjoined).symm.trans _ _ _ (.rel _ _ hspaced)).trans _ _ _
    (.rel _ _ hreordered)

/-- Both command lines tell the same flags. A wrong name is told without white space, and not before
a snapshot that is missing. -/
theorem read_unites_sources_apart :
    ∃ joined apart : ContextText,
      Reading.ofWords joinedWords = .run ⟨none, .list joined⟩ ∧
      Reading.ofWords apartWords = .run ⟨none, .list apart⟩ ∧
      joined.names = ["modalOpen", "drawerFocused"] ∧
      (∃ active, joined.read (Loading.filledWith drawerText) = .ok active ∧
        apart.read (Loading.filledWith drawerText) = .ok active ∧
        .drawerOpen ∈ active ∧ .drawerFocused ∈ active ∧ .modalOpen ∈ active) ∧
      (∃ e, read (Loading.filledWith drawerText) ⟨some "s", namesIn ["modalOpen, nope ,bad"]⟩ =
        .error e ∧ e.message = "Unknown context flag `nope`") ∧
      read (fun _ => .missing) ⟨some "s", namesIn ["nope"]⟩ = .error (.unreadable "s") := by
  have hunites := read_unites_sources (Loading.filledWith drawerText)
  have hsources := hunites.1 (some "s")
  have hjoined : joinedWords = "list" :: flagWords (some "s") ["modalOpen,drawerFocused"] := by
    decide +kernel
  have hapart : apartWords = "list" :: flagWords (some "s") ["drawerFocused", " modalOpen"] := by
    decide +kernel
  have hjoinedRun := hunites.2.2 (some "s") ["modalOpen,drawerFocused"] (by simp)
  have hapartRun := hunites.2.2 (some "s") ["drawerFocused", " modalOpen"] (by simp)
  rw [← hjoined] at hjoinedRun
  rw [← hapart] at hapartRun
  -- what the snapshot and the names tell
  obtain ⟨s, hread, hdrawer⟩ : ∃ s, Snapshot.read? drawerText = some s ∧
      .drawerOpen ∈ s.activeFlags :=
    ⟨⟨none, none, true, false, false, false, false, false, false, 0, false, false, false, 0⟩,
      by decide +kernel, by decide +kernel⟩
  have htold : Tells (Loading.filledWith drawerText) (some "s") s.activeFlags :=
    .snapshot (PathState.text?_file_toUTF8 _) hread
  have hmodal : IsAllowed "modalOpen" := .inr ⟨.modalOpen, by decide +kernel⟩
  have hfocused : IsAllowed "drawerFocused" := .inr ⟨.drawerFocused, by decide +kernel⟩
  have hnames : namesIn ["modalOpen,drawerFocused"] = ["modalOpen", "drawerFocused"] := by
    decide +kernel
  obtain ⟨active, hactive⟩ := (hsources ["modalOpen,drawerFocused"]).succeeds_iff.2
    ⟨⟨_, htold⟩, by simp [hnames, hmodal, hfocused]⟩
  have hunion := (hsources _).union _ _ htold hactive
  have hsame := (hsources _).reworded _ eqvGen_joined_apart
  rw [hactive, eq_comm] at hsame
  -- a name that is that of no flag, in white space
  have hwrong : namesIn ["modalOpen, nope ,bad"] = ["modalOpen"] ++ " nope " :: ["bad"] := by
    decide +kernel
  have hnope : ¬ IsAllowed " nope " := by
    have htrimmed : Text.trimmed " nope " = "nope" := by decide +kernel
    rw [IsAllowed, htrimmed]
    rintro (hempty | ⟨f, hf⟩)
    · exact absurd hempty (by decide)
    · revert hf
      cases f <;> decide
  have herror := ((hsources ["modalOpen, nope ,bad"]).fails_iff _).2
    (.name htold hwrong (by simp [hmodal]) hnope)
  refine ⟨_, _, hjoinedRun, hapartRun, ?_, ⟨active, hactive, ?_, ?_, ?_, ?_⟩, ⟨_, herror, ?_⟩, ?_⟩
  · rw [(hunites.2.1 joinedWords _ _ hjoinedRun rfl).2]
    decide +kernel
  · exact Except.toOption_eq_some_iff.1 hsame
  · exact (hsources _).keeps _ _ htold hactive _ hdrawer
  · rw [hunion, hnames]
    exact .inr ⟨"drawerFocused", by simp, by decide +kernel⟩
  · rw [hunion, hnames]
    exact .inr ⟨"modalOpen", by simp, by decide +kernel⟩
  · decide +kernel
  · apply (((read_unites_sources fun _ => .missing).1 (some "s") ["nope"]).fails_iff _).2
    exact .snapshot (.unreadable rfl)

end CommandLine.ContextText

end Keybinding
