import Keybinding.Proofs.Session.Router

/-!
# Failures leave no trace

A step can be taken in place (`perform`): it changes the session as it goes, and what it has done
before it fails stays done. It does all of its reading first, so that a step that fails has done
nothing, and the session goes on as if the step had not been there.
-/

namespace Keybinding.Session

/-! ## §1 Steps taken in place -/

/-- What is done to a session in place, up to its end or to a failure. -/
abbrev InPlace (α : Type) := ExceptT Error (StateM Session) α

/-- The result of a reading, or its failure. -/
def attempt {ε α : Type} (x : Except ε α) (blame : ε → Error) : InPlace α :=
  ExceptT.mk (pure (x.mapError blame))

/-- Swaps the table in use and counts the swap. -/
def swap (t : Table) : InPlace Unit := do
  modify fun s => { s with keymap.table := t }
  modify fun s => { s with keymap.version := s.keymap.version + 1 }

/-- Runs the handler of an action, if there is one with a tag. -/
def handleInPlace (a : Action) : Option String → InPlace Answer
  | none => return .dispatched (some a) .passThrough
  | some tag => do
    modify fun s => { s with log := s.log ++ [tag ++ ":" ++ a.id] }
    return .dispatched (some a) (.handled a)

def dispatchInPlace : Option Action → InPlace Answer
  | none => return .dispatched none .passThrough
  | some a => do handleInPlace a ((← get).router.tag? a)

/-- Takes a step in place. -/
def perform : Step → InPlace Answer
  | .write path content => do
    modify fun s => { s with files := s.files.write path content }
    return .done
  | .remove path => do
    modify fun s => { s with files := s.files.remove path }
    return .done
  | .addFolder path => do
    modify fun s => { s with files := s.files.addFolder path }
    return .done
  | .readGroups path => do
    let gs ← attempt (Loading.groupsAt (← get).files.look path) .load
    return .groups gs
  | .readTable path => return .table (Loading.load (← get).files.look path)
  | .load path => do
    let (keymap, error) := Keymap.load (← get).files.look path
    modify fun s => { s with keymap }
    return .keymap keymap error
  | .create defaults user => do
    let t ← attempt (Table.ofListings defaults user) .load
    modify fun s => { s with keymap := .ofTable t }
    return .keymap (← get).keymap none
  | .reload => do
    let s ← get
    let loaded := Loading.load s.files.look s.keymap.userPath
    swap loaded.table
    return .keymap (← get).keymap loaded.error
  | .replace defaults user => do
    swap (← attempt (Table.ofListings defaults user) .load)
    return .version (← get).keymap.version
  | .status => return .keymap (← get).keymap none
  | .hold => do
    modify fun s => { s with held := s.keymap.table }
    return .done
  | .askHeld q => do
    let a ← attempt ((← get).held.answer q) .query
    return .query a
  | .ask q => do
    let a ← attempt ((← get).keymap.table.answer q) .query
    return .query a
  | .activate flags => do
    let active ← attempt flags.read .active
    modify fun s => { s with active }
    return .flags active
  | .press chord => do
    let c ← attempt (Chord.read chord) .chord
    let s ← get
    dispatchInPlace (s.keymap.table.action? c s.active)
  | .dispatch none => dispatchInPlace none
  | .dispatch (some action) => do
    let a ← attempt (Action.read action) .action
    dispatchInPlace (some a)
  | .register action tag => do
    let a ← attempt (Action.read action) .action
    modify fun s => { s with router := s.router.insert a tag }
    return .router (← get).router
  | .unregister action => do
    let a ← attempt (Action.read action) .action
    let found := (← get).router.contains a
    modify fun s => { s with router := s.router.erase a }
    return .truth found
  | .isRegistered action => do
    let a ← attempt (Action.read action) .action
    return .truth ((← get).router.contains a)
  | .showRouter => return .router (← get).router
  | .showLog => return .log (← get).log

/-- Takes steps in place one after the other, whether they fail or not. -/
def performAll (steps : List Step) : StateM Session (List (Except Error Answer)) :=
  steps.mapM fun a => (perform a).run

/-- What is done in place comes to what a step of the session comes to. -/
def Agrees (m : InPlace Answer) (s : Session) (x : Except Error (Session × Answer)) : Prop :=
  m.run.run s =
    match x with
    | .ok (t, answer) => (.ok answer, t)
    | .error e => (.error e, s)

/-- Where a reading comes first, there is nothing to undo if it fails. -/
theorem agrees_attempt {ε α : Type} {s : Session} {x : Except ε α} {blame : ε → Error}
    {f : α → InPlace Answer} {g : α → Except Error (Session × Answer)}
    (h : ∀ a, Agrees (f a) s (g a)) :
    Agrees (attempt x blame >>= f) s (x.mapError blame >>= g) := by
  cases x with
  | ok a => exact h a
  | error e => rfl

theorem agrees_dispatchInPlace (action : Option Action) (s : Session) :
    Agrees (dispatchInPlace action) s (.ok (s.route action)) := by
  cases action with
  | none =>
    rw [route_none]
    rfl
  | some a =>
    change (handleInPlace a (s.router.tag? a)).run.run s = _
    cases h : s.router.tag? a with
    | none =>
      rw [route_of_tag?_eq_none h]
      rfl
    | some tag =>
      rw [route_of_tag? h]
      rfl

theorem agrees_perform (b : Step) (s : Session) : Agrees (perform b) s (s.step b) := by
  cases b with
  | readGroups path => exact agrees_attempt fun _ => rfl
  | create defaults user => exact agrees_attempt fun _ => rfl
  | replace defaults user => exact agrees_attempt fun _ => rfl
  | askHeld q => exact agrees_attempt fun _ => rfl
  | ask q => exact agrees_attempt fun _ => rfl
  | activate flags => exact agrees_attempt fun _ => rfl
  | press chord => exact agrees_attempt fun c => agrees_dispatchInPlace _ s
  | dispatch action =>
    cases action with
    | none => exact agrees_dispatchInPlace none s
    | some text =>
      have hstep : s.step (.dispatch (some text)) =
          (Action.read text).mapError .action >>= fun a => .ok (s.route (some a)) := by
        simp only [step, Option.mapM_some, readAction]
        cases Action.read text <;> rfl
      rw [hstep]
      exact agrees_attempt fun a => agrees_dispatchInPlace (some a) s
  | register action tag => exact agrees_attempt fun _ => rfl
  | unregister action => exact agrees_attempt fun _ => rfl
  | isRegistered action => exact agrees_attempt fun _ => rfl
  | _ => rfl

/-- **A step in place has the answer of the step and leaves the session that the step leaves.** -/
theorem run_perform (b : Step) (s : Session) : (perform b).run.run s = (s.answer b, s.next b) := by
  rw [agrees_perform b s, answer, next]
  cases s.step b <;> rfl

/-- So have the steps of a run. -/
theorem run_performAll (steps : List Step) (s : Session) :
    (performAll steps).run s = (s.answers steps, s.after steps) := by
  induction steps generalizing s with
  | nil => rfl
  | cons b steps ih =>
    -- the later steps start where the first one has stopped
    have hcons : (performAll (b :: steps)).run s =
        let first := (perform b).run.run s
        let rest := (performAll steps).run first.2
        (first.1 :: rest.1, rest.2) := by
      simp only [performAll, List.mapM_cons, StateT.run_bind, StateT.run_pure]
      rfl
    rw [hcons, run_perform]
    simp only [ih]
    rfl

/-! ## §2 A step that fails -/

/-- A step that fails has done nothing before it fails. -/
theorem run_perform_of_error {s : Session} {b : Step} {e : Error} (h : s.answer b = .error e) :
    (perform b).run.run s = (.error e, s) := by
  rw [run_perform, h, next_of_error h]

/-- Where the first reading fails, the step fails with it. -/
theorem run_attempt_of_error {ε α : Type} {x : Except ε α} {e : ε} (h : x = .error e)
    (blame : ε → Error) (f : α → InPlace Answer) (s : Session) :
    (attempt x blame >>= f).run.run s = (.error (blame e), s) := by
  rw [h]
  rfl

theorem ofListings_of_isFirstFault {defaults user : Listing} {ds us : List GroupText}
    {e : Table.Error} (hds : defaults.read = .ok ds) (hus : user.read = .ok us)
    (h : Table.IsFirstFault ds us e) : Table.ofListings defaults user = .error (.invalid e) := by
  rw [Table.ofListings, hds, hus]
  exact Table.build_of_isFirstFault h

/-- Without a step that fails, all others have the same answers and leave the same session. -/
theorem answers_eraseIdx {s : Session} {steps : List Step} {i : Nat} {e : Error}
    (h : (s.answers steps)[i]? = some (.error e)) :
    s.answers (steps.eraseIdx i) = (s.answers steps).eraseIdx i ∧
      s.after (steps.eraseIdx i) = s.after steps := by
  induction steps generalizing s i with
  | nil => simp [answers] at h
  | cons b steps ih =>
    cases i with
    | zero =>
      have hnext : s.next b = s := next_of_error (Option.some.inj h)
      simp [answers, hnext]
    | succ i =>
      obtain ⟨hanswers, hafter⟩ := ih h
      simp [answers, hanswers, hafter]

/-! ## §3 Any run -/

/-- What the steps of a run that fail leave in a session that was new: nothing. -/
structure LeavesNoTrace (steps : List Step) (s : Session) : Prop where
  /-- In place, the steps have the same answers and leave the same session. -/
  performAll_eq : (performAll steps).run initial = (run steps, s)
  /-- Without a step that fails, all other steps have the same answers, … -/
  run_eraseIdx : ∀ i e, (run steps)[i]? = some (.error e) →
    run (steps.eraseIdx i) = (run steps).eraseIdx i
  /-- … and they leave the same session. -/
  after_eraseIdx : ∀ i e, (run steps)[i]? = some (.error e) →
    initial.after (steps.eraseIdx i) = s
  /-- One more step that fails has done nothing before it fails. -/
  perform_of_error : ∀ b e, s.answer b = .error e → (perform b).run.run s = (.error e, s)
  /-- A table fails with any of its groups, be it the last one. -/
  perform_of_isFirstFault : ∀ defaults user ds us e, defaults.read = .ok ds → user.read = .ok us →
    Table.IsFirstFault ds us e →
      (perform (.create defaults user)).run.run s = (.error (.load (.invalid e)), s) ∧
        (perform (.replace defaults user)).run.run s = (.error (.load (.invalid e)), s)
  perform_press : ∀ text e, Chord.read text = .error e →
    (perform (.press text)).run.run s = (.error (.chord e), s)
  perform_activate : ∀ flags e, flags.read = .error e →
    (perform (.activate flags)).run.run s = (.error (.active e), s)

/-- **Failures leave no trace in any run.** A step that fails can be left out, and no other answer
changes. It has not done a part of what it was to do: the files, the keymap, the table that was put
aside, the active flags, the router and the log are as they were. -/
theorem failures_of_run (steps : List Step) : LeavesNoTrace steps (initial.after steps) := by
  constructor
  case performAll_eq => exact run_performAll steps initial
  case run_eraseIdx =>
    intro i e h
    exact (answers_eraseIdx h).1
  case after_eraseIdx =>
    intro i e h
    exact (answers_eraseIdx h).2
  case perform_of_error =>
    intro b e h
    exact run_perform_of_error h
  case perform_of_isFirstFault =>
    intro defaults user ds us e hds hus h
    have herror := ofListings_of_isFirstFault hds hus h
    exact ⟨run_attempt_of_error herror _ _ _, run_attempt_of_error herror _ _ _⟩
  case perform_press =>
    intro text e h
    exact run_attempt_of_error h _ _ _
  case perform_activate =>
    intro flags e h
    exact run_attempt_of_error h _ _ _

/-- A chord is mistyped between two steps. -/
def mistyped : List Step :=
  [.register "host::ask" "one", .press "cmd-", .dispatch (some "host::ask"), .showLog]

/-- A group that is valid, and a last group that is not. -/
def faultyAtLast : List GroupText :=
  [⟨none, [("k", none)]⟩, ⟨some "noFlag", []⟩]

def faultAtLast : Table.Error :=
  ⟨⟨.user, 1⟩, .condition "noFlag" (.unknownFlag "noFlag" 0)⟩

/-- The mistyped chord can be left out, and a table that fails with its last group is not used. -/
theorem failures_of_run_mistyped :
    (run mistyped)[1]? = some (.error (.chord .missingKey)) ∧
      run (mistyped.eraseIdx 1) = (run mistyped).eraseIdx 1 ∧
      (perform (.replace (.groups []) (.groups faultyAtLast))).run.run (initial.after mistyped) =
        (.error (.load (.invalid faultAtLast)), initial.after mistyped) := by
  have hpress : (run mistyped)[1]? = some (.error (.chord .missingKey)) := by decide +kernel
  have hsplit : faultyAtLast = [⟨none, [("k", none)]⟩] ++ [⟨some "noFlag", []⟩] := rfl
  have hvalid : GroupText.IsValid ⟨none, [("k", none)]⟩ := by
    rw [← Group.exists_read_iff]
    exact ⟨⟨none, Bindings.empty.insert ⟨.char 'k', ⟨false, false, false, false⟩⟩ .unbound⟩,
      by decide +kernel⟩
  have hlast : Table.IsFirstFault [] faultyAtLast faultAtLast :=
    .user (by simp) hsplit (by simpa using hvalid) (by decide +kernel)
  have hrun := failures_of_run mistyped
  refine ⟨hpress, hrun.run_eraseIdx 1 _ hpress, ?_⟩
  exact (hrun.perform_of_isFirstFault _ _ _ _ _ rfl rfl hlast).2

end Keybinding.Session
