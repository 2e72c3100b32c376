import Keybinding.Proofs.Router
import Keybinding.Proofs.Session.Keymap
import Keybinding.Proofs.Table.Writing

/-!
# The router over a run

The steps that give an action a handler or take its handler away decide what becomes of the action:
the last of them counts, and all other steps leave the handler alone (`tag?_next`). An action is
routed when it is given to the router or when a struck chord leads to it. Routing runs the handler
that the action has and leaves one record in the log, or does nothing if it has none.

All actions that come up in a session have been read (`IsReadable.after`), and so they are told by
their ids.
-/

namespace Keybinding.Session

/-! ## §1 What a step does to the handlers -/

namespace Step

/-- A step that gives the action a handler or takes its handler away. -/
def assigns (a : Action) : Step → Bool
  | .register text _ => (Action.read text).toOption == some a
  | .unregister text => (Action.read text).toOption == some a
  | _ => false

/-- The tag of the handler that a step leaves to its action. -/
def tag? : Step → Option String
  | .register _ tag => some tag
  | _ => none

/-- A step that can have a handler run. -/
def routes : Step → Bool
  | .press _ => true
  | .dispatch _ => true
  | _ => false

theorem assigns_register_iff {text tag : String} {a b : Action} (h : Action.read text = .ok a) :
    (register text tag).assigns b = true ↔ b = a := by
  simp [assigns, h, Except.toOption, eq_comm (a := a)]

theorem assigns_unregister_iff {text : String} {a b : Action} (h : Action.read text = .ok a) :
    (unregister text).assigns b = true ↔ b = a := by
  simp [assigns, h, Except.toOption, eq_comm (a := a)]

/-- The action has been read from the text of the step. -/
theorem exists_of_assigns {b : Step} {a : Action} (h : b.assigns a = true) :
    ∃ text, Action.read text = .ok a ∧
      ((∃ tag, b = .register text tag) ∨ b = .unregister text) := by
  cases b with
  | register text tag =>
    exact ⟨text, Except.toOption_eq_some_iff.1 (beq_iff_eq.1 h), .inl ⟨tag, rfl⟩⟩
  | unregister text =>
    exact ⟨text, Except.toOption_eq_some_iff.1 (beq_iff_eq.1 h), .inr rfl⟩
  | _ => cases h

end Step

theorem readAction_eq_ok_iff {text : String} {a : Action} :
    readAction text = .ok a ↔ Action.read text = .ok a :=
  Except.mapError_eq_ok_iff

theorem step_register {text : String} {a : Action} (h : Action.read text = .ok a) (s : Session)
    (tag : String) :
    s.step (.register text tag) =
      .ok ({ s with router := s.router.insert a tag }, .router (s.router.insert a tag)) := by
  simp only [step, readAction_eq_ok_iff.2 h]
  rfl

theorem step_unregister {text : String} {a : Action} (h : Action.read text = .ok a) (s : Session) :
    s.step (.unregister text) =
      .ok ({ s with router := s.router.erase a }, .truth (s.router.contains a)) := by
  simp only [step, readAction_eq_ok_iff.2 h]
  rfl

theorem step_isRegistered {text : String} {a : Action} (h : Action.read text = .ok a)
    (s : Session) : s.step (.isRegistered text) = .ok (s, .truth (s.router.contains a)) := by
  simp only [step, readAction_eq_ok_iff.2 h]
  rfl

theorem step_dispatch {text : String} {a : Action} (h : Action.read text = .ok a) (s : Session) :
    s.step (.dispatch (some text)) = .ok (s.route (some a)) := by
  simp only [step, Option.mapM_some, readAction_eq_ok_iff.2 h]
  rfl

theorem step_dispatch_none (s : Session) : s.step (.dispatch none) = .ok (s.route none) := rfl

theorem step_press {text : String} {c : Chord} (h : Chord.read text = .ok c) (s : Session) :
    s.step (.press text) = .ok (s.route (s.keymap.table.action? c s.active)) := by
  simp only [step, h]
  rfl

/-- The answer tells that a handler has run. -/
def isHandled : Except Error Answer → Bool
  | .ok (.dispatched _ (.handled _)) => true
  | _ => false

/-- What a step that can be taken does to the router and to the log. -/
inductive RouterEffect (s : Session) (b : Step) (t : Session) (answer : Answer) : Prop where
  | given {text tag : String} {a : Action} (hb : b = .register text tag)
    (ha : Action.read text = .ok a) (hrouter : t.router = s.router.insert a tag)
    (hlog : t.log = s.log) (hanswer : isHandled (.ok answer) = false)
  | taken {text : String} {a : Action} (hb : b = .unregister text)
    (ha : Action.read text = .ok a) (hrouter : t.router = s.router.erase a)
    (hlog : t.log = s.log) (hanswer : isHandled (.ok answer) = false)
  | routed {action : Option Action} (hb : b.routes = true) (hrouter : t.router = s.router)
    (hlog : t.log = s.log ++ s.router.record action)
    (hanswer : answer = .dispatched action (s.router.dispatch action))
  | kept (hb : ∀ a, b.assigns a = false) (hrouter : t.router = s.router) (hlog : t.log = s.log)
    (hanswer : isHandled (.ok answer) = false)

theorem routerEffect_of_step {s t : Session} {b : Step} {answer : Answer}
    (h : s.step b = .ok (t, answer)) : RouterEffect s b t answer := by
  cases b with
  | register text tag =>
    obtain ⟨a, ha, h⟩ := Except.bind_eq_ok_iff.1 h
    cases h
    exact .given rfl (readAction_eq_ok_iff.1 ha) rfl rfl rfl
  | unregister text =>
    obtain ⟨a, ha, h⟩ := Except.bind_eq_ok_iff.1 h
    cases h
    exact .taken rfl (readAction_eq_ok_iff.1 ha) rfl rfl rfl
  | press chord =>
    obtain ⟨c, -, h⟩ := Except.bind_eq_ok_iff.1 h
    cases h
    exact .routed rfl rfl rfl rfl
  | dispatch action =>
    obtain ⟨action, -, h⟩ := Except.bind_eq_ok_iff.1 h
    cases h
    exact .routed rfl rfl rfl rfl
  -- the other steps that read something first
  | readGroups _ | create _ _ | replace _ _ | askHeld _ | ask _ | activate _ | isRegistered _ =>
    obtain ⟨x, -, h⟩ := Except.bind_eq_ok_iff.1 h
    cases h
    exact .kept (fun _ => rfl) rfl rfl rfl
  | _ =>
    cases h
    exact .kept (fun _ => rfl) rfl rfl rfl

/-- What a step does, or that it cannot be taken and does nothing. -/
theorem routerEffect_next (s : Session) (b : Step) :
    (∃ answer, s.answer b = .ok answer ∧ RouterEffect s b (s.next b) answer) ∨
      ∃ e, s.answer b = .error e ∧ s.next b = s := by
  cases h : s.step b with
  | ok p =>
    rw [next_of_step h]
    exact .inl ⟨p.2, answer_of_step h, routerEffect_of_step h⟩
  | error e =>
    have hanswer : s.answer b = .error e := by
      rw [answer, h]
      rfl
    exact .inr ⟨e, hanswer, next_of_error hanswer⟩

/-- **What one step does to the handler of an action.** -/
theorem tag?_next (s : Session) (b : Step) (a : Action) :
    (s.next b).router.tag? a = if b.assigns a then b.tag? else s.router.tag? a := by
  rcases routerEffect_next s b with ⟨answer, -, heffect⟩ | ⟨e, herror, hnext⟩
  · cases heffect with
    | given hb ha hrouter _ _ =>
      rw [hrouter, Router.tag?_insert, hb]
      simp only [Step.assigns_register_iff ha, Step.tag?]
    | taken hb ha hrouter _ _ =>
      rw [hrouter, Router.tag?_erase, hb]
      simp only [Step.assigns_unregister_iff ha, Step.tag?]
    | routed hb hrouter _ _ =>
      -- no step both routes and assigns
      have hnot : b.assigns a = false := by
        cases b with
        | press | dispatch => rfl
        | _ => cases hb
      simp [hrouter, hnot]
    | kept hb hrouter _ _ => simp [hrouter, hb a]
  · -- a step that assigns a handler can be taken
    have hnot : b.assigns a = false := by
      rw [← Bool.not_eq_true]
      intro h
      obtain ⟨text, ha, ⟨tag, rfl⟩ | rfl⟩ := Step.exists_of_assigns h
      · rw [answer_of_step (step_register ha s tag)] at herror
        cases herror
      · rw [answer_of_step (step_unregister ha s)] at herror
        cases herror
    simp [hnext, hnot]

/-- A step that does not route leaves the log alone. -/
theorem log_next_of_not_routes {b : Step} (h : b.routes = false) (s : Session) :
    (s.next b).log = s.log := by
  rcases routerEffect_next s b with ⟨answer, -, heffect⟩ | ⟨e, -, hnext⟩
  · cases heffect with
    | routed hb _ _ _ => simp [h] at hb
    | _ => assumption
  · rw [hnext]

/-- One record is made for an answer that tells that a handler has run, and none for another. -/
theorem length_log_next (s : Session) (b : Step) :
    (s.next b).log.length = s.log.length + if isHandled (s.answer b) then 1 else 0 := by
  rcases routerEffect_next s b with ⟨answer, hanswer, heffect⟩ | ⟨e, herror, hnext⟩
  · rw [hanswer]
    cases heffect with
    | routed _ _ hlog heq =>
      -- a record is made exactly for the answer that something was handled
      rw [hlog, List.length_append, Router.length_record, heq]
      cases s.router.dispatch _ <;> rfl
    | given _ _ _ hlog hnot => rw [hlog, hnot]; rfl
    | taken _ _ _ hlog hnot => rw [hlog, hnot]; rfl
    | kept _ _ hlog hnot => rw [hlog, hnot]; rfl
  · simp [hnext, herror, isHandled]

/-! ## §2 The last step that assigns an action -/

/-- The last step that gave the action a handler or took it away gave it the one with this tag. -/
def HandledBy (steps : List Step) (a : Action) (tag : String) : Prop :=
  ∃ before text later, IsLastStep (Step.assigns a) steps before (.register text tag) later

/-- **An action has the handler that it was given last**, unless that was taken away. -/
theorem tag?_after_eq_some_iff {steps : List Step} {a : Action} {tag : String} :
    (initial.after steps).router.tag? a = some tag ↔ HandledBy steps a tag := by
  have hlast : ∀ {before b later}, IsLastStep (Step.assigns a) steps before b later →
      (initial.after steps).router.tag? a = b.tag? := by
    intro before b later h
    rw [h.eq_next (f := fun s => s.router.tag? a) initial, tag?_next, if_pos h.of_kind]
    intro b hb s
    simp [tag?_next, hb]
  constructor
  · intro htag
    by_cases hsome : ∃ b ∈ steps, b.assigns a = true
    · obtain ⟨before, b, later, h⟩ := exists_isLastStep hsome
      rw [hlast h] at htag
      cases b with
      | register text tag' =>
        obtain rfl : tag' = tag := Option.some.inj htag
        exact ⟨before, text, later, h⟩
      | _ => cases htag
    · -- an action that no step is about has no handler
      have hnone : (initial.after steps).router.tag? a = initial.router.tag? a := by
        apply after_eq_of_forall (f := fun s => s.router.tag? a)
        intro b hb s
        have hb' : b.assigns a ≠ true := fun h => hsome ⟨b, hb, h⟩
        simp [tag?_next, hb']
      rw [hnone] at htag
      cases htag
  · rintro ⟨before, text, later, h⟩
    exact hlast h

theorem contains_after_iff {steps : List Step} {a : Action} :
    (initial.after steps).router.contains a = true ↔ ∃ tag, HandledBy steps a tag := by
  simp only [Router.contains, Option.isSome_iff_exists, tag?_after_eq_some_iff]

/-- The log grows by one record for each answer that tells that a handler has run. -/
theorem length_log_after (s : Session) (steps : List Step) :
    (s.after steps).log.length = s.log.length + (s.answers steps).countP isHandled := by
  induction steps generalizing s with
  | nil => rfl
  | cons b steps ih =>
    rw [after_cons, ih, length_log_next, answers, List.countP_cons]
    omega

/-! ## §3 Actions that have been read -/

/-- All actions that the session can route or has a handler for are told by their ids. -/
structure IsReadable (s : Session) : Prop where
  router : ∀ a, s.router.contains a = true → a.IsCanonical
  table : ∀ G ∈ s.keymap.table.groups, G.IsCanonical

/-- A table that is put in use has been built from groups that were read. -/
theorem isCanonical_of_installed? {s : Session} {b : Step} {t : Table}
    (h : s.installed? b = some t) : ∀ G ∈ t.groups, G.IsCanonical := by
  have hloaded : ∀ look path, ∀ G ∈ (Loading.load look path).table.groups, G.IsCanonical := by
    intro look path
    obtain ⟨user, hbuild⟩ := Loading.exists_build_load look path
    exact Table.isCanonical_of_build hbuild
  have hlisted : ∀ defaults user, (Table.ofListings defaults user).toOption = some t →
      ∀ G ∈ t.groups, G.IsCanonical := by
    intro defaults user ht
    obtain ⟨ds, -, ht⟩ := Except.bind_eq_ok_iff.1 (Except.toOption_eq_some_iff.1 ht)
    obtain ⟨us, -, hbuild⟩ := Except.bind_eq_ok_iff.1 ht
    exact Table.isCanonical_of_build hbuild
  -- a file comes on top of the default keymap, and listings are built as they are
  cases b with
  | load path =>
    obtain rfl := Option.some.inj h
    exact hloaded _ _
  | reload =>
    obtain rfl := Option.some.inj h
    exact hloaded _ _
  | create defaults user => exact hlisted _ _ h
  | replace defaults user => exact hlisted _ _ h
  | _ => cases h

theorem IsReadable.next {s : Session} (h : s.IsReadable) (b : Step) : (s.next b).IsReadable := by
  constructor
  case router =>
    intro a ha
    obtain ⟨tag, htag⟩ := Option.isSome_iff_exists.1 ha
    rw [tag?_next] at htag
    by_cases hb : b.assigns a = true
    · -- an action that the step assigns has been read from its text
      obtain ⟨text, hread, -⟩ := Step.exists_of_assigns hb
      exact Action.isCanonical_of_read hread
    · rw [if_neg hb] at htag
      exact h.router a (Router.contains_of_tag? htag)
  case table =>
    by_cases hb : b.installs = true
    · exact isCanonical_of_installed? ((effect_next s b).installed?_eq hb)
    · rw [(effect_next s b).table_eq (Bool.eq_false_iff.2 hb)]
      exact h.table

theorem IsReadable.after {s : Session} (h : s.IsReadable) (steps : List Step) :
    (s.after steps).IsReadable := by
  induction steps generalizing s with
  | nil => exact h
  | cons b steps ih => exact ih (h.next b)

theorem isReadable_initial : initial.IsReadable := by
  constructor
  case router =>
    intro a ha
    cases ha
  case table =>
    intro G hG
    cases hG

/-! ## §4 Answers -/

theorem route_of_tag? {s : Session} {a : Action} {tag : String} (h : s.router.tag? a = some tag) :
    s.route (some a) =
      ({ s with log := s.log ++ [tag ++ ":" ++ a.id] }, .dispatched (some a) (.handled a)) := by
  obtain ⟨hdispatch, hrecord⟩ := Router.dispatch_of_tag? h
  rw [route, hdispatch, hrecord]

theorem route_of_tag?_eq_none {s : Session} {a : Action} (h : s.router.tag? a = none) :
    s.route (some a) = (s, .dispatched (some a) .passThrough) := by
  obtain ⟨hdispatch, hrecord⟩ := Router.dispatch_of_tag?_eq_none h
  rw [route, hdispatch, hrecord, List.append_nil]

theorem route_none (s : Session) : s.route none = (s, .dispatched none .passThrough) := by
  rw [route, Router.record, List.append_nil]
  rfl

/-- **A chord does what its action does that is given to the router by its id.** -/
theorem step_press_eq_dispatch {s : Session} (hs : s.IsReadable) {text : String} {c : Chord}
    (h : Chord.read text = .ok c) :
    s.step (.press text) =
      s.step (.dispatch ((s.keymap.table.action? c s.active).map Action.id)) := by
  rw [step_press h]
  cases ha : s.keymap.table.action? c s.active with
  | none => rw [Option.map_none, step_dispatch_none]
  | some a =>
    have hread := Action.read_id (Table.isCanonical_of_action? hs.table ha)
    rw [Option.map_some, step_dispatch hread]

/-- A chord for which no action is found does nothing. -/
theorem step_press_of_action?_eq_none {s : Session} {text : String} {c : Chord}
    (h : Chord.read text = .ok c) (ha : s.keymap.table.action? c s.active = none) :
    s.step (.press text) = .ok (s, .dispatched none .passThrough) := by
  rw [step_press h, ha, route_none]

/-! ## §5 Any run -/

/-- What the steps of a run leave of the router and the log in a session that was new. -/
structure Routes (steps : List Step) (s : Session) : Prop where
  /-- One more step is answered by what the steps have left. -/
  answer_of_run : ∀ b, (run (steps ++ [b]))[steps.length]? = some (s.answer b)
  /-- An action has a handler if the last step that is about its handler gave it one. -/
  contains_iff : ∀ a, s.router.contains a = true ↔ ∃ tag, HandledBy steps a tag
  /-- The handler that an action got last is the one that runs, and it runs once. -/
  dispatch_of_handledBy : ∀ text a tag, Action.read text = .ok a → HandledBy steps a tag →
    s.step (.dispatch (some text)) =
      .ok ({ s with log := s.log ++ [tag ++ ":" ++ a.id] }, .dispatched (some a) (.handled a))
  dispatch_of_not_handledBy : ∀ text a, Action.read text = .ok a →
    (∀ tag, ¬ HandledBy steps a tag) →
      s.step (.dispatch (some text)) = .ok (s, .dispatched (some a) .passThrough)
  dispatch_none : s.step (.dispatch none) = .ok (s, .dispatched none .passThrough)
  press_eq_dispatch : ∀ text c, Chord.read text = .ok c →
    s.step (.press text) =
      s.step (.dispatch ((s.keymap.table.action? c s.active).map Action.id))
  press_of_resolve?_eq_none : ∀ text c, Chord.read text = .ok c →
    s.keymap.table.resolve? c s.active = none →
      s.step (.press text) = .ok (s, .dispatched none .passThrough)
  press_of_unbound : ∀ text c G, Chord.read text = .ok c →
    s.keymap.table.resolve? c s.active = some ⟨G, .unbound⟩ →
      s.step (.press text) = .ok (s, .dispatched none .passThrough)
  /-- The handlers that have run have left one record each, and nothing else is in the log. -/
  length_log : s.log.length = (run steps).countP isHandled
  log_of_not_routes : ∀ b, b.routes = false → (s.next b).log = s.log
  answer_unregister : ∀ text a, Action.read text = .ok a →
    s.answer (.unregister text) = .ok (.truth (s.router.contains a))
  answer_isRegistered : ∀ text a, Action.read text = .ok a →
    s.answer (.isRegistered text) = .ok (.truth (s.router.contains a))
  answer_showRouter : s.answer .showRouter = .ok (.router s.router)
  /-- The text of the router lists the ids of the actions with a handler in the order of their
  bytes, each once. -/
  display_lists : ∃ ids : List String,
    s.router.display =
      "ActionRouter \x7b handlers: [" ++
        String.intercalate ", " (ids.map fun id => "\"" ++ id ++ "\"") ++ "] \x7d" ∧
      (∀ id, id ∈ ids ↔ ∃ a, s.router.contains a = true ∧ a.id = id) ∧
      ids.Pairwise fun i j => Text.bytes i < Text.bytes j
  /-- An id is the id of one action with a handler at most. -/
  eq_of_id_eq : ∀ a b, s.router.contains a = true → s.router.contains b = true → a.id = b.id →
    a = b

/-- **The router after any run.** An action has the handler that it was given last, unless that was
taken away. Routing an action runs this handler once, or nothing if there is none, and striking a
chord is routing what it leads to. -/
theorem router_of_run (steps : List Step) : Routes steps (initial.after steps) := by
  have hreadable : (initial.after steps).IsReadable := isReadable_initial.after steps
  constructor
  case answer_of_run =>
    intro b
    exact getElem?_answers initial steps b []
  case contains_iff =>
    intro a
    exact contains_after_iff
  case dispatch_of_handledBy =>
    intro text a tag hread h
    rw [step_dispatch hread, route_of_tag? (tag?_after_eq_some_iff.2 h)]
  case dispatch_of_not_handledBy =>
    intro text a hread h
    have hnone : (initial.after steps).router.tag? a = none := by
      rw [Option.eq_none_iff_forall_ne_some]
      intro tag htag
      exact h tag (tag?_after_eq_some_iff.1 htag)
    rw [step_dispatch hread, route_of_tag?_eq_none hnone]
  case dispatch_none => rw [step_dispatch_none, route_none]
  case press_eq_dispatch =>
    intro text c hread
    exact step_press_eq_dispatch hreadable hread
  case press_of_resolve?_eq_none =>
    intro text c hread h
    apply step_press_of_action?_eq_none hread
    rw [Table.action?, h, Option.bind_none]
  case press_of_unbound =>
    intro text c G hread h
    apply step_press_of_action?_eq_none hread
    rw [Table.action?, h, Option.bind_some]
    rfl
  case length_log =>
    rw [length_log_after]
    exact Nat.zero_add _
  case log_of_not_routes =>
    intro b h
    exact log_next_of_not_routes h _
  case answer_unregister =>
    intro text a hread
    exact answer_of_step (step_unregister hread _)
  case answer_isRegistered =>
    intro text a hread
    exact answer_of_step (step_isRegistered hread _)
  case answer_showRouter => rfl
  case display_lists =>
    refine ⟨(initial.after steps).router.ids, rfl, ?_, ?_⟩
    · intro id
      exact Router.mem_ids
    · exact Router.pairwise_bytes_ids hreadable.router
  case eq_of_id_eq =>
    intro a b ha hb h
    exact Action.eq_of_id_eq (hreadable.router a ha) (hreadable.router b hb) h

/-- An action gets a handler, loses it, and gets another one. -/
def reassigned : List Step :=
  [.register "host::ask" "one", .unregister "host::ask", .register " host::ask" "two"]

/-- The handler that the action got last runs, once. -/
theorem router_of_run_reassigned :
    HandledBy reassigned (.custom "host::ask") "two" ∧
      (initial.after reassigned).step (.dispatch (some "host::ask")) =
        .ok ({ initial.after reassigned with log := ["two:host::ask"] },
          .dispatched (some (.custom "host::ask")) (.handled (.custom "host::ask"))) := by
  have hread : Action.read "host::ask" = .ok (.custom "host::ask") := by decide +kernel
  have hhandled : HandledBy reassigned (.custom "host::ask") "two" :=
    ⟨[.register "host::ask" "one", .unregister "host::ask"], " host::ask", [], rfl,
      by decide +kernel, by simp⟩
  have hlog : (initial.after reassigned).log = [] := by decide +kernel
  refine ⟨hhandled, ?_⟩
  rw [(router_of_run reassigned).dispatch_of_handledBy _ _ _ hread hhandled, hlog]
  rfl

end Keybinding.Session
