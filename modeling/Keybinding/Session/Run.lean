import Keybinding.Files
import Keybinding.Keymap
import Keybinding.Router
import Keybinding.Table.Query

/-!
# Sessions

A session is the life of an application as far as its keys are concerned. It has a live keymap, a
table that it has put aside, active flags, a router with a log of the handlers that have run, and a
working folder. A step that cannot be taken leaves the session as it was (`next_of_error`), and the
next one follows.
-/

namespace Keybinding

/-! ## §1 States, steps and answers -/

/-- The state of a session. -/
structure Session where
  files : Files
  keymap : Keymap
  /-- The table that was live when it was last put aside. -/
  held : Table
  active : FlagSet
  router : Router
  /-- What the handlers have recorded, the oldest record first. -/
  log : List String

namespace Session

/-- The session at its start. -/
def initial : Session := ⟨.empty, .empty, .empty, .empty, .empty, []⟩

/-- What happens in a session. -/
inductive Step where
  /-- A file is written. -/
  | write (path : String) (content : ByteArray)
  /-- A file is removed. -/
  | remove (path : String)
  /-- A folder is made. -/
  | addFolder (path : String)
  /-- The groups in a file are read. -/
  | readGroups (path : String)
  /-- A table is loaded, but not used. -/
  | readTable (path : Option String)
  /-- A new keymap is loaded from a file. -/
  | load (path : Option String)
  /-- A new keymap is made from groups. -/
  | create (defaults user : Listing)
  /-- The file of the keymap is read again. -/
  | reload
  /-- The table in use is swapped for one made from groups. -/
  | replace (defaults user : Listing)
  /-- The keymap is shown. -/
  | status
  /-- The table in use is put aside. -/
  | hold
  /-- The table that was put aside is asked. -/
  | askHeld (q : Query)
  /-- The table in use is asked. -/
  | ask (q : Query)
  /-- Flags are made active. -/
  | activate (flags : ActiveText)
  /-- A chord is struck. -/
  | press (chord : String)
  /-- An action, or none, is given to the router. -/
  | dispatch (action : Option String)
  /-- An action gets a handler. -/
  | register (action tag : String)
  /-- An action loses its handler. -/
  | unregister (action : String)
  /-- The router is asked for the handler of an action. -/
  | isRegistered (action : String)
  /-- The router is shown. -/
  | showRouter
  /-- The log is shown. -/
  | showLog

/-- The answer to a step. -/
inductive Answer where
  | done
  | groups (gs : List GroupText)
  | table (loaded : Loading.Result)
  | keymap (k : Keymap) (error : Option LoadError)
  | version (v : UInt64)
  | query (a : Query.Answer)
  | flags (s : FlagSet)
  | dispatched (a : Option Action) (d : Dispatch)
  | truth (b : Bool)
  | router (r : Router)
  | log (records : List String)
  deriving DecidableEq, Repr

/-- Why a step cannot be taken. -/
inductive Error where
  | load (e : LoadError)
  | chord (e : Chord.Error)
  | action (e : Action.Error)
  | active (e : ActiveText.Error)
  | query (e : Query.Error)
  deriving DecidableEq, Repr

/-! ## §2 Parts of steps -/

/-- The session after an action, or none, has been given to the router. -/
def route (s : Session) (a : Option Action) : Session × Answer :=
  ({ s with log := s.log ++ s.router.record a }, .dispatched a (s.router.dispatch a))

def readAction (text : String) : Except Error Action :=
  (Action.read text).mapError .action

def readListings (defaults user : Listing) : Except Error Table :=
  (Table.ofListings defaults user).mapError .load

/-! ## §3 Steps -/

/-- The session after a step, and the answer to it. -/
def step (s : Session) : Step → Except Error (Session × Answer)
  | .write path content => .ok ({ s with files := s.files.write path content }, .done)
  | .remove path => .ok ({ s with files := s.files.remove path }, .done)
  | .addFolder path => .ok ({ s with files := s.files.addFolder path }, .done)
  | .readGroups path => do
    let gs ← (Loading.groupsAt s.files.look path).mapError .load
    return (s, .groups gs)
  | .readTable path => .ok (s, .table (Loading.load s.files.look path))
  | .load path =>
    let (keymap, error) := Keymap.load s.files.look path
    .ok ({ s with keymap }, .keymap keymap error)
  | .create defaults user => do
    let keymap := Keymap.ofTable (← readListings defaults user)
    return ({ s with keymap }, .keymap keymap none)
  | .reload =>
    let (keymap, error) := s.keymap.reload s.files.look
    .ok ({ s with keymap }, .keymap keymap error)
  | .replace defaults user => do
    let keymap := s.keymap.replace (← readListings defaults user)
    return ({ s with keymap }, .version keymap.version)
  | .status => .ok (s, .keymap s.keymap none)
  | .hold => .ok ({ s with held := s.keymap.table }, .done)
  | .askHeld q => do
    let a ← (s.held.answer q).mapError .query
    return (s, .query a)
  | .ask q => do
    let a ← (s.keymap.table.answer q).mapError .query
    return (s, .query a)
  | .activate flags => do
    let active ← flags.read.mapError .active
    return ({ s with active }, .flags active)
  | .press chord => do
    let c ← (Chord.read chord).mapError .chord
    return s.route (s.keymap.table.action? c s.active)
  | .dispatch action => do
    return s.route (← action.mapM readAction)
  | .register action tag => do
    let router := s.router.insert (← readAction action) tag
    return ({ s with router }, .router router)
  | .unregister action => do
    let a ← readAction action
    return ({ s with router := s.router.erase a }, .truth (s.router.contains a))
  | .isRegistered action => do
    let a ← readAction action
    return (s, .truth (s.router.contains a))
  | .showRouter => .ok (s, .router s.router)
  | .showLog => .ok (s, .log s.log)

/-! ## §4 Runs -/

/-- The answer to a step. -/
def answer (s : Session) (a : Step) : Except Error Answer :=
  (s.step a).map (·.2)

/-- The session after a step, whether it could be taken or not. -/
def next (s : Session) (a : Step) : Session :=
  match s.step a with
  | .ok (t, _) => t
  | .error _ => s

/-- The answers to the steps of a session. -/
def answers (s : Session) : List Step → List (Except Error Answer)
  | [] => []
  | a :: rest => s.answer a :: (s.next a).answers rest

/-- The answers to the steps of a new session. -/
def run (steps : List Step) : List (Except Error Answer) :=
  initial.answers steps

/-- A step that cannot be taken leaves the session as it was. -/
theorem next_of_error {s : Session} {a : Step} {e : Error} (h : s.answer a = .error e) :
    s.next a = s := by
  unfold answer at h
  unfold next
  cases hs : s.step a with
  | error _ => rfl
  | ok p => simp [hs, Except.map] at h

end Session

end Keybinding
