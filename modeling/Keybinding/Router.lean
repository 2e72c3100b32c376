import Keybinding.Action

/-!
# Routing actions to handlers

A router knows a handler for some actions, at most one for each. An action without a handler passes
through. A handler is known by a tag, and running it leaves a record of the tag and the action.
-/

namespace Keybinding

/-- The handlers of actions. -/
structure Router where
  /-- Each action that has a handler, with the tag of the handler. -/
  handlers : List (Action × String)
  /-- No action has two handlers. -/
  nodup : (handlers.map (·.1)).Nodup
  deriving DecidableEq, Repr

/-- What has become of an action. -/
inductive Dispatch where
  /-- Its handler has run. -/
  | handled (a : Action)
  /-- There was nothing to run. -/
  | passThrough
  deriving DecidableEq, Repr

namespace Router

/-! ## §1 Handlers -/

def empty : Router := ⟨[], .nil⟩

/-- The tag of the handler of an action. -/
def tag? (r : Router) (a : Action) : Option String :=
  r.handlers.lookup a

/-- An action has a handler. -/
def contains (r : Router) (a : Action) : Bool :=
  (r.tag? a).isSome

/-- The router without a handler for an action. -/
def erase (r : Router) (a : Action) : Router where
  handlers := r.handlers.filter (·.1 != a)
  nodup := r.nodup.sublist (List.filter_sublist.map _)

theorem not_mem_erase (r : Router) (a : Action) : a ∉ (r.erase a).handlers.map (·.1) := by
  simp [erase]

/-- The router with a handler for an action, in place of the one before. -/
def insert (r : Router) (a : Action) (tag : String) : Router where
  handlers := (a, tag) :: (r.erase a).handlers
  nodup := List.nodup_cons.2 ⟨not_mem_erase r a, (r.erase a).nodup⟩

@[simp] theorem tag?_empty (a : Action) : empty.tag? a = none := rfl

theorem tag?_erase (r : Router) (a b : Action) :
    (r.erase a).tag? b = if b = a then none else r.tag? b := by
  obtain ⟨hs, h⟩ := r
  simp only [tag?, erase]
  clear h
  induction hs with
  | nil => simp
  | cons e rest ih => grind

theorem tag?_insert (r : Router) (a b : Action) (tag : String) :
    (r.insert a tag).tag? b = if b = a then some tag else r.tag? b := by
  have h := tag?_erase r a b
  by_cases hb : b = a
  · simp [tag?, insert, hb]
  · simp only [hb, if_false] at h ⊢
    rw [← h]
    simp [tag?, insert, List.lookup_cons, beq_false_of_ne hb]

/-! ## §2 Dispatch -/

/-- What becomes of an action. -/
def dispatch (r : Router) : Option Action → Dispatch
  | none => .passThrough
  | some a => if r.contains a then .handled a else .passThrough

/-- What is recorded of an action: the tag of its handler and its id, if the handler runs. -/
def record (r : Router) (a : Option Action) : List String :=
  match a with
  | none => []
  | some a => ((r.tag? a).map fun tag => tag ++ ":" ++ a.id).toList

/-! ## §3 Text -/

/-- A text in its place among sorted texts. -/
def insertText (s : String) : List String → List String
  | [] => [s]
  | t :: rest => if t < s then t :: insertText s rest else s :: t :: rest

/-- The ids of the actions with a handler, sorted. -/
def ids (r : Router) : List String :=
  (r.handlers.map (·.1.id)).foldr insertText []

/-- The text of a router: the ids of the actions with a handler, sorted. -/
def display (r : Router) : String :=
  let quoted := r.ids.map fun id => "\"" ++ id ++ "\""
  "ActionRouter \x7b handlers: [" ++ String.intercalate ", " quoted ++ "] \x7d"

instance : ToString Router := ⟨display⟩

end Router

end Keybinding
