/-!
# Modifier keys

A chord is struck while a set of modifier keys is held. The four modifiers have a fixed order, in
which they are printed, and weights 1, 2, 4 and 8, by which sets of them are compared.
-/

namespace Keybinding

/-- A modifier key. -/
inductive Modifier where
  | cmd
  | ctrl
  | alt
  | shift
  deriving DecidableEq, Repr

namespace Modifier

def all : List Modifier := [cmd, ctrl, alt, shift]

/-- The name of a modifier in the text of a chord. -/
def name : Modifier → String
  | cmd => "cmd"
  | ctrl => "ctrl"
  | alt => "alt"
  | shift => "shift"

/-- The name of a modifier in a menu. -/
def label : Modifier → String
  | cmd => "Cmd"
  | ctrl => "Ctrl"
  | alt => "Alt"
  | shift => "Shift"

/-- The share of a modifier in the code of a set. -/
def weight : Modifier → Nat
  | cmd => 1
  | ctrl => 2
  | alt => 4
  | shift => 8

/-- The names, in lower case, that mean a modifier. The primary modifier of a platform is `ctrl`. -/
def named? : String → Option Modifier
  | "cmd" | "command" | "meta" | "super" => some cmd
  | "ctrl" | "control" => some ctrl
  | "alt" | "option" | "opt" => some alt
  | "shift" => some shift
  | "mod" | "cmdorctrl" | "cmdorcontrol" => some ctrl
  | _ => none

end Modifier

/-- A set of modifier keys. -/
structure Modifiers where
  cmd : Bool
  ctrl : Bool
  alt : Bool
  shift : Bool
  deriving DecidableEq, Repr

namespace Modifiers

/-- No modifier is held. -/
def none : Modifiers := ⟨false, false, false, false⟩

def has (s : Modifiers) : Modifier → Bool
  | .cmd => s.cmd
  | .ctrl => s.ctrl
  | .alt => s.alt
  | .shift => s.shift

/-- The set with one more modifier held. -/
def insert (s : Modifiers) : Modifier → Modifiers
  | .cmd => { s with cmd := true }
  | .ctrl => { s with ctrl := true }
  | .alt => { s with alt := true }
  | .shift => { s with shift := true }

/-- The set of the modifiers of a list. -/
def ofList (ms : List Modifier) : Modifiers :=
  ms.foldl insert none

/-- The modifiers that are held, in order. -/
def toList (s : Modifiers) : List Modifier :=
  Modifier.all.filter s.has

/-- The modifiers that are held in one set or the other. -/
def union (s t : Modifiers) : Modifiers :=
  ⟨s.cmd || t.cmd, s.ctrl || t.ctrl, s.alt || t.alt, s.shift || t.shift⟩

/-- All modifiers of `t` are held in `s`. -/
def contains (s t : Modifiers) : Bool :=
  t.toList.all s.has

/-- No modifier is held. -/
def isEmpty (s : Modifiers) : Bool :=
  s.toList.isEmpty

/-- The sum of the weights of the modifiers that are held. -/
def code (s : Modifiers) : Nat :=
  s.toList.foldr (fun m n => m.weight + n) 0

/-- The names of the modifiers that are held, in order. -/
def display (s : Modifiers) : String :=
  String.intercalate "-" (s.toList.map Modifier.name)

instance : ToString Modifiers := ⟨display⟩

/-! ## Membership and codes -/

@[simp] theorem has_none (m : Modifier) : none.has m = false := by
  cases m <;> rfl

@[simp] theorem has_insert (s : Modifiers) (m n : Modifier) :
    (s.insert m).has n = (s.has n || decide (n = m)) := by
  cases m <;> cases n <;> simp [insert, has]

theorem ext_has {s t : Modifiers} (h : ∀ m, s.has m = t.has m) : s = t := by
  have h₁ := h .cmd
  have h₂ := h .ctrl
  have h₃ := h .alt
  have h₄ := h .shift
  cases s
  cases t
  simp_all [has]

/-- Different sets have different codes. -/
theorem code_injective {s t : Modifiers} (h : s.code = t.code) : s = t := by
  revert h
  obtain ⟨a, b, c, d⟩ := s
  obtain ⟨a', b', c', d'⟩ := t
  revert a b c d a' b' c' d'
  decide

end Modifiers

end Keybinding
