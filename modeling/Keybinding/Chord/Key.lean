import Keybinding.Text.Case

/-!
# Keys

The key of a chord is a character, one of the keys that have a name, or a function key. Keys are
ordered: characters by code point, then the named keys as they are listed, then the function keys by
number.
-/

namespace Keybinding

/-- A key that is known by its name. -/
inductive NamedKey where
  | enter | escape | tab | backspace | delete | space
  | up | down | left | right
  | home | end | pageUp | pageDown
  deriving DecidableEq, Repr

namespace NamedKey

def all : List NamedKey :=
  [ enter, escape, tab, backspace, delete, space, up, down, left, right, home, .end, pageUp,
    pageDown ]

/-- The place of a named key in the order. -/
def index : NamedKey → Nat
  | enter => 0
  | escape => 1
  | tab => 2
  | backspace => 3
  | delete => 4
  | space => 5
  | up => 6
  | down => 7
  | left => 8
  | right => 9
  | home => 10
  | .end => 11
  | pageUp => 12
  | pageDown => 13

/-- The name of a key in the text of a chord. -/
def name : NamedKey → String
  | enter => "enter"
  | escape => "escape"
  | tab => "tab"
  | backspace => "backspace"
  | delete => "delete"
  | space => "space"
  | up => "up"
  | down => "down"
  | left => "left"
  | right => "right"
  | home => "home"
  | .end => "end"
  | pageUp => "pageup"
  | pageDown => "pagedown"

/-- The name of a key in a menu. -/
def label : NamedKey → String
  | enter => "Enter"
  | escape => "Escape"
  | tab => "Tab"
  | backspace => "Backspace"
  | delete => "Delete"
  | space => "Space"
  | up => "Up"
  | down => "Down"
  | left => "Left"
  | right => "Right"
  | home => "Home"
  | .end => "End"
  | pageUp => "PageUp"
  | pageDown => "PageDown"

theorem index_injective {k l : NamedKey} (h : k.index = l.index) : k = l := by
  have hall : ∀ k : NamedKey, all[k.index]? = some k := by
    intro k
    cases k <;> rfl
  exact Option.some.inj (by rw [← hall k, ← hall l, h])

end NamedKey

/-- The key of a chord. -/
inductive Key where
  | char (c : Char)
  | named (k : NamedKey)
  | function (n : Nat)
  deriving DecidableEq, Repr

namespace Key

/-- The key of a character. Letters of ASCII count in lower case. -/
def ofChar (c : Char) : Key := .char c.toLower

/-- Characters come first, named keys second, function keys last. -/
def kind : Key → Nat
  | char _ => 0
  | named _ => 1
  | function _ => 2

/-- The place of a key among those of its kind. -/
def place : Key → Nat
  | char c => c.toNat
  | named k => k.index
  | function n => n

def display : Key → String
  | char c => c.toString
  | named k => k.name
  | function n => "f" ++ toString n

/-- A key as menus show it: a character in upper case. -/
def label : Key → String
  | char c => String.ofList (Text.upper c)
  | named k => k.label
  | function n => "F" ++ toString n

instance : ToString Key := ⟨display⟩

/-- The names, in lower case, that mean a key, besides those of the function keys. -/
def named? : String → Option Key
  | "enter" | "return" => some (.named .enter)
  | "escape" | "esc" => some (.named .escape)
  | "tab" => some (.named .tab)
  | "backspace" => some (.named .backspace)
  | "delete" | "del" => some (.named .delete)
  | "space" => some (.named .space)
  | "up" | "arrowup" => some (.named .up)
  | "down" | "arrowdown" => some (.named .down)
  | "left" | "arrowleft" => some (.named .left)
  | "right" | "arrowright" => some (.named .right)
  | "home" => some (.named .home)
  | "end" => some (.named .end)
  | "pageup" | "pgup" => some (.named .pageUp)
  | "pagedown" | "pgdown" | "pgdn" => some (.named .pageDown)
  | "minus" => some (.char '-')
  | "plus" => some (.char '+')
  | "equal" | "equals" => some (.char '=')
  | "backquote" | "backtick" => some (.char '\x60')
  | _ => none

/-- Kind and place tell keys apart. -/
theorem eq_of_kind_place {k l : Key} (hk : k.kind = l.kind) (hp : k.place = l.place) : k = l := by
  cases k <;> cases l <;> simp only [kind, place] at hk hp <;> try contradiction
  · exact congrArg char (Char.toNat_inj.mp hp)
  · exact congrArg named (NamedKey.index_injective hp)
  · exact congrArg function hp

end Key

end Keybinding
