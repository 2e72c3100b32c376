import Keybinding.Condition.Reader

/-!
# Printing a condition

A condition is printed with as few parentheses as its shape allows: around an operand that binds
less tightly than the operator over it, and around a right operand that binds equally tightly, since
operators associate to the left.
-/

namespace Keybinding.Condition

/-- How tightly the outermost operator binds. -/
def tightness : Condition → Nat
  | or .. => 1
  | and .. => 2
  | not _ => 3
  | flag _ => 4

/-- A printed operand, between parentheses if asked for. -/
def operand (parens : Bool) (printed : String) : String :=
  if parens then "(" ++ printed ++ ")" else printed

def display : Condition → String
  | flag f => f.name
  | not c => "!" ++ operand (c.tightness < 3) c.display
  | and l r =>
    operand (l.tightness < 2) l.display ++ " && " ++ operand (r.tightness ≤ 2) r.display
  | or l r =>
    operand (l.tightness < 1) l.display ++ " || " ++ operand (r.tightness ≤ 1) r.display

instance : ToString Condition := ⟨display⟩

/-- Reading what is printed gives the condition back. -/
def readsBack (c : Condition) : Bool :=
  match read c.display with
  | .ok c' => c' == c
  | .error _ => false

theorem readsBack_iff {c : Condition} : c.readsBack = true ↔ read c.display = .ok c := by
  rw [readsBack]
  cases read c.display with
  | error e => simp
  | ok c' => simp

end Keybinding.Condition
