import Keybinding.FlagSet

/-!
# Conditions

A condition is a Boolean formula over the context flags. It scopes a group of bindings: the group
counts only while the condition holds in the set of active flags.
-/

namespace Keybinding

/-- A Boolean formula over context flags. -/
inductive Condition where
  | flag (f : Flag)
  | not (c : Condition)
  | and (l r : Condition)
  | or (l r : Condition)
  deriving DecidableEq, Repr

namespace Condition

/-! ## §1 Meaning -/

/-- The truth value of a condition while the flags of `active` are on. -/
def eval (active : FlagSet) : Condition → Bool
  | flag f => active.contains f
  | not c => !c.eval active
  | and l r => l.eval active && r.eval active
  | or l r => l.eval active || r.eval active

/-- The truth value of an optional condition. Where there is none, nothing is asked for. -/
def holds (c : Option Condition) (active : FlagSet) : Bool :=
  c.all (eval active)

/-! ## §2 Flags of a condition -/

/-- The flags of a condition from left to right, as often as they occur. -/
def mentions : Condition → List Flag
  | flag f => [f]
  | not c => c.mentions
  | and l r => l.mentions ++ r.mentions
  | or l r => l.mentions ++ r.mentions

/-- The flags of a condition in the order of their first occurrence, each once. -/
def flags (c : Condition) : List Flag :=
  c.mentions.eraseDups

/-! ## §3 Truth tables -/

/-- The flags of a list that a mask selects: bit `k` of the mask stands for element `k`. -/
def selection (fs : List Flag) (mask : Nat) : FlagSet :=
  FlagSet.ofList ((fs.zipIdx.filter fun p => mask.testBit p.2).map (·.1))

/-- The truth values of a condition under all selections of its flags, by increasing mask. -/
def truthTable (c : Condition) : List Bool :=
  (List.range (Nat.pow 2 c.flags.length)).map fun mask => c.eval (selection c.flags mask)

end Condition

end Keybinding
