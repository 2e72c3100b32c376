import Keybinding.Condition.Basic
import Keybinding.Condition.Token

/-!
# Reading a condition

Tokens are read one at a time. Between two tokens the reader is in a `State`: the parentheses that
are open, what has been read since the innermost of them, and the operand that has just become
complete, if any. `!` binds more tightly than `&&` and `&&` more tightly than `||`; both operators
associate to the left. Parentheses leave no trace in the result.

Two limits keep conditions small. At most `maxDepth` signs `!` and `(` may be open at once, a `!`
over its operand and a `(` up to its `)`, and at most `maxOperators` operators may occur in all.

The reader stops at the first token after which no text can be a condition any more.
-/

namespace Keybinding.Condition

/-- How many `!` and `(` may be open at once. -/
def maxDepth : Nat := 64

/-- How many `&&` and `||` a condition may have. -/
def maxOperators : Nat := 256

/-! ## §1 States of the reader -/

/-- What has been read between a `(`, or the start of the text, and the operand that is due. -/
structure Level where
  /-- The operands of `||` that are complete. -/
  disjunction : Option Condition
  /-- The operands of `&&` that are complete since the last `||`. -/
  conjunction : Option Condition
  /-- The signs `!` that wait for their operand. -/
  negations : Nat
  deriving DecidableEq, Repr

namespace Level

/-- Nothing has been read. -/
def start : Level := ⟨none, none, 0⟩

/-- The operand of `||` that ends with `c`. -/
def product (l : Level) (c : Condition) : Condition :=
  match l.conjunction with
  | none => c
  | some p => .and p c

/-- Everything that has been read, with the last operand `c`. -/
def value (l : Level) (c : Condition) : Condition :=
  match l.disjunction with
  | none => l.product c
  | some d => .or d (l.product c)

end Level

/-- A `(` that is open. -/
structure Paren where
  position : Nat
  /-- What has been read before it. -/
  before : Level
  deriving DecidableEq, Repr

/-- The reader between two tokens. -/
structure State where
  /-- The open parentheses, the innermost first. -/
  parens : List Paren
  /-- What has been read since the innermost of them. -/
  level : Level
  /-- The operand that is complete; without one an operand is due. -/
  operand : Option Condition
  /-- The number of operators so far. -/
  operators : Nat
  deriving DecidableEq, Repr

namespace State

/-- The reader before the first token. -/
def start : State := ⟨[], .start, none, 0⟩

/-- The number of signs `!` and `(` that are open. -/
def depth (s : State) : Nat :=
  s.parens.foldr (fun p n => p.before.negations + 1 + n) s.level.negations

/-- A condition with a number of signs `!` in front. -/
def negate : Nat → Condition → Condition
  | 0, c => c
  | n + 1, c => .not (negate n c)

/-- The waiting signs `!` take `c` as their operand. -/
def complete (s : State) (c : Condition) : State :=
  { s with
    level := { s.level with negations := 0 }
    operand := some (negate s.level.negations c) }

/-! ## §2 Steps -/

/-- One more sign opens at `position`, unless that is too deep. -/
def descend (s : State) (position : Nat) (next : State) : Except Error State :=
  if s.depth < maxDepth then .ok next else .error (.tooDeep position)

/-- One more operator at `position`, unless that is too many. -/
def operate (s : State) (position : Nat) (level : Level) : Except Error State :=
  if s.operators < maxOperators then
    .ok { s with level, operand := none, operators := s.operators + 1 }
  else .error (.tooManyOperators position)

/-- A token where an operand is due. -/
def operandStep (s : State) (t : Token) : Except Error State :=
  match t.symbol with
  | .name n =>
    match Flag.ofName? n with
    | some f => .ok (s.complete (.flag f))
    | none => .error (.unknownFlag n t.position)
  | .not =>
    s.descend t.position
      { s with level := { s.level with negations := s.level.negations + 1 } }
  | .opening =>
    s.descend t.position
      { s with parens := ⟨t.position, s.level⟩ :: s.parens, level := .start }
  | other => .error (.notAnOperand other t.position)

/-- A token after the operand `c`. -/
def operatorStep (s : State) (c : Condition) (t : Token) : Except Error State :=
  match t.symbol, s.parens with
  | .and, _ => s.operate t.position { s.level with conjunction := some (s.level.product c) }
  | .or, _ => s.operate t.position ⟨some (s.level.value c), none, 0⟩
  | .closing, [] => .error (.unmatched t.position)
  | .closing, p :: outer =>
    .ok (complete { s with parens := outer, level := p.before } (s.level.value c))
  | other, [] => .error (.trailing other t.position)
  | _, p :: _ => .error (.unclosed p.position)

/-- The reader after one more token. -/
def step (s : State) (t : Token) : Except Error State :=
  match s.operand with
  | none => s.operandStep t
  | some c => s.operatorStep c t

/-- The reader after a list of tokens. -/
def run (s : State) (ts : List Token) : Except Error State :=
  ts.foldlM step s

/-- The condition that has been read, at the end of a text of `length` bytes. -/
def finish (s : State) (length : Nat) : Except Error Condition :=
  match s.operand, s.parens with
  | none, _ => .error (.missingOperand length)
  | some c, [] => .ok (s.level.value c)
  | some _, p :: _ => .error (.unclosed p.position)

end State

/-! ## §3 Texts -/

/-- The condition that a list of tokens from a text of `length` bytes spells. -/
def ofTokens (length : Nat) : List Token → Except Error Condition
  | [] => .error .empty
  | ts => do (← State.start.run ts).finish length

/-- The condition that a text spells. -/
def read (text : String) : Except Error Condition := do
  ofTokens text.utf8ByteSize (← tokenize text)

end Keybinding.Condition
