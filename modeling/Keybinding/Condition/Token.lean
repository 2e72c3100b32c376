import Keybinding.Text.Basic

/-!
# Tokens of a condition

The written form of a condition is a list of symbols: names, `!`, `&&`, `||` and parentheses. A
token is a symbol with the place where it stands in the text, counted in bytes of UTF-8. Each way in
which a text fails to be a condition is a cause of its own, with the place to blame, and
`Error.message` words it.

A written condition is cut into tokens from left to right. White space separates tokens and is
dropped. A name is an ASCII letter with all the ASCII letters and digits that follow it.
`append_of_symbolAt` says that a symbol and the text after it are the text it was cut from.
-/

namespace Keybinding.Condition

open Text

/-! ## §1 Symbols -/

/-- A lexical unit of a written condition. -/
inductive Symbol where
  | name (s : String)
  | not
  | and
  | or
  | opening
  | closing
  deriving DecidableEq, Repr

/-- The characters that a symbol is written with. -/
def Symbol.spelling : Symbol → String
  | name s => s
  | not => "!"
  | and => "&&"
  | or => "||"
  | opening => "("
  | closing => ")"

/-- A symbol as messages show it. -/
def Symbol.quoted (s : Symbol) : String :=
  "`" ++ s.spelling ++ "`"

/-- A symbol at its place in a text. -/
structure Token where
  symbol : Symbol
  /-- The number of bytes before the symbol. -/
  position : Nat
  deriving DecidableEq, Repr

/-! ## §2 What can be wrong with a written condition -/

/-- Why a text is no condition. Positions count bytes of UTF-8. -/
inductive Error where
  /-- One half of `&&` or `||` stands alone. -/
  | halfOperator (c : Char) (position : Nat)
  /-- A character starts no token. -/
  | strayCharacter (c : Char) (position : Nat)
  /-- There is no token at all. -/
  | empty
  /-- A `!` or `(` opens one level too many. -/
  | tooDeep (position : Nat)
  /-- A `&&` or `||` is one too many. -/
  | tooManyOperators (position : Nat)
  /-- The text ends where an operand is due. -/
  | missingOperand (position : Nat)
  /-- A token stands where an operand is due. -/
  | notAnOperand (s : Symbol) (position : Nat)
  /-- A name stands where an operand is due, but names no flag. -/
  | unknownFlag (name : String) (position : Nat)
  /-- The `(` at this place is not closed where it has to be. -/
  | unclosed (position : Nat)
  /-- A `)` closes nothing. -/
  | unmatched (position : Nat)
  /-- A token follows a complete condition. -/
  | trailing (s : Symbol) (position : Nat)
  deriving DecidableEq, Repr

namespace Error

/-- The place to blame. -/
def position : Error → Nat
  | halfOperator _ p => p
  | strayCharacter _ p => p
  | empty => 0
  | tooDeep p => p
  | tooManyOperators p => p
  | missingOperand p => p
  | notAnOperand _ p => p
  | unknownFlag _ p => p
  | unclosed p => p
  | unmatched p => p
  | trailing _ p => p

/-- The condition is well formed up to a name that is no flag. -/
def isUnknownFlag : Error → Bool
  | unknownFlag .. => true
  | _ => false

/-- What is wrong, without the place. -/
def detail : Error → String
  | halfOperator c _ =>
    let half := c.toString
    "expected `" ++ half ++ half ++ "`, found single `" ++ half ++ "`"
  | strayCharacter c _ => "unexpected character `" ++ c.toString ++ "`"
  | empty => "empty expression"
  | tooDeep _ => "expression nested too deeply"
  | tooManyOperators _ => "too many operators in expression"
  | missingOperand _ => "expected flag name or `(`, found end of expression"
  | notAnOperand s _ => "expected flag name or `(`, found " ++ s.quoted
  | unknownFlag name _ => "unknown context flag `" ++ name ++ "`"
  | unclosed _ => "unclosed `(`"
  | unmatched _ => "unmatched `)`"
  | trailing s _ => "unexpected " ++ s.quoted ++ " after complete expression"

/-- What is wrong, and where. -/
def message (e : Error) : String :=
  let place := toString e.position
  if e.isUnknownFlag then e.detail ++ " at position " ++ place
  else "syntax error at position " ++ place ++ ": " ++ e.detail

end Error

/-! ## §3 One symbol -/

/-- A symbol that is one character long. -/
def punctuation? : Char → Option Symbol
  | '!' => some .not
  | '(' => some .opening
  | ')' => some .closing
  | _ => none

/-- The operator that is written with a character twice. -/
def operator? : Char → Option Symbol
  | '&' => some .and
  | '|' => some .or
  | _ => none

/-- The longest symbol that starts with the character `c` at `position`, and the text after it. -/
def symbolAt (position : Nat) (c : Char) (rest : List Char) : Except Error (Symbol × List Char) :=
  match punctuation? c, operator? c with
  | some s, _ => .ok (s, rest)
  | none, some s =>
    if rest.head? = some c then .ok (s, rest.tail) else .error (.halfOperator c position)
  | none, none =>
    if c.isAlpha then
      .ok (.name (String.ofList (c :: rest.takeWhile Char.isAlphanum)),
        rest.dropWhile Char.isAlphanum)
    else .error (.strayCharacter c position)

theorem append_of_symbolAt {position : Nat} {c : Char} {rest rest' : List Char} {s : Symbol}
    (h : symbolAt position c rest = .ok (s, rest')) :
    s.spelling.toList ++ rest' = c :: rest := by
  unfold symbolAt at h
  split at h
  next p hp =>
    obtain ⟨rfl, rfl⟩ : p = s ∧ rest = rest' := by simpa using h
    unfold punctuation? at hp
    split at hp <;> cases hp <;> rfl
  next o _ ho =>
    split at h
    next hd =>
      obtain ⟨rfl, rfl⟩ : o = s ∧ rest.tail = rest' := by simpa using h
      obtain ⟨r, rfl⟩ : ∃ r, rest = c :: r := by
        cases rest with
        | nil => simp at hd
        | cons d r => exact ⟨r, by simpa using hd⟩
      unfold operator? at ho
      split at ho <;> cases ho <;> rfl
    next => contradiction
  next =>
    split at h
    next =>
      obtain ⟨rfl, rfl⟩ := Prod.mk.inj (Except.ok.inj h)
      simp [Symbol.spelling, List.takeWhile_append_dropWhile]
    next => contradiction

theorem length_le_of_symbolAt {position : Nat} {c : Char} {rest rest' : List Char} {s : Symbol}
    (h : symbolAt position c rest = .ok (s, rest')) : rest'.length ≤ rest.length := by
  unfold symbolAt at h
  split at h
  · cases h
    exact Nat.le_refl _
  · split at h <;> cases h
    simp
  · split at h <;> cases h
    exact (List.dropWhile_suffix _).length_le

/-! ## §4 All symbols -/

/-- The tokens of the part of a text that starts after `position` bytes. -/
def tokensFrom (position : Nat) : List Char → Except Error (List Token)
  | [] => .ok []
  | c :: rest =>
    if isSpace c then tokensFrom (position + c.utf8Size) rest
    else
      match h : symbolAt position c rest with
      | .error e => .error e
      | .ok (s, rest') =>
        have := length_le_of_symbolAt h
        (tokensFrom (position + s.spelling.utf8ByteSize) rest').map (⟨s, position⟩ :: ·)
  termination_by cs => cs.length
  decreasing_by all_goals grind

/-- The tokens of a text. -/
def tokenize (text : String) : Except Error (List Token) :=
  tokensFrom 0 text.toList

end Keybinding.Condition
