import Keybinding.Command
import Keybinding.Text.Basic

/-!
# Actions

An action is what a chord can be bound to: a built-in command, or an id that the host gives a
meaning to. An id is a namespace and a verb with `::` between them. Both are names: an ASCII letter
followed by ASCII letters, digits and underscores.
-/

namespace Keybinding

/-- What a chord can be bound to. -/
inductive Action where
  | builtin (c : Command)
  /-- An id outside the built-in commands. -/
  | custom (id : String)
  deriving DecidableEq, Repr

namespace Action

def id : Action → String
  | builtin c => c.id
  | custom s => s

/-- The action is a command that the application knows. -/
def isBuiltin : Action → Bool
  | builtin _ => true
  | custom _ => false

instance : ToString Action := ⟨id⟩

/-! ## §1 Parts of an id -/

/-- The text before the first `::` and the text after it. -/
def splitId? : List Char → Option (List Char × List Char)
  | ':' :: ':' :: rest => some ([], rest)
  | c :: rest => (splitId? rest).map fun p => (c :: p.1, p.2)
  | [] => none

/-- A letter followed by letters, digits and underscores, all of ASCII. -/
def isName : List Char → Bool
  | [] => false
  | c :: rest => c.isAlpha && rest.all fun d => d.isAlphanum || d == '_'

/-- A text has the form of an id. -/
def isId (s : List Char) : Bool :=
  match splitId? s with
  | some (space, verb) => isName space && isName verb
  | none => false

/-- The part of an id before `::`. -/
def namespacePart (a : Action) : String :=
  match splitId? a.id.toList with
  | some (space, _) => String.ofList space
  | none => ""

/-- The part of an id after `::`. -/
def verb (a : Action) : String :=
  match splitId? a.id.toList with
  | some (_, verb) => String.ofList verb
  | none => ""

/-! ## §2 Reading -/

/-- A text that is no id, as it was given. -/
structure Error where
  text : String
  deriving DecidableEq, Repr

def Error.message (e : Error) : String :=
  "invalid action id `" ++ e.text ++ "`: expected `namespace::verb`"

/-- The action that a text means, without regard to white space around it. -/
def read (text : String) : Except Error Action :=
  let id := Text.trimmed text
  match Command.ofId? id with
  | some c => .ok (.builtin c)
  | none => if isId id.toList then .ok (.custom id) else .error ⟨text⟩

end Action

end Keybinding
