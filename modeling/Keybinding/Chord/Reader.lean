import Keybinding.Chord.Basic
import Keybinding.Text.Basic

/-!
# Reading a chord

A chord is written as any number of modifiers, each followed by a separator `-` or `+`, and a key.
Modifiers and named keys go by several names, in any letter case. A separator with nothing before it
is no separator but a character of the key, so that `cmd--` is the minus key with `cmd`.

`append_of_splitModifier?` says that splitting a modifier off loses nothing.
-/

namespace Keybinding.Chord

open Text

/-! ## §1 What can be wrong with a written chord -/

/-- Why a text is no chord. Offending parts are quoted as written. -/
inductive Error where
  /-- There is nothing but white space. -/
  | empty
  /-- The text ends after a separator. -/
  | missingKey
  /-- A part before a separator is the name of no modifier. -/
  | unknownModifier (part : String)
  /-- A part before a separator means a modifier that has been named already. -/
  | repeatedModifier (part : String)
  /-- The part after the last separator is no key. -/
  | unknownKey (part : String)
  deriving DecidableEq, Repr

def Error.message : Error → String
  | empty => "empty chord"
  | missingKey => "no key after modifiers"
  | unknownModifier part => "unknown modifier `" ++ part ++ "`"
  | repeatedModifier part => "modifier `" ++ part ++ "` repeated"
  | unknownKey part => "unknown key `" ++ part ++ "`"

/-! ## §2 Parts -/

/-- The characters that end a modifier. -/
def isSeparator (c : Char) : Bool :=
  c == '-' || c == '+'

/-- The part of a text before its first separator, and the text after that separator. A separator in
front does not count. -/
def splitModifier? : List Char → Option (List Char × List Char)
  | [] => none
  | c :: rest =>
    match rest.dropWhile (!isSeparator ·) with
    | [] => none
    | _ :: after => some (c :: rest.takeWhile (!isSeparator ·), after)

theorem append_of_splitModifier? {s part after : List Char}
    (h : splitModifier? s = some (part, after)) :
    ∃ sep, isSeparator sep = true ∧ s = part ++ sep :: after := by
  unfold splitModifier? at h
  split at h
  · cases h
  · next c rest =>
    split at h
    · cases h
    · next sep after' hd =>
      cases h
      refine ⟨sep, ?_, ?_⟩
      · have hne : rest.dropWhile (!isSeparator ·) ≠ [] := by simp [hd]
        simpa [hd] using List.head_dropWhile_not (!isSeparator ·) hne
      · rw [List.cons_append, ← hd, List.takeWhile_append_dropWhile]

/-- The value of a list of decimal digits. -/
def digitsValue? (ds : List Char) : Option Nat :=
  if ds.isEmpty || !ds.all Char.isDigit then none
  else some (ds.foldl (fun n d => 10 * n + (d.toNat - '0'.toNat)) 0)

/-- The function key that a name in lower case means: `f` and a number from 1 to 24. -/
def functionKey? : List Char → Option Key
  | 'f' :: digits =>
    match digitsValue? digits with
    | some n => if 1 ≤ n ∧ n ≤ 24 then some (.function n) else none
    | none => none
  | _ => none

/-- The key that a part means. One character is a key of its own, unless it cannot be seen. -/
def readKey (part : List Char) : Except Error Key :=
  let unknown := Error.unknownKey (String.ofList part)
  match part with
  | [c] => if isSpace c || isControl c then .error unknown else .ok (.ofChar c)
  | _ =>
    let name := lowered part
    match Key.named? name <|> functionKey? name.toList with
    | some k => .ok k
    | none => .error unknown

/-- The modifiers after one more part has been read. -/
def readModifier (held : Modifiers) (part : List Char) : Except Error Modifiers :=
  match Modifier.named? (lowered part) with
  | none => .error (.unknownModifier (String.ofList part))
  | some m =>
    if held.has m then .error (.repeatedModifier (String.ofList part)) else .ok (held.insert m)

/-! ## §3 Whole chords -/

/-- The chord that the rest of a text makes with the modifiers read before it. -/
def readFrom (held : Modifiers) (s : List Char) : Except Error Chord :=
  match _h : splitModifier? s with
  | none => (readKey s).map fun k => ⟨k, held⟩
  | some (part, after) =>
    if after.isEmpty then .error .missingKey
    else
      match readModifier held part with
      | .error e => .error e
      | .ok held' => readFrom held' after
  termination_by s.length
  decreasing_by
    obtain ⟨sep, -, rfl⟩ := append_of_splitModifier? _h
    simp
    omega

/-- The chord that a text means, without regard to white space around it. -/
def read (text : String) : Except Error Chord :=
  match trim text.toList with
  | [] => .error .empty
  | s => readFrom .none s

/-- The chords that the texts of a list mean, if each means one. -/
def readAll (texts : List String) : Except Error (List Chord) :=
  texts.mapM read

/-- Reading what is printed gives the chord back. -/
def readsBack (c : Chord) : Bool :=
  match read c.display with
  | .ok c' => c' == c
  | .error _ => false

theorem readsBack_iff {c : Chord} : c.readsBack = true ↔ read c.display = .ok c := by
  rw [readsBack]
  cases read c.display with
  | error e => simp
  | ok c' => simp

end Keybinding.Chord
