import Keybinding.Chord.Key
import Keybinding.Chord.Modifiers

/-!
# Chords

A chord is a key struck while modifiers are held. The canonical order of chords compares the kind of
the key, then its place among the keys of that kind, then the code of the modifiers. It is a strict
linear order (`lt_irrefl`, `lt_trans`, `lt_trichotomy`).
-/

namespace Keybinding

/-- A key struck while modifiers are held. -/
structure Chord where
  key : Key
  mods : Modifiers
  deriving DecidableEq, Repr

namespace Chord

/-! ## §1 Texts -/

/-- The text of a chord: the modifiers in order, then the key. -/
def display (c : Chord) : String :=
  String.intercalate "-" (c.mods.toList.map Modifier.name ++ [c.key.display])

/-- A chord as menus show it. -/
def accelerator (c : Chord) : String :=
  String.intercalate "+" (c.mods.toList.map Modifier.label ++ [c.key.label])

instance : ToString Chord := ⟨display⟩

/-! ## §2 Order -/

/-- The comparison of two chords in the canonical order. -/
def compare (a b : Chord) : Ordering :=
  (Ord.compare a.key.kind b.key.kind).then <|
    (Ord.compare a.key.place b.key.place).then <|
      Ord.compare a.mods.code b.mods.code

/-- One chord comes before another. -/
def before (a b : Chord) : Bool :=
  a.compare b == .lt

instance : LT Chord := ⟨fun a b => a.before b = true⟩

instance (a b : Chord) : Decidable (a < b) :=
  inferInstanceAs (Decidable (a.before b = true))

/-- A chord comes before another when it is less in the first respect in which they differ. -/
theorem lt_iff {a b : Chord} : a < b ↔
    a.key.kind < b.key.kind ∨ a.key.kind = b.key.kind ∧
      (a.key.place < b.key.place ∨ a.key.place = b.key.place ∧ a.mods.code < b.mods.code) := by
  show (a.compare b == .lt) = true ↔ _
  rw [beq_iff_eq, compare, Ordering.then_eq_lt, Ordering.then_eq_lt, Nat.compare_eq_lt,
    Nat.compare_eq_eq, Nat.compare_eq_lt, Nat.compare_eq_eq, Nat.compare_eq_lt]

theorem eq_of_ranks {a b : Chord} (hk : a.key.kind = b.key.kind)
    (hp : a.key.place = b.key.place) (hm : a.mods.code = b.mods.code) : a = b := by
  cases a
  cases b
  simp only [mk.injEq]
  exact ⟨Key.eq_of_kind_place hk hp, Modifiers.code_injective hm⟩

theorem lt_irrefl (a : Chord) : ¬ a < a := by
  rw [lt_iff]
  omega

theorem lt_trans {a b c : Chord} (hab : a < b) (hbc : b < c) : a < c := by
  rw [lt_iff] at *
  omega

theorem lt_trichotomy (a b : Chord) : a < b ∨ a = b ∨ b < a := by
  by_cases h : a.key.kind = b.key.kind ∧ a.key.place = b.key.place ∧ a.mods.code = b.mods.code
  · exact .inr (.inl (eq_of_ranks h.1 h.2.1 h.2.2))
  · rw [lt_iff, lt_iff]
    omega

/-! ## §3 Sorting -/

/-- A chord in its place among sorted chords, after those equal to it. -/
def insertSorted (c : Chord) : List Chord → List Chord
  | [] => [c]
  | d :: rest => if c < d then c :: d :: rest else d :: insertSorted c rest

/-- The chords of a list in the canonical order. -/
def sort (cs : List Chord) : List Chord :=
  cs.foldr insertSorted []

/-- The number of different chords in a list. -/
def countDistinct (cs : List Chord) : Nat :=
  cs.eraseDups.length

end Chord

end Keybinding
