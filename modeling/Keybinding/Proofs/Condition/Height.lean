import Keybinding.Proofs.Condition.Printing
import Keybinding.Proofs.Steps

/-!
# The height of conditions

A condition that has been read is low, however long its text is: each `&&` and `||` of the condition
is one of the text, and the signs `!` over one flag are all open at once when the flag is read. A
function that recurses over a condition calls itself on the children of the condition; a chain of
such calls is a `Descends`, which is shorter than the condition is high
(`Descends.length_lt_height`).

- `height_le_of_read`: what is read has a bounded height, and the reader has a bounded depth.
-/

namespace Keybinding.Condition

/-! ## §1 Height -/

/-- The largest number of signs `!` on the way from the root of a condition to one of its flags. -/
def negations : Condition → Nat
  | flag _ => 0
  | not c => c.negations + 1
  | and l r => max l.negations r.negations
  | or l r => max l.negations r.negations

/-- The largest number of nodes on the way from the root of a condition to one of its flags. -/
def height : Condition → Nat
  | flag _ => 1
  | not c => c.height + 1
  | and l r => max l.height r.height + 1
  | or l r => max l.height r.height + 1

/-- On a way to a flag there are signs `!`, operators and the flag. -/
theorem height_le (c : Condition) : c.height ≤ c.operators + c.negations + 1 := by
  induction c with
  | flag f => exact Nat.le_refl 1
  | not c ih => simp only [height, operators, negations]; omega
  | and l r ihl ihr | or l r ihl ihr => simp only [height, operators, negations]; omega

/-- Each sign `!` is printed. -/
theorem negations_le_displayNesting (c : Condition) : c.negations ≤ c.displayNesting := by
  induction c with
  | flag f => exact Nat.le_refl 0
  | not c ih =>
    have hle := le_enclosed (c.tightness < 3) c.displayNesting
    simp only [negations, displayNesting]
    omega
  | and l r ihl ihr =>
    have hl := le_enclosed (l.tightness < 2) l.displayNesting
    have hr := le_enclosed (r.tightness ≤ 2) r.displayNesting
    simp only [negations, displayNesting]
    omega
  | or l r ihl ihr =>
    have hl := le_enclosed (l.tightness < 1) l.displayNesting
    have hr := le_enclosed (r.tightness ≤ 1) r.displayNesting
    simp only [negations, displayNesting]
    omega

/-! ## §2 Recursion over a condition -/

/-- The conditions right below the root. -/
def children : Condition → List Condition
  | flag _ => []
  | not c => [c]
  | and l r => [l, r]
  | or l r => [l, r]

/-- Each condition of the list is a child of the one before it, and the first one of `c`. -/
inductive Descends : Condition → List Condition → Prop
  | nil (c : Condition) : Descends c []
  | cons {c d : Condition} {ds : List Condition} (hd : d ∈ c.children) (h : Descends d ds) :
      Descends c (d :: ds)

theorem height_lt_of_mem_children {c d : Condition} (h : d ∈ c.children) : d.height < c.height := by
  cases c with
  | flag f => simp [children] at h
  | not c =>
    obtain rfl : d = c := by simpa [children] using h
    exact Nat.lt_succ_self _
  | and l r | or l r =>
    have hd : d = l ∨ d = r := by simpa [children] using h
    simp only [height]
    rcases hd with rfl | rfl <;> omega

theorem height_pos (c : Condition) : 0 < c.height := by
  cases c <;> simp [height]

/-- A chain of calls is shorter than the condition is high. -/
theorem Descends.length_lt_height {c : Condition} {ds : List Condition} (h : Descends c ds) :
    ds.length < c.height := by
  induction h with
  | nil c => exact c.height_pos
  | cons hd _ ih =>
    have hlt := height_lt_of_mem_children hd
    rw [List.length_cons]
    omega

/-! ## §3 What is read -/

/-- **What is read has a bounded height.** A condition that has been read has at most 256 operators,
and at most 64 signs `!` on the way to any flag; it is at most 321 nodes high, and so no recursion
over it goes deeper. The reader never has more than 64 signs `!` and `(` open, after no tokens
whatever. -/
theorem height_le_of_read :
    (∀ text c, read text = .ok c → c.operators ≤ 256 ∧ c.negations ≤ 64 ∧ c.height ≤ 321 ∧
      ∀ ds, Descends c ds → (c :: ds).length ≤ 321) ∧
    ∀ ts s, State.start.run ts = .ok s → s.depth ≤ 64 := by
  refine ⟨fun text c h => ?_, fun ts s h => State.depth_le_of_run h (by decide)⟩
  obtain ⟨hoperators, hnesting⟩ := within_limits_of_read h
  have hoperators : c.operators ≤ 256 := hoperators
  have hnegations : c.negations ≤ 64 := Nat.le_trans c.negations_le_displayNesting hnesting
  -- the flag at the end of a way is one node more
  have hheight : c.height ≤ 321 := by
    have hle := c.height_le
    omega
  refine ⟨hoperators, hnegations, hheight, fun ds hds => ?_⟩
  have hlt := hds.length_lt_height
  rw [List.length_cons]
  omega

/-- Of the five nodes on the longest way, two are signs `!`; the reader has two signs open behind
the parenthesis. -/
theorem height_le_of_read_nested :
    ∃ c s, read "!(modalOpen || !pickerOpen) && drawerOpen" = .ok c ∧ c.height = 5 ∧
      c.height ≤ 321 ∧ State.start.run [⟨.not, 0⟩, ⟨.opening, 1⟩] = .ok s ∧ s.depth = 2 ∧
      s.depth ≤ 64 := by
  have hread : read "!(modalOpen || !pickerOpen) && drawerOpen" =
      .ok (and (not (or (flag .modalOpen) (not (flag .pickerOpen)))) (flag .drawerOpen)) :=
    Except.toOption_eq_some_iff.1 (by decide +kernel)
  have hrun : State.start.run [⟨.not, 0⟩, ⟨.opening, 1⟩] =
      .ok ⟨[⟨1, none, none, 1⟩], .start, none, 0⟩ := rfl
  exact ⟨_, _, hread, rfl, (height_le_of_read.1 _ _ hread).2.2.1, hrun, rfl,
    height_le_of_read.2 _ _ hrun⟩

end Keybinding.Condition
