import Keybinding.Flag

/-!
# Sets of flags

A set of context flags is a word of eighteen bits, one for each flag at the flag's place in the
order. Membership is a bit test, and two sets are equal when they hold the same flags (`ext`).
-/

namespace Keybinding

/-- The context flags that are on. -/
structure FlagSet where
  /-- Bit `f.index` is set when the flag `f` is on. -/
  bits : BitVec 18
  deriving DecidableEq, Repr

namespace FlagSet

/-! ## §1 Operations -/

def empty : FlagSet := ⟨0⟩

def contains (s : FlagSet) (f : Flag) : Bool :=
  s.bits.getLsbD f.index

instance : Membership Flag FlagSet := ⟨fun s f => s.contains f = true⟩

instance (f : Flag) (s : FlagSet) : Decidable (f ∈ s) :=
  inferInstanceAs (Decidable (s.contains f = true))

/-- The set with one more flag on. -/
def insert (s : FlagSet) (f : Flag) : FlagSet :=
  ⟨s.bits ||| BitVec.twoPow 18 f.index⟩

/-- The set with one flag turned off. -/
def erase (s : FlagSet) (f : Flag) : FlagSet :=
  ⟨s.bits &&& ~~~BitVec.twoPow 18 f.index⟩

/-- The set with a flag turned on or off. -/
def assign (s : FlagSet) (f : Flag) (on : Bool) : FlagSet :=
  if on then s.insert f else s.erase f

/-- The set of the flags that are on in one of two sets. -/
def union (s t : FlagSet) : FlagSet :=
  ⟨s.bits ||| t.bits⟩

/-- The set of the flags of a list. -/
def ofList (fs : List Flag) : FlagSet :=
  fs.foldl insert empty

/-- The set of the flags with the given names, or the first name of no flag. -/
def ofNames (names : List String) : Except String FlagSet :=
  (names.mapM flag).map ofList
where
  flag (name : String) : Except String Flag :=
    match Flag.ofName? name with
    | some f => .ok f
    | none => .error name

/-- The flags that are on, in order. -/
def toList (s : FlagSet) : List Flag :=
  Flag.all.filter s.contains

/-- The number of flags that are on: the set bits of the word. -/
def size (s : FlagSet) : Nat :=
  (List.range 18).countP s.bits.getLsbD

/-- No flag is on. -/
def isEmpty (s : FlagSet) : Bool :=
  s.bits == 0

/-- The names of the flags that are on, in order, between braces. -/
def display (s : FlagSet) : String :=
  "\x7b" ++ String.intercalate ", " (s.toList.map Flag.name) ++ "\x7d"

instance : ToString FlagSet := ⟨display⟩

/-! ## §2 Membership after each operation -/

theorem mem_def {s : FlagSet} {f : Flag} : f ∈ s ↔ s.contains f = true := Iff.rfl

@[simp] theorem not_mem_empty (f : Flag) : f ∉ empty := by
  simp [mem_def, contains, empty]

theorem contains_insert (s : FlagSet) (f g : Flag) :
    (s.insert f).contains g = (s.contains g || decide (f = g)) := by
  have hf : f.index.val < 18 := f.index.isLt
  simp only [contains, insert, BitVec.getLsbD_or, BitVec.getLsbD_twoPow, hf, decide_true,
    Bool.true_and]
  by_cases h : f = g
  · simp [h]
  · have : f.index.val ≠ g.index.val := fun e => h (Flag.index_injective (Fin.ext e))
    simp [h, this]

theorem contains_erase (s : FlagSet) (f g : Flag) :
    (s.erase f).contains g = (s.contains g && !decide (f = g)) := by
  have hf : f.index.val < 18 := f.index.isLt
  have hg : g.index.val < 18 := g.index.isLt
  simp only [contains, erase, BitVec.getLsbD_and, BitVec.getLsbD_not, BitVec.getLsbD_twoPow, hf, hg,
    decide_true, Bool.true_and]
  by_cases h : f = g
  · simp [h]
  · have : f.index.val ≠ g.index.val := fun e => h (Flag.index_injective (Fin.ext e))
    simp [h, this]

@[simp] theorem mem_insert {s : FlagSet} {f g : Flag} : g ∈ s.insert f ↔ g ∈ s ∨ g = f := by
  rw [mem_def, mem_def, contains_insert, Bool.or_eq_true, decide_eq_true_eq, eq_comm (a := f)]

@[simp] theorem mem_erase {s : FlagSet} {f g : Flag} : g ∈ s.erase f ↔ g ∈ s ∧ g ≠ f := by
  rw [mem_def, mem_def, contains_erase]
  simp [eq_comm (a := f)]

@[simp] theorem mem_union {s t : FlagSet} {f : Flag} : f ∈ s.union t ↔ f ∈ s ∨ f ∈ t := by
  simp [mem_def, contains, union]

@[simp] theorem mem_toList {s : FlagSet} {f : Flag} : f ∈ s.toList ↔ f ∈ s := by
  simp [toList, List.mem_filter, Flag.mem_all, mem_def]

theorem mem_assign {s : FlagSet} {f g : Flag} {on : Bool} :
    g ∈ s.assign f on ↔ if g = f then on = true else g ∈ s := by
  cases on <;> by_cases h : g = f <;> simp [assign, h]

/-- Two sets with the same flags are the same word: each bit is the bit of a flag. -/
theorem ext {s t : FlagSet} (h : ∀ f, f ∈ s ↔ f ∈ t) : s = t := by
  obtain ⟨a⟩ := s
  obtain ⟨b⟩ := t
  congr
  apply BitVec.eq_of_getLsbD_eq
  intro i hi
  have hplace : ⟨i, hi⟩ ∈ Flag.all.map Flag.index := by
    rw [Flag.map_index_all]
    exact List.mem_finRange _
  obtain ⟨f, -, hf⟩ := List.mem_map.1 hplace
  have hbit := Bool.eq_iff_iff.2 (h f)
  simpa [contains, hf] using hbit

/-! ## §3 Membership after a list of operations -/

theorem mem_foldl_insert {fs : List Flag} {s : FlagSet} {f : Flag} :
    f ∈ fs.foldl insert s ↔ f ∈ s ∨ f ∈ fs := by
  induction fs generalizing s with
  | nil => simp
  | cons g fs ih => rw [List.foldl_cons, ih, mem_insert, List.mem_cons, or_assoc]

@[simp] theorem mem_ofList {fs : List Flag} {f : Flag} : f ∈ ofList fs ↔ f ∈ fs := by
  simp [ofList, mem_foldl_insert]

/-- A flag to which nothing is assigned stays as it is. -/
theorem mem_foldl_assign_of_not_mem {ps : List (Flag × Bool)} {s : FlagSet} {f : Flag}
    (h : f ∉ ps.map Prod.fst) : f ∈ ps.foldl (fun s p => s.assign p.1 p.2) s ↔ f ∈ s := by
  induction ps generalizing s with
  | nil => rfl
  | cons p ps ih =>
    obtain ⟨hne, hrest⟩ := not_or.1 (mt List.mem_cons.2 h)
    rw [List.foldl_cons, ih hrest, mem_assign, if_neg hne]

/-- A flag that is assigned once is what is assigned to it. -/
theorem mem_foldl_assign_of_mem {ps : List (Flag × Bool)} (hps : (ps.map Prod.fst).Nodup)
    {s : FlagSet} {f : Flag} {on : Bool} (h : (f, on) ∈ ps) :
    f ∈ ps.foldl (fun s p => s.assign p.1 p.2) s ↔ on = true := by
  induction ps generalizing s with
  | nil => contradiction
  | cons p ps ih =>
    obtain ⟨hlast, hrest⟩ := List.nodup_cons.1 hps
    rw [List.foldl_cons]
    -- behind its own place in the list, nothing is assigned to the flag any more
    rcases List.mem_cons.1 h with rfl | h
    · rw [mem_foldl_assign_of_not_mem hlast, mem_assign, if_pos rfl]
    · exact ih hrest h

end FlagSet

end Keybinding
