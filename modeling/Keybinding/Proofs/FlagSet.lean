import Keybinding.FlagSet
import Mathlib.Combinatorics.Colex

/-!
# Runs on a set of flags

The word of a set of flags stands for a finite set, and so it does after any run of operations: each
operation does to the word what it does to the finite set (`stands_next`), and what is asked about
the word has the answer that the finite set gives (`Stands.represents`).

The flags take up the first eighteen bits of a word. In a word of thirty-two bits, where a flag is
turned off by the complement of its bit, a run leaves the bits behind them at zero
(`onWord_setWidth`).
-/

namespace Keybinding.FlagSet

/-! ## §1 Operations on words and on finite sets -/

/-- An operation on a set of flags. -/
inductive Step where
  /-- A flag is turned on, in the set itself or in a copy that takes its place. -/
  | insert (f : Flag)
  | erase (f : Flag)
  | assign (f : Flag) (on : Bool)
  /-- The set of a list takes its place. -/
  | ofList (fs : List Flag)
  deriving DecidableEq, Repr

/-- The set after an operation. -/
def next (s : FlagSet) : Step → FlagSet
  | .insert f => s.insert f
  | .erase f => s.erase f
  | .assign f on => s.assign f on
  | .ofList fs => ofList fs

/-- The set after operations that are carried out one after the other. -/
def after (s : FlagSet) (steps : List Step) : FlagSet :=
  steps.foldl next s

namespace Step

/-- The operation on a finite set. -/
def onFlags (S : Finset Flag) : Step → Finset Flag
  | insert f => Insert.insert f S
  | erase f => S.erase f
  | assign f on => if on then Insert.insert f S else S.erase f
  | ofList fs => fs.toFinset

/-- The word of thirty-two bits with the bit of one flag set. -/
def wordInsert (w : BitVec 32) (f : Flag) : BitVec 32 :=
  w ||| 1#32 <<< f.index.val

/-- The word of thirty-two bits with the bit of one flag cleared. -/
def wordErase (w : BitVec 32) (f : Flag) : BitVec 32 :=
  w &&& ~~~(1#32 <<< f.index.val)

/-- The operation on a word of thirty-two bits. -/
def onWord (w : BitVec 32) : Step → BitVec 32
  | insert f => wordInsert w f
  | erase f => wordErase w f
  | assign f on => if on then wordInsert w f else wordErase w f
  | ofList fs => fs.foldl wordInsert 0

end Step

/-- The flags that a run from the empty set leaves on. -/
def flagsAfter (steps : List Step) : Finset Flag :=
  steps.foldl Step.onFlags ∅

/-- The word of thirty-two bits that a run from zero leaves. -/
def wordAfter (steps : List Step) : BitVec 32 :=
  steps.foldl Step.onWord 0

/-! ## §2 Which set a word stands for -/

/-- A word and a finite set have the same flags. -/
def Stands (s : FlagSet) (S : Finset Flag) : Prop :=
  ∀ f, f ∈ s ↔ f ∈ S

variable {s : FlagSet} {S : Finset Flag}

/-- An operation does to the word what it does to the finite set. -/
theorem stands_next (h : Stands s S) (a : Step) : Stands (s.next a) (a.onFlags S) := by
  intro f
  cases a with
  | insert g => rw [next, mem_insert, Step.onFlags, Finset.mem_insert, h, or_comm]
  | erase g => rw [next, mem_erase, Step.onFlags, Finset.mem_erase, h, and_comm]
  | assign g on =>
    rw [next, mem_assign, Step.onFlags, h]
    cases on <;> by_cases hf : f = g <;> simp [hf]
  | ofList fs => rw [next, mem_ofList, Step.onFlags, List.mem_toFinset]

/-- **After a run the word stands for the set that the run makes.** -/
theorem stands_after (steps : List Step) : Stands (empty.after steps) (flagsAfter steps) := by
  have hrun : ∀ s S, Stands s S → Stands (s.after steps) (steps.foldl Step.onFlags S) := by
    induction steps with
    | nil => exact fun s S h => h
    | cons a steps ih => exact fun s S h => ih _ _ (stands_next h a)
  apply hrun
  intro f
  simp

/-- The places of the flags of a set are the places of the bits that are set. -/
theorem map_index_eq (h : Stands s S) :
    S.map ⟨fun f => f.index.val, fun _ _ e => Flag.index_injective (Fin.ext e)⟩ =
      s.bits.toNat.bitIndices.toFinset := by
  ext i
  simp only [Finset.mem_map, List.mem_toFinset, Nat.mem_bitIndices]
  constructor
  · rintro ⟨f, hf, rfl⟩
    exact (h f).2 hf
  · intro hi
    -- a bit that is set lies within the word, and each place in the word is that of a flag
    have hlt : i < 18 := BitVec.lt_of_getLsbD hi
    have hplace : ⟨i, hlt⟩ ∈ Flag.all.map Flag.index := by
      rw [Flag.map_index_all]
      exact List.mem_finRange _
    obtain ⟨f, -, hf⟩ := List.mem_map.1 hplace
    have hval : f.index.val = i := by rw [hf]
    refine ⟨f, (h f).1 ?_, hval⟩
    show s.bits.getLsbD f.index.val = true
    rw [hval]
    exact hi

theorem toNat_bits_eq_sum (h : Stands s S) : s.bits.toNat = ∑ f ∈ S, 2 ^ f.index.val := by
  calc s.bits.toNat
    _ = ∑ i ∈ s.bits.toNat.bitIndices.toFinset, 2 ^ i :=
      (Finset.sum_toFinset_bitIndices_two_pow _).symm
    _ = ∑ f ∈ S, 2 ^ f.index.val := by rw [← map_index_eq h, Finset.sum_map]; rfl

theorem size_eq_card (h : Stands s S) : s.size = S.card := by
  have hbits : s.bits.toNat.bitIndices.toFinset =
      ((List.range 18).filter s.bits.getLsbD).toFinset := by
    ext i
    simp only [List.mem_toFinset, Nat.mem_bitIndices, List.mem_filter, List.mem_range]
    exact (and_iff_right_of_imp BitVec.lt_of_getLsbD).symm
  have hnodup : ((List.range 18).filter s.bits.getLsbD).Nodup := List.nodup_range.filter _
  calc s.size
    _ = ((List.range 18).filter s.bits.getLsbD).length := List.countP_eq_length_filter
    _ = s.bits.toNat.bitIndices.toFinset.card := by rw [hbits, List.toFinset_card_of_nodup hnodup]
    _ = S.card := by rw [← map_index_eq h, Finset.card_map]

theorem isEmpty_iff (h : Stands s S) : s.isEmpty = true ↔ S = ∅ := by
  rw [isEmpty, beq_iff_eq, ← BitVec.toNat_inj, toNat_bits_eq_sum h]
  simp [Finset.sum_eq_zero_iff, Finset.eq_empty_iff_forall_notMem]

/-- The names that are shown are those of the flags that are on, in order. -/
theorem exists_display_eq (h : Stands s S) :
    ∃ fs : List Flag, fs.Pairwise (fun f g => f.index < g.index) ∧ (∀ f, f ∈ fs ↔ f ∈ S) ∧
      s.display = "\x7b" ++ String.intercalate ", " (fs.map Flag.name) ++ "\x7d" := by
  refine ⟨s.toList, ?_, fun f => mem_toList.trans (h f), rfl⟩
  have hall : Flag.all.Pairwise fun f g => f.index < g.index := by decide
  exact hall.filter _

/-! ## §3 What is asked about a word -/

/-- A word answers as a finite set does: flags are held, the bits are the powers of two of their
places, and their names are shown in order. -/
structure Represents (s : FlagSet) (S : Finset Flag) : Prop where
  contains : ∀ f, s.contains f = true ↔ f ∈ S
  bits : s.bits.toNat = ∑ f ∈ S, 2 ^ f.index.val
  size : s.size = S.card
  isEmpty : s.isEmpty = true ↔ S = ∅
  display : ∃ fs : List Flag, fs.Pairwise (fun f g => f.index < g.index) ∧ (∀ f, f ∈ fs ↔ f ∈ S) ∧
    s.display = "\x7b" ++ String.intercalate ", " (fs.map Flag.name) ++ "\x7d"

theorem Stands.represents (h : Stands s S) : Represents s S :=
  ⟨h, toNat_bits_eq_sum h, size_eq_card h, isEmpty_iff h, exists_display_eq h⟩

/-! ## §4 Words of thirty-two bits -/

/-- The bit of a flag is the same in both words. -/
theorem shiftLeft_index (f : Flag) :
    1#32 <<< f.index.val = (BitVec.twoPow 18 f.index).setWidth 32 := by
  have hf : f.index.val < 18 := f.index.isLt
  apply BitVec.eq_of_getLsbD_eq
  intro i hi
  show (BitVec.twoPow 32 f.index.val).getLsbD i = _
  rw [BitVec.getLsbD_setWidth, BitVec.getLsbD_twoPow, BitVec.getLsbD_twoPow]
  simp [hi, hf]
  omega

theorem wordInsert_setWidth (s : FlagSet) (f : Flag) :
    Step.wordInsert (s.bits.setWidth 32) f = (s.insert f).bits.setWidth 32 := by
  rw [Step.wordInsert, shiftLeft_index, ← BitVec.setWidth_or, insert]

/-- Behind the flags, the complement of a bit is one where the word is zero. -/
theorem wordErase_setWidth (s : FlagSet) (f : Flag) :
    Step.wordErase (s.bits.setWidth 32) f = (s.erase f).bits.setWidth 32 := by
  rw [Step.wordErase, shiftLeft_index, erase]
  apply BitVec.eq_of_getLsbD_eq
  intro i hi
  simp only [BitVec.getLsbD_and, BitVec.getLsbD_not, BitVec.getLsbD_setWidth, hi, decide_true,
    Bool.true_and]
  by_cases hlt : i < 18
  · simp [hlt]
  · have hzero : s.bits.getLsbD i = false := BitVec.getLsbD_of_ge _ _ (by omega)
    rw [hzero, Bool.false_and, Bool.false_and]

theorem foldl_wordInsert_setWidth (s : FlagSet) (fs : List Flag) :
    fs.foldl Step.wordInsert (s.bits.setWidth 32) = (fs.foldl insert s).bits.setWidth 32 := by
  induction fs generalizing s with
  | nil => rfl
  | cons f fs ih => rw [List.foldl_cons, List.foldl_cons, wordInsert_setWidth, ih]

/-- An operation does the same to both words. -/
theorem onWord_setWidth (s : FlagSet) (a : Step) :
    a.onWord (s.bits.setWidth 32) = (s.next a).bits.setWidth 32 := by
  cases a with
  | insert f => exact wordInsert_setWidth s f
  | erase f => exact wordErase_setWidth s f
  | assign f on =>
    cases on
    · exact wordErase_setWidth s f
    · exact wordInsert_setWidth s f
  | ofList fs => exact foldl_wordInsert_setWidth empty fs

theorem wordAfter_eq (steps : List Step) :
    wordAfter steps = (empty.after steps).bits.setWidth 32 := by
  have hrun : ∀ s : FlagSet,
      steps.foldl Step.onWord (s.bits.setWidth 32) = (s.after steps).bits.setWidth 32 := by
    induction steps with
    | nil => exact fun s => rfl
    | cons a steps ih =>
      intro s
      rw [List.foldl_cons, onWord_setWidth, ih]
      rfl
  exact hrun empty

/-! ## §5 Runs -/

/-- **A set of flags is the finite set that its run makes.** After any run from the empty set, the
word answers as the finite set does that the same operations make. The word of thirty-two bits is
the same number, which lies below `2 ^ 18`. Two runs lead to equal words exactly when the words hold
the same flags, and exactly when the runs make the same finite set. -/
theorem represents_after :
    (∀ steps, Represents (empty.after steps) (flagsAfter steps) ∧
      (wordAfter steps).toNat = (empty.after steps).bits.toNat ∧
      (wordAfter steps).toNat < 2 ^ 18) ∧
    ∀ steps steps',
      (empty.after steps = empty.after steps' ↔
        ∀ f, f ∈ empty.after steps ↔ f ∈ empty.after steps') ∧
      (empty.after steps = empty.after steps' ↔ flagsAfter steps = flagsAfter steps') := by
  refine ⟨?_, ?_⟩
  · intro steps
    have hword : (wordAfter steps).toNat = (empty.after steps).bits.toNat := by
      rw [wordAfter_eq, BitVec.toNat_setWidth_of_le (by decide)]
    refine ⟨(stands_after steps).represents, hword, ?_⟩
    rw [hword]
    exact (empty.after steps).bits.isLt
  · intro steps steps'
    have hflags : empty.after steps = empty.after steps' ↔
        ∀ f, f ∈ empty.after steps ↔ f ∈ empty.after steps' :=
      ⟨fun h f => by rw [h], ext⟩
    refine ⟨hflags, ?_⟩
    rw [hflags, Finset.ext_iff]
    exact forall_congr' fun f => iff_congr (stands_after steps f) (stands_after steps' f)

end Keybinding.FlagSet
