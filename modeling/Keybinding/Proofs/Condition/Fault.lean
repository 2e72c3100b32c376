import Keybinding.Proofs.Condition.Run
import Keybinding.Proofs.Steps

/-!
# Names of no flag

A text fails for the name of a flag that does not exist when this name stands where an operand is
due, behind symbols that the reader goes over. The reader names it then, with its place
(`read_eq_unknownFlag_iff`), and no other failure looks like this one.
-/

namespace Keybinding.Condition

/-- In a text that consists of symbols, a name stands where an operand is due, and it is the name of
no flag. -/
structure IsUnknownName (text name : String) (position : Nat) : Prop where
  due : ∃ before later s, tokenize text = .ok (before ++ ⟨.name name, position⟩ :: later) ∧
    State.start.run before = .ok s ∧ s.operand = none
  unknown : Flag.ofName? name = none

/-! ## §1 Failures of other kinds -/

theorem not_isUnknownFlag_symbolAt {position : Nat} {c : Char} {rest : List Char} {e : Error}
    (h : symbolAt position c rest = .error e) : e.isUnknownFlag = false := by
  unfold symbolAt at h
  split at h
  · cases h
  · split at h <;> cases h
    rfl
  · split at h <;> cases h
    rfl

/-- A text that does not consist of symbols fails for a character. -/
theorem not_isUnknownFlag_tokenize {text : String} {e : Error} (h : tokenize text = .error e) :
    e.isUnknownFlag = false := by
  have hfrom : ∀ position cs, tokensFrom position cs = .error e → e.isUnknownFlag = false := by
    intro position cs h
    fun_induction tokensFrom position cs with
    | case1 => cases h
    | case2 _ _ _ _ ih => exact ih h
    | case3 position c rest _ e' he =>
      cases h
      exact not_isUnknownFlag_symbolAt he
    | case4 position c rest _ s rest' hs _ ih =>
      -- the failure is that of the rest
      cases hrest : tokensFrom (position + s.spelling.utf8ByteSize) rest' with
      | ok ts =>
        rw [hrest] at h
        cases h
      | error e' =>
        rw [hrest] at h
        cases h
        exact ih hrest
  exact hfrom 0 text.toList h

namespace State

variable {s : State}

theorem not_isUnknownFlag_finish {length : Nat} {e : Error} (h : s.finish length = .error e) :
    e.isUnknownFlag = false := by
  unfold finish at h
  split at h <;> cases h <;> rfl

theorem not_isUnknownFlag_operatorStep {c : Condition} {t : Token} {e : Error}
    (h : s.operatorStep c t = .error e) : e.isUnknownFlag = false := by
  unfold operatorStep operate at h
  split at h
  · split at h <;> cases h
    rfl
  · split at h <;> cases h
    rfl
  · cases h
    rfl
  · cases h
  · cases h
    rfl
  · cases h
    rfl

/-! ## §2 The step that fails -/

/-- Of all steps, only one over a name where an operand is due fails like this. -/
theorem step_eq_unknownFlag_iff {t : Token} {name : String} {position : Nat} :
    s.step t = .error (.unknownFlag name position) ↔
      t = ⟨.name name, position⟩ ∧ s.operand = none ∧ Flag.ofName? name = none := by
  constructor
  · intro h
    unfold step at h
    split at h
    · next hdue =>
      obtain ⟨symbol, p⟩ := t
      unfold operandStep descend at h
      split at h
      · next n hsymbol =>
        split at h <;> cases h
        cases hsymbol
        exact ⟨rfl, hdue, ‹_›⟩
      · split at h <;> cases h
      · split at h <;> cases h
      · cases h
    · exact absurd (not_isUnknownFlag_operatorStep h) (by simp [Error.isUnknownFlag])
  · rintro ⟨rfl, hdue, hunknown⟩
    simp [step, operandStep, hdue, hunknown]

end State

/-- **A text fails for an unknown flag exactly when it has one where a flag is due.** -/
theorem read_eq_unknownFlag_iff {text name : String} {position : Nat} :
    read text = .error (.unknownFlag name position) ↔ IsUnknownName text name position := by
  rw [read, Except.bind_eq_error_iff]
  constructor
  · rintro (h | ⟨ts, hts, h⟩)
    · exact absurd (not_isUnknownFlag_tokenize h) (by simp [Error.isUnknownFlag])
    · unfold ofTokens at h
      split at h
      · cases h
      · rw [Except.bind_eq_error_iff] at h
        rcases h with h | ⟨s, _, h⟩
        · obtain ⟨before, t, later, s, rfl, hrun, hstep⟩ := foldlM_eq_error_iff.1 h
          obtain ⟨rfl, hdue, hunknown⟩ := State.step_eq_unknownFlag_iff.1 hstep
          exact ⟨⟨before, later, s, hts, hrun, hdue⟩, hunknown⟩
        · exact absurd (State.not_isUnknownFlag_finish h) (by simp [Error.isUnknownFlag])
  · rintro ⟨⟨before, later, s, hts, hrun, hdue⟩, hunknown⟩
    right
    refine ⟨_, hts, ?_⟩
    have hfail : State.start.run (before ++ ⟨.name name, position⟩ :: later) =
        .error (.unknownFlag name position) :=
      foldlM_eq_error_iff.2
        ⟨before, _, later, s, rfl, hrun, State.step_eq_unknownFlag_iff.2 ⟨rfl, hdue, hunknown⟩⟩
    unfold ofTokens
    split
    · next hnil => simp at hnil
    · rw [hfail]
      rfl

end Keybinding.Condition
