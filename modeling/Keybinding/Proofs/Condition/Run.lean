import Keybinding.Proofs.Condition.Grammar

/-!
# Runs of the condition reader

`Step s t s'` says that the reader goes from the state `s` over the token `t` to the state `s'`. It
has one constructor for each way in which a token can be taken, with all that the token asks of the
state; `step_eq_ok_iff` says that the reader does exactly these steps. A run counts its operators
(`operators_of_run`), and never has too many signs open (`depth_le_of_run`).
-/

namespace Keybinding.Condition.State

/-! ## §1 Steps -/

/-- The reader goes over a token. -/
inductive Step : State → Token → State → Prop
  /-- The name of a flag is an operand. -/
  | flag {s : State} {p : Nat} (f : Flag) (hs : s.operand = none) :
      Step s ⟨.name f.name, p⟩ (s.complete (.flag f))
  /-- A `!` opens one level. -/
  | not {s : State} {p : Nat} (hs : s.operand = none) (hd : s.depth < maxDepth) :
      Step s ⟨.not, p⟩ { s with level := { s.level with negations := s.level.negations + 1 } }
  /-- A `(` opens one level. -/
  | opening {s : State} {p : Nat} (hs : s.operand = none) (hd : s.depth < maxDepth) :
      Step s ⟨.opening, p⟩ { s with parens := ⟨p, s.level⟩ :: s.parens, level := .start }
  /-- A `&&` takes what stands before it since the last `||`. -/
  | and {s : State} {p : Nat} {c : Condition} (hs : s.operand = some c)
      (hn : s.operators < maxOperators) :
      Step s ⟨.and, p⟩
        { s with
          level := { s.level with conjunction := some (s.level.product c) }
          operand := none
          operators := s.operators + 1 }
  /-- A `||` takes all that stands before it. -/
  | or {s : State} {p : Nat} {c : Condition} (hs : s.operand = some c)
      (hn : s.operators < maxOperators) :
      Step s ⟨.or, p⟩
        { s with
          level := ⟨some (s.level.value c), none, 0⟩
          operand := none
          operators := s.operators + 1 }
  /-- A `)` makes an operand of what stands behind the innermost `(`. -/
  | closing {s : State} {p : Nat} {c : Condition} {q : Paren} {outer : List Paren}
      (hs : s.operand = some c) (hq : s.parens = q :: outer) :
      Step s ⟨.closing, p⟩
        (complete { s with parens := outer, level := q.before } (s.level.value c))

theorem Step.step_eq {s s' : State} {t : Token} (h : Step s t s') : s.step t = .ok s' := by
  cases h with
  | flag f hs => simp [step, operandStep, hs, Flag.ofName?_name]
  | not hs hd => simp [step, operandStep, descend, hs, hd]
  | opening hs hd => simp [step, operandStep, descend, hs, hd]
  | and hs hn => simp [step, operatorStep, operate, hs, hn]
  | or hs hn => simp [step, operatorStep, operate, hs, hn]
  | closing hs hq => simp [step, operatorStep, hs, hq]

theorem Step.of_operandStep {s s' : State} {t : Token} (hs : s.operand = none)
    (h : s.operandStep t = .ok s') : Step s t s' := by
  obtain ⟨symbol, p⟩ := t
  unfold operandStep descend at h
  -- a name, a `!`, a `(`, and the symbols that are no start of an operand
  split at h
  · next n hsym =>
    cases hsym
    split at h
    · next f hf =>
      cases h
      rw [← Flag.name_of_ofName? hf]
      exact .flag f hs
    · cases h
  · next hsym =>
    cases hsym
    split at h <;> cases h
    exact .not hs ‹_›
  · next hsym =>
    cases hsym
    split at h <;> cases h
    exact .opening hs ‹_›
  · cases h

theorem Step.of_operatorStep {s s' : State} {c : Condition} {t : Token}
    (hs : s.operand = some c) (h : s.operatorStep c t = .ok s') : Step s t s' := by
  obtain ⟨symbol, p⟩ := t
  unfold operatorStep operate at h
  -- an operator has to be within the limit, and a `)` has to have its `(`
  split at h
  · next hsym =>
    cases hsym
    split at h <;> cases h
    exact .and hs ‹_›
  · next hsym =>
    cases hsym
    split at h <;> cases h
    exact .or hs ‹_›
  · cases h
  · next q outer hsym hq =>
    cases hsym
    cases h
    exact .closing hs hq
  · cases h
  · cases h

/-- **The reader does exactly the steps of `Step`.** -/
theorem step_eq_ok_iff {s s' : State} {t : Token} : s.step t = .ok s' ↔ Step s t s' := by
  refine ⟨fun h => ?_, Step.step_eq⟩
  unfold step at h
  split at h
  · next hs => exact .of_operandStep hs h
  · next c hs => exact .of_operatorStep hs h

/-! ## §2 Runs -/

@[simp] theorem run_nil (s : State) : s.run [] = .ok s := rfl

theorem run_cons_of_step {s s' : State} {t : Token} (h : Step s t s') (ts : List Token) :
    s.run (t :: ts) = s'.run ts := by
  simp only [run, List.foldlM_cons, h.step_eq]
  rfl

theorem run_append_of_run {s s' : State} {ts : List Token} (h : s.run ts = .ok s')
    (us : List Token) : s.run (ts ++ us) = s'.run us := by
  simp only [run, List.foldlM_append] at h ⊢
  rw [h]
  rfl

/-- A run over a token and more starts with a step. -/
theorem exists_step_of_run_cons {s s' : State} {t : Token} {ts : List Token}
    (h : s.run (t :: ts) = .ok s') : ∃ s₁, Step s t s₁ ∧ s₁.run ts = .ok s' := by
  simp only [run, List.foldlM_cons] at h
  cases hs : s.step t with
  | error e => rw [hs] at h; cases h
  | ok s₁ => exact ⟨s₁, step_eq_ok_iff.1 hs, by rw [hs] at h; exact h⟩

theorem Step.operators_eq {s s' : State} {t : Token} (h : Step s t s') :
    s'.operators = s.operators + if t.symbol.isOperator then 1 else 0 := by
  cases h <;> rfl

theorem Step.operators_le {s s' : State} {t : Token} (h : Step s t s')
    (hs : s.operators ≤ maxOperators) : s'.operators ≤ maxOperators := by
  cases h with
  | and _ hn | or _ hn => exact hn
  | flag | not | opening | closing => exact hs

/-- A run counts the operators and never has too many. -/
theorem operators_of_run {s s' : State} {ts : List Token} (h : s.run ts = .ok s')
    (hs : s.operators ≤ maxOperators) :
    s'.operators = s.operators + operatorCount (ts.map (·.symbol)) ∧
      s'.operators ≤ maxOperators := by
  -- a step checks the limit only at an operator, so the bound is carried along
  induction ts generalizing s with
  | nil =>
    cases h
    exact ⟨rfl, hs⟩
  | cons t ts ih =>
    obtain ⟨s₁, hstep, hrun⟩ := exists_step_of_run_cons h
    obtain ⟨heq, hle⟩ := ih hrun (hstep.operators_le hs)
    refine ⟨?_, hle⟩
    rw [heq, hstep.operators_eq, List.map_cons, operatorCount_cons]
    omega

/-! ## §3 Depth -/

/-- The number of signs `!` and `(` up to the innermost open parenthesis. -/
def parensDepth (ps : List Paren) : Nat :=
  ps.foldr (fun p n => p.before.negations + 1 + n) 0

@[simp] theorem parensDepth_cons (p : Paren) (ps : List Paren) :
    parensDepth (p :: ps) = p.before.negations + 1 + parensDepth ps := rfl

theorem depth_eq (s : State) : s.depth = parensDepth s.parens + s.level.negations := by
  unfold depth parensDepth
  induction s.parens with
  | nil => simp
  | cons p ps ih =>
    rw [List.foldr_cons, List.foldr_cons, ih]
    omega

theorem Step.depth_le {s s' : State} {t : Token} (h : Step s t s') (hs : s.depth ≤ maxDepth) :
    s'.depth ≤ maxDepth := by
  rw [depth_eq] at hs ⊢
  cases h with
  -- the signs before an operand are open until it is complete
  | flag => simp only [complete]; omega
  | not _ hd => rw [depth_eq] at hd; simp only; omega
  | opening _ hd => rw [depth_eq] at hd; simp only [parensDepth_cons, Level.start]; omega
  | and => exact hs
  | or => simp only; omega
  | closing _ hq => rw [hq, parensDepth_cons] at hs; simp only [complete]; omega

/-- A run never has too many signs open. -/
theorem depth_le_of_run {s s' : State} {ts : List Token} (h : s.run ts = .ok s')
    (hs : s.depth ≤ maxDepth) : s'.depth ≤ maxDepth := by
  induction ts generalizing s with
  | nil =>
    cases h
    exact hs
  | cons t ts ih =>
    obtain ⟨s₁, hstep, hrun⟩ := exists_step_of_run_cons h
    exact ih hrun (hstep.depth_le hs)

end Keybinding.Condition.State
