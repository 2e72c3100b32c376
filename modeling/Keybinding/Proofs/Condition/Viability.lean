import Keybinding.Proofs.Condition.Acceptance
import Keybinding.Proofs.Condition.Lexing

/-!
# The first wrong token

The reader goes on as long as a condition can still come about. Tokens are `Viable` when some tokens
behind them make up a condition, limits included, and these are the tokens over which the reader
goes (`viable_iff_exists_run`): every state that it reaches has a completion. So it stops at the
first token that is wrong, and the place that it blames can be told from the tokens up to there.

- `read_blames_first`: where a text that is no condition went wrong.
-/

namespace Keybinding.Condition

/-! ## §1 Tokens that a condition can start with -/

/-- Some tokens behind these make up a condition. -/
def Viable (ts : List Token) : Prop :=
  ∃ later length c, ofTokens length (ts ++ later) = .ok c

/-- The token number `k` is the first one after which no condition can come about. -/
structure IsFirstWrong (ts : List Token) (k : Nat) : Prop where
  wrong : ¬ Viable (ts.take (k + 1))
  least : ∀ j < k, Viable (ts.take (j + 1))

namespace State

variable {s s' : State} {ts us : List Token}

/-- Tokens that make up a condition behind those that led to the state: an operand, if one is due,
and a `)` for each open parenthesis. -/
def completion (s : State) : List Token :=
  (if s.operand.isNone then [⟨.name Flag.modalOpen.name, 0⟩] else []) ++
    List.replicate s.parens.length ⟨.closing, 0⟩

theorem run_append_eq_ok_iff :
    s.run (ts ++ us) = .ok s' ↔ ∃ s₁, s.run ts = .ok s₁ ∧ s₁.run us = .ok s' := by
  simp only [run, List.foldlM_append, Except.bind_eq_ok_iff]

/-- Behind an operand, all that is missing is a `)` for each open parenthesis. -/
theorem exists_run_closings {c : Condition} (hs : s.operand = some c) (length : Nat) :
    ∃ s' c', s.run (List.replicate s.parens.length ⟨.closing, 0⟩) = .ok s' ∧
      s'.finish length = .ok c' := by
  -- each `)` makes an operand complete for the parenthesis further out
  induction hps : s.parens generalizing s c with
  | nil => exact ⟨s, s.level.value c, rfl, by simp [finish, hs, hps]⟩
  | cons q outer ih =>
    obtain ⟨s', c', hrun, hfinish⟩ :=
      ih (s := complete { s with parens := outer, level := q.before } (s.level.value c)) rfl rfl
    refine ⟨s', c', ?_, hfinish⟩
    rw [List.length_cons, List.replicate_succ, run_cons_of_step (.closing hs hps)]
    exact hrun

/-- **Every state has a completion**, within all limits: it opens no sign and has no operator. -/
theorem exists_run_completion (s : State) (length : Nat) :
    ∃ s' c, s.run s.completion = .ok s' ∧ s'.finish length = .ok c := by
  cases hs : s.operand with
  | none =>
    obtain ⟨s', c, hrun, hfinish⟩ :=
      exists_run_closings (s := s.complete (.flag .modalOpen)) rfl length
    refine ⟨s', c, ?_, hfinish⟩
    rw [completion, hs, Option.isNone_none, if_pos rfl, List.singleton_append,
      run_cons_of_step (.flag .modalOpen hs)]
    exact hrun
  | some c =>
    obtain ⟨s', c', hrun, hfinish⟩ := exists_run_closings hs length
    refine ⟨s', c', ?_, hfinish⟩
    rw [completion, hs]
    exact hrun

end State

/-- **The reader goes over exactly the tokens that a condition can start with.** -/
theorem viable_iff_exists_run {ts : List Token} :
    Viable ts ↔ ∃ s, State.start.run ts = .ok s := by
  constructor
  · rintro ⟨later, length, c, h⟩
    obtain ⟨s', hrun, -⟩ := exists_run_of_ofTokens h
    obtain ⟨s, hs, -⟩ := State.run_append_eq_ok_iff.1 hrun
    exact ⟨s, hs⟩
  · rintro ⟨s, hs⟩
    obtain ⟨s', c, hrun, hfinish⟩ := s.exists_run_completion 0
    exact ⟨s.completion, 0, c,
      ofTokens_of_run (State.run_append_eq_ok_iff.2 ⟨s, hs, hrun⟩) hfinish⟩

theorem Viable.of_append {ts us : List Token} (h : Viable (ts ++ us)) : Viable ts := by
  obtain ⟨later, length, c, hc⟩ := h
  exact ⟨us ++ later, length, c, by rwa [← List.append_assoc]⟩

/-! ## §2 What tokens say about the state behind them -/

/-- An operand is complete behind the symbol. -/
def Symbol.endsOperand : Symbol → Bool
  | .name _ | .closing => true
  | _ => false

/-- An operand can start with the symbol. -/
def Symbol.startsOperand : Symbol → Bool
  | .name _ | .not | .opening => true
  | _ => false

/-- Behind the tokens an operand is due, since none has just become complete. -/
def operandDue (ts : List Token) : Bool :=
  !ts.getLast?.any (·.symbol.endsOperand)

/-- The places of the open parentheses behind a token, where `ps` are those before it. -/
def openAfter (ps : List Nat) (t : Token) : List Nat :=
  match t.symbol with
  | .opening => t.position :: ps
  | .closing => ps.tail
  | _ => ps

/-- The places of the parentheses that are open behind the tokens, the innermost first. -/
def openParens (ts : List Token) : List Nat :=
  ts.foldl openAfter []

namespace State

variable {s s' : State} {t : Token} {ts : List Token}

theorem Step.places_eq (h : Step s t s') :
    s'.parens.map (·.position) = openAfter (s.parens.map (·.position)) t := by
  cases h with
  | flag | not | opening | and | or => rfl
  | closing _ hq =>
    rw [hq]
    rfl

theorem Step.isSome_operand (h : Step s t s') : s'.operand.isSome = t.symbol.endsOperand := by
  cases h with
  | not hs | opening hs =>
    show s.operand.isSome = false
    rw [hs]
    rfl
  | flag | and | or | closing => rfl

theorem places_of_run (h : s.run ts = .ok s') :
    s'.parens.map (·.position) = ts.foldl openAfter (s.parens.map (·.position)) := by
  induction ts generalizing s with
  | nil =>
    cases h
    rfl
  | cons t ts ih =>
    obtain ⟨s₁, hstep, hrun⟩ := exists_step_of_run_cons h
    rw [List.foldl_cons, ← hstep.places_eq]
    exact ih hrun

/-- The open parentheses of the reader are those of the tokens. -/
theorem places_of_start (h : start.run ts = .ok s) : s.parens.map (·.position) = openParens ts :=
  places_of_run h

/-- An operand is due for the reader where it is due behind the tokens. -/
theorem isNone_of_start (h : start.run ts = .ok s) : s.operand.isNone = operandDue ts := by
  rcases List.eq_nil_or_concat ts with rfl | ⟨us, t, rfl⟩
  · cases h
    rfl
  · rw [List.concat_eq_append] at h ⊢
    obtain ⟨s₁, -, hlast⟩ := run_append_eq_ok_iff.1 h
    obtain ⟨s₂, hstep, hnil⟩ := exists_step_of_run_cons hlast
    cases hnil
    rw [operandDue, List.getLast?_concat, Option.any_some, ← hstep.isSome_operand,
      Option.not_isSome]

/-! ## §3 The place that is blamed -/

theorem position_of_operandStep {e : Error} (h : s.operandStep t = .error e) :
    e.position = t.position := by
  unfold operandStep descend at h
  split at h
  · split at h <;> cases h
    rfl
  · split at h <;> cases h
    rfl
  · split at h <;> cases h
    rfl
  · cases h
    rfl

/-- Behind an operand inside of parentheses, a token that starts another operand is blamed on the
innermost of them. -/
theorem position_of_operatorStep {c : Condition} {e : Error} (h : s.operatorStep c t = .error e) :
    e.position =
      if t.symbol.startsOperand then (s.parens.map (·.position)).headD t.position
      else t.position := by
  obtain ⟨symbol, p⟩ := t
  unfold operatorStep operate at h
  split at h
  · next hsymbol =>
    cases hsymbol
    split at h <;> cases h
    rfl
  · next hsymbol =>
    cases hsymbol
    split at h <;> cases h
    rfl
  · next hsymbol _ =>
    cases hsymbol
    cases h
    rfl
  · cases h
  -- without an open parenthesis, any other token is blamed itself
  · next hps _ _ _ =>
    cases h
    rw [hps]
    exact (ite_self _).symm
  -- what is left starts an operand inside of a parenthesis
  · next q outer hps hand hor hclosing =>
    cases h
    rw [hps]
    cases symbol with
    | name | not | opening => rfl
    | and => exact (hand rfl).elim
    | or => exact (hor rfl).elim
    | closing => exact (hclosing rfl).elim

theorem position_of_finish {length : Nat} {e : Error} (h : s.finish length = .error e) :
    if s.operand.isNone then e.position = length
    else (s.parens.map (·.position)).head? = some e.position := by
  unfold finish at h
  split at h
  · next hs =>
    cases h
    rw [hs]
    rfl
  · cases h
  · next hs hps =>
    cases h
    rw [hs, hps]
    rfl

end State

/-- The place that is blamed for a token that is wrong behind other tokens. It is the place of the
token itself, or of the innermost open parenthesis when the token starts an operand where one has
just become complete. -/
def blamedPlace (before : List Token) (t : Token) : Nat :=
  if !operandDue before && t.symbol.startsOperand then (openParens before).headD t.position
  else t.position

theorem State.position_of_step {s : State} {before : List Token} {t : Token} {e : Error}
    (hrun : State.start.run before = .ok s) (h : s.step t = .error e) :
    e.position = blamedPlace before t := by
  rw [blamedPlace, ← isNone_of_start hrun, ← places_of_start hrun]
  unfold step at h
  split at h
  · next hs =>
    rw [position_of_operandStep h, hs]
    rfl
  · next c hs =>
    rw [position_of_operatorStep h, hs]
    rfl

/-- The failure is that of an unknown flag when a name that is none stands where an operand is
due. -/
theorem State.isUnknownFlag_of_step {s : State} {before : List Token} {t : Token} {e : Error}
    (hrun : State.start.run before = .ok s) (h : s.step t = .error e) :
    e.isUnknownFlag = true ↔ operandDue before = true ∧
      ∃ name, t.symbol = .name name ∧ Flag.ofName? name = none := by
  rw [← isNone_of_start hrun, Option.isNone_iff_eq_none]
  constructor
  · intro hflag
    cases e with
    | unknownFlag name position =>
      obtain ⟨rfl, hdue, hunknown⟩ := step_eq_unknownFlag_iff.1 h
      exact ⟨hdue, name, rfl, hunknown⟩
    | _ => cases hflag
  · rintro ⟨hdue, name, hname, hunknown⟩
    obtain ⟨symbol, position⟩ := t
    cases hname
    have hstep : s.step ⟨.name name, position⟩ = .error (.unknownFlag name position) :=
      step_eq_unknownFlag_iff.2 ⟨rfl, hdue, hunknown⟩
    cases hstep.symm.trans h
    rfl

/-! ## §4 Texts that are no condition -/

/-- Tokens fail at the first one that is wrong, or at their end. -/
theorem ofTokens_eq_error {length : Nat} {ts : List Token} {e : Error}
    (h : ofTokens length ts = .error e) (hts : ts ≠ []) :
    (∃ s, State.start.run ts = .ok s ∧ s.finish length = .error e) ∨
      ∃ before t later s, ts = before ++ t :: later ∧ State.start.run before = .ok s ∧
        s.step t = .error e := by
  unfold ofTokens at h
  split at h
  · contradiction
  · rcases Except.bind_eq_error_iff.1 h with h | h
    · exact .inr (foldlM_eq_error_iff.1 h)
    · exact .inl h

/-- The token at which the reader stops is the first wrong one. -/
theorem isFirstWrong_of_step {before later : List Token} {t : Token} {s : State} {e : Error}
    (hrun : State.start.run before = .ok s) (h : s.step t = .error e) :
    IsFirstWrong (before ++ t :: later) before.length := by
  constructor
  · rw [List.take_length_add_append]
    -- the reader would go over this token, from the state in which it refuses it
    intro hviable
    obtain ⟨s', hs'⟩ := viable_iff_exists_run.1 hviable
    obtain ⟨s₁, hs₁, hstep⟩ := State.run_append_eq_ok_iff.1 hs'
    obtain rfl : s = s₁ := Except.ok.inj (hrun.symm.trans hs₁)
    obtain ⟨s₂, hok, -⟩ := State.exists_step_of_run_cons hstep
    cases hok.step_eq.symm.trans h
  · intro j hj
    have hbefore : Viable before := viable_iff_exists_run.2 ⟨s, hrun⟩
    rw [List.take_append_of_le_length hj]
    rw [← List.take_append_drop (j + 1) before] at hbefore
    exact hbefore.of_append

/-- What is said of a text with the tokens `ts` that is no condition. -/
structure Blames (text : String) (ts : List Token) (e : Error) : Prop where
  /-- When a condition could go on like this, the end is blamed for a missing operand, or else the
  innermost open parenthesis. -/
  unfinished : Viable ts → e.isUnknownFlag = false ∧
    if operandDue ts then e.position = text.utf8ByteSize
    else (openParens ts).head? = some e.position
  /-- Otherwise the first wrong token is to blame. It is an unknown flag when it is a name where an
  operand is due; the name that is told is written in the text at this place. -/
  wrong : ¬ Viable ts → ∃ k t, ts[k]? = some t ∧ IsFirstWrong ts k ∧
    e.position = blamedPlace (ts.take k) t ∧
    (e.isUnknownFlag = true ↔ operandDue (ts.take k) = true ∧
      ∃ name, t.symbol = .name name ∧ Flag.ofName? name = none) ∧
    ∀ name position, e = .unknownFlag name position → t = ⟨.name name, position⟩ ∧
      ∃ before after, text = before ++ name ++ after ∧ before.utf8ByteSize = position

theorem blames_of_finish {text : String} {ts : List Token} {s : State} {e : Error}
    (hrun : State.start.run ts = .ok s) (h : s.finish text.utf8ByteSize = .error e) :
    Blames text ts e := by
  refine ⟨fun _ => ⟨State.not_isUnknownFlag_finish h, ?_⟩,
    fun hwrong => absurd (viable_iff_exists_run.2 ⟨s, hrun⟩) hwrong⟩
  rw [← State.isNone_of_start hrun, ← State.places_of_start hrun]
  exact State.position_of_finish h

theorem blames_of_step {text : String} {before later : List Token} {t : Token} {s : State}
    {e : Error} (hts : tokenize text = .ok (before ++ t :: later))
    (hrun : State.start.run before = .ok s) (h : s.step t = .error e) :
    Blames text (before ++ t :: later) e := by
  have hfirst : IsFirstWrong (before ++ t :: later) before.length := isFirstWrong_of_step hrun h
  have htake : (before ++ t :: later).take before.length = before := List.take_left
  have hwrong : ¬ Viable (before ++ t :: later) := by
    intro hviable
    rw [← List.take_append_drop (before.length + 1) (before ++ t :: later)] at hviable
    exact hfirst.wrong hviable.of_append
  refine ⟨fun hviable => absurd hviable hwrong, fun _ =>
    ⟨before.length, t, by simp, hfirst, ?_, ?_, ?_⟩⟩
  · rw [htake]
    exact State.position_of_step hrun h
  · rw [htake]
    exact State.isUnknownFlag_of_step hrun h
  · rintro name position rfl
    obtain ⟨rfl, -, -⟩ := State.step_eq_unknownFlag_iff.1 h
    obtain ⟨-, front, after, hsplit, hsize, -⟩ :=
      (covers_of_tokenize hts).spelled ⟨.name name, position⟩ (by simp)
    exact ⟨rfl, front, after, hsplit, hsize⟩

/-- **A text that is no condition is blamed for the first place at which it went wrong.** This is
its end, or an open parenthesis, when a condition could still come about, and otherwise the first
token after which none can, limits included; nothing behind this token has a say. A text without
tokens is refused at its start. -/
theorem read_blames_first (text : String) :
    (tokenize text = .ok [] → ∃ e, read text = .error e ∧ e.isUnknownFlag = false ∧
      e.position = 0) ∧
    ∀ ts e, tokenize text = .ok ts → ts ≠ [] → read text = .error e → Blames text ts e := by
  refine ⟨fun hts => ⟨.empty, ?_, rfl, rfl⟩, fun ts e hts hne h => ?_⟩
  · rw [read, hts]
    rfl
  · rw [read, hts] at h
    have hfail : ofTokens text.utf8ByteSize ts = .error e := h
    rcases ofTokens_eq_error hfail hne with ⟨s, hrun, hfinish⟩ | hwrong
    · exact blames_of_finish hrun hfinish
    · obtain ⟨before, t, later, s, rfl, hrun, hstep⟩ := hwrong
      exact blames_of_step hts hrun hstep

/-- The second name inside of the parentheses is wrong, and the parenthesis is blamed for it; the
name that is no flag comes later. White space alone is blamed at its start. -/
theorem read_blames_first_unclosed :
    (∃ ts, tokenize "!(modalOpen drawerOpen) && noFlag" = .ok ts ∧ ts ≠ [] ∧
      read "!(modalOpen drawerOpen) && noFlag" = .error (.unclosed 1) ∧
      Blames "!(modalOpen drawerOpen) && noFlag" ts (.unclosed 1)) ∧
    tokenize "\t " = .ok [] ∧ ∃ e, read "\t " = .error e ∧ e.isUnknownFlag = false ∧
      e.position = 0 := by
  have hts : tokenize "!(modalOpen drawerOpen) && noFlag" =
      .ok [⟨.not, 0⟩, ⟨.opening, 1⟩, ⟨.name "modalOpen", 2⟩, ⟨.name "drawerOpen", 12⟩,
        ⟨.closing, 22⟩, ⟨.and, 24⟩, ⟨.name "noFlag", 27⟩] := by
    decide +kernel
  have hread : read "!(modalOpen drawerOpen) && noFlag" = .error (.unclosed 1) := by
    decide +kernel
  have hspace : tokenize "\t " = .ok [] := by decide +kernel
  refine ⟨⟨_, hts, List.cons_ne_nil _ _, hread, ?_⟩, hspace, (read_blames_first _).1 hspace⟩
  exact (read_blames_first _).2 _ _ hts (List.cons_ne_nil _ _) hread

end Keybinding.Condition
