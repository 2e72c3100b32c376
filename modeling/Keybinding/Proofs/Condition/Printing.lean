import Keybinding.Condition.Printer
import Keybinding.Proofs.Condition.Acceptance
import Keybinding.Proofs.Condition.Spelling

/-!
# Printing and reading conditions

The printed form of a condition spells out a derivation of it, `printed`, which has parentheses only
where the shape of the condition asks for them. Printing therefore reads back as long as the limits
of the reader allow (`read_display_eq_ok_iff`). They always do for a condition that has been read:
no derivation of a condition is nested less deeply than the printed one
(`Disjunction.displayNesting_value_le`).
-/

namespace Keybinding.Condition

/-! ## §1 Limits -/

/-- The number of operators `&&` and `||` of a condition. -/
def operators : Condition → Nat
  | flag _ => 0
  | not c => c.operators
  | and l r => l.operators + r.operators + 1
  | or l r => l.operators + r.operators + 1

/-- A nesting with a pair of parentheses around it, if asked for. -/
def enclosed (parens : Bool) (nesting : Nat) : Nat :=
  if parens then nesting + 1 else nesting

/-- The largest number of signs `!` and of printed pairs of parentheses on the way from the root of
a condition to one of its flags. -/
def displayNesting : Condition → Nat
  | flag _ => 0
  | not c => enclosed (c.tightness < 3) c.displayNesting + 1
  | and l r =>
    max (enclosed (l.tightness < 2) l.displayNesting) (enclosed (r.tightness ≤ 2) r.displayNesting)
  | or l r =>
    max (enclosed (l.tightness < 1) l.displayNesting) (enclosed (r.tightness ≤ 1) r.displayNesting)

/-! ## §2 The printed derivation -/

/-- A disjunction as an operand, between parentheses unless it is one already. -/
def Disjunction.toOperand : Disjunction → Operand
  | .single (.single o) => o
  | d => .parens d

/-- A disjunction as a conjunction, between parentheses unless it is one already. -/
def Disjunction.toConjunction : Disjunction → Conjunction
  | .single c => c
  | d => .single (.parens d)

/-- The derivation that the printed form of a condition spells. -/
def printed : Condition → Disjunction
  | flag f => .single (.single (.flag f))
  | not c => .single (.single (.not c.printed.toOperand))
  | and l r => .single (l.printed.toConjunction.snoc r.printed.toOperand)
  | or l r => l.printed.snoc r.printed.toConjunction

/-- Symbols with a pair of parentheses around them, if asked for. -/
def parenthesized (parens : Bool) (ss : List Symbol) : List Symbol :=
  if parens then .opening :: (ss ++ [.closing]) else ss

theorem tightness_ne_zero (c : Condition) : c.tightness ≠ 0 := by
  cases c <;> simp [tightness]

/-- The printed derivation gets parentheses as an operand where the condition binds less tightly
than `!`. -/
theorem toOperand_printed (c : Condition) :
    c.tightness < 3 ∧ c.printed.toOperand = .parens c.printed ∨
      ¬ c.tightness < 3 ∧ c.printed = .single (.single c.printed.toOperand) := by
  cases c with
  | flag f => exact .inr ⟨by simp [tightness], rfl⟩
  | not c => exact .inr ⟨by simp [tightness], rfl⟩
  | and l r =>
    refine .inl ⟨by simp [tightness], ?_⟩
    rw [printed]
    cases l.printed.toConjunction <;> rfl
  | or l r =>
    refine .inl ⟨by simp [tightness], ?_⟩
    rw [printed]
    cases l.printed <;> rfl

/-- The printed derivation gets parentheses as a conjunction where the condition binds less tightly
than `&&`. -/
theorem toConjunction_printed (c : Condition) :
    c.tightness < 2 ∧ c.printed.toConjunction = .single (.parens c.printed) ∨
      ¬ c.tightness < 2 ∧ c.printed = .single c.printed.toConjunction := by
  cases c with
  | flag f => exact .inr ⟨by simp [tightness], rfl⟩
  | not c => exact .inr ⟨by simp [tightness], rfl⟩
  | and l r => exact .inr ⟨by simp [tightness], rfl⟩
  | or l r =>
    refine .inl ⟨by simp [tightness], ?_⟩
    rw [printed]
    cases l.printed <;> rfl

theorem symbols_toOperand_printed (c : Condition) :
    c.printed.toOperand.symbols = parenthesized (c.tightness < 3) c.printed.symbols := by
  rcases c.toOperand_printed with ⟨hlt, h⟩ | ⟨hlt, h⟩
  · simp [parenthesized, hlt, h, Operand.symbols]
  · have hs : c.printed.symbols = c.printed.toOperand.symbols := congrArg Disjunction.symbols h
    simp [parenthesized, hlt, hs]

theorem symbols_toConjunction_printed (c : Condition) :
    c.printed.toConjunction.symbols = parenthesized (c.tightness < 2) c.printed.symbols := by
  rcases c.toConjunction_printed with ⟨hlt, h⟩ | ⟨hlt, h⟩
  · simp [parenthesized, hlt, h, Operand.symbols, Conjunction.symbols]
  · have hs : c.printed.symbols = c.printed.toConjunction.symbols := congrArg Disjunction.symbols h
    simp [parenthesized, hlt, hs]

theorem nesting_toOperand_printed (c : Condition) :
    c.printed.toOperand.nesting = enclosed (c.tightness < 3) c.printed.nesting := by
  rcases c.toOperand_printed with ⟨hlt, h⟩ | ⟨hlt, h⟩
  · simp [enclosed, hlt, h, Operand.nesting]
  · have hn : c.printed.nesting = c.printed.toOperand.nesting := congrArg Disjunction.nesting h
    simp [enclosed, hlt, hn]

theorem nesting_toConjunction_printed (c : Condition) :
    c.printed.toConjunction.nesting = enclosed (c.tightness < 2) c.printed.nesting := by
  rcases c.toConjunction_printed with ⟨hlt, h⟩ | ⟨hlt, h⟩
  · simp [enclosed, hlt, h, Operand.nesting, Conjunction.nesting]
  · have hn : c.printed.nesting = c.printed.toConjunction.nesting := congrArg Disjunction.nesting h
    simp [enclosed, hlt, hn]

@[simp] theorem value_toOperand (d : Disjunction) : d.toOperand.value = d.value := by
  unfold Disjunction.toOperand
  split <;> rfl

@[simp] theorem value_toConjunction (d : Disjunction) : d.toConjunction.value = d.value := by
  unfold Disjunction.toConjunction
  split <;> rfl

/-- The printed derivation is a derivation of the condition. -/
theorem value_printed (c : Condition) : c.printed.value = c := by
  induction c with
  | flag f => rfl
  | not c ih => exact congrArg not ((value_toOperand _).trans ih)
  | and l r ihl ihr =>
    calc (l.and r).printed.value
        = (l.printed.toConjunction.snoc r.printed.toOperand).value := rfl
      _ = and l.printed.value r.printed.value := by simp
      _ = l.and r := by rw [ihl, ihr]
  | or l r ihl ihr => rw [printed, Disjunction.value_snoc, value_toConjunction, ihl, ihr]

/-- The printed derivation is nested as deeply as the printed form. -/
theorem nesting_printed (c : Condition) : c.printed.nesting = c.displayNesting := by
  induction c with
  | flag f => rfl
  | not c ih =>
    simp [printed, displayNesting, Disjunction.nesting, Conjunction.nesting, Operand.nesting,
      nesting_toOperand_printed, ih]
  | and l r ihl ihr =>
    simp [printed, displayNesting, Disjunction.nesting, nesting_toConjunction_printed,
      nesting_toOperand_printed, ihl, ihr, Nat.lt_succ_iff]
  | or l r ihl ihr =>
    -- on its left `||` asks for no parentheses, since nothing binds less tightly
    have hleft : enclosed (l.tightness < 1) l.displayNesting = l.displayNesting := by
      simp [enclosed, l.tightness_ne_zero]
    have hright : decide (r.tightness < 2) = decide (r.tightness ≤ 1) :=
      decide_eq_decide.2 Nat.lt_succ_iff
    rw [printed, Disjunction.nesting_snoc, nesting_toConjunction_printed, ihl, ihr, displayNesting,
      hleft, hright]

/-! ## §3 The printed form spells the printed derivation -/

/-- The text spells the symbols in front of anything that no name could go on into. -/
def Prints (text : String) (ss : List Symbol) : Prop :=
  ∀ cs ts, StartsApart cs → Spells cs ts → Spells (text.toList ++ cs) (ss ++ ts)

theorem prints_operand {text : String} {ss : List Symbol} (parens : Bool) (h : Prints text ss) :
    Prints (operand parens text) (parenthesized parens ss) := by
  cases parens with
  | false => exact h
  | true =>
    intro cs ts _ hcs
    -- a name inside the parentheses ends at the `)`, whatever follows that
    have hclose : Spells (')' :: cs) (.closing :: ts) :=
      .symbol (s := .closing) rfl nofun hcs
    have hinner := h _ _ (startsApart_cons.2 (by decide)) hclose
    have houter : Spells ('(' :: (text.toList ++ ')' :: cs)) (.opening :: (ss ++ .closing :: ts)) :=
      .symbol (s := .opening) rfl nofun hinner
    simpa [operand, parenthesized] using houter

theorem prints_infix {left right : String} {ls rs : List Symbol} (s : Symbol) (op : String)
    (hs : s.isLexeme = true) (hname : s.isName = false) (hop : op = " " ++ s.spelling ++ " ")
    (hl : Prints left ls) (hr : Prints right rs) :
    Prints (left ++ op ++ right) (ls ++ s :: rs) := by
  intro cs ts hcs hspell
  -- from right to left, as the writing grows in front: the blanks end the name before them
  have hright := hr cs ts hcs hspell
  have hmiddle : Spells (' ' :: (s.spelling.toList ++ ' ' :: (right.toList ++ cs)))
      (s :: (rs ++ ts)) :=
    .space (by decide) (.symbol hs (by simp [hname]) (.space (by decide) hright))
  have hleft := hl _ _ (startsApart_cons.2 (by decide)) hmiddle
  simpa [hop] using hleft

theorem isLexeme_name (f : Flag) : (Symbol.name f.name).isLexeme = true := by
  cases f <;> decide

/-- **The printed form spells the printed derivation.** -/
theorem prints_display (c : Condition) : Prints c.display c.printed.symbols := by
  induction c with
  | flag f => exact fun cs ts hcs hspell => .symbol (isLexeme_name f) (fun _ => hcs) hspell
  | not c ih =>
    intro cs ts hcs hspell
    have hinner := prints_operand (c.tightness < 3) ih cs ts hcs hspell
    have houter : Spells ('!' :: ((operand (c.tightness < 3) c.display).toList ++ cs))
        (.not :: (parenthesized (c.tightness < 3) c.printed.symbols ++ ts)) :=
      .symbol (s := .not) rfl nofun hinner
    simpa [display, printed, Disjunction.symbols, Conjunction.symbols, Operand.symbols,
      symbols_toOperand_printed] using houter
  | and l r ihl ihr =>
    have h := prints_infix .and " && " rfl rfl rfl
      (prints_operand (l.tightness < 2) ihl) (prints_operand (r.tightness < 3) ihr)
    simpa [display, printed, Disjunction.symbols, symbols_toConjunction_printed,
      symbols_toOperand_printed, Nat.lt_succ_iff] using h
  | or l r ihl ihr =>
    -- the left side of `||` is printed as it is
    have h := prints_infix .or " || " rfl rfl rfl ihl
      (prints_operand (r.tightness < 2) ihr)
    simpa [display, printed, symbols_toConjunction_printed, l.tightness_ne_zero, operand,
      Nat.lt_succ_iff] using h

/-- The tokens of the printed form are the symbols of the printed derivation. -/
theorem exists_tokenize_display (c : Condition) :
    ∃ ts, tokenize c.display = .ok ts ∧ ts.map (·.symbol) = c.printed.symbols := by
  have h := c.prints_display [] [] startsApart_nil .nil
  simp only [List.append_nil] at h
  exact h.exists_tokensFrom 0

/-! ## §4 No derivation has less -/

/-- The operators of what an operator has on the left, and the operator itself. -/
def operatorsBefore (before : Option Condition) : Nat :=
  before.elim 0 (·.operators + 1)

/-- An operator that counts for one adds the two sides and itself. -/
theorem operators_join {op : Condition → Condition → Condition}
    (hop : ∀ l r, (op l r).operators = l.operators + r.operators + 1) (before : Option Condition)
    (c : Condition) : (join op before c).operators = operatorsBefore before + c.operators := by
  cases before with
  | none => exact (Nat.zero_add _).symm
  | some l =>
    rw [join, hop]
    exact Nat.add_right_comm _ _ _

@[simp] theorem operatorsBefore_none : operatorsBefore none = 0 := rfl

@[simp] theorem operatorsBefore_some (c : Condition) :
    operatorsBefore (some c) = c.operators + 1 := rfl

mutual

/-- An operand derives the operators of its value. -/
theorem Operand.operators_value (o : Operand) : o.value.operators = operatorCount o.symbols := by
  match o with
  | .flag f => rfl
  | .not p =>
    simpa [Operand.symbols, Operand.value, operators, Symbol.isOperator] using p.operators_value
  | .parens d =>
    simpa [Operand.symbols, Operand.value, Symbol.isOperator] using d.operators_valueAfter none

/-- A conjunction derives the operators of its value, besides those before it. -/
theorem Conjunction.operators_valueAfter (c : Conjunction) (before : Option Condition) :
    (c.valueAfter before).operators = operatorsBefore before + operatorCount c.symbols := by
  match c with
  | .single o =>
    rw [Conjunction.valueAfter, operators_join (fun _ _ => rfl), o.operators_value,
      Conjunction.symbols]
  | .and o rest =>
    rw [Conjunction.valueAfter, rest.operators_valueAfter, operatorsBefore_some,
      operators_join (fun _ _ => rfl), o.operators_value]
    simp only [Conjunction.symbols, operatorCount_append, operatorCount_cons, Symbol.isOperator,
      if_true]
    omega

/-- A disjunction derives the operators of its value, besides those before it. -/
theorem Disjunction.operators_valueAfter (d : Disjunction) (before : Option Condition) :
    (d.valueAfter before).operators = operatorsBefore before + operatorCount d.symbols := by
  match d with
  | .single c =>
    rw [Disjunction.valueAfter, operators_join (fun _ _ => rfl), c.operators_valueAfter,
      operatorsBefore_none, Nat.zero_add, Disjunction.symbols]
  | .or c rest =>
    rw [Disjunction.valueAfter, rest.operators_valueAfter, operatorsBefore_some,
      operators_join (fun _ _ => rfl), c.operators_valueAfter, operatorsBefore_none]
    simp only [Disjunction.symbols, operatorCount_append, operatorCount_cons, Symbol.isOperator,
      if_true]
    omega

end

/-- A disjunction derives the operators of its value. -/
theorem Disjunction.operators_value (d : Disjunction) :
    d.value.operators = operatorCount d.symbols := by
  rw [Disjunction.value, d.operators_valueAfter, operatorsBefore_none, Nat.zero_add]

theorem enclosed_le_succ (parens : Bool) (n : Nat) : enclosed parens n ≤ n + 1 := by
  cases parens with
  | false => exact Nat.le_succ n
  | true => exact Nat.le_refl _

theorem le_enclosed (parens : Bool) (n : Nat) : n ≤ enclosed parens n := by
  cases parens with
  | false => exact Nat.le_refl n
  | true => exact Nat.le_succ n

theorem enclosed_le_of_le {a b : Nat} (hab : a ≤ b) (k n : Nat) :
    enclosed (k < a) n ≤ enclosed (k < b) n := by
  simp only [enclosed, decide_eq_true_eq]
  split <;> split <;> omega

/-- One more operand behind `&&`. -/
theorem enclosed_join_and_le {before : Option Condition} {c : Condition} {m n : Nat}
    (hb : ∀ l, before = some l → enclosed (l.tightness < 2) l.displayNesting ≤ m)
    (hc : enclosed (c.tightness < 3) c.displayNesting ≤ n) :
    enclosed ((join and before c).tightness < 2) (join and before c).displayNesting ≤ max m n := by
  cases before with
  -- alone, the operand is printed with no more parentheses than as an operand
  | none =>
    calc enclosed (c.tightness < 2) c.displayNesting
        ≤ enclosed (c.tightness < 3) c.displayNesting := enclosed_le_of_le (by decide) _ _
      _ ≤ max m n := Nat.le_trans hc (Nat.le_max_right m n)
  | some l =>
    have hl := hb l rfl
    have hr : enclosed (c.tightness ≤ 2) c.displayNesting ≤ n := by
      simpa [Nat.lt_succ_iff] using hc
    show max _ _ ≤ max m n
    omega

/-- One more conjunction behind `||`. -/
theorem displayNesting_join_or_le {before : Option Condition} {c : Condition} {m n : Nat}
    (hb : ∀ l, before = some l → l.displayNesting ≤ m)
    (hc : enclosed (c.tightness < 2) c.displayNesting ≤ n) :
    (join or before c).displayNesting ≤ max m n := by
  cases before with
  | none => exact Nat.le_trans (Nat.le_trans (le_enclosed _ _) hc) (Nat.le_max_right m n)
  | some l =>
    have hl : enclosed (l.tightness < 1) l.displayNesting ≤ m := by
      simpa [enclosed, l.tightness_ne_zero] using hb l rfl
    have hr : enclosed (c.tightness ≤ 1) c.displayNesting ≤ n := by
      simpa [Nat.lt_succ_iff] using hc
    show max _ _ ≤ max m n
    omega

mutual

/-- Printed as an operand, the value of an operand has no deeper nesting than the operand. -/
theorem Operand.displayNesting_value_le (o : Operand) :
    enclosed (o.value.tightness < 3) o.value.displayNesting ≤ o.nesting := by
  match o with
  | .flag f => exact Nat.le_refl 0
  | .not p => exact Nat.succ_le_succ p.displayNesting_value_le
  | .parens d =>
    have h := d.displayNesting_valueAfter_le none 0 nofun
    rw [Nat.zero_max] at h
    -- the printed form may drop the parentheses, but it adds no more than these
    exact Nat.le_trans (enclosed_le_succ _ _) (Nat.succ_le_succ h)

/-- Printed as a conjunction, the value of a conjunction has no deeper nesting than the conjunction
and what stands before it. -/
theorem Conjunction.displayNesting_valueAfter_le (c : Conjunction) (before : Option Condition)
    (m : Nat) (hb : ∀ l, before = some l → enclosed (l.tightness < 2) l.displayNesting ≤ m) :
    enclosed ((c.valueAfter before).tightness < 2) (c.valueAfter before).displayNesting ≤
      max m c.nesting := by
  match c with
  | .single o => exact enclosed_join_and_le hb o.displayNesting_value_le
  | .and o rest =>
    -- what the rest has before it is bounded by all that has been passed
    have hstep := enclosed_join_and_le hb o.displayNesting_value_le
    have hrest := rest.displayNesting_valueAfter_le (some (join and before o.value))
      (max m o.nesting) fun l hl => Option.some.inj hl ▸ hstep
    rwa [Nat.max_assoc] at hrest

/-- The value of a disjunction is printed with no deeper nesting than that of the disjunction and of
what stands before it. -/
theorem Disjunction.displayNesting_valueAfter_le (d : Disjunction) (before : Option Condition)
    (m : Nat) (hb : ∀ l, before = some l → l.displayNesting ≤ m) :
    (d.valueAfter before).displayNesting ≤ max m d.nesting := by
  match d with
  | .single c =>
    have hc := c.displayNesting_valueAfter_le none 0 nofun
    rw [Nat.zero_max] at hc
    exact displayNesting_join_or_le hb hc
  | .or c rest =>
    have hc := c.displayNesting_valueAfter_le none 0 nofun
    rw [Nat.zero_max] at hc
    have hstep := displayNesting_join_or_le hb hc
    have hrest := rest.displayNesting_valueAfter_le (some (join or before (c.valueAfter none)))
      (max m c.nesting) fun l hl => Option.some.inj hl ▸ hstep
    rwa [Nat.max_assoc] at hrest

end

/-- **Printing never nests more deeply than a derivation.** -/
theorem Disjunction.displayNesting_value_le (d : Disjunction) :
    d.value.displayNesting ≤ d.nesting := by
  have h := d.displayNesting_valueAfter_le none 0 nofun
  rwa [Nat.zero_max] at h

/-! ## §5 Reading back -/

/-- A condition reads back from its printed form when that stays within the limits. -/
theorem read_display_iff (c : Condition) :
    read c.display = .ok c ↔ c.operators ≤ maxOperators ∧ c.displayNesting ≤ maxDepth := by
  obtain ⟨ts, hts, hsymbols⟩ := c.exists_tokenize_display
  have hoperators : operatorCount c.printed.symbols = c.operators := by
    rw [← Disjunction.operators_value, value_printed]
  rw [read_eq_ok_iff_ofTokens]
  constructor
  · rintro ⟨us, hus, h⟩
    obtain rfl : ts = us := Except.ok.inj (hts.symm.trans hus)
    obtain ⟨d, hd, -, hcount, hnesting⟩ := ofTokens_eq_ok_iff.1 h
    -- there is one derivation of the tokens only, the printed one
    obtain rfl : d = c.printed := Disjunction.eq_of_symbols_eq (hd.trans hsymbols)
    exact ⟨hoperators ▸ hcount, c.nesting_printed ▸ hnesting⟩
  · rintro ⟨hcount, hnesting⟩
    exact ⟨ts, hts, ofTokens_eq_ok_iff.2 ⟨c.printed, hsymbols.symm, c.value_printed,
      hoperators ▸ hcount, c.nesting_printed ▸ hnesting⟩⟩

/-- A condition that has been read stays within the limits when it is printed. -/
theorem within_limits_of_read {text : String} {c : Condition} (h : read text = .ok c) :
    c.operators ≤ maxOperators ∧ c.displayNesting ≤ maxDepth := by
  obtain ⟨ts, -, hofTokens⟩ := read_eq_ok_iff_ofTokens.1 h
  obtain ⟨d, -, rfl, hcount, hnesting⟩ := ofTokens_eq_ok_iff.1 hofTokens
  exact ⟨d.operators_value ▸ hcount, Nat.le_trans d.displayNesting_value_le hnesting⟩

theorem readsBack_iff_within_limits {c : Condition} :
    c.readsBack = true ↔ c.operators ≤ maxOperators ∧ c.displayNesting ≤ maxDepth :=
  readsBack_iff.trans c.read_display_iff

theorem readsBack_of_read {text : String} {c : Condition} (h : read text = .ok c) :
    c.readsBack = true :=
  readsBack_iff_within_limits.2 (within_limits_of_read h)

/-- **Printing and reading are inverse.** A condition reads back from its printed form exactly when
it has at most 256 operators and no way from its root to a flag carries more than 64 signs `!` and
printed pairs of parentheses. A condition that has been read is always of this kind. -/
theorem read_display_eq_ok_iff :
    (∀ c : Condition,
      read c.display = .ok c ↔ c.operators ≤ 256 ∧ c.displayNesting ≤ 64) ∧
    ∀ (text : String) (c : Condition), read text = .ok c →
      c.operators ≤ 256 ∧ c.displayNesting ≤ 64 ∧ read c.display = .ok c := by
  refine ⟨read_display_iff, fun text c h => ?_⟩
  obtain ⟨hcount, hnesting⟩ := within_limits_of_read h
  exact ⟨hcount, hnesting, c.read_display_iff.2 ⟨hcount, hnesting⟩⟩

/-- A condition that is printed with a pair of parentheses. -/
theorem read_display_eq_ok_iff_negated_or :
    read "!(modalOpen || pickerOpen)" = .ok (not (or (flag .modalOpen) (flag .pickerOpen))) ∧
      (not (or (flag .modalOpen) (flag .pickerOpen))).displayNesting ≤ 64 := by
  have hdisplay : (not (or (flag .modalOpen) (flag .pickerOpen))).display =
      "!(modalOpen || pickerOpen)" := by
    decide
  rw [← hdisplay]
  have hread := (read_display_eq_ok_iff.1 (not (or (flag .modalOpen) (flag .pickerOpen)))).2
    ⟨by decide, by decide⟩
  exact ⟨hread, (read_display_eq_ok_iff.2 _ _ hread).2.1⟩

end Keybinding.Condition
