import Keybinding.Proofs.Condition.Printing
import Keybinding.Proofs.Steps

/-!
# The shortest written form

Of all lists of symbols that are read as a condition, the printed one is the shortest, and no other
one has its length. A derivation is compared with the printed derivation of its value
(`Disjunction.noLonger_value`): each pair of parentheses that the printed form has is there in the
derivation too, since the shape of the condition asks for it.

- `display_shortest`: no text for a condition has fewer symbols than its printed form.
-/

namespace Keybinding.Condition

/-! ## §1 Lists of fewer symbols -/

/-- A list of symbols is another one, or has fewer symbols. -/
def NoLonger (ss ts : List Symbol) : Prop := ss = ts ∨ ss.length < ts.length

section NoLonger

variable {ss ts us vs : List Symbol}

theorem NoLonger.refl (ss : List Symbol) : NoLonger ss ss := .inl rfl

theorem NoLonger.length_le (h : NoLonger ss ts) : ss.length ≤ ts.length := by
  rcases h with rfl | hlt
  · exact Nat.le_refl _
  · exact Nat.le_of_lt hlt

theorem NoLonger.eq_of_length_eq (h : NoLonger ss ts) (hlen : ss.length = ts.length) :
    ss = ts := by
  rcases h with rfl | hlt
  · rfl
  · omega

theorem NoLonger.trans (h : NoLonger ss ts) (h' : NoLonger ts us) : NoLonger ss us := by
  rcases h with rfl | hlt
  · exact h'
  · exact .inr (Nat.lt_of_lt_of_le hlt h'.length_le)

theorem NoLonger.append (h : NoLonger ss ts) (h' : NoLonger us vs) :
    NoLonger (ss ++ us) (ts ++ vs) := by
  have hle := h.length_le
  have hle' := h'.length_le
  rcases h with rfl | hlt
  · rcases h' with rfl | hlt'
    · exact .refl _
    · right
      simpa using hlt'
  · right
    simp only [List.length_append]
    omega

theorem NoLonger.cons (s : Symbol) (h : NoLonger ss ts) : NoLonger (s :: ss) (s :: ts) :=
  (NoLonger.refl [s]).append h

theorem noLonger_enclosed (ss : List Symbol) : NoLonger ss (.opening :: (ss ++ [.closing])) := by
  right
  simp only [List.length_cons, List.length_append]
  omega

end NoLonger

/-! ## §2 No derivation has fewer symbols -/

/-- The symbols of a condition that is printed where less than the tightness `k` asks for
parentheses. -/
def symbolsAt (k : Nat) (c : Condition) : List Symbol :=
  parenthesized (c.tightness < k) c.printed.symbols

theorem symbolsAt_one (c : Condition) : c.symbolsAt 1 = c.printed.symbols := by
  simp [symbolsAt, parenthesized, c.tightness_ne_zero]

theorem symbolsAt_not (c : Condition) : (not c).symbolsAt 3 = .not :: c.symbolsAt 3 := by
  rw [symbolsAt, printed, Disjunction.symbols, Conjunction.symbols, Operand.symbols,
    symbols_toOperand_printed]
  rfl

theorem symbolsAt_and (l r : Condition) :
    (and l r).symbolsAt 2 = l.symbolsAt 2 ++ .and :: r.symbolsAt 3 := by
  rw [symbolsAt, printed, Disjunction.symbols, Conjunction.symbols_snoc,
    symbols_toConjunction_printed, symbols_toOperand_printed]
  rfl

theorem symbolsAt_or (l r : Condition) :
    (or l r).symbolsAt 1 = l.symbolsAt 1 ++ .or :: r.symbolsAt 2 := by
  rw [symbolsAt_one, symbolsAt_one, printed, Disjunction.symbols_snoc,
    symbols_toConjunction_printed]
  rfl

/-- The tighter the place, the more parentheses. -/
theorem noLonger_symbolsAt {j k : Nat} (h : j ≤ k) (c : Condition) :
    NoLonger (c.symbolsAt j) (c.symbolsAt k) := by
  unfold symbolsAt parenthesized
  simp only [decide_eq_true_eq]
  split <;> split
  · exact .refl _
  · omega
  · exact noLonger_enclosed _
  · exact .refl _

/-- A pair of parentheses is as much as any place asks for. -/
theorem noLonger_parens {c : Condition} {ss : List Symbol} (k : Nat)
    (h : NoLonger (c.symbolsAt 1) ss) :
    NoLonger (c.symbolsAt k) (.opening :: (ss ++ [.closing])) := by
  have hall : NoLonger (c.symbolsAt k) (.opening :: (c.symbolsAt 1 ++ [.closing])) := by
    rw [symbolsAt_one, symbolsAt, parenthesized]
    split
    · exact .refl _
    · exact noLonger_enclosed _
  exact hall.trans ((h.append (.refl _)).cons _)

/-- The symbols of what an operator has on the left, and the operator itself. -/
def symbolsBefore (op : Symbol) (before : Option Condition) (ss : List Symbol) : List Symbol :=
  before.elim [] fun _ => ss ++ [op]

/-- One more operand behind `&&`. -/
theorem noLonger_join_and {before : Option Condition} {c : Condition} {bs ss : List Symbol}
    (hb : ∀ l, before = some l → NoLonger (l.symbolsAt 2) bs) (hc : NoLonger (c.symbolsAt 3) ss) :
    NoLonger ((join and before c).symbolsAt 2) (symbolsBefore .and before bs ++ ss) := by
  cases before with
  | none => exact (noLonger_symbolsAt (by decide) c).trans hc
  | some l =>
    rw [join, symbolsAt_and, symbolsBefore, Option.elim_some, List.append_assoc]
    exact (hb l rfl).append (hc.cons .and)

/-- One more conjunction behind `||`. -/
theorem noLonger_join_or {before : Option Condition} {c : Condition} {bs ss : List Symbol}
    (hb : ∀ l, before = some l → NoLonger (l.symbolsAt 1) bs) (hc : NoLonger (c.symbolsAt 2) ss) :
    NoLonger ((join or before c).symbolsAt 1) (symbolsBefore .or before bs ++ ss) := by
  cases before with
  | none => exact (noLonger_symbolsAt (by decide) c).trans hc
  | some l =>
    rw [join, symbolsAt_or, symbolsBefore, Option.elim_some, List.append_assoc]
    exact (hb l rfl).append (hc.cons .or)

mutual

/-- Printed as an operand, the value of an operand has no more symbols than the operand. -/
theorem Operand.noLonger_value (o : Operand) : NoLonger (o.value.symbolsAt 3) o.symbols := by
  match o with
  | .flag f => exact .refl _
  | .not p =>
    rw [Operand.value, symbolsAt_not]
    exact p.noLonger_value.cons .not
  | .parens d => exact noLonger_parens 3 (d.noLonger_valueAfter none [] nofun)

/-- Printed as a conjunction, the value of a conjunction has no more symbols than the conjunction
and what stands before it. -/
theorem Conjunction.noLonger_valueAfter (c : Conjunction) (before : Option Condition)
    (bs : List Symbol) (hb : ∀ l, before = some l → NoLonger (l.symbolsAt 2) bs) :
    NoLonger ((c.valueAfter before).symbolsAt 2) (symbolsBefore .and before bs ++ c.symbols) := by
  match c with
  | .single o => exact noLonger_join_and hb o.noLonger_value
  | .and o rest =>
    -- what the rest has before it is all that has been passed
    have hstep := noLonger_join_and hb o.noLonger_value
    have hrest := rest.noLonger_valueAfter (some (join and before o.value))
      (symbolsBefore .and before bs ++ o.symbols) fun l hl => Option.some.inj hl ▸ hstep
    simpa [Conjunction.symbols, Conjunction.valueAfter, symbolsBefore] using hrest

/-- The value of a disjunction is printed with no more symbols than the disjunction and what stands
before it. -/
theorem Disjunction.noLonger_valueAfter (d : Disjunction) (before : Option Condition)
    (bs : List Symbol) (hb : ∀ l, before = some l → NoLonger (l.symbolsAt 1) bs) :
    NoLonger ((d.valueAfter before).symbolsAt 1) (symbolsBefore .or before bs ++ d.symbols) := by
  match d with
  | .single c => exact noLonger_join_or hb (c.noLonger_valueAfter none [] nofun)
  | .or c rest =>
    have hstep := noLonger_join_or hb (c.noLonger_valueAfter none [] nofun)
    have hrest := rest.noLonger_valueAfter (some (join or before (c.valueAfter none)))
      (symbolsBefore .or before bs ++ c.symbols) fun l hl => Option.some.inj hl ▸ hstep
    simpa [Disjunction.symbols, Disjunction.valueAfter, symbolsBefore] using hrest

end

/-- **No derivation of a condition has fewer symbols than the printed one**, and one with as many is
that one. -/
theorem Disjunction.noLonger_value (d : Disjunction) :
    NoLonger d.value.printed.symbols d.symbols := by
  have h := d.noLonger_valueAfter none [] nofun
  rwa [symbolsAt_one] at h

/-! ## §3 Texts -/

/-- Texts for one condition have no fewer symbols than its printed form. -/
theorem noLonger_of_read {text : String} {c : Condition} {ts : List Token}
    (hts : tokenize text = .ok ts) (h : read text = .ok c) :
    NoLonger c.printed.symbols (ts.map (·.symbol)) := by
  obtain ⟨us, hus, hofTokens⟩ := read_eq_ok_iff_ofTokens.1 h
  obtain rfl : ts = us := Except.ok.inj (hts.symm.trans hus)
  obtain ⟨d, hd, rfl, -, -⟩ := ofTokens_eq_ok_iff.1 hofTokens
  exact hd ▸ d.noLonger_value

/-- Without a pair of parentheses, a writing has fewer symbols. -/
theorem Spells.exists_of_parens {before inner after : List Char} {ss : List Symbol}
    (h : Spells (before ++ '(' :: inner ++ ')' :: after) ss) :
    ∃ us, Spells (before ++ inner ++ after) us ∧ us.length < ss.length := by
  rw [List.append_assoc, List.cons_append] at h
  obtain ⟨bs, rest, rfl, hbefore, hrest⟩ := h.exists_of_punctuation (s := .opening) rfl
  obtain ⟨is, as, rfl, hinner, hafter⟩ := hrest.exists_of_punctuation (s := .closing) rfl
  -- what the parentheses kept apart may grow together
  obtain ⟨us, hus, hle⟩ := hbefore.exists_append hinner
  obtain ⟨vs, hvs, hle'⟩ := hus.exists_append hafter
  refine ⟨vs, hvs, ?_⟩
  simp only [List.length_append, List.length_cons]
  omega

/-- **The printed form is the shortest.** A condition that has been read is printed with as few
symbols as any text that is read as it, and each other text with as few has the same symbols. When a
pair of parentheses is taken out of the printed form, it is no longer read as the condition. -/
theorem display_shortest {text : String} {c : Condition} (h : read text = .ok c) :
    ∃ us, tokenize c.display = .ok us ∧ read c.display = .ok c ∧
      (∀ text' ts, tokenize text' = .ok ts → read text' = .ok c →
        us.length ≤ ts.length ∧
          (us.length = ts.length → us.map (·.symbol) = ts.map (·.symbol))) ∧
      ∀ before inner after, c.display = before ++ "(" ++ inner ++ ")" ++ after →
        read (before ++ inner ++ after) ≠ .ok c := by
  obtain ⟨us, hus, hsymbols⟩ := c.exists_tokenize_display
  have hlength : us.length = c.printed.symbols.length := by rw [← hsymbols, List.length_map]
  refine ⟨us, hus, c.read_display_iff.2 (within_limits_of_read h), fun text' ts hts h' => ?_,
    fun before inner after hdisplay h' => ?_⟩
  · have hle := noLonger_of_read hts h'
    rw [hsymbols]
    refine ⟨by simpa [hlength] using hle.length_le, fun heq => hle.eq_of_length_eq ?_⟩
    rw [← hlength, heq, List.length_map]
  · -- the text without the pair is a writing too, but of too few symbols
    have hspells : Spells c.display.toList c.printed.symbols := by
      have hprints := c.prints_display [] [] startsApart_nil .nil
      simpa using hprints
    have hlist : c.display.toList =
        before.toList ++ '(' :: inner.toList ++ ')' :: after.toList := by
      rw [hdisplay]
      simp
    rw [hlist] at hspells
    obtain ⟨vs, hvs, hlt⟩ := hspells.exists_of_parens
    obtain ⟨ts, hts, rfl⟩ := hvs.exists_tokensFrom 0
    have htext : tokenize (before ++ inner ++ after) = .ok ts := by
      simpa [tokenize] using hts
    have hle := (noLonger_of_read htext h').length_le
    omega

/-- Of three pairs of parentheses, one is asked for. -/
theorem display_shortest_negated :
    ∃ c us ts, read "(modalOpen) && (!(pickerOpen || drawerOpen))" = .ok c ∧
      tokenize "modalOpen && !(pickerOpen || drawerOpen)" = .ok us ∧
      tokenize "(modalOpen) && (!(pickerOpen || drawerOpen))" = .ok ts ∧
      us.length ≤ ts.length ∧ read "modalOpen && !pickerOpen || drawerOpen" ≠ .ok c := by
  have hread : read "(modalOpen) && (!(pickerOpen || drawerOpen))" =
      .ok (and (flag .modalOpen) (not (or (flag .pickerOpen) (flag .drawerOpen)))) :=
    Except.toOption_eq_some_iff.1 (by decide +kernel)
  have hdisplay : (and (flag .modalOpen) (not (or (flag .pickerOpen) (flag .drawerOpen)))).display =
      "modalOpen && !(pickerOpen || drawerOpen)" := by
    decide
  obtain ⟨us, hus, -, hleast, hparens⟩ := display_shortest hread
  rw [hdisplay] at hus hparens
  obtain ⟨ts, hts, -⟩ := read_eq_ok_iff_ofTokens.1 hread
  exact ⟨_, us, ts, hread, hus, hts, (hleast _ ts hts hread).1,
    hparens "modalOpen && !" "pickerOpen || drawerOpen" "" rfl⟩

end Keybinding.Condition
