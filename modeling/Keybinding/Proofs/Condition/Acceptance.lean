import Keybinding.Proofs.Condition.Run

/-!
# What is read as a condition

The reader accepts the texts whose symbols the grammar derives, within the limits on nesting and on
operators, and answers the value of the derivation (`read_eq_ok_iff_derivation`).

- Soundness (§§1 and 2): what the reader holds between two tokens comes from derivations of the
  symbols that it has read. `Reads s ss` says so of a state `s` and the symbols `ss`: behind each
  open parenthesis there are derivations of the operands so far, and their nesting leaves room for
  the signs that are open around them. A step keeps this up (`Reads.step`), hence a run does
  (`Reads.run`), and at the end there is one derivation of all symbols (`Reads.finish`).
- Completeness (§§3 and 4): a derivation whose nesting and whose operators stay within the limits is
  read. From a state in which an operand is due, the reader goes over the symbols of a derivation
  and has the value of the derivation at hand. The three statements `Operand.run_eq`,
  `Conjunction.run_eq` and `Disjunction.run_eq` follow the three types of derivations.
-/

namespace Keybinding.Condition

/-! ## §1 Levels with derivations -/

/-- A level of the reader with derivations of the conditions that it holds. -/
structure Frame where
  disjunction : Option Disjunction
  conjunction : Option Conjunction
  negations : Nat

namespace Frame

/-- The level that a frame explains. -/
def level (f : Frame) : Level :=
  ⟨f.disjunction.map Disjunction.value, f.conjunction.map Conjunction.value, f.negations⟩

/-- The symbols that have been read at a level. -/
def symbols (f : Frame) : List Symbol :=
  (f.disjunction.elim [] fun d => d.symbols ++ [.or]) ++
    (f.conjunction.elim [] fun c => c.symbols ++ [.and]) ++ List.replicate f.negations .not

/-- No derivation is nested more deeply than there is room for. -/
structure Fits (f : Frame) (room : Nat) : Prop where
  disjunction : ∀ d, f.disjunction = some d → d.nesting ≤ room
  conjunction : ∀ c, f.conjunction = some c → c.nesting ≤ room
  negations : f.negations ≤ room

/-- The frame at the start of a level. -/
def start : Frame := ⟨none, none, 0⟩

/-- The conjunction that ends with an operand. -/
def product (f : Frame) (o : Operand) : Conjunction :=
  f.conjunction.elim (.single o) (·.snoc o)

/-- The disjunction that ends with an operand. -/
def sum (f : Frame) (o : Operand) : Disjunction :=
  f.disjunction.elim (.single (f.product o)) (·.snoc (f.product o))

@[simp] theorem value_product (f : Frame) (o : Operand) :
    (f.product o).value = f.level.product o.value := by
  unfold product level Level.product
  cases f.conjunction with
  | none => rfl
  | some c => exact c.value_snoc o

@[simp] theorem value_sum (f : Frame) (o : Operand) :
    (f.sum o).value = f.level.value o.value := by
  have h := f.value_product o
  unfold sum Level.value
  rw [← h]
  cases hd : f.disjunction with
  | none => simp [level, hd, Disjunction.value, Disjunction.valueAfter, join, Conjunction.value]
  | some d => simp [level, hd]

theorem symbols_product (f : Frame) (o : Operand) :
    (f.product o).symbols = (f.conjunction.elim [] fun c => c.symbols ++ [.and]) ++ o.symbols := by
  unfold product
  cases f.conjunction <;> simp [Conjunction.symbols]

theorem symbols_sum (f : Frame) (o : Operand) (hneg : f.negations = 0) :
    (f.sum o).symbols = f.symbols ++ o.symbols := by
  have h := f.symbols_product o
  unfold sum symbols
  cases f.disjunction with
  | none => simp [Disjunction.symbols, h, hneg]
  | some d => simp [h, hneg]

theorem Fits.nesting_product {f : Frame} {room : Nat} (hf : f.Fits room) {o : Operand}
    (ho : o.nesting ≤ room) : (f.product o).nesting ≤ room := by
  unfold product
  cases hc : f.conjunction with
  | none => exact ho
  | some c => exact c.nesting_snoc o ▸ Nat.max_le.2 ⟨hf.conjunction c hc, ho⟩

theorem Fits.nesting_sum {f : Frame} {room : Nat} (hf : f.Fits room) {o : Operand}
    (ho : o.nesting ≤ room) : (f.sum o).nesting ≤ room := by
  have hp := hf.nesting_product ho
  unfold sum
  cases hd : f.disjunction with
  | none => exact hp
  | some d => exact d.nesting_snoc _ ▸ Nat.max_le.2 ⟨hf.disjunction d hd, hp⟩

@[simp] theorem symbols_start : start.symbols = [] := rfl

theorem fits_start (room : Nat) : start.Fits room :=
  ⟨nofun, nofun, Nat.zero_le _⟩

end Frame

/-- An operand behind a number of signs `!`. -/
def Operand.negate : Nat → Operand → Operand
  | 0, o => o
  | n + 1, o => .not (Operand.negate n o)

theorem Operand.symbols_negate (n : Nat) (o : Operand) :
    (Operand.negate n o).symbols = List.replicate n .not ++ o.symbols := by
  induction n with
  | zero => rfl
  | succ n ih => simp [Operand.negate, Operand.symbols, ih, List.replicate_succ]

theorem Operand.value_negate (n : Nat) (o : Operand) :
    (Operand.negate n o).value = State.negate n o.value := by
  induction n with
  | zero => rfl
  | succ n ih => simp [Operand.negate, Operand.value, State.negate, ih]

theorem Operand.nesting_negate (n : Nat) (o : Operand) :
    (Operand.negate n o).nesting = o.nesting + n := by
  induction n with
  | zero => rfl
  | succ n ih => simp [Operand.negate, Operand.nesting, ih, Nat.add_assoc]

/-! ## §2 States with derivations -/

namespace State

/-- The symbols up to the innermost of the open parentheses `ps`, with the number of signs for which
there is room behind it. -/
inductive Opened : List Paren → Nat → List Symbol → Prop
  | nil : Opened [] maxDepth []
  | cons {ps : List Paren} {room : Nat} {ss : List Symbol} {f : Frame} (position : Nat)
      (h : Opened ps (room + 1 + f.negations) ss) (hf : f.Fits (room + 1 + f.negations)) :
      Opened (⟨position, f.level⟩ :: ps) room (ss ++ f.symbols ++ [.opening])

theorem Opened.depth_add_room {ps : List Paren} {room : Nat} {ss : List Symbol}
    (h : Opened ps room ss) : parensDepth ps + room = maxDepth := by
  induction h with
  | nil => rfl
  | cons position h hf ih =>
    rw [parensDepth_cons]
    simp only [Frame.level]
    omega

/-- The symbols `ss` lead to the state `s`, with derivations of all that it holds. -/
inductive Reads (s : State) : List Symbol → Prop
  /-- An operand is due. -/
  | due {room : Nat} {before : List Symbol} {f : Frame} (hp : Opened s.parens room before)
      (hf : f.Fits room) (hl : s.level = f.level) (hs : s.operand = none) :
      Reads s (before ++ f.symbols)
  /-- An operand is complete. -/
  | complete {room : Nat} {before : List Symbol} {f : Frame} {o : Operand}
      (hp : Opened s.parens room before) (hf : f.Fits room) (hl : s.level = f.level)
      (hneg : f.negations = 0) (ho : o.nesting ≤ room) (hs : s.operand = some o.value) :
      Reads s (before ++ f.symbols ++ o.symbols)

theorem reads_start : Reads start [] := by
  have h : Reads start ([] ++ Frame.start.symbols) :=
    .due .nil (Frame.fits_start _) rfl rfl
  simpa using h

/-- An operand takes the signs `!` before it. -/
theorem Reads.of_operand {s : State} {room : Nat} {before : List Symbol} {f : Frame} {o : Operand}
    (hp : Opened s.parens room before) (hf : f.Fits room) (hl : s.level = f.level)
    (ho : o.nesting + f.negations ≤ room) :
    Reads (s.complete o.value) (before ++ f.symbols ++ o.symbols) := by
  have hsymbols : f.symbols ++ o.symbols =
      { f with negations := 0 }.symbols ++ (Operand.negate f.negations o).symbols := by
    simp [Frame.symbols, Operand.symbols_negate]
  rw [List.append_assoc, hsymbols, ← List.append_assoc]
  -- the signs leave the level and become part of the operand
  refine .complete (f := { f with negations := 0 }) hp ⟨hf.1, hf.2, Nat.zero_le _⟩ ?_ rfl ?_ ?_
  · simp [State.complete, hl, Frame.level]
  · rwa [Operand.nesting_negate]
  · simp [State.complete, hl, Frame.level, Operand.value_negate]

/-- **A step keeps derivations of all that has been read.** -/
theorem Reads.step {s s' : State} {t : Token} {ss : List Symbol} (h : Reads s ss)
    (hstep : Step s t s') : Reads s' (ss ++ [t.symbol]) := by
  cases h with
  | @due room before f hp hf hl hs =>
    have hroom := hp.depth_add_room
    have hneg : s.level.negations = f.negations := congrArg Level.negations hl
    cases hstep with
    | flag g _ => exact .of_operand (o := .flag g) hp hf hl (by simpa [Operand.nesting] using hf.3)
    | not _ hd =>
      -- the check of the depth leaves room for this sign
      rw [depth_eq] at hd
      have hsymbols : f.symbols ++ [.not] =
          { f with negations := f.negations + 1 }.symbols := by
        simp [Frame.symbols, List.replicate_succ']
      rw [List.append_assoc, hsymbols]
      exact .due (f := { f with negations := f.negations + 1 }) hp ⟨hf.1, hf.2, by simp only; omega⟩
        (by simp [hl, Frame.level]) hs
    | opening _ hd =>
      rw [depth_eq] at hd
      -- behind the `(` there is room for one sign less than behind the signs before it
      obtain ⟨room', rfl⟩ : ∃ n, room = n + 1 + f.negations := ⟨room - 1 - f.negations, by omega⟩
      rw [hl, ← List.append_nil (_ ++ _ ++ _), ← Frame.symbols_start]
      exact .due (.cons _ hp hf) (Frame.fits_start _) rfl hs
    -- no operator and no `)` is taken while an operand is due
    | and hs' | or hs' | closing hs' => cases hs.symm.trans hs'
  | @complete room before f o hp hf hl hneg ho hs =>
    have hlevel : s.level.negations = 0 := (congrArg Level.negations hl).trans hneg
    cases hstep with
    -- no operand is taken while one is complete
    | flag _ hs' | not hs' | opening hs' => cases hs.symm.trans hs'
    | and hs' =>
      obtain rfl := Option.some.inj (hs.symm.trans hs')
      have hsymbols : f.symbols ++ o.symbols ++ [.and] =
          (Frame.mk f.disjunction (some (f.product o)) 0).symbols := by
        simp [Frame.symbols, Frame.symbols_product, hneg]
      rw [List.append_assoc before, List.append_assoc before, hsymbols]
      refine .due (f := ⟨f.disjunction, some (f.product o), 0⟩) hp
        ⟨hf.1, fun c hc => ?_, Nat.zero_le _⟩ ?_ rfl
      · cases hc
        exact hf.nesting_product ho
      · simp [Frame.level, hl, hneg]
    | or hs' =>
      obtain rfl := Option.some.inj (hs.symm.trans hs')
      have hsymbols : f.symbols ++ o.symbols ++ [.or] =
          (Frame.mk (some (f.sum o)) none 0).symbols := by
        simp [Frame.symbols, f.symbols_sum o hneg]
      rw [List.append_assoc before, List.append_assoc before, hsymbols]
      refine .due (f := ⟨some (f.sum o), none, 0⟩) hp
        ⟨fun d hd => ?_, fun c hc => ?_, Nat.zero_le _⟩ ?_ rfl
      · cases hd
        exact hf.nesting_sum ho
      · cases hc
      · simp [Frame.level, hl]
    | @closing _ _ q outer hs' hq =>
      obtain rfl := Option.some.inj (hs.symm.trans hs')
      rw [hq] at hp
      cases hp with
      | @cons _ _ ss g position hp hg =>
        -- the parenthesis is an operand of the level outside it
        have hsymbols : ss ++ g.symbols ++ [.opening] ++ f.symbols ++ o.symbols ++ [.closing] =
            ss ++ g.symbols ++ (Operand.parens (f.sum o)).symbols := by
          simp [Operand.symbols, f.symbols_sum o hneg]
        have hvalue : s.level.value o.value = (Operand.parens (f.sum o)).value := by
          rw [hl, ← f.value_sum]
          rfl
        rw [hsymbols, hvalue]
        refine .of_operand hp hg rfl ?_
        have := hf.nesting_sum ho
        rw [Operand.nesting]
        omega

/-- A run keeps derivations of all that has been read. -/
theorem Reads.run {s s' : State} {ts : List Token} {ss : List Symbol} (h : Reads s ss)
    (hrun : s.run ts = .ok s') : Reads s' (ss ++ ts.map (·.symbol)) := by
  induction ts generalizing s ss with
  | nil =>
    cases hrun
    simpa using h
  | cons t ts ih =>
    obtain ⟨s₁, hstep, hrest⟩ := exists_step_of_run_cons hrun
    simpa using ih (h.step hstep) hrest

/-- At the end there is a derivation of the whole. -/
theorem Reads.finish {s : State} {ss : List Symbol} {length : Nat} {c : Condition}
    (h : Reads s ss) (hc : s.finish length = .ok c) :
    ∃ d : Disjunction, d.symbols = ss ∧ d.value = c ∧ d.nesting ≤ maxDepth := by
  unfold State.finish at hc
  cases h with
  | due hp hf hl hs => simp [hs] at hc
  | @complete room before f o hp hf hl hneg ho hs =>
    -- without an open parenthesis, all symbols are those of the one level
    rw [hs] at hc
    split at hc
    · contradiction
    · next c' hc' hps =>
      cases hc'
      cases hc
      rw [hps] at hp
      cases hp
      exact ⟨f.sum o, by simp [f.symbols_sum o hneg], by rw [f.value_sum, hl], hf.nesting_sum ho⟩
    · contradiction

end State

open State

/-! ## §3 Values -/

theorem Level.product_eq_join (l : Level) (c : Condition) :
    l.product c = join .and l.conjunction c := by
  unfold Level.product
  cases l.conjunction <;> rfl

theorem Level.value_eq_join (l : Level) (c : Condition) :
    l.value c = join .or l.disjunction (l.product c) := by
  unfold Level.value
  cases l.disjunction <;> rfl

/-- The innermost of several signs `!` can be taken first. -/
theorem negate_not (n : Nat) (c : Condition) : negate n (.not c) = negate (n + 1) c := by
  induction n with
  | zero => rfl
  | succ n ih => exact congrArg Condition.not ih

/-! ## §4 Runs over derivations -/

mutual

/-- The reader goes over an operand. -/
theorem Operand.run_eq (o : Operand) (ps : List Paren) (l : Level) (n : Nat) {ts : List Token}
    (hts : ts.map (·.symbol) = o.symbols)
    (hd : parensDepth ps + l.negations + o.nesting ≤ maxDepth)
    (hn : n + operatorCount o.symbols ≤ maxOperators) :
    run ⟨ps, l, none, n⟩ ts =
      .ok (complete ⟨ps, l, none, n + operatorCount o.symbols⟩ o.value) := by
  match o with
  | .flag f =>
    obtain ⟨⟨_, p⟩, rfl, rfl⟩ := List.map_eq_singleton_iff.1 hts
    rw [run_cons_of_step (.flag f rfl)]
    rfl
  | .not q =>
    obtain ⟨⟨_, p⟩, us, rfl, rfl, hus⟩ := List.map_eq_cons_iff.1 hts
    have hcount : operatorCount (Operand.not q).symbols = operatorCount q.symbols := by
      simp [Operand.symbols, Symbol.isOperator]
    rw [Operand.nesting] at hd
    rw [hcount] at hn ⊢
    -- the sign moves from the operand to the level, where it is negated last
    have hrun := q.run_eq ps { l with negations := l.negations + 1 } n hus (by simp only; omega) hn
    rw [run_cons_of_step (.not rfl (by rw [depth_eq]; simp only; omega)), hrun, complete, complete,
      Operand.value, negate_not]
  | .parens d =>
    obtain ⟨⟨_, p⟩, ws, rfl, rfl, hws⟩ := List.map_eq_cons_iff.1 hts
    obtain ⟨us, vs, rfl, hus, hvs⟩ := List.map_eq_append_iff.1 hws
    obtain ⟨⟨_, p'⟩, rfl, rfl⟩ := List.map_eq_singleton_iff.1 hvs
    have hcount : operatorCount (Operand.parens d).symbols = operatorCount d.symbols := by
      simp [Operand.symbols, Symbol.isOperator]
    rw [Operand.nesting] at hd
    rw [hcount] at hn ⊢
    -- the level behind the `(` starts anew, and is dropped again at the `)`
    obtain ⟨l', r, hrun, -, hvalue⟩ := d.run_eq (⟨p, l⟩ :: ps) none n hus
      (by rw [parensDepth_cons]; simp only; omega) hn
    rw [run_cons_of_step (.opening rfl (by rw [depth_eq]; simp only; omega)), Level.start,
      run_append_of_run hrun, run_cons_of_step (.closing rfl rfl), run_nil, hvalue]
    rfl

/-- The reader goes over a conjunction. -/
theorem Conjunction.run_eq (c : Conjunction) (ps : List Paren) (sum before : Option Condition)
    (n : Nat) {ts : List Token} (hts : ts.map (·.symbol) = c.symbols)
    (hd : parensDepth ps + c.nesting ≤ maxDepth)
    (hn : n + operatorCount c.symbols ≤ maxOperators) :
    ∃ p r, run ⟨ps, ⟨sum, before, 0⟩, none, n⟩ ts =
        .ok ⟨ps, ⟨sum, p, 0⟩, some r, n + operatorCount c.symbols⟩ ∧
      join .and p r = c.valueAfter before := by
  match c with
  | .single o => exact ⟨before, o.value, o.run_eq ps _ n hts hd hn, rfl⟩
  | .and o rest =>
    obtain ⟨us, ws, rfl, hus, hws⟩ := List.map_eq_append_iff.1 hts
    obtain ⟨⟨_, q⟩, vs, rfl, rfl, hvs⟩ := List.map_eq_cons_iff.1 hws
    have hcount : operatorCount (Conjunction.and o rest).symbols =
        operatorCount o.symbols + 1 + operatorCount rest.symbols := by
      simp [Conjunction.symbols, Symbol.isOperator, Nat.add_assoc, Nat.add_comm 1]
    rw [Conjunction.nesting] at hd
    rw [hcount] at hn ⊢
    have hrun := o.run_eq ps ⟨sum, before, 0⟩ n hus (by simp only; omega) (by omega)
    -- at the `&&` the product so far becomes what the rest has before it
    obtain ⟨p, r, hrest, hvalue⟩ := rest.run_eq ps sum (some (join .and before o.value))
      (n + operatorCount o.symbols + 1) hvs (by omega) (by omega)
    refine ⟨p, r, ?_, hvalue⟩
    rw [run_append_of_run hrun, run_cons_of_step (.and rfl (by simp only [complete]; omega)),
      Level.product_eq_join]
    rw [Nat.add_assoc n, Nat.add_assoc n] at hrest
    exact hrest

/-- The reader goes over a disjunction. -/
theorem Disjunction.run_eq (d : Disjunction) (ps : List Paren) (before : Option Condition)
    (n : Nat) {ts : List Token} (hts : ts.map (·.symbol) = d.symbols)
    (hd : parensDepth ps + d.nesting ≤ maxDepth)
    (hn : n + operatorCount d.symbols ≤ maxOperators) :
    ∃ l r, run ⟨ps, ⟨before, none, 0⟩, none, n⟩ ts =
        .ok ⟨ps, l, some r, n + operatorCount d.symbols⟩ ∧
      l.negations = 0 ∧ l.value r = d.valueAfter before := by
  match d with
  | .single c =>
    obtain ⟨p, r, hrun, hvalue⟩ := c.run_eq ps before none n hts hd hn
    refine ⟨⟨before, p, 0⟩, r, hrun, rfl, ?_⟩
    rw [Level.value_eq_join, Level.product_eq_join, hvalue, Disjunction.valueAfter]
  | .or c rest =>
    obtain ⟨us, ws, rfl, hus, hws⟩ := List.map_eq_append_iff.1 hts
    obtain ⟨⟨_, q⟩, vs, rfl, rfl, hvs⟩ := List.map_eq_cons_iff.1 hws
    have hcount : operatorCount (Disjunction.or c rest).symbols =
        operatorCount c.symbols + 1 + operatorCount rest.symbols := by
      simp [Disjunction.symbols, Symbol.isOperator, Nat.add_assoc, Nat.add_comm 1]
    rw [Disjunction.nesting] at hd
    rw [hcount] at hn ⊢
    obtain ⟨p, r, hrun, hvalue⟩ := c.run_eq ps before none n hus (by omega) (by omega)
    -- at the `||` the last product joins the sum, and a new one starts
    obtain ⟨l, r', hrest, hneg, hvalue'⟩ := rest.run_eq ps
      (some (join .or before (c.valueAfter none))) (n + operatorCount c.symbols + 1) hvs
      (by omega) (by omega)
    refine ⟨l, r', ?_, hneg, hvalue'⟩
    rw [run_append_of_run hrun, run_cons_of_step (.or rfl (by simp only; omega)),
      Level.value_eq_join, Level.product_eq_join, hvalue]
    rw [Nat.add_assoc n, Nat.add_assoc n] at hrest
    exact hrest

end

/-! ## §5 Texts -/

theorem exists_run_of_ofTokens {length : Nat} {ts : List Token} {c : Condition}
    (h : ofTokens length ts = .ok c) :
    ∃ s, State.start.run ts = .ok s ∧ s.finish length = .ok c := by
  unfold ofTokens at h
  split at h
  · contradiction
  · cases hrun : State.start.run ts with
    | error e => rw [hrun] at h; cases h
    | ok s => exact ⟨s, rfl, by rw [hrun] at h; exact h⟩

theorem ofTokens_of_run {length : Nat} {ts : List Token} {c : Condition} {s : State}
    (hrun : State.start.run ts = .ok s) (hc : s.finish length = .ok c) :
    ofTokens length ts = .ok c := by
  unfold ofTokens
  split
  · cases hrun
    cases hc
  · rw [hrun]
    exact hc

/-- Tokens are read as the value of a derivation of their symbols within the limits. -/
theorem ofTokens_eq_ok_iff {length : Nat} {ts : List Token} {c : Condition} :
    ofTokens length ts = .ok c ↔
      ∃ d : Disjunction, d.symbols = ts.map (·.symbol) ∧ d.value = c ∧
        operatorCount d.symbols ≤ maxOperators ∧ d.nesting ≤ maxDepth := by
  constructor
  · intro h
    obtain ⟨s, hrun, hc⟩ := exists_run_of_ofTokens h
    -- soundness gives the derivation, the run its number of operators
    obtain ⟨d, hd, hvalue, hnesting⟩ := (reads_start.run hrun).finish hc
    obtain ⟨hcount, hle⟩ := operators_of_run hrun (Nat.zero_le _)
    rw [List.nil_append] at hd
    simp only [State.start, Nat.zero_add] at hcount
    exact ⟨d, hd, hvalue, by rwa [hd, ← hcount], hnesting⟩
  · rintro ⟨d, hd, rfl, hcount, hnesting⟩
    obtain ⟨l, r, hrun, -, hvalue⟩ := d.run_eq [] none 0 hd.symm
      (by simpa [parensDepth] using hnesting) (by simpa using hcount)
    exact ofTokens_of_run hrun (congrArg Except.ok hvalue)

/-- A text is read as a condition when it has tokens that are. -/
theorem read_eq_ok_iff_ofTokens {text : String} {c : Condition} :
    read text = .ok c ↔
      ∃ ts, tokenize text = .ok ts ∧ ofTokens text.utf8ByteSize ts = .ok c := by
  unfold read
  cases tokenize text with
  | error e => simp [bind, Except.bind]
  | ok ts => simp [bind, Except.bind]

/-- **A text is read as a condition exactly when the grammar derives its symbols within the
limits**: at most 256 operators, and at most 64 signs `!` and `(` that are open at once. There is
one derivation then, and the condition is its value. -/
theorem read_eq_ok_iff_derivation (text : String) (c : Condition) :
    read text = .ok c ↔
      ∃ ts, tokenize text = .ok ts ∧ operatorCount (ts.map (·.symbol)) ≤ 256 ∧
        ∃ d : Disjunction, d.symbols = ts.map (·.symbol) ∧ d.nesting ≤ 64 ∧ d.value = c ∧
          ∀ d' : Disjunction, d'.symbols = ts.map (·.symbol) → d' = d := by
  rw [read_eq_ok_iff_ofTokens]
  constructor
  · rintro ⟨ts, hts, h⟩
    obtain ⟨d, hd, hvalue, hcount, hnesting⟩ := ofTokens_eq_ok_iff.1 h
    exact ⟨ts, hts, hd ▸ hcount, d, hd, hnesting, hvalue,
      fun d' hd' => Disjunction.eq_of_symbols_eq (hd'.trans hd.symm)⟩
  · rintro ⟨ts, hts, hcount, d, hd, hnesting, hvalue, -⟩
    exact ⟨ts, hts, ofTokens_eq_ok_iff.2 ⟨d, hd, hvalue, hd ▸ hcount, hnesting⟩⟩

end Keybinding.Condition
