import Keybinding.Proofs.Condition.Acceptance
import Keybinding.Proofs.Steps

/-!
# Truth by segments

The truth value of a written condition can be told from its symbols, without a tree. The symbols are
cut at each `||` outside of all parentheses, and each segment at each `&&` outside of all of them.
The condition is true when some segment has only true factors. A factor is a number of signs `!`
before a name or before symbols between parentheses, and the signs negate when their number is odd.

- `eval_read_iff`: a text that is read as a condition has this truth value.
-/

namespace Keybinding.Condition

/-! ## §1 Cutting at the top level -/

/-- The number of parentheses that are open behind a symbol. -/
def depthAfter (depth : Nat) : Symbol → Nat
  | .opening => depth + 1
  | .closing => depth - 1
  | _ => depth

/-- The parts of symbols between the occurrences of `sep` outside of all parentheses, where `depth`
parentheses are open at the start. -/
def partsFrom (sep : Symbol) (depth : Nat) : List Symbol → List (List Symbol)
  | [] => [[]]
  | s :: rest =>
    if depth = 0 ∧ s = sep then [] :: partsFrom sep 0 rest
    else (partsFrom sep (depthAfter depth s) rest).modifyHead (s :: ·)

/-- The parts of symbols between the occurrences of `sep` outside of all parentheses. -/
def parts (sep : Symbol) (ss : List Symbol) : List (List Symbol) :=
  partsFrom sep 0 ss

theorem partsFrom_ne_nil (sep : Symbol) (depth : Nat) (ss : List Symbol) :
    partsFrom sep depth ss ≠ [] := by
  induction ss generalizing depth with
  | nil => simp [partsFrom]
  | cons s rest ih =>
    rw [partsFrom]
    split
    · simp
    · rw [Ne, List.modifyHead_eq_nil_iff]
      exact ih _

/-- Nothing is lost: the parts with the separators between them are the symbols. -/
theorem intercalate_partsFrom (sep : Symbol) (depth : Nat) (ss : List Symbol) :
    List.intercalate [sep] (partsFrom sep depth ss) = ss := by
  induction ss generalizing depth with
  | nil => rfl
  | cons s rest ih =>
    rw [partsFrom]
    split
    · next hsep =>
      obtain ⟨p, ps, hps⟩ := List.exists_cons_of_ne_nil (partsFrom_ne_nil sep 0 rest)
      have hrest := ih 0
      rw [hps] at hrest ⊢
      rw [List.intercalate_cons_cons, hrest, hsep.2]
      rfl
    · have hrest := ih (depthAfter depth s)
      obtain ⟨p, ps, hps⟩ :=
        List.exists_cons_of_ne_nil (partsFrom_ne_nil sep (depthAfter depth s) rest)
      rw [hps] at hrest ⊢
      rw [List.modifyHead_cons, ← hrest]
      cases ps <;> simp [List.intercalate_cons_cons]

theorem length_le_of_mem_intercalate {α : Type} (sep : List α) {p : List α} {ps : List (List α)}
    (h : p ∈ ps) : p.length ≤ (List.intercalate sep ps).length := by
  induction ps with
  | nil => simp at h
  | cons q ps ih =>
    cases ps with
    | nil => simp_all
    | cons r ps =>
      rw [List.intercalate_cons_cons, List.length_append, List.length_append]
      rcases List.mem_cons.1 h with rfl | h
      · omega
      · have hle := ih h
        omega

theorem length_le_of_mem_parts {sep : Symbol} {p ss : List Symbol} (h : p ∈ parts sep ss) :
    p.length ≤ ss.length := by
  have hle := length_le_of_mem_intercalate [sep] h
  rwa [parts, intercalate_partsFrom] at hle

/-! ## §2 Truth without a tree -/

mutual

/-- Some segment between `||` has only true factors between `&&`. -/
def segmentsHold (active : FlagSet) (ss : List Symbol) : Bool :=
  (parts .or ss).attach.any fun segment =>
    (parts .and segment.1).attach.all fun factor => factorHolds active factor.1
termination_by (ss.length, 2)
decreasing_by
  have hsegment := length_le_of_mem_parts segment.2
  have hfactor := length_le_of_mem_parts factor.2
  rw [Prod.lex_def]
  omega

/-- An odd number of signs `!` in front of a false operand, or an even number in front of a true
one. -/
def factorHolds (active : FlagSet) (ss : List Symbol) : Bool :=
  ((ss.takeWhile (· == .not)).length % 2 == 1) ^^ operandHolds active (ss.dropWhile (· == .not))
termination_by (ss.length, 1)
decreasing_by
  have hle := (List.dropWhile_suffix (· == Symbol.not) (l := ss)).length_le
  rw [Prod.lex_def]
  omega

/-- The name of a flag that is on, or parentheses around symbols that hold. -/
def operandHolds (active : FlagSet) (ss : List Symbol) : Bool :=
  match ss with
  | [.name n] => (Flag.ofName? n).any active.contains
  | .opening :: rest => rest.getLast? == some .closing && segmentsHold active rest.dropLast
  | _ => false
termination_by (ss.length, 0)
decreasing_by
  rw [Prod.lex_def]
  simp only [List.length_dropLast, List.length_cons]
  omega

end

theorem segmentsHold_eq (active : FlagSet) (ss : List Symbol) :
    segmentsHold active ss =
      (parts .or ss).any fun segment => (parts .and segment).all (factorHolds active) := by
  rw [segmentsHold]
  simp

theorem factorHolds_not (active : FlagSet) (ss : List Symbol) :
    factorHolds active (.not :: ss) = !factorHolds active ss := by
  rw [factorHolds, factorHolds, List.takeWhile_cons_of_pos (by rfl), List.length_cons,
    List.dropWhile_cons_of_pos (by rfl), ← Bool.not_xor]
  congr 1
  rcases Nat.mod_two_eq_zero_or_one (ss.takeWhile (· == Symbol.not)).length with h | h
  · simp [Nat.add_mod, h]
  · simp [Nat.add_mod, h]

theorem factorHolds_name (active : FlagSet) (n : String) :
    factorHolds active [.name n] = (Flag.ofName? n).any active.contains := by
  rw [factorHolds, List.takeWhile_cons_of_neg (by simp), List.dropWhile_cons_of_neg (by simp),
    operandHolds]
  simp

theorem factorHolds_parens (active : FlagSet) (ss : List Symbol) :
    factorHolds active (.opening :: (ss ++ [.closing])) = segmentsHold active ss := by
  rw [factorHolds, List.takeWhile_cons_of_neg (by simp), List.dropWhile_cons_of_neg (by simp),
    operandHolds]
  simp

/-! ## §3 The parts of a derivation -/

/-- No cut is made in the symbols, where `depth` parentheses are open before them. -/
def Solid (sep : Symbol) (depth : Nat) (ss : List Symbol) : Prop :=
  ∀ rest, partsFrom sep depth (ss ++ rest) = (partsFrom sep depth rest).modifyHead (ss ++ ·)

section Solid

variable {sep s : Symbol} {depth : Nat} {us vs : List Symbol}

theorem Solid.append (hu : Solid sep depth us) (hv : Solid sep depth vs) :
    Solid sep depth (us ++ vs) := by
  intro rest
  rw [List.append_assoc, hu, hv, List.modifyHead_modifyHead]
  congr 1
  funext ps
  simp

/-- A symbol that is no parenthesis, and not the separator outside of all parentheses. -/
theorem solid_singleton (hs : depthAfter depth s = depth) (hsep : ¬ (depth = 0 ∧ s = sep)) :
    Solid sep depth [s] := by
  intro rest
  rw [List.singleton_append, partsFrom, if_neg hsep, hs]
  rfl

theorem Solid.parens (hsep : sep.isOperator = true) (hu : Solid sep (depth + 1) us) :
    Solid sep depth (.opening :: (us ++ [.closing])) := by
  have hopening : ¬ (depth = 0 ∧ Symbol.opening = sep) := by
    rintro ⟨-, rfl⟩
    contradiction
  intro rest
  rw [List.cons_append, List.append_assoc, partsFrom, if_neg hopening, depthAfter, hu,
    List.singleton_append, partsFrom, if_neg (by simp), depthAfter, Nat.add_sub_cancel,
    List.modifyHead_modifyHead, List.modifyHead_modifyHead]
  congr 1
  funext ps
  simp

theorem Solid.parts_eq (h : Solid sep 0 us) : parts sep us = [us] := by
  have hparts := h []
  rw [List.append_nil] at hparts
  rw [parts, hparts]
  simp [partsFrom]

theorem Solid.parts_append (h : Solid sep 0 us) :
    parts sep (us ++ sep :: vs) = us :: parts sep vs := by
  rw [parts, h, partsFrom, if_pos ⟨rfl, rfl⟩]
  simp [parts]

end Solid

mutual

theorem Operand.solid (o : Operand) {sep : Symbol} (hsep : sep.isOperator = true) (depth : Nat) :
    Solid sep depth o.symbols := by
  match o with
  | .flag f =>
    apply solid_singleton rfl
    rintro ⟨-, rfl⟩
    contradiction
  | .not p =>
    have hnot : Solid sep depth [.not] := by
      apply solid_singleton rfl
      rintro ⟨-, rfl⟩
      contradiction
    exact hnot.append (p.solid hsep depth)
  | .parens d => exact (d.solid hsep depth).parens hsep

/-- A conjunction is cut at `&&` only. -/
theorem Conjunction.solid (c : Conjunction) {sep : Symbol} (hsep : sep.isOperator = true)
    {depth : Nat} (hcut : ¬ (depth = 0 ∧ Symbol.and = sep)) : Solid sep depth c.symbols := by
  match c with
  | .single o => exact o.solid hsep depth
  | .and o rest =>
    exact (o.solid hsep depth).append ((solid_singleton rfl hcut).append (rest.solid hsep hcut))

theorem Disjunction.solid (d : Disjunction) {sep : Symbol} (hsep : sep.isOperator = true)
    (depth : Nat) : Solid sep (depth + 1) d.symbols := by
  match d with
  | .single c => exact c.solid hsep (by simp)
  | .or c rest =>
    exact (c.solid hsep (by simp)).append
      ((solid_singleton rfl (by simp)).append (rest.solid hsep depth))

end

/-! ## §4 The value of a derivation -/

theorem eval_join_and (active : FlagSet) (before : Option Condition) (c : Condition) :
    (join .and before c).eval active = (before.all (eval active) && c.eval active) := by
  cases before <;> rfl

theorem eval_join_or (active : FlagSet) (before : Option Condition) (c : Condition) :
    (join .or before c).eval active = (before.any (eval active) || c.eval active) := by
  cases before <;> rfl

mutual

/-- An operand holds as a factor when its value does. -/
theorem Operand.eval_value (o : Operand) (active : FlagSet) :
    o.value.eval active = factorHolds active o.symbols := by
  match o with
  | .flag f =>
    rw [Operand.symbols, factorHolds_name, Flag.ofName?_name]
    rfl
  | .not p =>
    rw [Operand.symbols, factorHolds_not, ← p.eval_value active]
    rfl
  | .parens d =>
    rw [Operand.symbols, factorHolds_parens, segmentsHold_eq, Operand.value,
      d.eval_valueAfter active none]
    rfl

/-- The factors of a conjunction are its operands. -/
theorem Conjunction.eval_valueAfter (c : Conjunction) (active : FlagSet)
    (before : Option Condition) :
    (c.valueAfter before).eval active =
      (before.all (eval active) && (parts .and c.symbols).all (factorHolds active)) := by
  match c with
  | .single o =>
    rw [Conjunction.symbols, (o.solid rfl 0).parts_eq, Conjunction.valueAfter, eval_join_and,
      o.eval_value active]
    simp
  | .and o rest =>
    rw [Conjunction.symbols, (o.solid rfl 0).parts_append, Conjunction.valueAfter,
      rest.eval_valueAfter active, Option.all_some, eval_join_and, o.eval_value active,
      List.all_cons, Bool.and_assoc]

/-- The segments of a disjunction are its conjunctions. -/
theorem Disjunction.eval_valueAfter (d : Disjunction) (active : FlagSet)
    (before : Option Condition) :
    (d.valueAfter before).eval active =
      (before.any (eval active) || (parts .or d.symbols).any fun segment =>
        (parts .and segment).all (factorHolds active)) := by
  match d with
  | .single c =>
    rw [Disjunction.symbols, (c.solid rfl (by simp)).parts_eq, Disjunction.valueAfter, eval_join_or,
      c.eval_valueAfter active none]
    simp
  | .or c rest =>
    rw [Disjunction.symbols, (c.solid rfl (by simp)).parts_append, Disjunction.valueAfter,
      rest.eval_valueAfter active, Option.any_some, eval_join_or, c.eval_valueAfter active none,
      List.any_cons, Bool.or_assoc]
    simp

end

/-- **A condition is true when some segment of its text has only true factors.** The segments lie
between `||` and the factors between `&&`, both outside of all parentheses. Neither the shape of the
tree nor the order in which it is evaluated has a say. -/
theorem eval_read_iff {text : String} {c : Condition} (h : read text = .ok c) (active : FlagSet) :
    ∃ ts, tokenize text = .ok ts ∧
      (c.eval active = true ↔
        ∃ segment ∈ parts .or (ts.map (·.symbol)),
          ∀ factor ∈ parts .and segment, factorHolds active factor = true) := by
  obtain ⟨ts, hts, hofTokens⟩ := read_eq_ok_iff_ofTokens.1 h
  obtain ⟨d, hd, rfl, -, -⟩ := ofTokens_eq_ok_iff.1 hofTokens
  refine ⟨ts, hts, ?_⟩
  rw [← hd, Disjunction.value, d.eval_valueAfter active none]
  simp

/-- With signs before parentheses, and an `||` inside of them that does not end the segment. -/
theorem eval_read_iff_nested :
    ∃ c ts, read "!!(modalOpen||!pickerOpen)&&drawerOpen||canGoBack" = .ok c ∧
      tokenize "!!(modalOpen||!pickerOpen)&&drawerOpen||canGoBack" = .ok ts ∧
        (¬ ∃ segment ∈ parts .or (ts.map (·.symbol)),
          ∀ factor ∈ parts .and segment, factorHolds (.ofList [.modalOpen]) factor = true) ∧
        ∃ segment ∈ parts .or (ts.map (·.symbol)),
          ∀ factor ∈ parts .and segment,
            factorHolds (.ofList [.modalOpen, .drawerOpen]) factor = true := by
  have hread : read "!!(modalOpen||!pickerOpen)&&drawerOpen||canGoBack" =
      .ok (.or (.and (.not (.not (.or (.flag .modalOpen) (.not (.flag .pickerOpen)))))
        (.flag .drawerOpen)) (.flag .canGoBack)) :=
    Except.toOption_eq_some_iff.1 (by decide +kernel)
  obtain ⟨ts, hts, hiff⟩ := eval_read_iff hread (.ofList [.modalOpen])
  obtain ⟨ts', hts', hiff'⟩ := eval_read_iff hread (.ofList [.modalOpen, .drawerOpen])
  obtain rfl : ts = ts' := Except.ok.inj (hts.symm.trans hts')
  exact ⟨_, ts, hread, hts, fun hsegment => absurd (hiff.2 hsegment) (by decide),
    hiff'.1 (by decide)⟩

end Keybinding.Condition
