import Keybinding.Condition.Reader

/-!
# The grammar of conditions

A list of symbols spells a condition by the grammar

    expr  := or
    or    := and ( "||" and )*
    and   := unary ( "&&" unary )*
    unary := "!" unary | atom
    atom  := IDENT | "(" expr ")"

in which an identifier is the name of a flag. The derivations of this grammar are trees, one type
for each level of binding: `Operand` for `unary` and `atom`, `Conjunction` for `and`, `Disjunction`
for `or`. A derivation has the symbols that it derives, the condition that it means, and a nesting.

- `Disjunction.eq_of_symbols_eq`: the grammar is unambiguous.
-/

namespace Keybinding.Condition

/-! ## §1 Derivations -/

mutual

/-- `unary := "!" unary | atom` and `atom := IDENT | "(" expr ")"`. -/
inductive Operand where
  | flag (f : Flag)
  | not (o : Operand)
  | parens (d : Disjunction)

/-- `and := unary ( "&&" unary )*`: the first operand, then the others. -/
inductive Conjunction where
  | single (o : Operand)
  | and (o : Operand) (rest : Conjunction)

/-- `or := and ( "||" and )*`: the first conjunction, then the others. -/
inductive Disjunction where
  | single (c : Conjunction)
  | or (c : Conjunction) (rest : Disjunction)

end

mutual

/-- The symbols that an operand derives. -/
def Operand.symbols : Operand → List Symbol
  | .flag f => [.name f.name]
  | .not o => .not :: o.symbols
  | .parens d => .opening :: (d.symbols ++ [.closing])

/-- The symbols that a conjunction derives. -/
def Conjunction.symbols : Conjunction → List Symbol
  | .single o => o.symbols
  | .and o rest => o.symbols ++ .and :: rest.symbols

/-- The symbols that a disjunction derives. -/
def Disjunction.symbols : Disjunction → List Symbol
  | .single c => c.symbols
  | .or c rest => c.symbols ++ .or :: rest.symbols

end

/-- A condition behind the one that an operator of its kind has on the left, if it has any. -/
def join (op : Condition → Condition → Condition) : Option Condition → Condition → Condition
  | none, c => c
  | some l, c => op l c

mutual

/-- The condition that an operand means. Parentheses leave no trace. -/
def Operand.value : Operand → Condition
  | .flag f => .flag f
  | .not o => .not o.value
  | .parens d => d.valueAfter none

/-- The condition that a conjunction means after the operands before it: `&&` associates to the
left. -/
def Conjunction.valueAfter (before : Option Condition) : Conjunction → Condition
  | .single o => join .and before o.value
  | .and o rest => rest.valueAfter (some (join .and before o.value))

/-- The condition that a disjunction means after the conjunctions before it: `||` associates to the
left. -/
def Disjunction.valueAfter (before : Option Condition) : Disjunction → Condition
  | .single c => join .or before (c.valueAfter none)
  | .or c rest => rest.valueAfter (some (join .or before (c.valueAfter none)))

end

/-- The condition that a conjunction means. -/
def Conjunction.value (c : Conjunction) : Condition := c.valueAfter none

/-- The condition that a disjunction means. -/
def Disjunction.value (d : Disjunction) : Condition := d.valueAfter none

mutual

/-- The largest number of signs `!` and `(` that are open at once, a `!` over its operand and a `(`
up to its `)`. -/
def Operand.nesting : Operand → Nat
  | .flag _ => 0
  | .not o => o.nesting + 1
  | .parens d => d.nesting + 1

/-- Operands beside each other do not add up. -/
def Conjunction.nesting : Conjunction → Nat
  | .single o => o.nesting
  | .and o rest => max o.nesting rest.nesting

/-- Conjunctions beside each other do not add up. -/
def Disjunction.nesting : Disjunction → Nat
  | .single c => c.nesting
  | .or c rest => max c.nesting rest.nesting

end

/-- The symbols `&&` and `||`. -/
def Symbol.isOperator : Symbol → Bool
  | .and | .or => true
  | _ => false

/-- The number of operators among symbols. -/
def operatorCount (ss : List Symbol) : Nat := ss.countP Symbol.isOperator

@[simp] theorem operatorCount_append (ss ts : List Symbol) :
    operatorCount (ss ++ ts) = operatorCount ss + operatorCount ts :=
  List.countP_append

@[simp] theorem operatorCount_nil : operatorCount [] = 0 := rfl

@[simp] theorem operatorCount_cons (s : Symbol) (ss : List Symbol) :
    operatorCount (s :: ss) = operatorCount ss + if s.isOperator then 1 else 0 :=
  List.countP_cons

/-! ## §2 One operand more -/

/-- A conjunction with one operand more at its end. -/
def Conjunction.snoc (o : Operand) : Conjunction → Conjunction
  | .single p => .and p (.single o)
  | .and p rest => .and p (rest.snoc o)

/-- A disjunction with one conjunction more at its end. -/
def Disjunction.snoc (c : Conjunction) : Disjunction → Disjunction
  | .single b => .or b (.single c)
  | .or b rest => .or b (rest.snoc c)

@[simp] theorem Conjunction.symbols_snoc (c : Conjunction) (o : Operand) :
    (c.snoc o).symbols = c.symbols ++ .and :: o.symbols := by
  fun_induction c.snoc o with
  | case1 p => simp [Conjunction.symbols]
  | case2 p rest ih => simp [Conjunction.symbols, ih]

@[simp] theorem Conjunction.value_snoc (c : Conjunction) (o : Operand) :
    (c.snoc o).value = .and c.value o.value := by
  -- general in what stands before: behind the first operand, that operand does
  have h : ∀ before, (c.snoc o).valueAfter before = .and (c.valueAfter before) o.value := by
    fun_induction c.snoc o with
    | case1 p => exact fun before => rfl
    | case2 p rest ih => exact fun before => ih _
  exact h none

@[simp] theorem Conjunction.nesting_snoc (c : Conjunction) (o : Operand) :
    (c.snoc o).nesting = max c.nesting o.nesting := by
  fun_induction c.snoc o with
  | case1 p => simp [Conjunction.nesting]
  | case2 p rest ih => simp [Conjunction.nesting, ih, Nat.max_assoc]

@[simp] theorem Disjunction.symbols_snoc (d : Disjunction) (c : Conjunction) :
    (d.snoc c).symbols = d.symbols ++ .or :: c.symbols := by
  fun_induction d.snoc c with
  | case1 b => simp [Disjunction.symbols]
  | case2 b rest ih => simp [Disjunction.symbols, ih]

@[simp] theorem Disjunction.value_snoc (d : Disjunction) (c : Conjunction) :
    (d.snoc c).value = .or d.value c.value := by
  have h : ∀ before, (d.snoc c).valueAfter before = .or (d.valueAfter before) c.value := by
    fun_induction d.snoc c with
    | case1 b => exact fun before => rfl
    | case2 b rest ih => exact fun before => ih _
  exact h none

@[simp] theorem Disjunction.nesting_snoc (d : Disjunction) (c : Conjunction) :
    (d.snoc c).nesting = max d.nesting c.nesting := by
  fun_induction d.snoc c with
  | case1 b => simp [Disjunction.nesting]
  | case2 b rest ih => simp [Disjunction.nesting, ih, Nat.max_assoc]

/-! ## §3 Unambiguity

Two derivations are compared from the left. Operands end by themselves; a conjunction ends where no
`&&` follows, a disjunction where neither `&&` nor `||` does. -/

mutual

theorem Operand.eq_of_append_eq (o o' : Operand) {r r' : List Symbol}
    (h : o.symbols ++ r = o'.symbols ++ r') : o = o' ∧ r = r' := by
  match o, o' with
  | .flag f, .flag g =>
    simp only [Operand.symbols, List.singleton_append, List.cons.injEq, Symbol.name.injEq] at h
    exact ⟨congrArg Operand.flag (Flag.name_injective h.1), h.2⟩
  | .not p, .not p' =>
    simp only [Operand.symbols, List.cons_append, List.cons.injEq, true_and] at h
    obtain ⟨rfl, rfl⟩ := Operand.eq_of_append_eq p p' h
    exact ⟨rfl, rfl⟩
  | .parens d, .parens d' =>
    simp only [Operand.symbols, List.cons_append, List.append_assoc, List.nil_append,
      List.cons.injEq, true_and] at h
    -- inside, the `)` is neither operator, so both disjunctions end where they end
    obtain ⟨rfl, hr⟩ := Disjunction.eq_of_append_eq d d' (by simp) (by simp) (by simp) (by simp) h
    exact ⟨rfl, (List.cons.inj hr).2⟩
  -- the first symbol tells the three forms of an operand apart
  | .flag _, .not _ | .flag _, .parens _ | .not _, .flag _ | .not _, .parens _
  | .parens _, .flag _ | .parens _, .not _ => simp [Operand.symbols] at h

theorem Conjunction.eq_of_append_eq (c c' : Conjunction) {r r' : List Symbol}
    (hr : r.head? ≠ some .and) (hr' : r'.head? ≠ some .and)
    (h : c.symbols ++ r = c'.symbols ++ r') : c = c' ∧ r = r' := by
  match c, c' with
  | .single o, .single o' =>
    obtain ⟨rfl, rfl⟩ := Operand.eq_of_append_eq o o' h
    exact ⟨rfl, rfl⟩
  | .and o rest, .and o' rest' =>
    simp only [Conjunction.symbols, List.append_assoc, List.cons_append] at h
    obtain ⟨rfl, ht⟩ := Operand.eq_of_append_eq o o' h
    obtain ⟨rfl, rfl⟩ := Conjunction.eq_of_append_eq rest rest' hr hr' (List.cons.inj ht).2
    exact ⟨rfl, rfl⟩
  -- a conjunction that ends first would be followed by the `&&` of the other one
  | .single o, .and o' rest' =>
    simp only [Conjunction.symbols, List.append_assoc, List.cons_append] at h
    obtain ⟨-, rfl⟩ := Operand.eq_of_append_eq o o' h
    simp at hr
  | .and o rest, .single o' =>
    simp only [Conjunction.symbols, List.append_assoc, List.cons_append] at h
    obtain ⟨-, rfl⟩ := Operand.eq_of_append_eq o o' h
    simp at hr'

theorem Disjunction.eq_of_append_eq (d d' : Disjunction) {r r' : List Symbol}
    (hand : r.head? ≠ some .and) (hand' : r'.head? ≠ some .and)
    (hor : r.head? ≠ some .or) (hor' : r'.head? ≠ some .or)
    (h : d.symbols ++ r = d'.symbols ++ r') : d = d' ∧ r = r' := by
  match d, d' with
  | .single c, .single c' =>
    obtain ⟨rfl, rfl⟩ := Conjunction.eq_of_append_eq c c' hand hand' h
    exact ⟨rfl, rfl⟩
  | .or c rest, .or c' rest' =>
    simp only [Disjunction.symbols, List.append_assoc, List.cons_append] at h
    obtain ⟨rfl, ht⟩ := Conjunction.eq_of_append_eq c c' (by simp) (by simp) h
    obtain ⟨rfl, rfl⟩ :=
      Disjunction.eq_of_append_eq rest rest' hand hand' hor hor' (List.cons.inj ht).2
    exact ⟨rfl, rfl⟩
  -- likewise with `||`
  | .single c, .or c' rest' =>
    simp only [Disjunction.symbols, List.append_assoc, List.cons_append] at h
    obtain ⟨-, rfl⟩ := Conjunction.eq_of_append_eq c c' hand (by simp) h
    simp at hor
  | .or c rest, .single c' =>
    simp only [Disjunction.symbols, List.append_assoc, List.cons_append] at h
    obtain ⟨-, rfl⟩ := Conjunction.eq_of_append_eq c c' (by simp) hand' h
    simp at hor'

end

/-- **The grammar is unambiguous**: two derivations of the same symbols are the same. -/
theorem Disjunction.eq_of_symbols_eq {d d' : Disjunction} (h : d.symbols = d'.symbols) :
    d = d' := by
  have happend : d.symbols ++ [] = d'.symbols ++ [] := by rw [h]
  exact (Disjunction.eq_of_append_eq d d' (by simp) (by simp) (by simp) (by simp) happend).1

end Keybinding.Condition
