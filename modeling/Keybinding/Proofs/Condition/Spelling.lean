import Keybinding.Condition.Token
import Keybinding.Proofs.Text.Basic

/-!
# Spelling out symbols

A list of symbols can be written out with any white space between the symbols, as long as no letter
or digit follows a name directly. `Spells cs ss` says that the characters `cs` are such a writing of
the symbols `ss`. The tokenizer reads it back (`Spells.exists_tokensFrom`). Symbols with white space
between them are written like this (`IsSpaced.spells`). A writing can be cut at a parenthesis
(`Spells.exists_of_punctuation`), and two writings can be put together, where two names may become
one (`Spells.exists_append`).
-/

namespace Keybinding.Condition

open Text

/-! ## §1 Writings -/

/-- A symbol that some text can spell: the name is a letter with letters and digits behind it. -/
def Symbol.isLexeme : Symbol → Bool
  | .name s =>
    match s.toList with
    | [] => false
    | c :: rest => c.isAlpha && rest.all Char.isAlphanum
  | _ => true

/-- The symbol is a name. -/
def Symbol.isName : Symbol → Bool
  | .name _ => true
  | _ => false

/-- No letter or digit stands in front of a text. -/
def StartsApart (cs : List Char) : Prop :=
  ∀ c, cs.head? = some c → c.isAlphanum = false

/-- The characters write out the symbols. -/
inductive Spells : List Char → List Symbol → Prop
  | nil : Spells [] []
  | space {c : Char} {cs : List Char} {ss : List Symbol} (hc : isSpace c = true)
      (h : Spells cs ss) : Spells (c :: cs) ss
  | symbol {s : Symbol} {cs : List Char} {ss : List Symbol} (hs : s.isLexeme = true)
      (hend : s.isName = true → StartsApart cs) (h : Spells cs ss) :
      Spells (s.spelling.toList ++ cs) (s :: ss)

theorem startsApart_nil : StartsApart [] := nofun

theorem startsApart_cons {c : Char} {cs : List Char} :
    StartsApart (c :: cs) ↔ c.isAlphanum = false := by
  simp [StartsApart]

theorem StartsApart.append {cs ds : List Char} (hc : StartsApart cs)
    (hd : cs = [] → StartsApart ds) : StartsApart (cs ++ ds) := by
  cases cs with
  | nil => exact hd rfl
  | cons c cs => exact startsApart_cons.2 (startsApart_cons.1 hc)

theorem isAlphanum_of_isSpace {c : Char} (h : isSpace c = true) : c.isAlphanum = false := by
  cases halnum : c.isAlphanum with
  | false => rfl
  | true =>
    have hbounds := toNat_of_isAlphanum halnum
    rw [isSpace_of_visible (by omega) (by omega)] at h
    contradiction

theorem startsApart_of_isSpace {cs : List Char} (h : ∀ c ∈ cs, isSpace c = true) :
    StartsApart cs :=
  fun c hc => isAlphanum_of_isSpace (h c (List.mem_of_mem_head? hc))

/-- A symbol that is no name starts with no letter or digit. -/
theorem startsApart_spelling {s : Symbol} (h : s.isName = false) (cs : List Char) :
    StartsApart (s.spelling.toList ++ cs) := by
  cases s with
  | name n => simp [Symbol.isName] at h
  | not | and | or | opening | closing => exact startsApart_cons.2 (by decide)

/-- A name starts with a letter. -/
theorem not_startsApart_of_isName {s : Symbol} (hs : s.isLexeme = true) (hname : s.isName = true)
    (cs : List Char) : ¬ StartsApart (s.spelling.toList ++ cs) := by
  cases s with
  | name n =>
    simp only [Symbol.isLexeme] at hs
    cases hn : n.toList with
    | nil => simp [hn] at hs
    | cons c rest =>
      rw [hn] at hs
      have halpha : c.isAlpha = true := (Bool.and_eq_true_iff.1 hs).1
      simp [Symbol.spelling, hn, startsApart_cons, Char.isAlphanum, halpha]
  | not | and | or | opening | closing => simp [Symbol.isName] at hname

/-! ## §2 Reading a writing -/

/-- A letter of ASCII is no white space. -/
theorem isSpace_of_isAlpha {c : Char} (h : c.isAlpha = true) : isSpace c = false := by
  have hbounds := toNat_of_isAlpha h
  exact isSpace_of_visible (by omega) (by omega)

/-- A letter of ASCII starts no symbol but a name. -/
theorem punctuation?_of_isAlpha {c : Char} (h : c.isAlpha = true) :
    punctuation? c = none ∧ operator? c = none := by
  constructor
  · unfold punctuation?
    split <;> first | rfl | exact absurd h (by decide)
  · unfold operator?
    split <;> first | rfl | exact absurd h (by decide)

/-- A name ends where no letter or digit follows. -/
theorem span_of_startsApart {rest cs : List Char} (hrest : ∀ d ∈ rest, d.isAlphanum = true)
    (hcs : StartsApart cs) :
    (rest ++ cs).takeWhile Char.isAlphanum = rest ∧
      (rest ++ cs).dropWhile Char.isAlphanum = cs := by
  rw [List.takeWhile_append_of_pos hrest, List.dropWhile_append_of_pos hrest]
  cases cs with
  | nil => simp
  | cons c cs => simp [startsApart_cons.1 hcs]

/-- A lexeme in front of a text is the symbol there, unless it is a name that goes on. -/
theorem exists_symbolAt {s : Symbol} (hs : s.isLexeme = true) {cs : List Char}
    (hend : s.isName = true → StartsApart cs) (position : Nat) :
    ∃ c rest, s.spelling.toList ++ cs = c :: rest ∧ isSpace c = false ∧
      symbolAt position c rest = .ok (s, cs) := by
  cases s with
  -- all symbols but names are told by their first character
  | name n =>
    simp only [Symbol.isLexeme] at hs
    cases hn : n.toList with
    | nil => simp [hn] at hs
    | cons c rest =>
      rw [hn] at hs
      obtain ⟨hc, hrest⟩ := Bool.and_eq_true_iff.1 hs
      obtain ⟨htake, hdrop⟩ := span_of_startsApart (List.all_eq_true.1 hrest) (hend rfl)
      obtain ⟨hp, ho⟩ := punctuation?_of_isAlpha hc
      refine ⟨c, rest ++ cs, by simp [Symbol.spelling, hn], isSpace_of_isAlpha hc, ?_⟩
      simp only [symbolAt, hp, ho, hc, if_true, htake, hdrop, ← hn, String.ofList_toList]
  | not => exact ⟨'!', cs, rfl, by decide, rfl⟩
  | and => exact ⟨'&', '&' :: cs, rfl, by decide, by simp [symbolAt, punctuation?, operator?]⟩
  | or => exact ⟨'|', '|' :: cs, rfl, by decide, by simp [symbolAt, punctuation?, operator?]⟩
  | opening => exact ⟨'(', cs, rfl, by decide, rfl⟩
  | closing => exact ⟨')', cs, rfl, by decide, rfl⟩

theorem tokensFrom_of_isSpace {position : Nat} {c : Char} {cs : List Char}
    (hc : isSpace c = true) :
    tokensFrom position (c :: cs) = tokensFrom (position + c.utf8Size) cs := by
  rw [tokensFrom, if_pos hc]

theorem tokensFrom_of_symbolAt {position : Nat} {c : Char} {rest cs : List Char} {s : Symbol}
    (hc : isSpace c = false) (hs : symbolAt position c rest = .ok (s, cs)) :
    tokensFrom position (c :: rest) =
      (tokensFrom (position + s.spelling.utf8ByteSize) cs).map (⟨s, position⟩ :: ·) := by
  rw [tokensFrom, if_neg (by simp [hc])]
  split
  · next h => cases hs.symm.trans h
  · next h =>
    cases hs.symm.trans h
    rfl

/-- **A writing is read back**: its tokens are the symbols that it spells, in order. -/
theorem Spells.exists_tokensFrom {cs : List Char} {ss : List Symbol} (h : Spells cs ss)
    (position : Nat) :
    ∃ ts, tokensFrom position cs = .ok ts ∧ ts.map (·.symbol) = ss := by
  -- the position moves on with each character
  induction h generalizing position with
  | nil => exact ⟨[], by rw [tokensFrom], rfl⟩
  | space hc _ ih =>
    rw [tokensFrom_of_isSpace hc]
    exact ih _
  | @symbol s cs ss hs hend _ ih =>
    obtain ⟨c, rest, heq, hc, hat⟩ := exists_symbolAt hs hend position
    obtain ⟨ts, hts, rfl⟩ := ih (position + s.spelling.utf8ByteSize)
    rw [heq, tokensFrom_of_symbolAt hc hat, hts]
    exact ⟨⟨s, position⟩ :: ts, rfl, rfl⟩

/-! ## §3 Symbols between white space -/

/-- Symbols one after the other, each behind a gap, and a last gap. -/
def writtenOut : List (String × Symbol) → String → String
  | [], last => last
  | (gap, s) :: ws, last => gap ++ s.spelling ++ writtenOut ws last

/-- The gaps are white space, and there is some between names that follow one another. -/
structure IsSpaced (ws : List (String × Symbol)) (last : String) : Prop where
  lexemes : ∀ w ∈ ws, w.2.isLexeme = true
  gaps : ∀ w ∈ ws, ∀ c ∈ w.1.toList, isSpace c = true
  last : ∀ c ∈ last.toList, isSpace c = true
  names : ∀ p ∈ ws.zip ws.tail, p.1.2.isName = true → p.2.2.isName = true → p.2.1 ≠ ""

section IsSpaced

variable {ws : List (String × Symbol)} {last : String}

theorem IsSpaced.tail {w : String × Symbol} (h : IsSpaced (w :: ws) last) : IsSpaced ws last := by
  refine ⟨fun v hv => h.lexemes v (List.mem_cons_of_mem w hv),
    fun v hv => h.gaps v (List.mem_cons_of_mem w hv), h.last, fun p hp => h.names p ?_⟩
  cases ws with
  | nil => simp at hp
  | cons v ws => exact List.mem_cons_of_mem (w, v) hp

/-- Behind a name, what follows starts with white space or with a symbol that is no name. -/
theorem IsSpaced.startsApart {gap : String} {s : Symbol} (h : IsSpaced ((gap, s) :: ws) last)
    (hs : s.isName = true) : StartsApart (writtenOut ws last).toList := by
  cases ws with
  | nil => exact startsApart_of_isSpace h.last
  | cons w ws =>
    obtain ⟨gap', s'⟩ := w
    have hgap : StartsApart gap'.toList :=
      startsApart_of_isSpace (h.gaps _ (List.mem_cons_of_mem _ List.mem_cons_self))
    rw [writtenOut, String.toList_append, String.toList_append, List.append_assoc]
    refine hgap.append fun hnil => startsApart_spelling ?_ _
    cases hname : s'.isName with
    | false => rfl
    | true =>
      have hgap' : gap' ≠ "" := h.names ((gap, s), (gap', s')) (by simp) hs hname
      exact absurd (by simpa using hnil) hgap'

theorem Spells.gap {gap cs : List Char} {ss : List Symbol} (hgap : ∀ c ∈ gap, isSpace c = true)
    (h : Spells cs ss) : Spells (gap ++ cs) ss := by
  induction gap with
  | nil => exact h
  | cons c gap ih =>
    rw [List.forall_mem_cons] at hgap
    exact .space hgap.1 (ih hgap.2)

/-- Symbols that are written out with white space are spelled. -/
theorem IsSpaced.spells (h : IsSpaced ws last) :
    Spells (writtenOut ws last).toList (ws.map (·.2)) := by
  induction ws with
  | nil => simpa [writtenOut] using Spells.gap h.last .nil
  | cons w ws ih =>
    obtain ⟨gap, s⟩ := w
    have hsymbol := Spells.symbol (h.lexemes _ List.mem_cons_self) h.startsApart (ih h.tail)
    simpa [writtenOut] using hsymbol.gap (h.gaps _ List.mem_cons_self)

end IsSpaced

/-! ## §4 Cutting and joining writings -/

theorem isAlphanum_of_mem_name {n : String} (hn : (Symbol.name n).isLexeme = true) {c : Char}
    (hc : c ∈ n.toList) : c.isAlphanum = true := by
  simp only [Symbol.isLexeme] at hn
  cases hlist : n.toList with
  | nil => simp [hlist] at hc
  | cons d rest =>
    rw [hlist] at hn hc
    obtain ⟨hd, hrest⟩ := Bool.and_eq_true_iff.1 hn
    rcases List.mem_cons.1 hc with rfl | hc
    · simp [Char.isAlphanum, hd]
    · exact List.all_eq_true.1 hrest c hc

theorem of_punctuation? {c : Char} {s : Symbol} (h : punctuation? c = some s) :
    s.isName = false ∧ c.isAlphanum = false ∧ isSpace c = false ∧ operator? c = none := by
  unfold punctuation? at h
  split at h <;> cases h <;> exact ⟨rfl, by decide, by decide, rfl⟩

/-- A symbol of one character is no part of another one. -/
theorem eq_of_spelling_eq {s t : Symbol} {c : Char} {before after : List Char}
    (hc : punctuation? c = some s) (ht : t.isLexeme = true)
    (h : t.spelling.toList = before ++ c :: after) : t = s ∧ before = [] ∧ after = [] := by
  obtain ⟨-, halnum, -, hoperator⟩ := of_punctuation? hc
  have hmem : c ∈ t.spelling.toList := by simp [h]
  cases t with
  | name n =>
    rw [isAlphanum_of_mem_name ht hmem] at halnum
    contradiction
  | and | or =>
    -- the two characters of an operator are the same
    obtain rfl : c = _ := by simpa [Symbol.spelling] using hmem
    simp [operator?] at hoperator
  | not | opening | closing =>
    cases before with
    | nil =>
      obtain ⟨rfl, hafter⟩ := List.cons.inj h
      exact ⟨Option.some.inj hc, rfl, hafter.symm⟩
    | cons d before =>
      have hrest : [] = before ++ c :: after := (List.cons.inj h).2
      simp at hrest

/-- A writing can be cut at a symbol of one character. -/
theorem Spells.exists_of_punctuation {s : Symbol} {c : Char} {before after : List Char}
    {ss : List Symbol} (hc : punctuation? c = some s) (h : Spells (before ++ c :: after) ss) :
    ∃ us vs, ss = us ++ s :: vs ∧ Spells before us ∧ Spells after vs := by
  generalize hcs : before ++ c :: after = cs at h
  induction h generalizing before with
  | nil => simp at hcs
  | @space d cs ss hd h ih =>
    cases before with
    | nil =>
      obtain ⟨rfl, -⟩ := List.cons.inj hcs
      rw [(of_punctuation? hc).2.2.1] at hd
      contradiction
    | cons d' before =>
      obtain ⟨rfl, hrest⟩ := List.cons.inj hcs
      obtain ⟨us, vs, rfl, hbefore, hafter⟩ := ih hrest
      exact ⟨us, vs, rfl, .space hd hbefore, hafter⟩
  | @symbol t cs ss ht hend h ih =>
    have hbehind : ∀ front, before = t.spelling.toList ++ front → front ++ c :: after = cs →
        ∃ us vs, t :: ss = us ++ s :: vs ∧ Spells before us ∧ Spells after vs := by
      rintro front rfl hfront
      obtain ⟨us, vs, rfl, hbefore, hafter⟩ := ih hfront
      refine ⟨t :: us, vs, rfl, .symbol ht (fun hname => ?_) hbefore, hafter⟩
      -- what follows a name begins as before
      intro d hd
      apply hend hname d
      rw [← hfront, List.head?_append, hd]
      rfl
    -- the character comes behind this symbol or is part of it, and then is the symbol
    rcases List.append_eq_append_iff.1 hcs with ⟨rest, ht', hrest⟩ | ⟨front, hfront, hcs'⟩
    · cases rest with
      | nil => exact hbehind [] (by simpa using ht'.symm) (by simpa using hrest)
      | cons d rest =>
        obtain ⟨rfl, rfl⟩ := List.cons.inj hrest
        obtain ⟨rfl, rfl, rfl⟩ := eq_of_spelling_eq hc ht ht'
        exact ⟨[], ss, rfl, .nil, h⟩
    · exact hbehind front hfront hcs'.symm

/-- Two names one directly behind the other are a name. -/
theorem isLexeme_append {m n : String} (hm : (Symbol.name m).isLexeme = true)
    (hn : (Symbol.name n).isLexeme = true) : (Symbol.name (m ++ n)).isLexeme = true := by
  have hall : ∀ c ∈ n.toList, c.isAlphanum = true := fun c => isAlphanum_of_mem_name hn
  simp only [Symbol.isLexeme, String.toList_append] at hm ⊢
  cases hlist : m.toList with
  | nil => simp [hlist] at hm
  | cons c rest =>
    rw [hlist] at hm
    obtain ⟨hc, hrest⟩ := Bool.and_eq_true_iff.1 hm
    simp only [List.cons_append, List.all_append, hc, hrest, Bool.true_and]
    exact List.all_eq_true.2 hall

/-- A name in front of a writing that starts with a letter makes the first name there longer. -/
theorem Spells.exists_longer {m : String} {cs : List Char} {ss : List Symbol}
    (hm : (Symbol.name m).isLexeme = true) (h : Spells cs ss) (hcs : ¬ StartsApart cs) :
    ∃ us, Spells (m.toList ++ cs) us ∧ us.length = ss.length := by
  cases h with
  | nil => exact absurd startsApart_nil hcs
  | space hc _ => exact absurd (startsApart_cons.2 (isAlphanum_of_isSpace hc)) hcs
  | @symbol s cs ss hs hend h =>
    cases s with
    | name n =>
      refine ⟨.name (m ++ n) :: ss, ?_, rfl⟩
      have hlonger := Spells.symbol (isLexeme_append hm hs) hend h
      simpa [Symbol.spelling] using hlonger
    | not | and | or | opening | closing => exact absurd (startsApart_spelling rfl cs) hcs

/-- Two writings one after the other are a writing, of no more symbols than they have together: the
last name of the first one may go on in the second one. -/
theorem Spells.exists_append {cs ds : List Char} {us vs : List Symbol} (hc : Spells cs us)
    (hd : Spells ds vs) :
    ∃ ss, Spells (cs ++ ds) ss ∧ ss.length ≤ us.length + vs.length := by
  induction hc with
  | nil => exact ⟨vs, hd, by simp⟩
  | @space c cs us hc _ ih =>
    obtain ⟨ss, hspell, hle⟩ := ih
    exact ⟨ss, .space hc hspell, hle⟩
  | @symbol s cs us hs hend _ ih =>
    obtain ⟨ss, hspell, hle⟩ := ih
    by_cases hapart : s.isName = true → StartsApart (cs ++ ds)
    · refine ⟨s :: ss, ?_, by simp only [List.length_cons]; omega⟩
      rw [List.append_assoc]
      exact .symbol hs hapart hspell
    · rw [Classical.not_imp] at hapart
      cases s with
      | name m =>
        obtain ⟨ss', hlonger, hlength⟩ := hspell.exists_longer hs hapart.2
        refine ⟨ss', ?_, by simp only [List.length_cons]; omega⟩
        rw [List.append_assoc]
        exact hlonger
      | not | and | or | opening | closing => exact absurd hapart.1 (by decide)

end Keybinding.Condition
