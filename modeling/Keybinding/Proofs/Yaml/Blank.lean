import Keybinding.Text.Basic
import Keybinding.Yaml.Node
import Mathlib.Data.List.Basic

/-!
# Texts that denote no collection

Two kinds of texts hold no list of groups:

- In white space nothing but plain scalars can be found, since some characters are white space that
  are no blanks. A document of scalars denotes no collection (`not_not_isCollection_of_isSpace`).
- In blanks and comments nothing can be found at all, and no node is denoted
  (`read?_eq_none_of_isIdle`).
-/

namespace Keybinding.Yaml

variable {g : Glyph} {gs rest : List Glyph} {cs : List Char} {index line column : Nat}

/-! ## §1 Glyphs -/

/-- What is true of all characters of a text, and of line ends, is true of its glyphs. -/
theorem forall_char_of_place? {P : Char → Prop} (hbreak : P '\n') (hcs : ∀ c ∈ cs, P c)
    (h : place? index line column cs = some gs) : ∀ g ∈ gs, P g.char := by
  fun_induction place? index line column cs generalizing gs with
  | case1 =>
    obtain rfl := Option.some.inj h
    exact nofun
  | case2 index line column rest ih =>
    obtain ⟨gs, hgs, rfl⟩ := Option.map_eq_some_iff.1 h
    rw [List.forall_mem_cons, List.forall_mem_cons] at hcs
    exact List.forall_mem_cons.2 ⟨hbreak, ih hcs.2.2 hgs⟩
  | case3 => contradiction
  | case4 index line column c rest _ _ _ ih =>
    obtain ⟨gs, hgs, rfl⟩ := Option.map_eq_some_iff.1 h
    rw [List.forall_mem_cons] at hcs
    exact List.forall_mem_cons.2 ⟨hbreak, ih hcs.2 hgs⟩
  | case5 _ _ _ _ _ _ _ _ _ ih | case6 _ _ _ _ _ _ _ _ _ ih =>
    obtain ⟨gs, hgs, rfl⟩ := Option.map_eq_some_iff.1 h
    rw [List.forall_mem_cons] at hcs
    exact List.forall_mem_cons.2 ⟨hcs.1, ih hcs.2 hgs⟩

theorem skipToToken_suffix (flow keyAllowed comment : Bool) (gs : List Glyph) :
    (skipToToken flow keyAllowed comment gs).2 <:+ gs := by
  fun_induction skipToToken flow keyAllowed comment gs with
  | case1 | case7 => exact List.suffix_rfl
  | case2 _ _ g rest _ ih | case3 _ g rest _ ih | case4 _ _ g rest _ _ _ ih
  | case5 _ _ g rest _ _ _ _ ih | case6 _ _ g rest _ _ _ _ _ ih =>
    exact ih.trans (List.suffix_cons g rest)

theorem plainWord?_suffix {flow : Bool} {p : List Char × List Glyph}
    (h : plainWord? flow gs = some p) : p.2 <:+ gs := by
  fun_induction plainWord? flow gs generalizing p with
  | case1 | case2 | case5 =>
    obtain rfl := Option.some.inj h
    exact List.suffix_rfl
  | case3 => contradiction
  | case4 g rest _ _ _ ih =>
    obtain ⟨q, hq, rfl⟩ := Option.map_eq_some_iff.1 h
    exact (ih hq).trans (List.suffix_cons g rest)

theorem plainFrom?_suffix {flow : Bool} {indent fuel : Nat} {gap : List Char} {p : Plain}
    (h : plainFrom? flow indent fuel gap gs = some p) : p.rest <:+ gs := by
  fun_induction plainFrom? flow indent fuel gap gs generalizing p with
  | case1 | case2 =>
    obtain rfl := Option.some.inj h
    exact List.suffix_rfl
  | case3 | case5 => contradiction
  | case4 _ _ _ _ _ hword =>
    obtain rfl := Option.some.inj h
    exact plainWord?_suffix hword
  | case6 _ _ _ _ _ _ _ hword =>
    obtain rfl := Option.some.inj h
    exact (List.dropWhile_suffix _).trans (plainWord?_suffix hword)
  | case7 _ _ _ _ _ _ _ hword =>
    -- a word, a gap after it, and the rest of the scalar
    rename_i ih
    obtain ⟨q, hq, rfl⟩ := Option.map_eq_some_iff.1 h
    exact (ih hq).trans ((List.dropWhile_suffix _).trans (plainWord?_suffix hword))

/-! ## §2 White space -/

namespace Lexer

variable {s s' : Lexer} {fuel : Nat} {ts : List Token}

/-- No mark is white space, and so white space can only start a plain scalar. -/
theorem next?_of_isSpace (hg : Text.isSpace g.char = true) :
    s.next? fuel g rest =
      if startsPlain s.inFlow g rest then s.plainText? fuel g rest else none := by
  have hmark : ∀ c : Char, Text.isSpace c = false → g.char ≠ c := by
    intro c hc heq
    rw [heq, hc] at hg
    contradiction
  have hdirective : (g.column == 0 && g.char == '%') = false := by
    simp [hmark '%' (by decide)]
  have hedge : ∀ c : Char, Text.isSpace c = false → atDocumentMark c (g :: rest) = false := by
    intro c hc
    unfold atDocumentMark
    split
    · next heq =>
      obtain ⟨rfl, rfl⟩ := List.cons.inj heq
      simp [hmark c hc]
    · rfl
  -- no directive and no edge of a document starts here
  unfold next?
  simp only [hdirective, hedge '-' (by decide), hedge '.' (by decide), Bool.false_eq_true, if_false]
  split
  case h_11 =>
    simp [hmark '-' (by decide), hmark '?' (by decide), hmark ':' (by decide),
      hmark '|' (by decide), hmark '>' (by decide)]
  -- the other cases are one for each mark
  all_goals
    next heq => exact absurd heq (hmark _ (by decide))

/-- All that has been found are scalars, which open no collection. -/
structure OnlyScalars (s : Lexer) : Prop where
  columns : s.columns = []
  tokens : ∀ t ∈ s.tokens, ∃ plain text, t = .scalar plain text

theorem onlyScalars_start : start.OnlyScalars :=
  ⟨rfl, nofun⟩

/-- Keeping track of candidates changes neither the tokens nor the collections. -/
theorem dropCandidate?_frame (h : s.dropCandidate? = some s') :
    s'.tokens = s.tokens ∧ s'.columns = s.columns := by
  unfold dropCandidate? at h
  split at h
  · obtain ⟨-, h⟩ := Option.ite_none_left_eq_some.1 h
    obtain rfl := Option.some.inj h
    exact ⟨rfl, rfl⟩
  · obtain rfl := Option.some.inj h
    exact ⟨rfl, rfl⟩

theorem saveCandidate?_frame (h : s.saveCandidate? g = some s') :
    s'.tokens = s.tokens ∧ s'.columns = s.columns := by
  unfold saveCandidate? at h
  split at h
  · obtain ⟨u, hu, h⟩ := Option.bind_eq_some_iff.1 h
    obtain rfl := Option.some.inj h
    obtain ⟨htokens, hcolumns⟩ := dropCandidate?_frame hu
    exact ⟨htokens, hcolumns⟩
  · obtain rfl := Option.some.inj h
    exact ⟨rfl, rfl⟩

/-- A plain scalar is one scalar more. -/
theorem OnlyScalars.plainText? (hs : s.OnlyScalars)
    (h : s.plainText? fuel g gs = some (s', rest)) : s'.OnlyScalars ∧ rest <:+ g :: gs := by
  obtain ⟨p, hp, h⟩ := Option.bind_eq_some_iff.1 h
  obtain ⟨u, hu, h⟩ := Option.bind_eq_some_iff.1 h
  obtain ⟨v, hv, hu⟩ := Option.bind_eq_some_iff.1 hu
  obtain ⟨rfl, rfl⟩ := Prod.mk.inj (Option.some.inj h)
  obtain rfl := Option.some.inj hu
  obtain ⟨htokens, hcolumns⟩ := saveCandidate?_frame hv
  refine ⟨⟨?_, ?_⟩, plainFrom?_suffix hp⟩
  · show v.columns = []
    rw [hcolumns, hs.columns]
  · show ∀ t ∈ _ :: v.tokens, _
    rw [htokens, List.forall_mem_cons]
    exact ⟨⟨_, _, rfl⟩, hs.tokens⟩

/-- A run that has found all tokens was at the end, or has taken one step and found the others. -/
theorem run?_eq_some (h : run? fuel s gs = some ts) :
    (∃ last, (skipToToken s.inFlow s.keyAllowed false gs).2 = [] ∧
      s.unrollAll.dropCandidate? = some last ∧ ts = last.tokens.reverse) ∨
    ∃ fuel' keyAllowed g rest s' rest', fuel = fuel' + 1 ∧
      skipToToken s.inFlow s.keyAllowed false gs = (keyAllowed, g :: rest) ∧
      ((s.allowKey keyAllowed).unroll g.column).next? fuel g rest = some (s', rest') ∧
      run? fuel' s' rest' = some ts := by
  unfold run? at h
  split at h
  · next hend =>
    obtain ⟨last, hlast, h⟩ := Option.bind_eq_some_iff.1 h
    exact .inl ⟨last, congrArg Prod.snd hend, hlast, (Option.some.inj h).symm⟩
  · contradiction
  · next hskip =>
    obtain ⟨⟨s', rest'⟩, hnext, hrun⟩ := Option.bind_eq_some_iff.1 h
    exact .inr ⟨_, _, _, _, s', rest', rfl, hskip, hnext, hrun⟩

/-- Where no collection is open, none has to be ended. -/
theorem OnlyScalars.unroll (hs : s.OnlyScalars) (column : Nat) : (s.unroll column).OnlyScalars := by
  unfold Lexer.unroll
  split
  · exact hs
  · constructor
    · simp [hs.columns]
    · simpa [hs.columns] using hs.tokens

theorem OnlyScalars.unrollAll (hs : s.OnlyScalars) : s.unrollAll.OnlyScalars := by
  unfold Lexer.unrollAll
  split
  · exact hs
  · constructor
    · rfl
    · simpa [hs.columns] using hs.tokens

/-- A step in white space finds a scalar. -/
theorem OnlyScalars.next? (hs : s.OnlyScalars) (hg : Text.isSpace g.char = true)
    (h : s.next? fuel g gs = some (s', rest)) : s'.OnlyScalars ∧ rest <:+ g :: gs := by
  rw [next?_of_isSpace hg] at h
  obtain ⟨-, h⟩ := Option.ite_none_right_eq_some.1 h
  exact hs.plainText? h

/-- At the end of the text the scalars that have been found are all tokens. -/
theorem OnlyScalars.last {last : Lexer} (hs : s.OnlyScalars)
    (h : s.unrollAll.dropCandidate? = some last) :
    ∀ t ∈ last.tokens.reverse, ∃ plain text, t = .scalar plain text := by
  intro t ht
  rw [List.mem_reverse, (dropCandidate?_frame h).1] at ht
  exact hs.unrollAll.tokens t ht

/-- **White space holds nothing but scalars.** -/
theorem OnlyScalars.run? (hs : s.OnlyScalars) (hgs : ∀ g ∈ gs, Text.isSpace g.char = true)
    (h : run? fuel s gs = some ts) : ∀ t ∈ ts, ∃ plain text, t = .scalar plain text := by
  -- along the run, only scalars have been found and only white space is left
  induction fuel generalizing s gs with
  | zero =>
    obtain ⟨last, -, hlast, rfl⟩ | ⟨_, _, _, _, _, _, hfuel, -⟩ := run?_eq_some h
    · exact hs.last hlast
    · contradiction
  | succ fuel ih =>
    obtain ⟨last, -, hlast, rfl⟩ |
      ⟨_, keyAllowed, g, rest, s', rest', hfuel, hskip, hnext, hrun⟩ := run?_eq_some h
    · exact hs.last hlast
    · obtain rfl := Nat.succ.inj hfuel
      have hsuffix : g :: rest <:+ gs := by
        have hskipped := skipToToken_suffix s.inFlow s.keyAllowed false gs
        rwa [hskip] at hskipped
      have hspace : ∀ g' ∈ g :: rest, Text.isSpace g'.char = true :=
        fun g' hg' => hgs g' (hsuffix.subset hg')
      have hstart : (s.allowKey keyAllowed).OnlyScalars := ⟨hs.columns, hs.tokens⟩
      obtain ⟨hs', hrest⟩ := (hstart.unroll g.column).next? (hspace g List.mem_cons_self) hnext
      exact ih hs' (fun g' hg' => hspace g' (hrest.subset hg')) hrun

end Lexer

/-! ## §3 Documents of scalars -/

/-- A document that starts with a scalar is that scalar. -/
theorem Tree.ofTokens?_scalar {ts : List Token} {plain : Bool} {text : String} {t : Tree String}
    (h : Tree.ofTokens? (.scalar plain text :: ts) = some t) : t = .scalar .bare plain text := by
  have hnode : ∀ fuel, node? standardHandles (fuel + 1) .block (.scalar plain text :: ts) =
      some (.scalar .bare plain text, ts) := by
    intro fuel
    rw [node?]
    · rfl
    · exact nofun
  simp only [ofTokens?, hnode] at h
  exact (Option.some.inj (Option.ite_none_right_eq_some.1 h).2).symm

namespace Node

variable {node : Node} {text : String}

/-- A node is a sequence or a mapping. -/
def isCollection : Node → Bool
  | sequence _ | mapping _ => true
  | null | bool _ | integer _ | float _ | string _ => false

theorem not_isCollection_of_ofInteger? {i : Integer} (h : ofInteger? i = some node) :
    node.isCollection = false := by
  obtain ⟨-, h⟩ := Option.ite_none_right_eq_some.1 h
  obtain rfl := Option.some.inj h
  rfl

theorem not_isCollection_of_ofPlain? (h : ofPlain? text = some node) :
    node.isCollection = false := by
  unfold ofPlain? at h
  split at h
  · obtain rfl := Option.some.inj h
    rfl
  · split at h
    · obtain rfl := Option.some.inj h
      rfl
    · exact not_isCollection_of_ofInteger? h
    · split at h <;> obtain rfl := Option.some.inj h <;> rfl

theorem not_isCollection_of_ofKind? {k : Kind} (h : ofKind? text k = some node) :
    node.isCollection = false := by
  cases k with
  | null | float =>
    obtain ⟨-, h⟩ := Option.ite_none_right_eq_some.1 h
    obtain rfl := Option.some.inj h
    rfl
  | bool =>
    obtain ⟨b, -, rfl⟩ := Option.map_eq_some_iff.1 h
    rfl
  | int =>
    obtain ⟨i, -, h⟩ := Option.bind_eq_some_iff.1 h
    exact not_isCollection_of_ofInteger? h

/-- A scalar denotes no collection. -/
theorem not_isCollection_of_ofScalar? {tag : Option Octets} {plain : Bool}
    (h : ofScalar? tag plain text = some node) : node.isCollection = false := by
  cases tag with
  | none =>
    cases plain with
    | true => exact not_isCollection_of_ofPlain? h
    | false =>
      obtain rfl := Option.some.inj h
      rfl
  | some uri =>
    obtain ⟨-, h⟩ := Option.ite_none_left_eq_some.1 h
    split at h
    · exact not_isCollection_of_ofKind? h
    · split at h
      · exact not_isCollection_of_ofPlain? h
      · obtain rfl := Option.some.inj h
        rfl

/-- **White space denotes no collection.** -/
theorem not_isCollection_of_isSpace (htext : ∀ c ∈ text.toList, Text.isSpace c = true)
    (h : read? text = some node) : node.isCollection = false := by
  obtain ⟨ts, hts, h⟩ := Option.bind_eq_some_iff.1 h
  obtain ⟨t, ht, h⟩ := Option.bind_eq_some_iff.1 h
  obtain ⟨gs, hgs, hrun⟩ := Option.bind_eq_some_iff.1 hts
  have hspace := forall_char_of_place? (by decide) htext hgs
  have hscalars := Lexer.onlyScalars_start.run? hspace hrun
  cases ts with
  | nil => contradiction
  | cons first ts =>
    obtain ⟨plain, word, rfl⟩ := hscalars first List.mem_cons_self
    obtain rfl := Tree.ofTokens?_scalar ht
    obtain ⟨⟨numbered, _⟩, hnumber, h⟩ := Option.bind_eq_some_iff.1 h
    obtain ⟨⟨node', _⟩, htree, h⟩ := Option.bind_eq_some_iff.1 h
    obtain rfl := Option.some.inj h
    obtain ⟨rfl, -⟩ := Prod.mk.inj (Option.some.inj hnumber)
    obtain ⟨node, hnode, heq⟩ := Option.map_eq_some_iff.1 htree
    obtain ⟨rfl, -⟩ := Prod.mk.inj heq
    exact not_isCollection_of_ofScalar? hnode

end Node

/-! ## §4 Blanks and comments -/

/-- A character that ends a line of a text. -/
def endsLine (c : Char) : Bool :=
  c == '\r' || c == '\x85' || isBreak c

/-- There are only blanks and comments. The argument `comment` says that the text starts inside a
comment. -/
def IsIdle : Bool → List Char → Prop
  | _, [] => True
  | comment, c :: cs =>
    if endsLine c then IsIdle false cs
    else if comment then IsIdle true cs
    else if isBlank c then IsIdle false cs
    else c = '#' ∧ IsIdle true cs

theorem isIdle_of_endsLine {comment : Bool} {c : Char} (hc : endsLine c = true) :
    IsIdle comment (c :: cs) ↔ IsIdle false cs := by
  simp [IsIdle, hc]

theorem isIdle_true_cons {c : Char} (hc : ¬ endsLine c = true) :
    IsIdle true (c :: cs) ↔ IsIdle true cs := by
  simp [IsIdle, hc]

theorem isIdle_false_cons {c : Char} (hc : ¬ endsLine c = true) :
    IsIdle false (c :: cs) ↔ if isBlank c then IsIdle false cs else c = '#' ∧ IsIdle true cs := by
  simp [IsIdle, hc]

/-- After a line end, no comment goes on. -/
theorem skipToToken_of_isBreak (comment : Bool) (hg : isBreak g.char = true) :
    skipToToken false true comment (g :: gs) = skipToToken false true false gs :=
  if_pos hg

/-- **Blanks and comments are passed over**, up to a tab that stands where it would be indentation.
No token starts with it. -/
theorem skipToToken_of_isIdle {comment : Bool} (hcs : IsIdle comment cs)
    (h : place? index line column cs = some gs) :
    ∀ g ∈ (skipToToken false true comment gs).2.head?, g.char = '\t' := by
  fun_induction place? index line column cs generalizing gs comment with
  | case1 =>
    obtain rfl := Option.some.inj h
    exact nofun
  | case2 index line column rest ih =>
    obtain ⟨gs, hgs, rfl⟩ := Option.map_eq_some_iff.1 h
    -- both characters of the line end are one glyph
    rw [isIdle_of_endsLine (by decide), isIdle_of_endsLine (by decide)] at hcs
    rw [skipToToken_of_isBreak comment rfl]
    exact ih hcs hgs
  | case3 => contradiction
  | case4 index line column c rest _ _ hc ih =>
    obtain ⟨gs, hgs, rfl⟩ := Option.map_eq_some_iff.1 h
    rw [isIdle_of_endsLine (by rw [endsLine, hc, Bool.true_or])] at hcs
    rw [skipToToken_of_isBreak comment rfl]
    exact ih hcs hgs
  | case5 index line column c rest _ _ _ hc ih =>
    obtain ⟨gs, hgs, rfl⟩ := Option.map_eq_some_iff.1 h
    rw [isIdle_of_endsLine (by rw [endsLine, hc, Bool.or_true])] at hcs
    rw [skipToToken_of_isBreak comment hc]
    exact ih hcs hgs
  | case6 index line column c rest _ _ hreturn hbreak ih =>
    obtain ⟨gs, hgs, rfl⟩ := Option.map_eq_some_iff.1 h
    rw [Bool.not_eq_true] at hreturn hbreak
    have hends : ¬ endsLine c = true := by simp [endsLine, hreturn, hbreak]
    rw [skipToToken, if_neg (by simp [hbreak])]
    cases comment with
    | true =>
      rw [isIdle_true_cons hends] at hcs
      exact ih hcs hgs
    | false =>
      rw [isIdle_false_cons hends] at hcs
      split at hcs
      · next hblank =>
        rw [isBlank, Bool.or_eq_true, beq_iff_eq, beq_iff_eq] at hblank
        obtain rfl | rfl := hblank
        · exact ih hcs hgs
        · intro g hg
          obtain rfl := Option.some.inj hg
          rfl
      · obtain ⟨rfl, hcs⟩ := hcs
        exact ih hcs hgs

/-- No token starts with a tab. -/
theorem Lexer.next?_of_tab {s : Lexer} {fuel : Nat} (hg : g.char = '\t') :
    s.next? fuel g gs = none := by
  rw [next?_of_isSpace (by rw [hg]; decide)]
  apply if_neg
  simp [startsPlain, hg, isGapChar, isBlank]

/-- Blanks and comments are no tokens. -/
theorem Lexer.run?_of_isIdle {fuel : Nat} {ts : List Token} (hcs : IsIdle false cs)
    (hgs : place? index line column cs = some gs) (h : start.run? fuel gs = some ts) : ts = [] := by
  have hskip := skipToToken_of_isIdle hcs hgs
  -- the run is over at once, or else it would have to take a step from a tab
  obtain ⟨last, -, hlast, rfl⟩ | ⟨_, keyAllowed, g, rest, s', rest', -, hnext, hfail, -⟩ :=
    run?_eq_some h
  · obtain rfl := Option.some.inj hlast
    rfl
  · have htab : g.char = '\t' := by
      apply hskip
      show g ∈ (skipToToken start.inFlow start.keyAllowed false gs).2.head?
      rw [hnext]
      rfl
    rw [next?_of_tab htab] at hfail
    contradiction

/-- **Blanks and comments denote no node.** -/
theorem Node.read?_of_isIdle {text : String} (h : IsIdle false text.toList) :
    Node.read? text = none := by
  rw [Option.eq_none_iff_forall_ne_some]
  intro node hnode
  obtain ⟨ts, hts, hnode⟩ := Option.bind_eq_some_iff.1 hnode
  obtain ⟨gs, hgs, hrun⟩ := Option.bind_eq_some_iff.1 hts
  obtain rfl := Lexer.run?_of_isIdle h hgs hrun
  contradiction

end Keybinding.Yaml
