import Keybinding.Proofs.Condition.Lexing
import Keybinding.Proofs.Condition.Printing
import Keybinding.Proofs.Table.Relevance
import Mathlib.Data.List.Induction
import Mathlib.Data.Nat.Init

/-!
# The flags of a written condition

The value of a condition depends on its flags, and its flags are the names in its text. They are
listed by the places where they first stand there, each once. How the text groups them with
operators and parentheses has no say in the list.

- `isSupport_of_read`: what the list of flags says about the text and about the value.
-/

namespace Keybinding.Condition

open Text

/-! ## §1 Names in a text -/

/-- The name `n` stands in a text behind `p` bytes, and not as part of a longer word. -/
def StandsAt (text n : String) (p : Nat) : Prop :=
  ∃ before after, text = before ++ n ++ after ∧ before.utf8ByteSize = p ∧
    EndsApart before.toList ∧ StartsApart after.toList

theorem endsApart_nil : EndsApart [] := nofun

theorem EndsApart.of_append {cs ds : List Char} (h : EndsApart (cs ++ ds)) : EndsApart ds := by
  intro c hc
  apply h c
  rw [List.getLast?_append, hc]
  rfl

/-- A letter or digit is part of a name only. -/
theorem isName_of_isAlphanum {s : Symbol} {c : Char} (hc : c ∈ s.spelling.toList)
    (halnum : c.isAlphanum = true) : s.isName = true := by
  cases s with
  | name n => rfl
  | not | and | or | opening | closing =>
    obtain rfl : c = _ := by simpa [Symbol.spelling] using hc
    exact absurd halnum (by decide)

/-- Where no letter or digit stands in front of it, a letter or digit starts a name. -/
theorem exists_name_of_spelling {s : Symbol} (hs : s.isLexeme = true) {c : Char}
    {before after : List Char} (hspelling : s.spelling.toList = before ++ c :: after)
    (hbefore : EndsApart before) (halnum : c.isAlphanum = true) :
    (∃ m, s = .name m) ∧ before = [] := by
  have hname : s.isName = true := isName_of_isAlphanum (by simp [hspelling]) halnum
  cases s with
  | not | and | or | opening | closing => simp [Symbol.isName] at hname
  | name m =>
    refine ⟨⟨m, rfl⟩, ?_⟩
    rcases List.eq_nil_or_concat before with rfl | ⟨front, d, rfl⟩
    · rfl
    · have hd : d ∈ m.toList := by
        rw [Symbol.spelling] at hspelling
        simp [hspelling]
      have hapart := hbefore d (by simp)
      rw [isAlphanum_of_mem_name hs hd] at hapart
      contradiction

/-- Two words that start at one place and end where no letter or digit follows are the same. -/
theorem name_eq_of_append_eq {m n : String} (hm : (Symbol.name m).isLexeme = true)
    (hn : (Symbol.name n).isLexeme = true) {cs ds : List Char} (hcs : StartsApart cs)
    (hds : StartsApart ds) (h : m.toList ++ cs = n.toList ++ ds) : m = n := by
  have hleft := (span_of_startsApart (fun _ => isAlphanum_of_mem_name hm) hcs).1
  have hright := (span_of_startsApart (fun _ => isAlphanum_of_mem_name hn) hds).1
  rw [h, hright] at hleft
  exact String.toList_inj.1 hleft.symm

theorem exists_cons_of_isLexeme_name {n : String} (hn : (Symbol.name n).isLexeme = true) :
    ∃ c rest, n.toList = c :: rest ∧ c.isAlphanum = true := by
  obtain ⟨c, rest, heq, -, -⟩ := exists_symbolAt hn (fun _ => startsApart_nil) 0
  have hword : n.toList = c :: rest := by simpa [Symbol.spelling] using heq
  exact ⟨c, rest, hword, isAlphanum_of_mem_name hn (by simp [hword])⟩

/-- A word that starts inside of a symbol is this symbol. -/
theorem eq_name_of_spelling {s : Symbol} (hs : s.isLexeme = true) {n : String}
    (hn : (Symbol.name n).isLexeme = true) {d : Char} {before front cs after : List Char}
    (hspelling : s.spelling.toList = before ++ d :: front)
    (hword : d :: front ++ cs = n.toList ++ after) (hbefore : EndsApart before)
    (hcs : s.isName = true → StartsApart cs) (hafter : StartsApart after) :
    before = [] ∧ s = .name n := by
  obtain ⟨c, rest, hcons, halnum⟩ := exists_cons_of_isLexeme_name hn
  obtain rfl : d = c := by
    rw [hcons] at hword
    exact (List.cons.inj hword).1
  obtain ⟨⟨m, rfl⟩, rfl⟩ := exists_name_of_spelling hs hspelling hbefore halnum
  have hwhole : m.toList ++ cs = n.toList ++ after := by
    rw [← hword]
    exact congrArg (· ++ cs) hspelling
  exact ⟨rfl, by rw [name_eq_of_append_eq hs hn (hcs rfl) hafter hwhole]⟩

/-- A word of a text is cut off whole, as a name at its place. -/
theorem Cut.mem_of_name {later cs before after : List Char} {p : Nat} {ts : List Token} {n : String}
    (h : Cut later p cs ts) (hn : (Symbol.name n).isLexeme = true)
    (hsplit : cs = before ++ (n.toList ++ after)) (hbefore : EndsApart before)
    (hafter : StartsApart (after ++ later)) : ⟨.name n, p + byteSize before⟩ ∈ ts := by
  obtain ⟨c, rest, hword, halnum⟩ := exists_cons_of_isLexeme_name hn
  induction h generalizing before with
  | nil => simp [hword] at hsplit
  | @space p d cs ts hd h ih =>
    cases before with
    | nil =>
      -- a word does not start with white space
      rw [hword] at hsplit
      obtain ⟨rfl, -⟩ := List.cons.inj hsplit
      rw [isAlphanum_of_isSpace hd] at halnum
      contradiction
    | cons e before =>
      obtain ⟨rfl, hrest⟩ := List.cons.inj hsplit
      have hapart : EndsApart ([d] ++ before) := hbefore
      have hmem := ih hrest hapart.of_append
      simpa [Nat.add_assoc] using hmem
  | @symbol p s cs ts hs hend h ih =>
    have hbehind : ∀ front, EndsApart front → before = s.spelling.toList ++ front →
        cs = front ++ (n.toList ++ after) → ⟨.name n, p + byteSize before⟩ ∈ ⟨s, p⟩ :: ts := by
      rintro front hfront rfl hcs
      have hmem := ih hcs hfront
      rw [Nat.add_assoc, ← byteSize_toList, ← byteSize_append] at hmem
      exact List.mem_cons_of_mem _ hmem
    -- the word comes behind this symbol, or it starts inside of it and is the symbol
    rcases List.append_eq_append_iff.1 hsplit with ⟨front, rfl, hrest⟩ | ⟨front, hspelling, hrest⟩
    · exact hbehind front hbefore.of_append rfl hrest
    · cases front with
      | nil =>
        exact hbehind [] endsApart_nil (by simpa using hspelling.symm) (by simpa using hrest.symm)
      | cons d front =>
        have hinside : d :: front ++ (cs ++ later) = n.toList ++ (after ++ later) := by
          rw [← List.append_assoc, ← List.append_assoc, hrest]
        obtain ⟨rfl, rfl⟩ := eq_name_of_spelling hs hn hspelling hinside hbefore hend hafter
        exact List.mem_cons_self

/-- The names among the tokens of a text are the words that stand in it. -/
theorem standsAt_iff_mem {text n : String} {ts : List Token} (h : tokenize text = .ok ts)
    (hn : (Symbol.name n).isLexeme = true) (p : Nat) :
    StandsAt text n p ↔ ⟨.name n, p⟩ ∈ ts := by
  constructor
  · rintro ⟨before, after, rfl, rfl, hbefore, hafter⟩
    have hcut : Cut [] 0 (before ++ n ++ after).toList ts := tokensFrom_eq_ok_iff.1 h
    have hsplit : (before ++ n ++ after).toList = before.toList ++ (n.toList ++ after.toList) := by
      simp
    have hmem := hcut.mem_of_name hn hsplit hbefore (by simpa using hafter)
    simpa using hmem
  · intro hmem
    obtain ⟨-, before, after, htext, hplace, hapart⟩ := (covers_of_tokenize h).spelled _ hmem
    exact ⟨before, after, htext, hplace, hapart rfl⟩

/-! ## §2 Names in a derivation -/

/-- The name that a symbol is. -/
def Symbol.name? : Symbol → Option String
  | .name n => some n
  | _ => none

/-- The names among symbols, from left to right. -/
def names (ss : List Symbol) : List String := ss.filterMap Symbol.name?

@[simp] theorem names_nil : names [] = [] := rfl

@[simp] theorem names_append (ss ts : List Symbol) : names (ss ++ ts) = names ss ++ names ts :=
  List.filterMap_append

@[simp] theorem names_cons (s : Symbol) (ss : List Symbol) :
    names (s :: ss) = s.name?.toList ++ names ss := by
  cases s <;> rfl

theorem mem_names_iff {n : String} {ss : List Symbol} : n ∈ names ss ↔ .name n ∈ ss := by
  rw [names, List.mem_filterMap]
  constructor
  · rintro ⟨s, hs, hname⟩
    cases s with
    | name m =>
      obtain rfl := Option.some.inj hname
      exact hs
    | not | and | or | opening | closing => contradiction
  · intro h
    exact ⟨_, h, rfl⟩

/-- The flags of what stands before a condition, as often as they occur. -/
def mentionsBefore (before : Option Condition) : List Flag :=
  (before.map mentions).getD []

@[simp] theorem mentionsBefore_none : mentionsBefore none = [] := rfl

@[simp] theorem mentionsBefore_some (c : Condition) : mentionsBefore (some c) = c.mentions := rfl

theorem mentions_join_and (before : Option Condition) (c : Condition) :
    (join .and before c).mentions = mentionsBefore before ++ c.mentions := by
  cases before <;> rfl

theorem mentions_join_or (before : Option Condition) (c : Condition) :
    (join .or before c).mentions = mentionsBefore before ++ c.mentions := by
  cases before <;> rfl

mutual

/-- Putting operands together keeps the flags in the order of their names. -/
theorem Operand.map_name_mentions (o : Operand) :
    o.value.mentions.map Flag.name = names o.symbols := by
  match o with
  | .flag f => rfl
  | .not p =>
    rw [Operand.symbols, names_cons, ← p.map_name_mentions]
    rfl
  | .parens d =>
    rw [Operand.symbols, Operand.value, d.map_name_mentions none]
    simp [Symbol.name?]

theorem Conjunction.map_name_mentions (c : Conjunction) (before : Option Condition) :
    (c.valueAfter before).mentions.map Flag.name =
      (mentionsBefore before).map Flag.name ++ names c.symbols := by
  match c with
  | .single o =>
    rw [Conjunction.symbols, Conjunction.valueAfter, mentions_join_and, List.map_append,
      o.map_name_mentions]
  | .and o rest =>
    -- the first operand belongs to what stands before the rest
    rw [Conjunction.symbols, Conjunction.valueAfter, rest.map_name_mentions, mentionsBefore_some,
      mentions_join_and, List.map_append, o.map_name_mentions]
    simp [Symbol.name?]

theorem Disjunction.map_name_mentions (d : Disjunction) (before : Option Condition) :
    (d.valueAfter before).mentions.map Flag.name =
      (mentionsBefore before).map Flag.name ++ names d.symbols := by
  match d with
  | .single c =>
    rw [Disjunction.symbols, Disjunction.valueAfter, mentions_join_or, List.map_append,
      c.map_name_mentions none]
    rfl
  | .or c rest =>
    rw [Disjunction.symbols, Disjunction.valueAfter, rest.map_name_mentions, mentionsBefore_some,
      mentions_join_or, List.map_append, c.map_name_mentions none]
    simp [Symbol.name?]

end

/-- The names in a text that is read are the flags of the condition, from left to right. -/
theorem names_of_read {text : String} {c : Condition} (h : read text = .ok c) :
    ∃ ts, tokenize text = .ok ts ∧ names (ts.map (·.symbol)) = c.mentions.map Flag.name := by
  obtain ⟨ts, hts, hofTokens⟩ := read_eq_ok_iff_ofTokens.1 h
  obtain ⟨d, hd, rfl, -, -⟩ := ofTokens_eq_ok_iff.1 hofTokens
  refine ⟨ts, hts, ?_⟩
  rw [← hd, Disjunction.value, d.map_name_mentions none]
  rfl

/-! ## §3 The order of first places -/

/-- Among tokens, the name of a flag stands before every place of the name of another one. -/
def IsNamedBefore (ts : List Token) (f g : Flag) : Prop :=
  ∃ p, ⟨.name f.name, p⟩ ∈ ts ∧ ∀ q, ⟨.name g.name, q⟩ ∈ ts → p < q

theorem exists_mem_of_names {ts : List Token} {fs : List Flag}
    (h : names (ts.map (·.symbol)) = fs.map Flag.name) {f : Flag} :
    f ∈ fs ↔ ∃ p, ⟨.name f.name, p⟩ ∈ ts := by
  have hname : f.name ∈ fs.map Flag.name ↔ f ∈ fs :=
    List.mem_map_of_injective fun _ _ => Flag.name_injective
  rw [← hname, ← h, mem_names_iff, List.mem_map]
  constructor
  · rintro ⟨⟨_, p⟩, ht, rfl⟩
    exact ⟨p, ht⟩
  · rintro ⟨p, ht⟩
    exact ⟨_, ht, rfl⟩

/-- A token behind all others does not change which flag is named first. -/
theorem IsNamedBefore.concat {ts : List Token} {t : Token}
    (hlast : ∀ u ∈ ts, u.position < t.position) {f g : Flag} (h : IsNamedBefore ts f g) :
    IsNamedBefore (ts ++ [t]) f g := by
  obtain ⟨p, hp, hg⟩ := h
  refine ⟨p, List.mem_append_left _ hp, fun q hq => ?_⟩
  rcases List.mem_append.1 hq with hq | hq
  · exact hg q hq
  · obtain rfl := List.mem_singleton.1 hq
    exact hlast _ hp

/-- A token behind all others names its flag later than they name theirs, if it is the only one that
names this flag. -/
theorem isNamedBefore_concat_of_new {ts : List Token} {t : Token}
    (hlast : ∀ u ∈ ts, u.position < t.position) {f g : Flag}
    (hf : ∃ p, ⟨.name f.name, p⟩ ∈ ts) (hg : ¬∃ p, ⟨.name g.name, p⟩ ∈ ts) :
    IsNamedBefore (ts ++ [t]) f g := by
  obtain ⟨p, hp⟩ := hf
  refine ⟨p, List.mem_append_left _ hp, fun q hq => ?_⟩
  rcases List.mem_append.1 hq with hq | hq
  · exact absurd ⟨q, hq⟩ hg
  · obtain rfl := List.mem_singleton.1 hq
    exact hlast _ hp

/-- Dropping the later copies leaves the flags in the order in which the tokens name them first. -/
theorem pairwise_eraseDups {ts : List Token} (hts : ts.Pairwise fun t u => t.position < u.position)
    {fs : List Flag} (h : names (ts.map (·.symbol)) = fs.map Flag.name) :
    fs.eraseDups.Pairwise (IsNamedBefore ts) := by
  induction ts using List.reverseRecOn generalizing fs with
  | nil =>
    obtain rfl : fs = [] := List.map_eq_nil_iff.1 h.symm
    simp
  | append_singleton ts t ih =>
    obtain ⟨hfront, -, hbehind⟩ := List.pairwise_append.1 hts
    have hlast : ∀ u ∈ ts, u.position < t.position := fun u hu => hbehind u hu t (by simp)
    rw [List.map_append, names_append] at h
    obtain ⟨us, vs, rfl, hus, hvs⟩ := List.map_eq_append_iff.1 h.symm
    have hordered := (ih hfront hus.symm).imp (IsNamedBefore.concat hlast)
    have hnamed : ∀ f : Flag, f ∈ us ↔ ∃ p, ⟨.name f.name, p⟩ ∈ ts :=
      fun _ => exists_mem_of_names hus.symm
    obtain ⟨s, p⟩ := t
    cases s with
    | not | and | or | opening | closing =>
      obtain rfl : vs = [] := List.map_eq_nil_iff.1 hvs
      rwa [List.append_nil]
    | name n =>
      obtain ⟨g, rfl, rfl⟩ := List.map_eq_singleton_iff.1 hvs
      rw [List.eraseDups_append, List.pairwise_append]
      by_cases hg : g ∈ us
      · have hdrop : ([g].removeAll us).eraseDups = [] := by simp [List.removeAll, hg]
        simp [hdrop, hordered]
      · have hnew : ([g].removeAll us).eraseDups = [g] := by
          simp [List.removeAll, hg, List.eraseDups_cons]
        rw [hnew]
        refine ⟨hordered, List.pairwise_singleton _ _, fun f hf g' hg' => ?_⟩
        obtain rfl := List.mem_singleton.1 hg'
        have hf := (hnamed f).1 (List.mem_eraseDups.1 hf)
        exact isNamedBefore_concat_of_new hlast hf (mt (hnamed _).2 hg)

/-! ## §4 Truth tables -/

/-- The mask that selects the flags of a list which are on. -/
def maskOf (fs : List Flag) (s : FlagSet) : Nat :=
  Nat.ofBits fun k : Fin fs.length => s.contains fs[k]

theorem mem_selection_iff {fs : List Flag} {mask : Nat} {f : Flag} :
    f ∈ selection fs mask ↔ ∃ k, fs[k]? = some f ∧ mask.testBit k = true := by
  rw [selection, FlagSet.mem_ofList]
  simp [List.mem_zipIdx_iff_getElem?, and_comm]

/-- The flags that the mask of a set selects are those of the set. -/
theorem agreeOn_selection (fs : List Flag) (s : FlagSet) :
    FlagSet.AgreeOn fs (selection fs (maskOf fs s)) s := by
  intro f hf
  rw [mem_selection_iff]
  have hbit : ∀ k (hk : k < fs.length), (maskOf fs s).testBit k = s.contains fs[k] :=
    fun k hk => Nat.testBit_ofBits_lt _ k hk
  constructor
  · rintro ⟨k, hget, hmask⟩
    obtain ⟨hk, rfl⟩ := List.getElem?_eq_some_iff.1 hget
    rwa [hbit k hk] at hmask
  · intro hs
    obtain ⟨k, hk, rfl⟩ := List.getElem_of_mem hf
    exact ⟨k, List.getElem?_eq_getElem hk, (hbit k hk).trans hs⟩

/-- **The value under a set of flags stands in the truth table**, at the mask of the set. -/
theorem truthTable_getElem? (c : Condition) (s : FlagSet) :
    c.truthTable[maskOf c.flags s]? = some (c.eval s) := by
  have hlt : maskOf c.flags s < Nat.pow 2 c.flags.length := Nat.ofBits_lt_two_pow _
  rw [truthTable, List.getElem?_map, List.getElem?_range hlt, Option.map_some,
    eval_eq_of_agreeOn (agreeOn_selection c.flags s)]

/-! ## §5 The support of a text -/

/-- A flag stands in a text before every place of another one. -/
def IsMetBefore (text : String) (f g : Flag) : Prop :=
  ∃ p, StandsAt text f.name p ∧ ∀ q, StandsAt text g.name q → p < q

/-- The flags are those that decide the value of a condition, and those that its text names. -/
structure IsSupport (text : String) (c : Condition) (fs : List Flag) : Prop where
  /-- Each word of the text is the name of one of the flags. -/
  words : ∀ n p, (Symbol.name n).isLexeme = true → StandsAt text n p → ∃ f ∈ fs, f.name = n
  /-- Each of the flags stands in the text. -/
  stands : ∀ f ∈ fs, ∃ p, StandsAt text f.name p
  nodup : fs.Nodup
  /-- The flags are listed by their first places. -/
  ordered : fs.Pairwise (IsMetBefore text)
  /-- Two sets that agree on the flags give the same value. -/
  agree : ∀ s s', FlagSet.AgreeOn fs s s' → c.eval s = c.eval s'
  /-- The truth table over the flags has the value under each set. -/
  table : ∀ s, c.truthTable[maskOf fs s]? = some (c.eval s)
  /-- Conditions with the same flags and the same truth table have the same values. -/
  determined : ∀ d : Condition, d.flags = fs → d.truthTable = c.truthTable →
    ∀ s, d.eval s = c.eval s

/-- **The flags of a condition are the support of its text.** They are the names in the text in the
order of their first places, each once, and they decide the value of the condition. -/
theorem isSupport_of_read {text : String} {c : Condition} (h : read text = .ok c) :
    IsSupport text c c.flags := by
  obtain ⟨ts, hts, hnames⟩ := names_of_read h
  have hplace : ∀ f p, StandsAt text (Flag.name f) p ↔ ⟨.name f.name, p⟩ ∈ ts :=
    fun f => standsAt_iff_mem hts (isLexeme_name f)
  refine ⟨fun n p hn hp => ?_, fun f hf => ?_, nodup_eraseDups _, ?_,
    fun s s' => eval_eq_of_agreeOn, truthTable_getElem? c, fun d hflags htable s => ?_⟩
  · have hmem : n ∈ names (ts.map (·.symbol)) :=
      mem_names_iff.2 (List.mem_map.2 ⟨_, (standsAt_iff_mem hts hn p).1 hp, rfl⟩)
    rw [hnames, List.mem_map] at hmem
    obtain ⟨f, hf, rfl⟩ := hmem
    exact ⟨f, mem_flags.2 hf, rfl⟩
  · obtain ⟨p, hp⟩ := (exists_mem_of_names hnames).1 (mem_flags.1 hf)
    exact ⟨p, (hplace f p).2 hp⟩
  · have hordered := pairwise_eraseDups (covers_of_tokenize hts).increasing hnames
    apply hordered.imp
    rintro f g ⟨p, hp, hg⟩
    exact ⟨p, (hplace f p).2 hp, fun q hq => hg q ((hplace g q).1 hq)⟩
  · apply Option.some.inj
    rw [← truthTable_getElem?, ← truthTable_getElem?, hflags, htable]

/-- A flag that stands twice is listed for its first place, and flags that are not in the text do
not change the value. -/
theorem isSupport_of_read_twice :
    ∃ c, read "pickerOpen && (modalOpen || !pickerOpen)" = .ok c ∧
      c.flags = [.pickerOpen, .modalOpen] ∧
      IsMetBefore "pickerOpen && (modalOpen || !pickerOpen)" .pickerOpen .modalOpen ∧
      c.truthTable = [false, false, false, true] ∧
      c.eval (.ofList [.modalOpen, .drawerOpen, .pickerOpen]) = true := by
  have hread : read "pickerOpen && (modalOpen || !pickerOpen)" =
      .ok (.and (.flag .pickerOpen) (.or (.flag .modalOpen) (.not (.flag .pickerOpen)))) :=
    Except.toOption_eq_some_iff.1 (by decide +kernel)
  have hsupport := isSupport_of_read hread
  refine ⟨_, hread, by decide, ?_, by decide, ?_⟩
  · exact List.pairwise_pair.1 hsupport.ordered
  · have htable := hsupport.table (.ofList [.modalOpen, .drawerOpen, .pickerOpen])
    exact (Option.some.inj htable).symm

end Keybinding.Condition
