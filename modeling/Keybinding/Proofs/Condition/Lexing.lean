import Keybinding.Proofs.Condition.Fault
import Keybinding.Proofs.Condition.Spelling

/-!
# The places of tokens

Cutting a text into tokens loses nothing but white space and invents nothing. `Cut later p cs ts`
says how far the reading from left to right has come: the characters `cs`, which start at the byte
`p` and have `later` behind them, are white space and the tokens `ts`, each as long as it can be.
Every text is cut up to its end, or up to a character that starts no symbol (`exists_cut`); the
tokenizer answers the tokens in the first case and this character in the second.

- `tokenize_loses_nothing`: what a list of tokens says about its text, where a text fails, and which
  texts have given tokens.
-/

namespace Keybinding.Condition

open Text

/-! ## §1 Cutting from left to right -/

/-- The number of bytes of characters in UTF-8. -/
def byteSize (cs : List Char) : Nat := (String.ofList cs).utf8ByteSize

@[simp] theorem byteSize_nil : byteSize [] = 0 := rfl

@[simp] theorem byteSize_cons (c : Char) (cs : List Char) :
    byteSize (c :: cs) = c.utf8Size + byteSize cs := by
  simp [byteSize]

@[simp] theorem byteSize_append (cs ds : List Char) :
    byteSize (cs ++ ds) = byteSize cs + byteSize ds := by
  simp [byteSize]

@[simp] theorem byteSize_toList (s : String) : byteSize s.toList = s.utf8ByteSize := by
  rw [byteSize, String.ofList_toList]

/-- The characters from the byte `p` on, in front of `later`, are white space and the tokens. A name
goes on as long as letters and digits follow. -/
inductive Cut (later : List Char) : Nat → List Char → List Token → Prop
  | nil (p : Nat) : Cut later p [] []
  | space {p : Nat} {c : Char} {cs : List Char} {ts : List Token} (hc : isSpace c = true)
      (h : Cut later (p + c.utf8Size) cs ts) : Cut later p (c :: cs) ts
  | symbol {p : Nat} {s : Symbol} {cs : List Char} {ts : List Token} (hs : s.isLexeme = true)
      (hend : s.isName = true → StartsApart (cs ++ later))
      (h : Cut later (p + s.spelling.utf8ByteSize) cs ts) :
      Cut later p (s.spelling.toList ++ cs) (⟨s, p⟩ :: ts)

/-- No symbol starts with `c` in front of `later`, which is not skipped either: `c` is half an
operator, or a character that no symbol starts with. -/
def StartsNone (c : Char) (later : List Char) : Prop :=
  (c = '&' ∨ c = '|') ∧ later.head? ≠ some c ∨
    isSpace c = false ∧ c.isAlpha = false ∧ c ∉ ['!', '(', ')', '&', '|']

/-- The failure at a character that starts no symbol. -/
def strayError (c : Char) (position : Nat) : Error :=
  if c = '&' ∨ c = '|' then .halfOperator c position else .strayCharacter c position

@[simp] theorem position_strayError (c : Char) (position : Nat) :
    (strayError c position).position = position := by
  unfold strayError
  split <;> rfl

@[simp] theorem isUnknownFlag_strayError (c : Char) (position : Nat) :
    (strayError c position).isUnknownFlag = false := by
  unfold strayError
  split <;> rfl

/-! ## §2 One symbol -/

/-- A name that is cut off a text ends where no letter or digit follows. -/
theorem isLexeme_of_symbolAt {position : Nat} {c : Char} {rest rest' : List Char} {s : Symbol}
    (h : symbolAt position c rest = .ok (s, rest')) :
    s.isLexeme = true ∧ (s.isName = true → StartsApart rest') := by
  unfold symbolAt at h
  split at h
  next p hp =>
    cases h
    unfold punctuation? at hp
    split at hp <;> cases hp <;> simp [Symbol.isLexeme, Symbol.isName]
  next o _ ho =>
    split at h <;> cases h
    unfold operator? at ho
    split at ho <;> cases ho <;> simp [Symbol.isLexeme, Symbol.isName]
  next =>
    split at h <;> cases h
    next hc =>
      refine ⟨?_, fun _ d hd => ?_⟩
      · simp [Symbol.isLexeme, hc, List.all_takeWhile]
      · have hstop := List.head?_dropWhile_not Char.isAlphanum rest
        rw [hd] at hstop
        exact hstop

/-- A symbol is refused where none starts. -/
theorem symbolAt_eq_error {c : Char} {rest : List Char} (h : StartsNone c rest) (position : Nat) :
    isSpace c = false ∧ symbolAt position c rest = .error (strayError c position) := by
  rcases h with ⟨hhalf, hhead⟩ | ⟨hspace, halpha, hnone⟩
  · rcases hhalf with rfl | rfl <;>
      exact ⟨by decide, by simp [symbolAt, punctuation?, operator?, strayError, hhead]⟩
  · refine ⟨hspace, ?_⟩
    simp only [List.mem_cons, List.not_mem_nil, or_false, not_or] at hnone
    obtain ⟨hnot, hopening, hclosing, hand, hor⟩ := hnone
    have hpunctuation : punctuation? c = none := by
      unfold punctuation?
      split <;> first | rfl | contradiction
    have hoperator : operator? c = none := by
      unfold operator?
      split <;> first | rfl | contradiction
    simp [symbolAt, hpunctuation, hoperator, halpha, strayError, hand, hor]

/-- Where a symbol is refused, none starts. -/
theorem startsNone_of_symbolAt {position : Nat} {c : Char} {rest : List Char} {e : Error}
    (hc : isSpace c = false) (h : symbolAt position c rest = .error e) : StartsNone c rest := by
  unfold symbolAt at h
  split at h
  next => cases h
  next o _ ho =>
    split at h <;> cases h
    next hhead =>
      refine .inl ⟨?_, hhead⟩
      unfold operator? at ho
      split at ho <;> cases ho <;> simp
  next hp ho =>
    split at h <;> cases h
    next halpha =>
      refine .inr ⟨hc, by simpa using halpha, ?_⟩
      intro hmem
      simp only [List.mem_cons, List.not_mem_nil, or_false] at hmem
      rcases hmem with rfl | rfl | rfl | rfl | rfl <;> simp [punctuation?, operator?] at hp ho

/-! ## §3 All symbols -/

variable {later cs : List Char} {p : Nat} {ts : List Token}

/-- What has been cut off in front of a text does not change how the text is read. -/
theorem Cut.tokensFrom_append (h : Cut later p cs ts) :
    tokensFrom p (cs ++ later) = (tokensFrom (p + byteSize cs) later).map (ts ++ ·) := by
  have hmap : ∀ (x : Except Error (List Token)) (t : Token) (us : List Token),
      (x.map (us ++ ·)).map (t :: ·) = x.map ((t :: us) ++ ·) := by
    intro x t us
    cases x <;> rfl
  -- the place moves on with what has been cut off
  induction h with
  | nil p => cases h : tokensFrom p later <;> simp [h, Except.map]
  | @space p c cs ts hc _ ih =>
    rw [List.cons_append, tokensFrom_of_isSpace hc, ih, byteSize_cons, Nat.add_assoc]
  | @symbol p s cs ts hs hend _ ih =>
    obtain ⟨c, rest, heq, hc, hat⟩ := exists_symbolAt hs hend p
    rw [List.append_assoc, heq, tokensFrom_of_symbolAt hc hat, ih, hmap, byteSize_append,
      byteSize_toList, Nat.add_assoc]

/-- Every text is cut up to its end, or up to a character that starts no symbol. -/
theorem exists_cut (p : Nat) (cs : List Char) :
    ∃ before later ts, cs = before ++ later ∧ Cut later p before ts ∧
      ∀ c after, later = c :: after → StartsNone c after := by
  -- the cut follows the reading, and stops where a symbol is refused
  fun_induction tokensFrom p cs with
  | case1 p => exact ⟨[], [], [], rfl, .nil p, by simp⟩
  | case2 p c rest hc ih =>
    obtain ⟨before, later, ts, rfl, hcut, hstop⟩ := ih
    exact ⟨c :: before, later, ts, rfl, .space hc hcut, hstop⟩
  | case3 p c rest hc e he =>
    refine ⟨[], c :: rest, [], rfl, .nil p, fun d after heq => ?_⟩
    obtain ⟨rfl, rfl⟩ := List.cons.inj heq
    exact startsNone_of_symbolAt (by simpa using hc) he
  | case4 p c rest hc s rest' hat _ ih =>
    obtain ⟨before, later, ts, rfl, hcut, hstop⟩ := ih
    obtain ⟨hs, hend⟩ := isLexeme_of_symbolAt hat
    refine ⟨s.spelling.toList ++ before, later, ⟨s, p⟩ :: ts, ?_, .symbol hs hend hcut, hstop⟩
    rw [List.append_assoc, append_of_symbolAt hat]

/-- A text that is cut up to its end has the tokens that are cut off. -/
theorem Cut.tokensFrom_eq (h : Cut [] p cs ts) : tokensFrom p cs = .ok ts := by
  have happend := h.tokensFrom_append
  rw [List.append_nil] at happend
  rw [happend, tokensFrom]
  simp [Except.map]

/-- A text that is cut up to a character that starts no symbol fails there. -/
theorem Cut.tokensFrom_eq_error {c : Char} {after : List Char} (h : Cut (c :: after) p cs ts)
    (hc : StartsNone c after) :
    tokensFrom p (cs ++ c :: after) = .error (strayError c (p + byteSize cs)) := by
  obtain ⟨hspace, hat⟩ := symbolAt_eq_error hc (p + byteSize cs)
  rw [h.tokensFrom_append, tokensFrom, if_neg (by simp [hspace])]
  split
  · next he =>
    cases hat.symm.trans he
    rfl
  · next hs => cases hat.symm.trans hs

/-- **A text has tokens when it is cut up to its end.** -/
theorem tokensFrom_eq_ok_iff : tokensFrom p cs = .ok ts ↔ Cut [] p cs ts := by
  refine ⟨fun h => ?_, Cut.tokensFrom_eq⟩
  -- had the cut stopped before the end, the text would have failed
  obtain ⟨before, later, us, rfl, hcut, hstop⟩ := exists_cut p cs
  cases later with
  | nil =>
    rw [List.append_nil] at h ⊢
    cases hcut.tokensFrom_eq.symm.trans h
    exact hcut
  | cons c after => cases (hcut.tokensFrom_eq_error (hstop c after rfl)).symm.trans h

/-- **A text fails when it is cut up to a character that starts no symbol.** -/
theorem tokensFrom_eq_error_iff {e : Error} :
    tokensFrom p cs = .error e ↔
      ∃ before c after ts, cs = before ++ c :: after ∧ Cut (c :: after) p before ts ∧
        StartsNone c after ∧ e = strayError c (p + byteSize before) := by
  constructor
  · intro h
    obtain ⟨before, later, us, rfl, hcut, hstop⟩ := exists_cut p cs
    cases later with
    | nil =>
      rw [List.append_nil] at h
      cases hcut.tokensFrom_eq.symm.trans h
    | cons c after =>
      have hnone := hstop c after rfl
      cases (hcut.tokensFrom_eq_error hnone).symm.trans h
      exact ⟨before, c, after, us, rfl, hcut, hnone, rfl⟩
  · rintro ⟨before, c, after, us, rfl, hcut, hnone, rfl⟩
    exact hcut.tokensFrom_eq_error hnone

/-! ## §4 Where tokens stand -/

/-- No letter or digit stands at the end of a text. -/
def EndsApart (cs : List Char) : Prop :=
  ∀ c, cs.getLast? = some c → c.isAlphanum = false

theorem EndsApart.append {cs ds : List Char} (hd : EndsApart ds) (hc : ds = [] → EndsApart cs) :
    EndsApart (cs ++ ds) := by
  intro c h
  cases ds with
  | nil => exact hc rfl c (by simpa using h)
  | cons d ds => exact hd c (by simpa using h)

/-- A symbol that is no name ends with no letter or digit. -/
theorem endsApart_spelling {s : Symbol} (h : s.isName = false) : EndsApart s.spelling.toList := by
  intro c hc
  cases s with
  | name n => simp [Symbol.isName] at h
  | not | and | or | opening | closing =>
    cases hc
    rfl

theorem byteSize_spelling_pos {s : Symbol} (hs : s.isLexeme = true) :
    0 < s.spelling.utf8ByteSize := by
  obtain ⟨c, rest, heq, -, -⟩ := exists_symbolAt hs (fun _ => startsApart_nil) 0
  rw [List.append_nil] at heq
  rw [← byteSize_toList, heq, byteSize_cons]
  exact Nat.add_pos_left c.utf8Size_pos _

/-- A token that is cut off is a lexeme, and it is written at its place. A name there is not part of
a longer one. -/
theorem Cut.stands (h : Cut later p cs ts) {t : Token} (ht : t ∈ ts) :
    t.symbol.isLexeme = true ∧
      ∃ before after, cs = before ++ t.symbol.spelling.toList ++ after ∧
        p + byteSize before = t.position ∧
        (t.symbol.isName = true → EndsApart before ∧ StartsApart (after ++ later)) := by
  induction h with
  | nil => simp at ht
  | @space p c cs ts hc _ ih =>
    obtain ⟨hs, before, after, rfl, hplace, hname⟩ := ih ht
    refine ⟨hs, c :: before, after, rfl, by simpa [Nat.add_assoc] using hplace, fun h => ?_⟩
    obtain ⟨hbefore, hafter⟩ := hname h
    have hapart : EndsApart [c] := by simpa [EndsApart] using isAlphanum_of_isSpace hc
    exact ⟨hbefore.append fun _ => hapart, hafter⟩
  | @symbol p s cs ts hs hend _ ih =>
    rcases List.mem_cons.1 ht with rfl | ht
    · exact ⟨hs, [], cs, rfl, rfl, fun h => ⟨nofun, hend h⟩⟩
    · obtain ⟨hs', before, after, rfl, hplace, hname⟩ := ih ht
      refine ⟨hs', s.spelling.toList ++ before, after, by simp, ?_, fun h => ?_⟩
      · simpa [Nat.add_assoc] using hplace
      · obtain ⟨hbefore, hafter⟩ := hname h
        -- directly behind another name, this one would have been its end
        refine ⟨hbefore.append fun hnil => endsApart_spelling ?_, hafter⟩
        by_contra hname'
        refine not_startsApart_of_isName hs' h (after ++ later) ?_
        simpa [hnil] using hend (by simpa using hname')

theorem Cut.le_position (h : Cut later p cs ts) {t : Token} (ht : t ∈ ts) : p ≤ t.position := by
  obtain ⟨-, before, -, -, hplace, -⟩ := h.stands ht
  omega

/-- Each token ends before the next one starts. -/
theorem Cut.pairwise (h : Cut later p cs ts) :
    ts.Pairwise fun t u => t.position + t.symbol.spelling.utf8ByteSize ≤ u.position := by
  induction h with
  | nil => exact .nil
  | space _ _ ih => exact ih
  | symbol _ _ h ih => exact List.pairwise_cons.2 ⟨fun u hu => h.le_position hu, ih⟩

/-- A character that is no white space belongs to a token. -/
theorem Cut.exists_token (h : Cut later p cs ts) {before after : List Char} {c : Char}
    (hsplit : cs = before ++ c :: after) (hc : isSpace c = false) :
    ∃ t ∈ ts, t.position ≤ p + byteSize before ∧
      p + byteSize before + c.utf8Size ≤ t.position + t.symbol.spelling.utf8ByteSize := by
  induction h generalizing before with
  | nil => simp at hsplit
  | @space p d cs ts hd _ ih =>
    cases before with
    | nil =>
      obtain ⟨rfl, -⟩ := List.cons.inj hsplit
      rw [hd] at hc
      contradiction
    | cons d' before =>
      obtain ⟨rfl, hrest⟩ := List.cons.inj hsplit
      simpa [Nat.add_assoc] using ih hrest
  | @symbol p s cs ts hs hend _ ih =>
    -- the character is part of this symbol or comes behind it
    rcases List.append_eq_append_iff.1 hsplit with ⟨front, rfl, hrest⟩ | ⟨rest, hspelling, hrest⟩
    · obtain ⟨t, ht, hle, hge⟩ := ih hrest
      refine ⟨t, List.mem_cons_of_mem _ ht, ?_⟩
      simp only [byteSize_append, byteSize_toList]
      omega
    · cases rest with
      | nil =>
        have hfirst : cs = [] ++ c :: after := by simpa using hrest.symm
        obtain ⟨t, ht, hle, hge⟩ := ih hfirst
        refine ⟨t, List.mem_cons_of_mem _ ht, ?_⟩
        rw [List.append_nil] at hspelling
        rw [← hspelling, byteSize_toList]
        simpa using And.intro hle hge
      | cons d rest =>
        obtain ⟨rfl, -⟩ := List.cons.inj hrest
        refine ⟨_, List.mem_cons_self, Nat.le_add_right _ _, ?_⟩
        show p + byteSize before + c.utf8Size ≤ p + s.spelling.utf8ByteSize
        rw [← byteSize_toList, hspelling, byteSize_append, byteSize_cons]
        omega

/-- A text is made of tokens and white space. -/
structure Covers (text : String) (ts : List Token) : Prop where
  /-- Each token is a lexeme and is written at its place, where a name is not part of a longer
  one. -/
  spelled : ∀ t ∈ ts, t.symbol.isLexeme = true ∧
    ∃ before after, text = before ++ t.symbol.spelling ++ after ∧
      before.utf8ByteSize = t.position ∧
      (t.symbol.isName = true → EndsApart before.toList ∧ StartsApart after.toList)
  increasing : ts.Pairwise fun t u => t.position < u.position
  /-- The spans of the tokens do not overlap. -/
  apart : ts.Pairwise fun t u => t.position + t.symbol.spelling.utf8ByteSize ≤ u.position
  /-- Outside of all spans there is white space. -/
  skipped : ∀ before c after, text = before ++ String.singleton c ++ after →
    (∀ t ∈ ts, ¬ (t.position ≤ before.utf8ByteSize ∧
      before.utf8ByteSize < t.position + t.symbol.spelling.utf8ByteSize)) → isSpace c = true

theorem covers_of_tokenize {text : String} (h : tokenize text = .ok ts) : Covers text ts := by
  have hcut : Cut [] 0 text.toList ts := tokensFrom_eq_ok_iff.1 h
  refine ⟨fun t ht => ?_, ?_, hcut.pairwise, fun before c after hsplit hout => ?_⟩
  · obtain ⟨hs, before, after, hsplit, hplace, hname⟩ := hcut.stands ht
    refine ⟨hs, String.ofList before, String.ofList after, ?_, ?_, fun h => ?_⟩
    · rw [← String.toList_inj, hsplit]
      simp
    · simpa [byteSize] using hplace
    · simpa using hname h
  · -- a token that ends before the next one also starts before it, since it is not empty
    refine hcut.pairwise.imp_of_mem fun {t u} ht _ hle => ?_
    have hpos := byteSize_spelling_pos (hcut.stands ht).1
    omega
  · by_contra hc
    have hlist : text.toList = before.toList ++ c :: after.toList := by
      rw [hsplit]
      simp
    obtain ⟨t, ht, hle, hge⟩ := hcut.exists_token hlist (by simpa using hc)
    have hsize := c.utf8Size_pos
    rw [Nat.zero_add, byteSize_toList] at hle hge
    exact hout t ht ⟨hle, by omega⟩

/-! ## §5 The whole law -/

/-- The reading of a text from left to right comes to a character that starts no symbol. -/
def StopsWith (text : String) (e : Error) : Prop :=
  ∃ before c after ts, text = before ++ String.singleton c ++ after ∧
    Cut (c :: after.toList) 0 before.toList ts ∧ StartsNone c after.toList ∧
    e = strayError c before.utf8ByteSize

theorem tokenize_eq_error_iff {text : String} {e : Error} :
    tokenize text = .error e ↔ StopsWith text e := by
  rw [tokenize, tokensFrom_eq_error_iff]
  constructor
  · rintro ⟨before, c, after, ts, hsplit, hcut, hnone, rfl⟩
    refine ⟨String.ofList before, c, String.ofList after, ts, ?_, by simpa using hcut,
      by simpa using hnone, by simp [byteSize]⟩
    rw [← String.toList_inj, hsplit]
    simp
  · rintro ⟨before, c, after, ts, rfl, hcut, hnone, rfl⟩
    exact ⟨before.toList, c, after.toList, ts, by simp, hcut, hnone, by simp⟩

theorem read_of_tokenize_error {text : String} {e : Error} (h : tokenize text = .error e) :
    read text = .error e := by
  rw [read, h]
  rfl

/-- **The tokens of a text are all of it but white space.** A text has tokens that cover it, or it
fails for the first character at which the reading from left to right, with names as long as they
can be, finds neither white space nor a symbol. This failure comes before all others. And symbols
that are written out with white space between them are read back. -/
theorem tokenize_loses_nothing :
    (∀ text ts, tokenize text = .ok ts → Covers text ts) ∧
    (∀ text e, tokenize text = .error e ↔ StopsWith text e) ∧
    (∀ text e, tokenize text = .error e → e.isUnknownFlag = false ∧ read text = .error e) ∧
    ∀ ws last, IsSpaced ws last →
      ∃ ts, tokenize (writtenOut ws last) = .ok ts ∧ ts.map (·.symbol) = ws.map (·.2) := by
  refine ⟨fun _ _ => covers_of_tokenize, fun _ _ => tokenize_eq_error_iff, fun text e h => ?_,
    fun ws last h => h.spells.exists_tokensFrom 0⟩
  exact ⟨not_isUnknownFlag_tokenize h, read_of_tokenize_error h⟩

/-- With a space of two bytes in a text, a third `&` behind an unknown name, and names that only the
gap or the symbol between them keeps apart. -/
theorem tokenize_loses_nothing_spaced :
    Covers "!x1&&\u00a0y" [⟨.not, 0⟩, ⟨.name "x1", 1⟩, ⟨.and, 3⟩, ⟨.name "y", 7⟩] ∧
      StopsWith "noFlag &&&y" (.halfOperator '&' 9) ∧
      read "noFlag &&&y" = .error (.halfOperator '&' 9) ∧
      ∃ ts, tokenize "\tx y(z\n" = .ok ts ∧
        ts.map (·.symbol) = [.name "x", .name "y", .opening, .name "z"] := by
  obtain ⟨hcovers, hstops, hfails, hwritten⟩ := tokenize_loses_nothing
  have herror : tokenize "noFlag &&&y" = .error (.halfOperator '&' 9) := by decide +kernel
  have hspaced : IsSpaced [("\t", .name "x"), (" ", .name "y"), ("", .opening), ("", .name "z")]
      "\n" :=
    ⟨by decide, by simp [isSpace], by simp [isSpace], by decide⟩
  refine ⟨hcovers _ _ (by decide +kernel), (hstops _ _).1 herror, (hfails _ _ herror).2, ?_⟩
  exact hwritten _ _ hspaced

end Keybinding.Condition
