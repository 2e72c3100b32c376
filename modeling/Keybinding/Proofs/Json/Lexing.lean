import Keybinding.Json.Basic
import Keybinding.Proofs.Json.Number
import Keybinding.Proofs.Text.Basic

/-!
# Tokens of written JSON

Every token has a written form, and it is the token that is found where its written form stands
(`tokenAt?_append`). Written forms in a row, without white space between them, are cut into their
tokens again, as long as no number runs into the one after it (`Lexes.cons`).

Numbers are tokens for which this needs a condition, since the literal of a token could be any text.
All tokens of a text meet it (`isProper_of_tokens?`).
-/

namespace Keybinding.Json

variable {s rest : List Char} {t : Token} {ts : List Token}

/-! ## §1 Strings -/

/-- The piece as which a character is written. A control that has no letter of its own is written as
a unit. -/
def piece (c : Char) : Piece :=
  if c.toNat < 0x20 ∧ c ∉ ['\x08', '\x0c', '\n', '\r', '\t'] then .unit c.toNat else .char c

theorem hexUnit?_of_lt {n : Nat} (h : n < 0x20) :
    hexUnit? '0' '0' (hexDigit (n / 16)) (hexDigit (n % 16)) = some n := by
  have hall : ∀ n < 0x20, hexUnit? '0' '0' (hexDigit (n / 16)) (hexDigit (n % 16)) = some n := by
    decide
  exact hall n h

theorem pieces?_escape_append (c : Char) (rest : List Char) :
    pieces? (escape c ++ rest) = (pieces? rest).map fun p => (piece c :: p.1, p.2) := by
  by_cases hletter : c ∈ ['"', '\\', '\x08', '\x0c', '\n', '\r', '\t']
  · -- a backslash and a letter
    simp only [List.mem_cons, List.not_mem_nil, or_false] at hletter
    rcases hletter with rfl | rfl | rfl | rfl | rfl | rfl | rfl
    all_goals
      simp [escape, pieces?, escaped?, piece]
      cases pieces? rest <;> rfl
  · have hne := hletter
    simp only [List.mem_cons, List.not_mem_nil, or_false, not_or] at hne
    by_cases hcontrol : c.toNat < 0x20
    · -- four hexadecimal digits
      simp [escape, hne, hcontrol, pieces?, hexUnit?_of_lt hcontrol, piece]
      cases pieces? rest <;> rfl
    · simp [escape, hne, hcontrol, pieces?, piece]

theorem textOf?_piece_cons (c : Char) (ps : List Piece) :
    textOf? (piece c :: ps) = (textOf? ps).map (c :: ·) := by
  by_cases hunit : c.toNat < 0x20 ∧ c ∉ ['\x08', '\x0c', '\n', '\r', '\t']
  · have hhigh : isHighHalf c.toNat = false := by
      simp [isHighHalf]
      omega
    have hlow : isLowHalf c.toNat = false := by
      simp [isLowHalf]
      omega
    rw [piece, if_pos hunit]
    -- whether or not another unit follows, this one is no half of a pair
    cases ps with
    | nil => simp [textOf?, hhigh, hlow]
    | cons p ps => cases p <;> simp [textOf?, hhigh, hlow]
  · rw [piece, if_neg hunit, textOf?]

theorem textOf?_map_piece (s : List Char) : textOf? (s.map piece) = some s := by
  induction s with
  | nil => rfl
  | cons c s ih => rw [List.map_cons, textOf?_piece_cons, ih, Option.map_some]

theorem pieces?_flatMap_escape (s rest : List Char) :
    pieces? (s.flatMap escape ++ '"' :: rest) = some (s.map piece, rest) := by
  induction s with
  | nil => rfl
  | cons c s ih =>
    rw [List.flatMap_cons, List.append_assoc, pieces?_escape_append, ih, Option.map_some,
      List.map_cons]

theorem quote_some (text : String) :
    quote (some text) = '"' :: text.toList.flatMap escape ++ ['"'] := rfl

/-- A string is found where it is written. -/
theorem tokenAt?_quote_append (text : Option String) (rest : List Char) :
    tokenAt? (quote text ++ rest) = some (.string text, rest) := by
  cases text with
  | none => rfl
  | some text =>
    have hsplit : quote (some text) ++ rest =
        '"' :: (text.toList.flatMap escape ++ '"' :: rest) := by
      simp [quote_some]
    rw [hsplit, tokenAt?, pieces?_flatMap_escape, Option.map_some, textOf?_map_piece,
      Option.map_some, String.ofList_toList]

/-! ## §2 Tokens -/

/-- The written form of a token. -/
def Token.text : Token → List Char
  | openArray => ['[']
  | closeArray => [']']
  | openObject => ['\x7b']
  | closeObject => ['\x7d']
  | comma => [',']
  | colon => [':']
  | null => "null".toList
  | bool true => "true".toList
  | bool false => "false".toList
  | number literal => literal.toList
  | string text => quote text

/-- The literal of a number is a number. -/
def Token.IsProper (t : Token) : Prop :=
  ∀ literal, t = .number literal → IsNumber literal.toList

/-- The text after a token cannot go on with it. -/
def Token.EndsBefore (t : Token) (rest : List Char) : Prop :=
  ∀ literal, t = .number literal → StartsNot continuesNumber rest

theorem IsNumber.exists_cons (h : IsNumber s) :
    ∃ c rest, s = c :: rest ∧ (c.isDigit = true ∨ c = '-') := by
  cases h with
  | unsigned h =>
    obtain ⟨d, rest, rfl, hd⟩ := h.exists_cons
    exact ⟨d, rest, rfl, .inl hd⟩
  | @negative u h => exact ⟨'-', u, rfl, .inr rfl⟩

/-- A number starts with a character that no other token starts with. -/
theorem tokenAt?_of_isNumber (h : IsNumber s) (hrest : StartsNot continuesNumber rest) :
    tokenAt? (s ++ rest) = some (.number (String.ofList s), rest) := by
  have hread := numberToken?_append h hrest
  obtain ⟨c, s, rfl, hc⟩ := h.exists_cons
  -- a digit or a minus is neither a quote nor a mark nor the start of a word
  have hquote : c ≠ '"' := by
    rintro rfl
    exact absurd hc (by decide)
  have hpunctuation : punctuation? c = none := by
    unfold punctuation?
    split
    all_goals first | rfl | exact absurd hc (by decide)
  have hliteral : literal? (c :: s ++ rest) = none := by
    rw [List.cons_append]
    unfold literal?
    split
    all_goals first | rfl | skip
    all_goals
      next he =>
        rw [(List.cons.inj he).1] at hc
        exact absurd hc (by decide)
  rw [List.cons_append] at hread hliteral ⊢
  rw [tokenAt?]
  · rw [hpunctuation, hliteral, hread]
    rfl
  · exact fun he => hquote he

/-- A token is found where its written form stands. -/
theorem tokenAt?_append (hproper : t.IsProper) (hends : t.EndsBefore rest) :
    tokenAt? (t.text ++ rest) = some (t, rest) := by
  cases t with
  | openArray | closeArray | openObject | closeObject | comma | colon | null => rfl
  | bool b => cases b <;> rfl
  | number literal =>
    have hread := tokenAt?_of_isNumber (hproper literal rfl) (hends literal rfl)
    rwa [String.ofList_toList] at hread
  | string text => exact tokenAt?_quote_append text rest

theorem exists_cons_of_isProper (h : t.IsProper) : ∃ c r, t.text = c :: r ∧ isBlank c = false := by
  cases t with
  | openArray | closeArray | openObject | closeObject | comma | colon | null =>
    exact ⟨_, _, rfl, rfl⟩
  | bool b => cases b <;> exact ⟨_, _, rfl, rfl⟩
  | number literal =>
    obtain ⟨c, r, hc, hclass⟩ := (h literal rfl).exists_cons
    refine ⟨c, r, hc, ?_⟩
    rcases hclass with hdigit | rfl
    · have hbounds := Text.toNat_of_isDigit hdigit
      simp [isBlank, ← Char.toNat_inj]
      omega
    · rfl
  | string text =>
    cases text with
    | none => exact ⟨_, _, rfl, rfl⟩
    | some text => exact ⟨'"', _, rfl, rfl⟩

/-! ## §3 Texts -/

/-- The tokens of a text, however much fuel there is beyond what its length asks for. -/
def Lexes (s : List Char) (ts : List Token) : Prop :=
  ∀ fuel, s.length ≤ fuel → tokensWithin fuel s = some ts

theorem lexes_nil : Lexes [] [] := by
  intro fuel _
  cases fuel <;> rfl

/-- One more token in front. -/
theorem Lexes.cons (h : Lexes rest ts) (hproper : t.IsProper) (hends : t.EndsBefore rest) :
    Lexes (t.text ++ rest) (t :: ts) := by
  intro fuel hfuel
  have htoken := tokenAt?_append hproper hends
  obtain ⟨c, r, htext, hblank⟩ := exists_cons_of_isProper hproper
  rw [htext, List.cons_append] at hfuel htoken ⊢
  -- no blanks stand before the token, and its text takes at least one unit of the fuel
  have hstart : (c :: (r ++ rest)).dropWhile isBlank = c :: (r ++ rest) :=
    List.dropWhile_cons_of_neg (by simp [hblank])
  cases fuel with
  | zero => simp at hfuel
  | succ fuel =>
    have hlength : rest.length ≤ fuel := by
      simp only [List.length_cons, List.length_append] at hfuel
      omega
    rw [tokensWithin.eq_def]
    simp only [hstart, htoken, h fuel hlength, Option.map_some]

theorem Lexes.tokens?_eq (h : Lexes s ts) : tokens? s = some ts :=
  h s.length (Nat.le_refl _)

/-! ## §4 The literals of a text -/

theorem isProper_of_tokenAt? (h : tokenAt? s = some (t, rest)) : t.IsProper := by
  intro literal ht
  subst ht
  unfold tokenAt? at h
  split at h
  · contradiction
  · obtain ⟨p, -, hp⟩ := Option.map_eq_some_iff.1 h
    cases hp
  · split at h
    · next hpunctuation =>
      cases h
      unfold punctuation? at hpunctuation
      split at hpunctuation <;> cases hpunctuation
    · -- a word is no number, and the literal of a number has been read by the grammar
      rcases (Option.orElse_eq_some _ _ _).1 h with hliteral | ⟨-, hnumber⟩
      · unfold literal? at hliteral
        split at hliteral <;> cases hliteral
      · obtain ⟨u, hu, hnumber, -⟩ := isNumber_of_numberToken? hnumber
        obtain rfl := Token.number.inj hu
        rwa [String.toList_ofList]

theorem isProper_of_tokensWithin {fuel : Nat} (h : tokensWithin fuel s = some ts) :
    ∀ t ∈ ts, t.IsProper := by
  fun_induction tokensWithin fuel s generalizing ts with
  | case1 fuel s hblank =>
    cases h
    exact nofun
  | case2 s c tail hs => contradiction
  | case3 s fuel t rest hs htoken ih =>
    obtain ⟨later, hlater, rfl⟩ := Option.map_eq_some_iff.1 h
    rw [List.forall_mem_cons]
    exact ⟨isProper_of_tokenAt? htoken, ih hlater⟩
  | case4 s fuel hs htoken => contradiction

/-- The literals of the numbers in a text are numbers. -/
theorem isProper_of_tokens? (h : tokens? s = some ts) : ∀ t ∈ ts, t.IsProper :=
  isProper_of_tokensWithin h

end Keybinding.Json
