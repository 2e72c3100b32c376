import Keybinding.Json.Reader
import Keybinding.Proofs.Json.Lexing
import Mathlib.Data.List.Basic

/-!
# Reading undoes writing

A JSON value has a list of tokens (`Json.tokens`). It links the text of the value with the value:

- The written form of a value is cut into its tokens (`lexes_render`).
- A list of tokens denotes a value exactly if it is the list of its tokens
  (`ofTokens?_eq_some_iff`). One half of this follows the value, the other one the reader, which
  always knows the tokens that it has read so far (`tokens_of_step?`).

So every value that is read from some text is read from the text as which it is written, too
(`read?_display`).
-/

namespace Keybinding.Json

/-! ## §1 The tokens of a value -/

/-- Parts between two brackets, with commas between them. -/
def enclose (opening closing : Token) : List (List Token) → List Token
  | [] => [opening, closing]
  | p :: ps => opening :: p ++ ps.flatMap (.comma :: ·) ++ [closing]

/-- A bracket, and parts that are each followed by a comma. -/
def opened (opening : Token) (ps : List (List Token)) : List Token :=
  opening :: ps.flatMap (· ++ [.comma])

/-- The tokens of a member before its value. -/
def keyTokens (k : Option String) : List Token := [.string k, .colon]

mutual

/-- The tokens of a value. -/
def tokens : Json → List Token
  | null => [.null]
  | bool b => [.bool b]
  | number literal => [.number literal]
  | string text => [.string text]
  | array items => enclose .openArray .closeArray (itemTokens items)
  | object members => enclose .openObject .closeObject (memberTokens members)

/-- The tokens of each item of an array. -/
def itemTokens : List Json → List (List Token)
  | [] => []
  | j :: js => tokens j :: itemTokens js

/-- The tokens of each member of an object. -/
def memberTokens : List (Option String × Json) → List (List Token)
  | [] => []
  | (k, j) :: ms => (keyTokens k ++ tokens j) :: memberTokens ms

end

variable {j : Json} {t : Token} {ts : List Token} {fs : List Frame} {p : List Token}
  {ps : List (List Token)} {opening closing : Token} {s s' : State}

theorem itemTokens_eq_map (js : List Json) : itemTokens js = js.map tokens := by
  induction js with
  | nil => rfl
  | cons j js ih => rw [itemTokens, ih, List.map_cons]

theorem memberTokens_eq_map (ms : List (Option String × Json)) :
    memberTokens ms = ms.map fun m => keyTokens m.1 ++ m.2.tokens := by
  induction ms with
  | nil => rfl
  | cons m ms ih => rw [memberTokens, ih, List.map_cons]

theorem itemTokens_concat (js : List Json) (j : Json) :
    itemTokens (js ++ [j]) = itemTokens js ++ [j.tokens] := by
  simp [itemTokens_eq_map]

theorem memberTokens_concat (ms : List (Option String × Json)) (m : Option String × Json) :
    memberTokens (ms ++ [m]) = memberTokens ms ++ [keyTokens m.1 ++ m.2.tokens] := by
  simp [memberTokens_eq_map]

theorem enclose_nil (opening closing : Token) : enclose opening closing [] = [opening, closing] :=
  rfl

theorem opened_nil (opening : Token) : opened opening [] = [opening] := rfl

theorem opened_concat (opening : Token) (ps : List (List Token)) (p : List Token) :
    opened opening (ps ++ [p]) = opened opening ps ++ p ++ [.comma] := by
  simp [opened]

/-- A comma in front of each part but the first is a comma behind each part but the last. -/
theorem append_flatMap_comma (q : List Token) (ps : List (List Token)) (p : List Token) :
    q ++ (ps ++ [p]).flatMap (.comma :: ·) = (q :: ps).flatMap (· ++ [.comma]) ++ p := by
  induction ps generalizing q with
  | nil => simp
  | cons q' ps ih =>
    rw [List.cons_append, List.flatMap_cons, List.cons_append, ih, List.flatMap_cons]
    simp

theorem enclose_concat (opening closing : Token) (ps : List (List Token)) (p : List Token) :
    enclose opening closing (ps ++ [p]) = opened opening ps ++ p ++ [closing] := by
  cases ps with
  | nil => simp [enclose, opened]
  | cons q ps =>
    have hparts := append_flatMap_comma q ps p
    show opening :: q ++ (ps ++ [p]).flatMap (.comma :: ·) ++ [closing] = _
    rw [List.cons_append, hparts]
    rfl

/-- No value starts with the end of an array. -/
theorem exists_cons_tokens (j : Json) : ∃ t ts, j.tokens = t :: ts ∧ t ≠ .closeArray := by
  cases j with
  | null | bool | number | string => exact ⟨_, _, rfl, nofun⟩
  | array items => cases items <;> exact ⟨_, _, rfl, nofun⟩
  | object members =>
    cases members with
    | nil => exact ⟨_, _, rfl, nofun⟩
    | cons m ms => exact ⟨_, _, rfl, nofun⟩

/-! ## §2 Values whose numbers are numbers -/

/-- The literals in a value are numbers. -/
def IsProper (j : Json) : Prop :=
  ∀ t ∈ j.tokens, t.IsProper

theorem Token.isProper_of_ne (h : ∀ literal, t ≠ .number literal) : t.IsProper := by
  intro literal ht
  exact absurd ht (h literal)

theorem isProper_null : null.IsProper := by
  simp [IsProper, tokens, Token.IsProper]

theorem isProper_bool (b : Bool) : (bool b).IsProper := by
  simp [IsProper, tokens, Token.IsProper]

theorem isProper_string (text : Option String) : (string text).IsProper := by
  simp [IsProper, tokens, Token.IsProper]

theorem isProper_number_iff {literal : String} :
    (number literal).IsProper ↔ IsNumber literal.toList := by
  simp [IsProper, tokens, Token.IsProper]

/-- Tokens between brackets are proper if those of each part are. -/
theorem isProper_enclose_iff (hopening : opening.IsProper) (hclosing : closing.IsProper) :
    (∀ t ∈ enclose opening closing ps, t.IsProper) ↔ ∀ p ∈ ps, ∀ t ∈ p, t.IsProper := by
  have hcomma : Token.comma.IsProper := Token.isProper_of_ne nofun
  cases ps with
  | nil => simp [enclose, hopening, hclosing]
  | cons p ps =>
    simp only [enclose, List.cons_append, List.append_assoc, List.forall_mem_cons,
      List.forall_mem_append, List.forall_mem_flatMap]
    simp [hopening, hclosing, hcomma]

/-- An array is proper if its items are. -/
theorem isProper_array_iff {js : List Json} : (array js).IsProper ↔ ∀ j ∈ js, j.IsProper := by
  have hopening : Token.openArray.IsProper := Token.isProper_of_ne nofun
  have hclosing : Token.closeArray.IsProper := Token.isProper_of_ne nofun
  rw [IsProper, tokens, itemTokens_eq_map, isProper_enclose_iff hopening hclosing,
    List.forall_mem_map]
  rfl

/-- An object is proper if the values of its members are. -/
theorem isProper_object_iff {ms : List (Option String × Json)} :
    (object ms).IsProper ↔ ∀ m ∈ ms, m.2.IsProper := by
  have hkey : ∀ k, ∀ t ∈ keyTokens k, t.IsProper := by
    intro k
    simp [keyTokens, Token.IsProper]
  have hopening : Token.openObject.IsProper := Token.isProper_of_ne nofun
  have hclosing : Token.closeObject.IsProper := Token.isProper_of_ne nofun
  rw [IsProper, tokens, memberTokens_eq_map, isProper_enclose_iff hopening hclosing,
    List.forall_mem_map]
  simp only [List.forall_mem_append]
  exact ⟨fun h m hm => (h m hm).2, fun h m hm => ⟨hkey m.1, h m hm⟩⟩

/-! ## §3 From values to texts -/

/-- What comes after an item or a member does not go on with a number. -/
theorem startsNot_renderItems (js : List Json) (rest : List Char) :
    StartsNot continuesNumber (renderItems js ++ rest) := by
  cases js <;> exact startsNot_cons (by decide)

theorem startsNot_renderMembers (ms : List (Option String × Json)) (rest : List Char) :
    StartsNot continuesNumber (renderMembers ms ++ rest) := by
  cases ms <;> exact startsNot_cons (by decide)

variable {rest : List Char}

/-- A token that is no number can stand before any text. -/
theorem Lexes.cons_of_ne (h : Lexes rest ts) (hne : ∀ literal, t ≠ .number literal) :
    Lexes (t.text ++ rest) (t :: ts) :=
  h.cons (Token.isProper_of_ne hne) fun literal ht => absurd ht (hne literal)

/-- The key of a member and the colon after it. -/
theorem Lexes.key (h : Lexes rest ts) (k : Option String) :
    Lexes (quote k ++ ':' :: rest) (keyTokens k ++ ts) := by
  have hcolon : Lexes (':' :: rest) (.colon :: ts) := h.cons_of_ne (t := .colon) nofun
  exact hcolon.cons_of_ne (t := .string k) nofun

mutual

/-- **The written form of a value is cut into the tokens of the value.** -/
theorem lexes_render (j : Json) {rest : List Char} {ts : List Token} (hj : j.IsProper)
    (hrest : StartsNot continuesNumber rest) (h : Lexes rest ts) :
    Lexes (render j ++ rest) (j.tokens ++ ts) := by
  match j with
  | null => exact h.cons_of_ne (t := .null) nofun
  | bool true => exact h.cons_of_ne (t := .bool true) nofun
  | bool false => exact h.cons_of_ne (t := .bool false) nofun
  | number literal =>
    have hproper : (Token.number literal).IsProper := hj _ List.mem_cons_self
    exact h.cons hproper fun _ _ => hrest
  | string text => exact h.cons_of_ne (t := .string text) nofun
  | array [] =>
    have hclose : Lexes (']' :: rest) (.closeArray :: ts) := h.cons_of_ne (t := .closeArray) nofun
    exact hclose.cons_of_ne (t := .openArray) nofun
  | array (j :: js) =>
    -- from the end on: the later items, the first one, the bracket before it
    have hitems := List.forall_mem_cons.1 (isProper_array_iff.1 hj)
    have hlater := lexes_renderItems js hitems.2 h
    have hfirst := lexes_render j hitems.1 (startsNot_renderItems js rest) hlater
    have hopen := hfirst.cons_of_ne (t := .openArray) nofun
    simpa [render, tokens, enclose, itemTokens, Token.text] using hopen
  | object [] =>
    have hclose : Lexes ('\x7d' :: rest) (.closeObject :: ts) :=
      h.cons_of_ne (t := .closeObject) nofun
    exact hclose.cons_of_ne (t := .openObject) nofun
  | object ((k, j) :: ms) =>
    have hmembers := List.forall_mem_cons.1 (isProper_object_iff.1 hj)
    have hlater := lexes_renderMembers ms hmembers.2 h
    have hvalue := lexes_render j hmembers.1 (startsNot_renderMembers ms rest) hlater
    have hopen := (hvalue.key k).cons_of_ne (t := .openObject) nofun
    simpa [render, tokens, enclose, memberTokens, Token.text] using hopen

/-- The items of an array after the first, and its end. -/
theorem lexes_renderItems (js : List Json) {rest : List Char} {ts : List Token}
    (hjs : ∀ j ∈ js, j.IsProper) (h : Lexes rest ts) :
    Lexes (renderItems js ++ rest)
      ((itemTokens js).flatMap (.comma :: ·) ++ .closeArray :: ts) := by
  match js with
  | [] => exact h.cons_of_ne (t := .closeArray) nofun
  | j :: js =>
    rw [List.forall_mem_cons] at hjs
    have hlater := lexes_renderItems js hjs.2 h
    have hitem := lexes_render j hjs.1 (startsNot_renderItems js rest) hlater
    have hcomma := hitem.cons_of_ne (t := .comma) nofun
    simpa [renderItems, itemTokens, Token.text] using hcomma

/-- The members of an object after the first, and its end. -/
theorem lexes_renderMembers (ms : List (Option String × Json)) {rest : List Char} {ts : List Token}
    (hms : ∀ m ∈ ms, m.2.IsProper) (h : Lexes rest ts) :
    Lexes (renderMembers ms ++ rest)
      ((memberTokens ms).flatMap (.comma :: ·) ++ .closeObject :: ts) := by
  match ms with
  | [] => exact h.cons_of_ne (t := .closeObject) nofun
  | (k, j) :: ms =>
    rw [List.forall_mem_cons] at hms
    have hlater := lexes_renderMembers ms hms.2 h
    have hvalue := lexes_render j hms.1 (startsNot_renderMembers ms rest) hlater
    have hcomma := (hvalue.key k).cons_of_ne (t := .comma) nofun
    simpa [renderMembers, memberTokens, Token.text] using hcomma

end

/-! ## §4 From tokens to values -/

theorem run?_cons : s.run? (t :: ts) = (s.step? t).bind fun s' => s'.run? ts :=
  List.foldlM_cons

/-- The first item of an array starts like any value. -/
theorem run?_arrayStart (fs : List Frame) (j : Json) (ts : List Token) :
    State.run? ⟨fs, .arrayStart⟩ (j.tokens ++ ts) =
      State.run? ⟨.item [] :: fs, .value⟩ (j.tokens ++ ts) := by
  obtain ⟨t, ts', htokens, hne⟩ := exists_cons_tokens j
  rw [htokens, List.cons_append, run?_cons, run?_cons]
  -- the two phases differ only where the array ends at once
  cases t with
  | closeArray => contradiction
  | openArray | openObject | closeObject | comma | colon | null | bool | number | string => rfl

mutual

/-- The tokens of a value are read as the value. -/
theorem run?_tokens (j : Json) (fs : List Frame) (ts : List Token) :
    State.run? ⟨fs, .value⟩ (j.tokens ++ ts) = State.run? ⟨fs, .after j⟩ ts := by
  match j with
  | null | bool _ | number _ | string _ => rfl
  | array [] | object [] => rfl
  | array (j :: js) =>
    have hopen : (array (j :: js)).tokens ++ ts = .openArray ::
        (j.tokens ++ ((itemTokens js).flatMap (.comma :: ·) ++ .closeArray :: ts)) := by
      simp [tokens, enclose, itemTokens]
    rw [hopen, run?_cons]
    show State.run? ⟨fs, .arrayStart⟩ _ = _
    rw [run?_arrayStart, run?_tokens j, run?_itemTokens js]
    rfl
  | object ((k, j) :: ms) =>
    have hopen : (object ((k, j) :: ms)).tokens ++ ts = .openObject :: .string k :: .colon ::
        (j.tokens ++ ((memberTokens ms).flatMap (.comma :: ·) ++ .closeObject :: ts)) := by
      simp [tokens, enclose, memberTokens, keyTokens]
    rw [hopen]
    show State.run? ⟨.member [] k :: fs, .value⟩ _ = _
    rw [run?_tokens j, run?_memberTokens ms]
    rfl

/-- The items of an array after one that has been read, and its end. -/
theorem run?_itemTokens (js : List Json) (before : List Json) (j : Json) (fs : List Frame)
    (ts : List Token) :
    State.run? ⟨.item before :: fs, .after j⟩
        ((itemTokens js).flatMap (.comma :: ·) ++ .closeArray :: ts) =
      State.run? ⟨fs, .after (.array (before.reverse ++ j :: js))⟩ ts := by
  match js with
  | [] =>
    show State.run? ⟨fs, .after (.array (j :: before).reverse)⟩ ts = _
    rw [List.reverse_cons]
  | j' :: js =>
    rw [itemTokens, List.flatMap_cons, List.cons_append, List.cons_append, List.append_assoc]
    show State.run? ⟨.item (j :: before) :: fs, .value⟩ _ = _
    rw [run?_tokens j', run?_itemTokens js, List.reverse_cons, List.append_assoc]
    rfl

/-- The members of an object after one that has been read, and its end. -/
theorem run?_memberTokens (ms : List (Option String × Json)) (before : List (Option String × Json))
    (k : Option String) (j : Json) (fs : List Frame) (ts : List Token) :
    State.run? ⟨.member before k :: fs, .after j⟩
        ((memberTokens ms).flatMap (.comma :: ·) ++ .closeObject :: ts) =
      State.run? ⟨fs, .after (.object (before.reverse ++ (k, j) :: ms))⟩ ts := by
  match ms with
  | [] =>
    show State.run? ⟨fs, .after (.object ((k, j) :: before).reverse)⟩ ts = _
    rw [List.reverse_cons]
  | (k', j') :: ms =>
    have hnext : (memberTokens ((k', j') :: ms)).flatMap (.comma :: ·) ++ .closeObject :: ts =
        .comma :: .string k' :: .colon ::
          (j'.tokens ++ ((memberTokens ms).flatMap (.comma :: ·) ++ .closeObject :: ts)) := by
      simp [memberTokens, keyTokens]
    rw [hnext]
    show State.run? ⟨.member ((k, j) :: before) k' :: fs, .value⟩ _ = _
    rw [run?_tokens j', run?_memberTokens ms, List.reverse_cons, List.append_assoc]
    rfl

end

theorem ofTokens?_tokens (j : Json) : ofTokens? j.tokens = some j := by
  have hrun := run?_tokens j [] []
  rw [List.append_nil] at hrun
  rw [ofTokens?, State.start, hrun]
  rfl

/-! ## §5 What the reader has read -/

/-- The tokens that have been read of an array or an object. -/
def Frame.tokens : Frame → List Token
  | .item before => opened .openArray (itemTokens before.reverse)
  | .member before k => opened .openObject (memberTokens before.reverse) ++ keyTokens k

/-- The tokens that have been read since the last frame was opened. -/
def Phase.tokens : Phase → List Token
  | .value => []
  | .arrayStart => [.openArray]
  | .objectStart => [.openObject]
  | .key before => opened .openObject (memberTokens before.reverse)
  | .colon before k => opened .openObject (memberTokens before.reverse) ++ [.string k]
  | .after j => j.tokens

/-- The tokens that have been read. -/
def State.tokens (s : State) : List Token :=
  s.frames.reverse.flatMap Frame.tokens ++ s.phase.tokens

/-- A value that starts makes its first token the last one that has been read. -/
theorem tokens_of_startValue? (h : State.startValue? fs t = some s) :
    s.tokens = fs.reverse.flatMap Frame.tokens ++ [t] := by
  cases t with
  | null | bool | number | string | openArray | openObject =>
    obtain rfl := Option.some.inj h
    simp [State.tokens, Phase.tokens, tokens]
  | closeArray | closeObject | comma | colon => contradiction

/-- **A step of the reader reads one token.** -/
theorem tokens_of_step? (h : s.step? t = some s') : s'.tokens = s.tokens ++ [t] := by
  unfold State.step? at h
  -- one case for each phase with the tokens that it takes
  split at h
  case h_1 => simpa [State.tokens, Phase.tokens] using tokens_of_startValue? h
  case h_3 =>
    have hstart := tokens_of_startValue? h
    simpa [State.tokens, Phase.tokens, Frame.tokens, opened, itemTokens] using hstart
  case h_12 => contradiction
  -- nothing starts: a key or a mark is read, or a comma or a bracket after a value
  all_goals
    obtain rfl := Option.some.inj h
    simp [State.tokens, Phase.tokens, Frame.tokens, tokens, keyTokens, itemTokens, memberTokens,
      itemTokens_concat, memberTokens_concat, opened_nil, opened_concat, enclose_nil,
      enclose_concat]

/-- A run of the reader reads a list of tokens. -/
theorem tokens_of_run? (h : s.run? ts = some s') : s'.tokens = s.tokens ++ ts := by
  induction ts generalizing s with
  | nil =>
    obtain rfl := Option.some.inj h
    rw [List.append_nil]
  | cons t ts ih =>
    rw [run?_cons] at h
    obtain ⟨next, hstep, hrun⟩ := Option.bind_eq_some_iff.1 h
    rw [ih hrun, tokens_of_step? hstep, List.append_assoc, List.singleton_append]

theorem tokens_of_result? (h : s.result? = some j) : s.tokens = j.tokens := by
  unfold State.result? at h
  split at h
  · obtain rfl := Option.some.inj h
    rfl
  · contradiction

/-- **A list of tokens denotes a value exactly if it is the list of its tokens.** -/
theorem ofTokens?_eq_some_iff : ofTokens? ts = some j ↔ ts = j.tokens := by
  constructor
  · intro h
    obtain ⟨last, hrun, hresult⟩ := Option.bind_eq_some_iff.1 h
    calc ts
      _ = last.tokens := (tokens_of_run? hrun).symm
      _ = j.tokens := tokens_of_result? hresult
  · rintro rfl
    exact ofTokens?_tokens j

/-! ## §6 Texts -/

/-- A text denotes a value exactly if its tokens are those of the value. -/
theorem read?_eq_some_iff {text : String} :
    read? text = some j ↔ tokens? text.toList = some j.tokens := by
  simp only [read?, Option.bind_eq_bind, Option.bind_eq_some_iff, ofTokens?_eq_some_iff,
    exists_eq_right]

/-- The literals in a value that a text denotes are numbers. -/
theorem isProper_of_read? {text : String} (h : read? text = some j) : j.IsProper :=
  isProper_of_tokens? (read?_eq_some_iff.1 h)

/-- **Reading undoes writing.** -/
theorem read?_display (h : j.IsProper) : read? j.display = some j := by
  have hlexes := lexes_render j h startsNot_nil lexes_nil
  rw [List.append_nil, List.append_nil] at hlexes
  rw [read?_eq_some_iff, display, String.toList_ofList]
  exact hlexes.tokens?_eq

end Keybinding.Json
