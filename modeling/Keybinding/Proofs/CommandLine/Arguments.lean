import Keybinding.CommandLine.Request

/-!
# Plain words of a command line

A plain word stands for itself, wherever it is in a command line. So a command line that asks for
one chord can be turned into one that asks for all chords: the word `list` takes the place of the
word `resolve`, and the word for the chord is left out. All options stay as they are.
-/

namespace Keybinding.CommandLine

/-! ## §1 Words and arguments -/

namespace Argument

theorem long_ne_word (text : List Char) (w : String) : long text ≠ .complete (.word w) := by
  unfold long
  split
  split
  · simp
  · simp
  · split <;> simp

theorem short_ne_word (letter : Char) (rest : List Char) (w : String) :
    short letter rest ≠ .complete (.word w) := by
  unfold short
  split <;> simp

/-- A plain word is told by itself. -/
theorem eq_of_form {v w : String} (h : form v = .complete (.word w)) : v = w := by
  unfold form at h
  split at h
  · simp at h
  · exact absurd h (long_ne_word _ _)
  · exact absurd h (short_ne_word _ _ _)
  · simpa using h

theorem ofWords_of_escape {v : String} (h : form v = .complete .escape) (words : List String) :
    ofWords (v :: words) = .escape :: words.map .word := by
  rw [ofWords, h]

theorem ofWords_of_complete {v : String} {a : Argument} (h : form v = .complete a)
    (hne : a ≠ .escape) (words : List String) : ofWords (v :: words) = a :: ofWords words := by
  rw [ofWords, h]
  cases a <;> first | rfl | contradiction

theorem ofWords_of_awaits {v value : String} {s : Setting} (h : form v = .awaits s)
    (hvalue : isValue value = true) (words : List String) :
    ofWords (v :: value :: words) = .setting s value :: ofWords words := by
  rw [ofWords, h]
  simp [hvalue]

/-- The arguments that words make where all words can be plain. -/
def ofRest (plain : Bool) (words : List String) : List Argument :=
  if plain then words.map .word else ofWords words

theorem ofRest_true (words : List String) : ofRest true words = words.map .word := rfl

variable {w : String} {words : List String} {as bs : List Argument}

theorem exists_of_map_word (h : words.map word = as ++ word w :: bs) :
    ∃ us vs, words = us ++ w :: vs ∧ ofRest true vs = bs ∧
      ∀ xs, ofRest true (us ++ xs) = as ++ ofRest true xs := by
  obtain ⟨us, rest, rfl, rfl, hrest⟩ := List.map_eq_append_iff.1 h
  obtain ⟨v, vs, rfl, hv, rfl⟩ := List.map_eq_cons_iff.1 hrest
  obtain rfl := word.inj hv
  refine ⟨us, vs, rfl, rfl, ?_⟩
  intro xs
  exact List.map_append

/-- A plain word among the arguments is a word of the command line. What comes before it makes the
arguments before it, whatever follows. -/
theorem exists_of_ofWords (h : ofWords words = as ++ word w :: bs) :
    ∃ us vs plain, words = us ++ w :: vs ∧ ofRest plain vs = bs ∧
      ∀ xs, ofWords (us ++ xs) = as ++ ofRest plain xs := by
  -- a step of the reading takes one word, or an option together with its value
  fun_induction ofWords words generalizing as with
  | case1 => simp at h
  | case2 v rest hform =>
    cases as with
    | nil => simp at h
    | cons a as =>
      -- behind the escape all words are plain
      obtain ⟨rfl, hrest⟩ := List.cons.inj h
      obtain ⟨us, vs, rfl, hvs, hus⟩ := exists_of_map_word hrest
      refine ⟨v :: us, vs, true, rfl, hvs, ?_⟩
      intro xs
      rw [List.cons_append, ofWords_of_escape hform, ← ofRest_true, hus, List.cons_append]
  | case3 v rest a hne hform ih =>
    cases as with
    | nil =>
      -- this is the word that is looked for
      obtain ⟨rfl, rfl⟩ := List.cons.inj h
      obtain rfl := eq_of_form hform
      exact ⟨[], rest, false, rfl, rfl, fun xs => rfl⟩
    | cons b as =>
      obtain ⟨rfl, hrest⟩ := List.cons.inj h
      obtain ⟨us, vs, plain, rfl, hvs, hus⟩ := ih hrest
      refine ⟨v :: us, vs, plain, rfl, hvs, ?_⟩
      intro xs
      rw [List.cons_append, ofWords_of_complete hform hne, hus, List.cons_append]
  | case4 => cases as <;> simp at h
  | case5 v s hform value rest hvalue ih =>
    cases as with
    | nil => simp at h
    | cons b as =>
      obtain ⟨rfl, hrest⟩ := List.cons.inj h
      obtain ⟨us, vs, plain, rfl, hvs, hus⟩ := ih hrest
      refine ⟨v :: value :: us, vs, plain, rfl, hvs, ?_⟩
      intro xs
      rw [List.cons_append, List.cons_append, ofWords_of_awaits hform hvalue, hus,
        List.cons_append]
  | case6 => cases as <;> simp at h

theorem exists_of_ofRest {plain : Bool} (h : ofRest plain words = as ++ word w :: bs) :
    ∃ us vs plain', words = us ++ w :: vs ∧ ofRest plain' vs = bs ∧
      ∀ xs, ofRest plain (us ++ xs) = as ++ ofRest plain' xs := by
  cases plain with
  | false => exact exists_of_ofWords h
  | true =>
    obtain ⟨us, vs, hwords, hvs, hus⟩ := exists_of_map_word h
    exact ⟨us, vs, true, hwords, hvs, hus⟩

/-- A word that looks like no option stands for itself. -/
theorem ofRest_cons (plain : Bool) (h : form w = .complete (.word w)) (xs : List String) :
    ofRest plain (w :: xs) = .word w :: ofRest plain xs := by
  cases plain with
  | false => exact ofWords_of_complete h nofun xs
  | true => rfl

end Argument

/-! ## §2 From one chord to all chords -/

theorem Verb.name_of_ofName? {w : String} {v : Verb} (h : ofName? w = some v) : v.name = w := by
  simpa using List.find?_some h

namespace Given

variable {g g' : Given}

/-- The options without a chord. -/
def chordless (g : Given) : Given := { g with chord := none }

theorem setting?_chordless {s : Setting} {value : String}
    (h : g.setting? .resolve s value = some g') :
    g.chordless.setting? .list s value = some g'.chordless ∧ g'.chord = g.chord := by
  cases s with
  | file =>
    simp only [setting?] at h
    split at h
    · contradiction
    · next hok =>
      cases h
      exact ⟨if_neg hok, rfl⟩
  | state =>
    simp only [setting?] at h
    split at h
    · contradiction
    · next hok =>
      cases h
      exact ⟨if_neg hok, rfl⟩
  | context =>
    cases h
    exact ⟨rfl, rfl⟩

end Given

namespace Reading

open Argument

variable {file f : Option String} {text : String} {context : ContextText} {g : Given}
  {args : List Argument}

/-- After the chord nothing but options can follow. -/
theorem ofOptions_list_of_chord {chord : String} (hg : g.chord = some chord)
    (h : ofOptions file .resolve g args = .run ⟨f, .resolve text context⟩) :
    chord = text ∧ ofOptions file .list g.chordless args = .run ⟨f, .list context⟩ := by
  induction args generalizing g with
  | nil =>
    simp only [ofOptions, Given.task?, hg, Option.map_some] at h
    cases h
    exact ⟨rfl, rfl⟩
  | cons a args ih =>
    cases a with
    | help => cases h
    | version => cases h
    | invalid => cases h
    | escape => exact ih hg h
    | word w =>
      -- a second plain word is a mistake
      simp [ofOptions, Given.word?, hg] at h
    | setting s value =>
      simp only [ofOptions] at h ⊢
      cases hs : g.setting? .resolve s value with
      | none => simp [hs] at h
      | some g' =>
        obtain ⟨hlist, hchord⟩ := Given.setting?_chordless hs
        rw [hs] at h
        rw [hlist]
        exact ih (hchord.trans hg) h

/-- The options without the chord ask for all chords. -/
theorem exists_of_ofOptions (hg : g.chord = none)
    (h : ofOptions file .resolve g args = .run ⟨f, .resolve text context⟩) :
    ∃ as bs, args = as ++ .word text :: bs ∧
      ofOptions file .list g.chordless (as ++ bs) = .run ⟨f, .list context⟩ := by
  induction args generalizing g with
  | nil => simp [ofOptions, Given.task?, hg] at h
  | cons a args ih =>
    cases a with
    | help => cases h
    | version => cases h
    | invalid => cases h
    | escape =>
      obtain ⟨as, bs, rfl, hlist⟩ := ih hg h
      exact ⟨.escape :: as, bs, rfl, hlist⟩
    | word w =>
      -- the first plain word is the chord, and from here on the chord is known
      simp only [ofOptions, Given.word?, hg, and_self, if_true] at h
      obtain ⟨rfl, hlist⟩ := ofOptions_list_of_chord rfl h
      exact ⟨[], args, rfl, hlist⟩
    | setting s value =>
      simp only [ofOptions] at h
      cases hs : g.setting? .resolve s value with
      | none => simp [hs] at h
      | some g' =>
        obtain ⟨hset, hchord⟩ := Given.setting?_chordless hs
        rw [hs] at h
        obtain ⟨as, bs, rfl, hlist⟩ := ih (hchord.trans hg) h
        refine ⟨.setting s value :: as, bs, rfl, ?_⟩
        simp only [List.cons_append, ofOptions, hset]
        exact hlist

/-- A command makes a task of its own. -/
theorem task?_of_ofOptions {v : Verb} {r : Request} (h : ofOptions file v g args = .run r) :
    ∃ g' : Given, g'.task? v = some r.task := by
  induction args generalizing g with
  | nil =>
    simp only [ofOptions] at h
    split at h
    · next htask =>
      cases h
      exact ⟨g, htask⟩
    · contradiction
  | cons a args ih =>
    cases a with
    | help => cases h
    | version => cases h
    | invalid => cases h
    | escape => exact ih h
    | word w =>
      simp only [ofOptions] at h
      split at h
      · exact ih h
      · contradiction
    | setting s value =>
      simp only [ofOptions] at h
      split at h
      · exact ih h
      · contradiction

theorem ofTopic_ne_run (args : List Argument) (r : Request) : ofTopic args ≠ .run r := by
  unfold ofTopic
  split
  · simp
  · simp
  · split <;> simp
  · simp

/-- Before the command there are options only, and the command decides how what follows is read. -/
theorem exists_of_ofArguments (h : ofArguments file args = .run ⟨f, .resolve text context⟩) :
    ∃ as bs file', args = as ++ .word "resolve" :: bs ∧
      ofOptions file' .resolve .nothing bs = .run ⟨f, .resolve text context⟩ ∧
      ∀ cs, ofArguments file (as ++ .word "list" :: cs) = ofOptions file' .list .nothing cs := by
  fun_induction ofArguments file args with
  | case1 => cases h
  | case2 => cases h
  | case3 => cases h
  | case4 file path rest hok ih =>
    obtain ⟨as, bs, file', rfl, hoptions, hlist⟩ := ih h
    refine ⟨.setting .file path :: as, bs, file', rfl, hoptions, ?_⟩
    intro cs
    rw [List.cons_append, ofArguments, if_neg hok, hlist]
  | case5 file rest => exact absurd h (ofTopic_ne_run rest _)
  | case6 file w rest hhelp v hv =>
    -- only one command makes a task about one chord
    obtain ⟨g, htask⟩ := task?_of_ofOptions h
    cases v with
    | resolve =>
      obtain rfl := Verb.name_of_ofName? hv
      exact ⟨[], rest, file, rfl, h, fun cs => rfl⟩
    | check => cases htask
    | list => cases htask
    | flags => cases htask
    | watch => cases htask
  | case7 => cases h
  | case8 => cases h

/-- **A command line for one chord becomes one for all chords.** The word for the command gives way
to another, the word for the chord is left out, and all options are read as before. -/
theorem exists_ofWords_list {words : List String}
    (h : ofWords words = .run ⟨f, .resolve text context⟩) :
    ∃ us vs ws, words = us ++ "resolve" :: (vs ++ text :: ws) ∧
      ofWords (us ++ "list" :: (vs ++ ws)) = .run ⟨f, .list context⟩ := by
  obtain ⟨as, bs, file, hargs, hoptions, hlist⟩ := exists_of_ofArguments h
  obtain ⟨as', bs', rfl, hlisted⟩ := exists_of_ofOptions rfl hoptions
  -- the two words are found one after the other, each among the words behind the one before
  obtain ⟨us, rest, plain, rfl, hrest, hus⟩ := exists_of_ofWords hargs
  obtain ⟨vs, ws, plain', rfl, hws, hvs⟩ := exists_of_ofRest hrest
  refine ⟨us, vs, ws, rfl, ?_⟩
  rw [ofWords, hus, ofRest_cons plain rfl, hvs, hws, hlist]
  exact hlisted

end Reading

end Keybinding.CommandLine
