import Keybinding.Proofs.CommandLine.Arguments
import Keybinding.Proofs.CommandLine.Check

/-!
# Options for active flags

Active flags are told by the values of two options: one names the file of a snapshot, the other
lists names of flags with commas between them and can be given often. A command line is understood
by these values alone, in the order in which they are given (`isTold_of_ofWords`), and any values
can be given (`ofWords_flagWords`).
-/

namespace Keybinding.CommandLine

/-! ## §1 Values of options -/

/-- The value of an argument that sets an option. -/
def Argument.value? (s : Setting) : Argument → Option String
  | setting t value => if t = s then some value else none
  | _ => none

/-- The values that are given to an option, in order. -/
def valuesOf (s : Setting) (args : List Argument) : List String :=
  args.filterMap (Argument.value? s)

/-- The names that stand between the commas of values. -/
def namesIn (values : List String) : List String :=
  values.flatMap (Text.split ',')

@[simp] theorem mem_namesIn {values : List String} {n : String} :
    n ∈ namesIn values ↔ ∃ v ∈ values, n ∈ Text.split ',' v :=
  List.mem_flatMap

/-- What is known of the active flags is what has been read of them, and what the arguments that are
left say. -/
structure ContextText.IsTold (context : ContextText) (g : Given) (args : List Argument) : Prop where
  state : context.state.toList = g.state.toList ++ valuesOf .state args
  names : context.names = g.names ++ namesIn (valuesOf .context args)

open ContextText (IsTold)

variable {context : ContextText} {g g' : Given} {v : Verb} {s : Setting} {value : String}
  {args : List Argument}

theorem ContextText.IsTold.setting (hset : g.setting? v s value = some g')
    (h : IsTold context g' args) : IsTold context g (.setting s value :: args) := by
  obtain ⟨hstate, hnames⟩ := h
  cases s with
  | file =>
    simp only [Given.setting?] at hset
    split at hset
    · contradiction
    · cases hset
      exact ⟨hstate, hnames⟩
  | state =>
    simp only [Given.setting?] at hset
    split at hset
    · contradiction
    · next hok =>
      -- the file of a snapshot is given once only
      have hnone : g.state = none := by
        simp only [Bool.or_eq_true, not_or, Option.isSome_iff_ne_none, ne_eq, not_not] at hok
        exact hok.1.2
      cases hset
      refine ⟨?_, hnames⟩
      rw [hstate, hnone]
      rfl
  | context =>
    simp only [Given.setting?] at hset
    split at hset
    · cases hset
      refine ⟨hstate, ?_⟩
      rw [hnames, List.append_assoc]
      rfl
    · contradiction

theorem ContextText.IsTold.word {text : String} (hword : g.word? v text = some g')
    (h : IsTold context g' args) : IsTold context g (.word text :: args) := by
  simp only [Given.word?] at hword
  split at hword
  · cases hword
    exact ⟨h.state, h.names⟩
  · contradiction

theorem context_of_task? {task : Task} (h : g.task? v = some task)
    (hcontext : task.context? = some context) : context = ⟨g.state, g.names⟩ := by
  cases v with
  | check => cases h; cases hcontext
  | flags => cases h; cases hcontext
  | watch => cases h; cases hcontext
  | list => cases h; cases hcontext; rfl
  | resolve =>
    obtain ⟨c, -, rfl⟩ := Option.map_eq_some_iff.1 h
    cases hcontext
    rfl

/-! ## §2 What a command line tells -/

namespace Reading

variable {file : Option String} {r : Request} (hcontext : r.task.context? = some context)
include hcontext

theorem isTold_of_ofOptions (h : ofOptions file v g args = .run r) : IsTold context g args := by
  -- each argument moves something from what is left to what has been read
  induction args generalizing g with
  | nil =>
    simp only [ofOptions] at h
    split at h
    · next htask =>
      cases h
      obtain rfl := context_of_task? htask hcontext
      exact ⟨(List.append_nil _).symm, (List.append_nil _).symm⟩
    · contradiction
  | cons a args ih =>
    cases a with
    | help => cases h
    | version => cases h
    | invalid => cases h
    | escape =>
      obtain ⟨hstate, hnames⟩ := ih h
      exact ⟨hstate, hnames⟩
    | word text =>
      simp only [ofOptions] at h
      split at h
      · next hword => exact (ih h).word hword
      · contradiction
    | setting s value =>
      simp only [ofOptions] at h
      split at h
      · next hset => exact (ih h).setting hset
      · contradiction

theorem isTold_of_ofArguments (h : ofArguments file args = .run r) :
    IsTold context .nothing args := by
  fun_induction ofArguments file args with
  | case1 => cases h
  | case2 => cases h
  | case3 => cases h
  | case4 file path rest hok ih =>
    obtain ⟨hstate, hnames⟩ := ih h
    exact ⟨hstate, hnames⟩
  | case5 file rest => exact absurd h (ofTopic_ne_run rest _)
  | case6 file w rest hhelp v hv =>
    obtain ⟨hstate, hnames⟩ := isTold_of_ofOptions hcontext h
    exact ⟨hstate, hnames⟩
  | case7 => cases h
  | case8 => cases h

/-- **The values of two options are all that a command line tells of the active flags.** -/
theorem isTold_of_ofWords {words : List String} (h : ofWords words = .run r) :
    context.state.toList = valuesOf .state (Argument.ofWords words) ∧
      context.names = namesIn (valuesOf .context (Argument.ofWords words)) := by
  obtain ⟨hstate, hnames⟩ := isTold_of_ofArguments hcontext h
  exact ⟨hstate, hnames⟩

end Reading

/-! ## §3 Command lines with given values -/

/-- An option and its value in one word. -/
def optionWord (name value : String) : String :=
  "--" ++ name ++ "=" ++ value

/-- The words that give a file of a snapshot and lists of names. -/
def flagWords (state : Option String) (values : List String) : List String :=
  state.toList.map (optionWord "state") ++ values.map (optionWord "context")

namespace Argument

theorem splitValue_append {name : List Char} (h : '=' ∉ name) (value : List Char) :
    splitValue (name ++ '=' :: value) = (name, some value) := by
  induction name with
  | nil => rfl
  | cons c name ih =>
    obtain ⟨hc, hname⟩ := not_or.1 (mt List.mem_cons.2 h)
    rw [List.cons_append, splitValue, ih hname]
    exact Ne.symm hc

/-- The value of an option begins behind the first equals sign, whatever is in it. -/
theorem form_optionWord {name : String} {s : Setting} (hname : named? name = some s)
    (hsign : '=' ∉ name.toList) (value : String) :
    form (optionWord name value) = .complete (.setting s value) := by
  have htext : (optionWord name value).toList =
      '-' :: '-' :: (name.toList ++ '=' :: value.toList) := by
    simp [optionWord]
  have hne : name.toList ++ '=' :: value.toList ≠ [] := by simp
  have hform : form (optionWord name value) = long (name.toList ++ '=' :: value.toList) := by
    obtain ⟨c, rest, hcons⟩ := List.exists_cons_of_ne_nil hne
    rw [form, htext, hcons]
    rfl
  rw [hform, long, splitValue_append hsign]
  simp [hname]

theorem ofWords_optionWord {name : String} {s : Setting} (hname : named? name = some s)
    (hsign : '=' ∉ name.toList) (values rest : List String) :
    ofWords (values.map (optionWord name) ++ rest) = values.map (setting s) ++ ofWords rest := by
  induction values with
  | nil => rfl
  | cons value values ih =>
    have hform := form_optionWord hname hsign value
    rw [List.map_cons, List.cons_append, ofWords_of_complete hform nofun, ih]
    rfl

end Argument

open Argument

theorem Reading.ofOptions_names (values : List String) :
    ofOptions none .list g (values.map (.setting .context)) =
      .run ⟨g.file, .list ⟨g.state, g.names ++ namesIn values⟩⟩ := by
  induction values generalizing g with
  | nil => simp [ofOptions, Given.task?, namesIn]
  | cons value values ih =>
    simp only [List.map_cons, ofOptions, Given.setting?, Verb.takesContext, if_true, ih]
    simp [namesIn]

/-- **Any values can be given.** -/
theorem Reading.ofWords_flagWords {state : Option String} (hstate : state ≠ some "")
    (values : List String) :
    ofWords ("list" :: flagWords state values) = .run ⟨none, .list ⟨state, namesIn values⟩⟩ := by
  have hvalues : Argument.ofWords (values.map (optionWord "context")) =
      values.map (.setting .context) := by
    have h := @ofWords_optionWord "context" .context rfl (by decide) values []
    simpa [Argument.ofWords] using h
  have hargs : Argument.ofWords ("list" :: flagWords state values) =
      .word "list" :: (state.toList.map (.setting .state) ++ values.map (.setting .context)) := by
    have hlist : form "list" = .complete (.word "list") := rfl
    have hne : word "list" ≠ escape := by simp
    rw [ofWords_of_complete hlist hne, flagWords, ofWords_optionWord rfl (by decide), hvalues]
  rw [ofWords, hargs]
  show ofOptions none .list .nothing _ = _
  cases state with
  | none => exact ofOptions_names values
  | some path =>
    have hpath : path.isEmpty = false := by simpa using hstate
    have hset : Given.nothing.setting? .list .state path = some ⟨none, some path, [], none⟩ := by
      simp [Given.setting?, Given.nothing, Verb.takesContext, hpath]
    show ofOptions none .list .nothing (.setting .state path :: _) = _
    rw [ofOptions, hset]
    exact ofOptions_names values

end Keybinding.CommandLine
