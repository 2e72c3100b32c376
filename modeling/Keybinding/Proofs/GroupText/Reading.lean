import Keybinding.Proofs.Steps
import Keybinding.Proofs.Text.Basic
import Keybinding.Proofs.Yaml.Blank
import Keybinding.Table.Reader

/-!
# Every entry is read

A list of groups is read from the nodes that stand for it as it is: no entry is lost, repeated
chords are kept, and so is the order. In return the fields of a group are strict. A field that does
not exist or that occurs twice makes the whole document unreadable.

All of this is about what a document means. That a text has such a meaning says that it is no white
space, which lists no groups (`readTable?_of_isCollection`).
-/

namespace Keybinding.GroupText

open Yaml

variable {g : GroupText} {gs : List GroupText} {node root : Node} {nodes : List Node}
  {entries : List (Node × Node)} {names : List String} {fields : List (Option String × Node)}

/-! ## §1 Nodes of groups -/

/-- A text as a node. Where there is none, the node is null. -/
def textNode : Option String → Node
  | none => .null
  | some s => .string s

/-- A chord with its action as an entry of a mapping. -/
def bindingEntry (b : String × Option String) : Node × Node :=
  (.string b.1, textNode b.2)

def contextEntry (g : GroupText) : Node × Node :=
  (.string "context", textNode g.context)

def bindingsEntry (g : GroupText) : Node × Node :=
  (.string "bindings", .mapping (g.bindings.map bindingEntry))

/-- A node stands for a group. -/
inductive IsNodeOf (g : GroupText) : Node → Prop where
  | contextFirst : IsNodeOf g (.mapping [g.contextEntry, g.bindingsEntry])
  | bindingsFirst : IsNodeOf g (.mapping [g.bindingsEntry, g.contextEntry])
  /-- The context can be left out where there is none. -/
  | withoutContext (h : g.context = none) : IsNodeOf g (.mapping [g.bindingsEntry])

/-- A document lists nodes: it is their sequence, or a mapping with the sequence as the value of the
field `groups`. The mapping can have other fields. -/
inductive Lists (nodes : List Node) : Node → Prop where
  | bare : Lists nodes (.sequence nodes)
  | wrapped {before after : List (Node × Node)}
    (h : ∀ e ∈ before ++ after, ∃ key, e.1 = .string key ∧ key ≠ "groups") :
    Lists nodes (.mapping (before ++ (.string "groups", .sequence nodes) :: after))

/-- A mapping has a field that no group has, or a field of a group twice. -/
inductive IsMisfielded (entries : List (Node × Node)) : Prop where
  | foreign {key : String} {value : Node} (hkey : key ∉ fieldNames)
    (h : (.string key, value) ∈ entries)
  | repeated {key : String} {value value' : Node} {before between after : List (Node × Node)}
    (hkey : key ∈ fieldNames)
    (h : entries = before ++ (.string key, value) :: between ++ (.string key, value') :: after)

/-! ## §2 Groups -/

theorem textOrNull?_textNode (o : Option String) : textOrNull? (textNode o) = some o := by
  cases o <;> rfl

theorem binding?_bindingEntry (b : String × Option String) :
    binding? (bindingEntry b) = some b := by
  rw [bindingEntry, binding?, textOrNull?_textNode]
  rfl

/-- The chords are read in order, and all of them. -/
theorem bindings?_mapping (bs : List (String × Option String)) :
    bindings? (.mapping (bs.map bindingEntry)) = some bs := by
  rw [bindings?, option_mapM_eq_some_iff, List.forall₂_map_left_iff, List.forall₂_same]
  intro b _
  exact binding?_bindingEntry b

/-- **A group is read from each node that stands for it.** -/
theorem ofNode?_of_isNodeOf (h : IsNodeOf g node) : ofNode? node = some g := by
  have hcontext := textOrNull?_textNode g.context
  have hbindings := bindings?_mapping g.bindings
  -- the fields are looked up by name, and so their order does not matter
  have hboth : ofFields? (some (textNode g.context))
      (some (.mapping (g.bindings.map bindingEntry))) = some g := by
    rw [ofFields?, Option.getD_some, Option.getD_some, hcontext, hbindings]
    rfl
  cases h with
  | contextFirst => exact hboth
  | bindingsFirst => exact hboth
  | withoutContext hnone =>
    -- a context that is left out is read like null
    rw [hnone] at hboth
    exact hboth

theorem mapM_ofNode?_of_forall₂ (h : List.Forall₂ IsNodeOf gs nodes) :
    nodes.mapM ofNode? = some gs := by
  rw [option_mapM_eq_some_iff]
  exact h.flip.imp fun _ _ => ofNode?_of_isNodeOf

/-! ## §3 Fields that a group cannot have -/

/-- The fields that are counted are those of the entries. -/
theorem countP_fields (h : fields? names entries = some fields) (p : Option String → Bool) :
    fields.countP (fun f => p f.1) = entries.countP fun e => (field? names e.1).any p := by
  replace h := option_mapM_eq_some_iff.1 h
  induction h with
  | nil => rfl
  | cons hfield _ ih =>
    obtain ⟨n, hn, rfl⟩ := Option.map_eq_some_iff.1 hfield
    rw [List.countP_cons, List.countP_cons, ih, hn, Option.any_some]

theorem ofNode?_mapping_eq_some (h : ofNode? (.mapping entries) = some g) :
    ∃ fields, fields? fieldNames entries = some fields ∧
      fields.countP (fun f => !f.1.isSome) = 0 ∧
      ∀ n ∈ fieldNames, fields.countP (fun f => f.1 == some n) ≤ 1 := by
  obtain ⟨fields, hfields, h⟩ := Option.bind_eq_some_iff.1 h
  obtain ⟨hallowed, -⟩ := Option.ite_none_right_eq_some.1 h
  simp only [Bool.and_eq_true, List.all_eq_true, isSingle, decide_eq_true_eq] at hallowed
  refine ⟨fields, hfields, ?_, hallowed.2⟩
  rw [List.countP_eq_zero]
  intro f hf
  simp [hallowed.1 f hf]

/-- **No group is read from a mapping whose fields are not those of a group.** -/
theorem ofNode?_of_isMisfielded (h : IsMisfielded entries) : ofNode? (.mapping entries) = none := by
  rw [Option.eq_none_iff_forall_ne_some]
  intro g hg
  -- were a group read, the entries would have passed both counts
  obtain ⟨fields, hfields, hknown, hsingle⟩ := ofNode?_mapping_eq_some hg
  cases h with
  | foreign hkey hmem =>
    rw [countP_fields hfields (fun n => !n.isSome), List.countP_eq_zero] at hknown
    apply hknown _ hmem
    simp [field?, hkey]
  | repeated hkey hsplit =>
    have hcount := hsingle _ hkey
    rw [countP_fields hfields (fun n => n == some _), hsplit] at hcount
    simp [field?, hkey, List.countP_append] at hcount
    omega

/-! ## §4 Documents -/

theorem Lists.isCollection (h : Lists nodes root) : root.isCollection = true := by
  cases h <;> rfl

/-- Entries as fields that are passed over. -/
def passedOver (entries : List (Node × Node)) : List (Option String × Node) :=
  entries.map fun e => (none, e.2)

/-- Keys with other names denote none of the fields. -/
theorem fields?_of_foreign (h : ∀ e ∈ entries, ∃ key, e.1 = .string key ∧ key ∉ names) :
    fields? names entries = some (passedOver entries) := by
  rw [fields?, option_mapM_eq_some_iff, passedOver, List.forall₂_map_right_iff, List.forall₂_same]
  intro e he
  obtain ⟨key, hkey, hforeign⟩ := h e he
  simp [field?, hkey, hforeign]

/-- A field among others that are passed over is found, and it is the only one. -/
theorem lookup_passedOver (before after : List (Node × Node)) (n : String) (value : Node) :
    (passedOver before ++ (some n, value) :: passedOver after).lookup (some n) = some value ∧
      isSingle (passedOver before ++ (some n, value) :: passedOver after) n = true := by
  constructor
  · rw [List.lookup_eq_some_iff]
    refine ⟨_, _, rfl, ?_⟩
    intro f hf
    obtain ⟨e, -, rfl⟩ := List.mem_map.1 hf
    rfl
  · simp [isSingle, passedOver, Function.comp_def]

/-- The groups of a document are those of the nodes that it lists. -/
theorem Lists.tableOfNode? (h : Lists nodes root) :
    GroupText.tableOfNode? root = nodes.mapM ofNode? := by
  cases h with
  | bare => rfl
  | @wrapped before after h =>
    -- all entries but one are passed over, and this one is found
    have hforeign : ∀ e ∈ before ++ after, ∃ key, e.1 = .string key ∧ key ∉ ["groups"] := by
      simpa using h
    rw [List.forall_mem_append] at hforeign
    have hfields : fields? ["groups"] (before ++ (.string "groups", .sequence nodes) :: after) =
        some (passedOver before ++ (some "groups", .sequence nodes) :: passedOver after) := by
      have hbefore := fields?_of_foreign hforeign.1
      have hafter := fields?_of_foreign hforeign.2
      rw [fields?] at hbefore hafter ⊢
      rw [List.mapM_append, hbefore, List.mapM_cons, hafter]
      rfl
    obtain ⟨hlookup, hsingle⟩ := lookup_passedOver before after "groups" (.sequence nodes)
    simp only [GroupText.tableOfNode?, hfields, Option.bind_eq_bind, Option.bind_some, hsingle,
      if_true, hlookup, listOfNode?]

/-- A text that denotes a collection is not all white space, and so it is read. -/
theorem readTable?_of_isCollection {text : String} (h : Node.read? text = some root)
    (hroot : root.isCollection = true) : readTable? text = tableOfNode? root := by
  rw [readTable?, if_neg, h]
  · rfl
  · intro hblank
    have hnot := Node.not_isCollection_of_isSpace (Text.isEmpty_trim_iff.1 hblank) h
    rw [hroot] at hnot
    contradiction

theorem readTable?_of_lists {text : String} (h : Node.read? text = some root)
    (hroot : Lists nodes root) : readTable? text = nodes.mapM ofNode? := by
  rw [readTable?_of_isCollection h hroot.isCollection, hroot.tableOfNode?]

/-- One node that is no group makes the whole list unreadable. -/
theorem mapM_ofNode?_of_mem (hmem : node ∈ nodes) (h : ofNode? node = none) :
    nodes.mapM ofNode? = none := by
  rw [Option.eq_none_iff_forall_ne_some]
  intro gs hgs
  obtain ⟨i, hi⟩ := List.getElem?_of_mem hmem
  obtain ⟨g, -, hg⟩ := exists_getElem?_of_forall₂ (option_mapM_eq_some_iff.1 hgs) hi
  rw [h] at hg
  contradiction

/-- **Every entry is read, or none is.** A document that lists nodes which stand for groups is read
as exactly these groups: in order, with all their chords, also those that are repeated, and nothing
in them is changed. A document that lists a mapping with a field that no group has, or with one of
the fields of a group twice, is no list of groups. -/
theorem readTable_of_lists :
    (∀ text root nodes gs, Node.read? text = some root → Lists nodes root →
      List.Forall₂ IsNodeOf gs nodes → readTable text = .ok gs) ∧
    ∀ text root nodes entries, Node.read? text = some root → Lists nodes root →
      .mapping entries ∈ nodes → IsMisfielded entries → readTable text = .error .malformed := by
  constructor
  · intro text root nodes gs hread hroot hgroups
    rw [readTable_eq_ok_iff, readTable?_of_lists hread hroot]
    exact mapM_ofNode?_of_forall₂ hgroups
  · intro text root nodes entries hread hroot hmem hfields
    have hnone := mapM_ofNode?_of_mem hmem (ofNode?_of_isMisfielded hfields)
    rw [readTable, readTable?_of_lists hread hroot, hnone]

/-! A group that binds a chord twice, in a list and as the value of a field. -/

def twiceBound : GroupText := ⟨none, [("f1", none), ("f1", some " a")]⟩

/-- The tokens of the group. -/
def twiceBoundTokens : List Token :=
  [.flowMapping, .key, .scalar false "bindings", .value, .flowMapping, .key, .scalar false "f1",
    .value, .scalar true "null", .comma, .key, .scalar false "f1", .value, .scalar false " a",
    .flowMappingEnd, .flowMappingEnd]

/-- Both entries of a chord are kept, and so is the blank before an action. A context that is given
twice leaves nothing of the list. -/
theorem readTable_of_lists_twiceBound :
    readTable "[\x7b\"bindings\": \x7b\"f1\": null, \"f1\": \" a\"\x7d\x7d]" =
      .ok [twiceBound] ∧
    readTable "\x7b\"groups\": [\x7b\"bindings\": \x7b\"f1\": null, \"f1\": \" a\"\x7d\x7d]\x7d" =
      .ok [twiceBound] ∧
    readTable "[\x7b\x7d, \x7b\"context\": \"a\", \"context\": \"b\"\x7d]" =
      .error .malformed := by
  have hnode : IsNodeOf twiceBound (.mapping [twiceBound.bindingsEntry]) := .withoutContext rfl
  -- the tokens are computed, and the nodes are what they are put together to
  have hlist : Node.read?
      "[\x7b\"bindings\": \x7b\"f1\": null, \"f1\": \" a\"\x7d\x7d]" =
        some (.sequence [.mapping [twiceBound.bindingsEntry]]) := by
    have htokens : tokens?
        "[\x7b\"bindings\": \x7b\"f1\": null, \"f1\": \" a\"\x7d\x7d]".toList =
          some ([.flowSequence] ++ twiceBoundTokens ++ [.flowSequenceEnd]) := by
      decide +kernel
    rw [Node.read?, htokens]
    rfl
  have hwrapped : Node.read?
      "\x7b\"groups\": [\x7b\"bindings\": \x7b\"f1\": null, \"f1\": \" a\"\x7d\x7d]\x7d" =
        some (.mapping [(.string "groups", .sequence [.mapping [twiceBound.bindingsEntry]])]) := by
    have htokens : tokens?
        "\x7b\"groups\": [\x7b\"bindings\": \x7b\"f1\": null, \"f1\": \" a\"\x7d\x7d]\x7d".toList =
          some ([.flowMapping, .key, .scalar false "groups", .value, .flowSequence] ++
            twiceBoundTokens ++ [.flowSequenceEnd, .flowMappingEnd]) := by
      decide +kernel
    rw [Node.read?, htokens]
    rfl
  have htwice : Node.read? "[\x7b\x7d, \x7b\"context\": \"a\", \"context\": \"b\"\x7d]" =
        some (.sequence [.mapping [],
          .mapping [(.string "context", .string "a"), (.string "context", .string "b")]]) := by
    have htokens : tokens? "[\x7b\x7d, \x7b\"context\": \"a\", \"context\": \"b\"\x7d]".toList =
        some [.flowSequence, .flowMapping, .flowMappingEnd, .comma, .flowMapping,
          .key, .scalar false "context", .value, .scalar false "a", .comma,
          .key, .scalar false "context", .value, .scalar false "b", .flowMappingEnd,
          .flowSequenceEnd] := by
      decide +kernel
    rw [Node.read?, htokens]
    rfl
  have hfields : IsMisfielded
      [(.string "context", .string "a"), (.string "context", .string "b")] :=
    @IsMisfielded.repeated _ "context" _ _ [] [] [] (by decide) rfl
  refine ⟨?_, ?_, ?_⟩
  · exact readTable_of_lists.1 _ _ _ _ hlist .bare (.cons hnode .nil)
  · exact readTable_of_lists.1 _ _ _ _ hwrapped (@Lists.wrapped _ [] [] nofun) (.cons hnode .nil)
  · exact readTable_of_lists.2 _ _ _ _ htwice .bare (List.mem_cons_of_mem _ List.mem_cons_self)
      hfields

end Keybinding.GroupText
