import Keybinding.Proofs.Action
import Keybinding.Router
import Mathlib.Data.List.Sort
import Mathlib.Data.String.Basic

/-!
# The handlers of a router

What a router does with an action depends on nothing but the tag of the action's handler. The ids
that the text of a router lists are those of the actions with a handler, in strictly increasing
order as long as no two of these actions share an id.
-/

namespace Keybinding.Router

variable {r : Router} {a : Action} {tag : String}

/-! ## §1 Dispatch -/

theorem contains_of_tag? (h : r.tag? a = some tag) : r.contains a = true := by
  rw [contains, h]
  rfl

theorem contains_of_tag?_eq_none (h : r.tag? a = none) : r.contains a = false := by
  rw [contains, h]
  rfl

theorem contains_iff_mem : r.contains a = true ↔ a ∈ r.handlers.map (·.1) := by
  simp [contains, tag?, List.lookup_isSome_iff]

theorem dispatch_of_tag? (h : r.tag? a = some tag) :
    r.dispatch (some a) = .handled a ∧ r.record (some a) = [tag ++ ":" ++ a.id] := by
  simp [dispatch, record, contains_of_tag? h, h]

theorem dispatch_of_tag?_eq_none (h : r.tag? a = none) :
    r.dispatch (some a) = .passThrough ∧ r.record (some a) = [] := by
  simp [dispatch, record, contains_of_tag?_eq_none h, h]

/-- A record is made for each action that is handled, and for no other. -/
theorem length_record (r : Router) (action : Option Action) :
    (r.record action).length = if r.dispatch action = .passThrough then 0 else 1 := by
  cases action with
  | none => rfl
  | some a =>
    cases h : r.tag? a with
    | none => simp [dispatch_of_tag?_eq_none h]
    | some tag => simp [dispatch_of_tag? h]

/-! ## §2 Ids in order -/

theorem insertText_eq_orderedInsert (s : String) (ts : List String) :
    insertText s ts = ts.orderedInsert (· ≤ ·) s := by
  induction ts with
  | nil => rfl
  | cons t ts ih =>
    rw [insertText, List.orderedInsert, ih]
    by_cases h : t < s
    · rw [if_pos h, if_neg (not_le.2 h)]
    · rw [if_neg h, if_pos (not_lt.1 h)]

theorem ids_eq_insertionSort (r : Router) :
    r.ids = (r.handlers.map (·.1.id)).insertionSort (· ≤ ·) := by
  rw [ids, List.insertionSort]
  congr 1
  funext s ts
  exact insertText_eq_orderedInsert s ts

/-- The ids of the actions with a handler are listed, and no others. -/
theorem mem_ids {id : String} : id ∈ r.ids ↔ ∃ a, r.contains a = true ∧ a.id = id := by
  rw [ids_eq_insertionSort, (List.perm_insertionSort _ _).mem_iff]
  simp only [contains_iff_mem, List.mem_map]
  constructor
  · rintro ⟨e, he, rfl⟩
    exact ⟨e.1, ⟨e, he, rfl⟩, rfl⟩
  · rintro ⟨a, ⟨e, he, rfl⟩, rfl⟩
    exact ⟨e, he, rfl⟩

/-- **The ids are listed in strictly increasing order**, if they tell the actions apart. -/
theorem pairwise_ids (h : ∀ a, r.contains a = true → a.IsCanonical) :
    r.ids.Pairwise (· < ·) := by
  have hnodup : (r.handlers.map (·.1.id)).Nodup := by
    rw [show r.handlers.map (·.1.id) = (r.handlers.map (·.1)).map Action.id by simp]
    apply r.nodup.map_on
    intro a ha b hb hid
    exact Action.eq_of_id_eq (h a (contains_iff_mem.2 ha)) (h b (contains_iff_mem.2 hb)) hid
  rw [ids_eq_insertionSort]
  have hsorted := List.pairwise_insertionSort (· ≤ ·) (r.handlers.map (·.1.id))
  have hapart := (List.perm_insertionSort (· ≤ ·) _).nodup_iff.2 hnodup
  exact (hsorted.and hapart).imp fun hboth => lt_of_le_of_ne hboth.1 hboth.2

/-- The bytes of the ids are in strictly increasing order as well, since ids are texts of ASCII. -/
theorem pairwise_bytes_ids (h : ∀ a, r.contains a = true → a.IsCanonical) :
    r.ids.Pairwise fun i j => Text.bytes i < Text.bytes j := by
  have hascii : ∀ i ∈ r.ids, ∀ c ∈ i.toList, c.toNat < 128 := by
    intro i hi c hc
    obtain ⟨a, ha, rfl⟩ := mem_ids.1 hi
    have hbounds := (h a ha).isId.toNat_of_mem hc
    omega
  refine (pairwise_ids h).imp_of_mem ?_
  intro i j hi hj hlt
  exact (Text.bytes_lt_bytes_iff (hascii i hi) (hascii j hj)).2 hlt

end Keybinding.Router
