/-!
# Texts

The character classes that chord texts, action ids, conditions and whole files are read with, and
how texts are trimmed, split and padded. `isSpace` is the Unicode property `White_Space`,
`isControl` the general category `Cc`.

A text is split at each occurrence of a separator. There is one piece more than there are
separators, and `intercalate_pieces` says that nothing else is lost. Texts that are joined with
separators keep their pieces (`split_intercalate`).
-/

namespace Keybinding.Text

/-! ## §1 Classes -/

/-- The Unicode property `White_Space`. -/
def isSpace (c : Char) : Bool :=
  let n := c.toNat
  (0x09 ≤ n && n ≤ 0x0D) || n == 0x20 || n == 0x85 || n == 0xA0 || n == 0x1680
    || (0x2000 ≤ n && n ≤ 0x200A) || n == 0x2028 || n == 0x2029 || n == 0x202F || n == 0x205F
    || n == 0x3000

/-- The Unicode general category `Cc`: the C0 and C1 controls and `DEL`. -/
def isControl (c : Char) : Bool :=
  c.toNat < 0x20 || (0x7F ≤ c.toNat && c.toNat ≤ 0x9F)

/-! ## §2 Trimming -/

/-- A list of characters without the white space it starts with. -/
def trimStart (s : List Char) : List Char :=
  s.dropWhile isSpace

/-- A list of characters without the white space it ends with. -/
def trimEnd (s : List Char) : List Char :=
  (s.reverse.dropWhile isSpace).reverse

/-- A list of characters without the white space at its two ends. -/
def trim (s : List Char) : List Char :=
  trimEnd (trimStart s)

/-- A text without the white space at its two ends. -/
def trimmed (s : String) : String :=
  String.ofList (trim s.toList)

/-! ## §3 Splitting -/

/-- The pieces between the occurrences of a separator. -/
def pieces (sep : Char) : List Char → List (List Char)
  | [] => [[]]
  | c :: rest =>
    if c = sep then [] :: pieces sep rest
    else
      match pieces sep rest with
      | [] => [[c]]
      | piece :: others => (c :: piece) :: others

theorem pieces_ne_nil (sep : Char) (s : List Char) : pieces sep s ≠ [] := by
  cases s with
  | nil => simp [pieces]
  | cons c rest =>
    unfold pieces
    split
    · simp
    · split <;> simp

/-- Putting the separators back between the pieces gives the text. -/
theorem intercalate_pieces (sep : Char) (s : List Char) :
    List.intercalate [sep] (pieces sep s) = s := by
  induction s with
  | nil => rfl
  | cons c rest ih =>
    unfold pieces
    split
    · next h =>
      obtain ⟨p, ps, hp⟩ := List.exists_cons_of_ne_nil (pieces_ne_nil sep rest)
      rw [hp] at ih ⊢
      rw [List.intercalate_cons_cons, ih, h]
      rfl
    · split
      · next hp => exact absurd hp (pieces_ne_nil sep rest)
      · next p ps hp =>
        rw [hp] at ih
        rw [← ih]
        cases ps <;> simp [List.intercalate_cons_cons]

/-- A separator does not occur in a piece. -/
theorem not_mem_of_mem_pieces {sep : Char} {s p : List Char} (h : p ∈ pieces sep s) : sep ∉ p := by
  induction s generalizing p with
  | nil => simp_all [pieces]
  | cons c rest ih =>
    unfold pieces at h
    split at h
    · rcases List.mem_cons.1 h with rfl | h
      · simp
      · exact ih h
    · next hc =>
      split at h
      · simp_all
        exact fun he => hc he.symm
      · next q qs hq =>
        rcases List.mem_cons.1 h with rfl | h
        · simp only [List.mem_cons, not_or]
          exact ⟨fun he => hc he.symm, ih (hq ▸ List.mem_cons_self)⟩
        · exact ih (hq ▸ List.mem_cons_of_mem _ h)

/-- A text without separators is a single piece. -/
theorem pieces_eq_singleton {sep : Char} {s : List Char} (h : sep ∉ s) : pieces sep s = [s] := by
  induction s with
  | nil => rfl
  | cons c rest ih =>
    obtain ⟨hc, hrest⟩ := not_or.1 (mt List.mem_cons.2 h)
    rw [pieces, if_neg (Ne.symm hc), ih hrest]

/-- A separator keeps the pieces before it and those after it apart. -/
theorem pieces_append (sep : Char) (s t : List Char) :
    pieces sep (s ++ sep :: t) = pieces sep s ++ pieces sep t := by
  induction s with
  | nil => simp [pieces]
  | cons c rest ih =>
    rw [List.cons_append, pieces, pieces, ih]
    split
    · rfl
    · -- the first piece gets one character more, here and there
      obtain ⟨p, ps, hp⟩ := List.exists_cons_of_ne_nil (pieces_ne_nil sep rest)
      rw [hp]
      rfl

/-- Joining texts with separators keeps the pieces of each. -/
theorem pieces_intercalate (sep : Char) {ss : List (List Char)} (h : ss ≠ []) :
    pieces sep (List.intercalate [sep] ss) = ss.flatMap (pieces sep) := by
  induction ss with
  | nil => contradiction
  | cons s ss ih =>
    cases ss with
    | nil => simp
    | cons t ss =>
      rw [List.intercalate_cons_cons, List.append_assoc, List.singleton_append, pieces_append,
        ih (List.cons_ne_nil t ss)]
      exact List.flatMap_cons.symm

/-- The pieces of a text between the occurrences of a separator. -/
def split (sep : Char) (s : String) : List String :=
  (pieces sep s.toList).map String.ofList

theorem split_eq_singleton {sep : Char} {s : String} (h : sep ∉ s.toList) : split sep s = [s] := by
  simp [split, pieces_eq_singleton h]

theorem split_intercalate (sep : Char) {ss : List String} (h : ss ≠ []) :
    split sep (String.intercalate (String.singleton sep) ss) = ss.flatMap (split sep) := by
  have hpieces : pieces sep (String.intercalate (String.singleton sep) ss).toList =
      (ss.map String.toList).flatMap (pieces sep) := by
    rw [String.toList_intercalate, String.toList_singleton]
    exact pieces_intercalate sep (mt List.map_eq_nil_iff.1 h)
  rw [split, hpieces, List.flatMap_map, List.map_flatMap]
  rfl

/-! ## §4 Padding -/

/-- A text with spaces behind it up to a width. -/
def padRight (width : Nat) (s : String) : String :=
  s ++ String.ofList (List.replicate (width - s.toList.length) ' ')

theorem length_padRight (width : Nat) (s : String) :
    (padRight width s).toList.length = max width s.toList.length := by
  simp [padRight]
  omega

end Keybinding.Text
