import Keybinding.Proofs.Table.Fault
import Mathlib.Data.List.Perm.Basic

/-!
# The order of entries

The entries of a written group can stand in any order. A group that is valid in one order is valid
in any other and means the same (`Group.read_of_isReordered`), and a group that is not valid stays
so. A table is therefore the same table for any order of the entries in its groups, and where it
cannot be built, the same group is to blame. What is wrong with this group can differ, since the
first wrong entry can be another one.

Nor does it matter in which order a table keeps the entries of a group that it has read, since they
are sorted before they are listed.
-/

namespace Keybinding

/-! ## §1 Groups -/

namespace GroupText

/-- A group with the same condition and the same entries in another order. -/
structure IsReordered (g g' : GroupText) : Prop where
  context : g'.context = g.context
  bindings : g'.bindings.Perm g.bindings

/-- Entries are valid or not whatever their order. -/
theorem IsReordered.isValid_iff {g g' : GroupText} (h : IsReordered g g') :
    g'.IsValid ↔ g.IsValid := by
  constructor
  · rintro ⟨hcondition, hchords, hactions, hdistinct⟩
    refine ⟨h.context ▸ hcondition, ?_, ?_, (h.bindings.pairwise_iff distinct_symm).1 hdistinct⟩
    · exact fun e he => hchords e (h.bindings.mem_iff.2 he)
    · exact fun e he => hactions e (h.bindings.mem_iff.2 he)
  · rintro ⟨hcondition, hchords, hactions, hdistinct⟩
    refine ⟨h.context ▸ hcondition, ?_, ?_, (h.bindings.pairwise_iff distinct_symm).2 hdistinct⟩
    · exact fun e he => hchords e (h.bindings.mem_iff.1 he)
    · exact fun e he => hactions e (h.bindings.mem_iff.1 he)

end GroupText

open GroupText

/-- **A group means the same whatever the order of its entries.** -/
theorem Group.read_of_isReordered {g g' : GroupText} {G : Group} (h : IsReordered g g')
    (hread : Group.read g = .ok G) : Group.read g' = .ok G := by
  obtain ⟨hcondition, ps, hps, hnodup, hperm⟩ := Group.read_eq_ok_iff.1 hread
  -- the meanings of the entries can be put into the order of the entries
  obtain ⟨ps', hps', hperm'⟩ := List.perm_comp_forall₂ h.bindings hps
  refine Group.read_eq_ok_iff.2 ⟨?_, ps', hps', ?_, hperm.trans hperm'.symm⟩
  · rw [hcondition, h.context]
  · exact (hperm'.map _).nodup_iff.2 hnodup

theorem Group.forall₂_read_of_isReordered {gs gs' : List GroupText} {Gs : List Group}
    (h : List.Forall₂ IsReordered gs gs')
    (hread : List.Forall₂ (fun g G => Group.read g = .ok G) gs Gs) :
    List.Forall₂ (fun g G => Group.read g = .ok G) gs' Gs := by
  induction h generalizing Gs with
  | nil => exact hread
  | cons hg _ ih =>
    cases hread with
    | cons hG hGs => exact .cons (Group.read_of_isReordered hg hG) (ih hGs)

namespace Table

/-! ## §2 Tables -/

section Reordered

variable {defaults user defaults' user' : List GroupText}
  (hdefaults : List.Forall₂ IsReordered defaults defaults')
  (huser : List.Forall₂ IsReordered user user')
include hdefaults huser

theorem build_eq_ok_of_reordered {t : Table} (h : build defaults user = .ok t) :
    build defaults' user' = .ok t := by
  obtain ⟨hds, hus⟩ := build_eq_ok_iff.1 h
  exact build_eq_ok_iff.2 ⟨Group.forall₂_read_of_isReordered hdefaults hds,
    Group.forall₂_read_of_isReordered huser hus⟩

/-- The group that is to blame has the same place in any order of the entries. -/
theorem exists_blamesFirst_of_reordered {err : Error} (h : BlamesFirst defaults user err) :
    ∃ fault, BlamesFirst defaults' user' ⟨err.group, fault⟩ := by
  obtain @⟨before, later, g, _, hsplit, hbefore, hfault⟩ := h
  have hall : List.Forall₂ IsReordered (before ++ g :: later) (defaults' ++ user') :=
    hsplit ▸ List.rel_append hdefaults huser
  obtain ⟨before', g', later', hsplit', hbefores, hg, -⟩ := exists_split_of_forall₂ hall
  have hinvalid : ¬ g'.IsValid := by
    rw [hg.isValid_iff]
    exact (Group.exists_hasFault_iff g).1 ⟨_, hfault⟩
  obtain ⟨fault', hfault'⟩ := (Group.exists_hasFault_iff g').2 hinvalid
  have hvalid : ∀ b' ∈ before', b'.IsValid := by
    intro b' hb'
    have hboth := (List.forall₂_and_left _ _).2 ⟨hbefore, hbefores⟩
    obtain ⟨b, hb, hbb'⟩ := exists_forall₂_iff.1 ⟨before, List.Forall₂.flip hboth⟩ b' hb'
    exact hbb'.isValid_iff.2 hb
  refine ⟨fault', ?_⟩
  rw [hdefaults.length_eq, hbefores.length_eq]
  exact .mk hsplit' hvalid hfault'

/-- **The order of the entries inside groups makes no difference.** Where a table is built, the same
table is built from the same groups with their entries in any other order. Of each of its groups,
the entries can be kept in any order as well: sorted by chords they are listed as before, and a
chord is found as before. Where no table is built, none is built for any other order, and the same
group is to blame. -/
theorem build_of_isReordered :
    (∀ t, build defaults user = .ok t →
      build defaults' user' = .ok t ∧
      ∀ G ∈ t.groups, ∀ es, es.Perm G.bindings.entries →
        Bindings.listing es = G.bindings.entries ∧ es.length = G.bindings.size ∧
        ∀ c, es.lookup c = G.get? c) ∧
    ∀ e, build defaults user = .error e →
      ∃ id fault fault', e = .invalid ⟨id, fault⟩ ∧
        build defaults' user' = .error (.invalid ⟨id, fault'⟩) := by
  refine ⟨?_, ?_⟩
  · intro t ht
    refine ⟨build_eq_ok_of_reordered hdefaults huser ht, ?_⟩
    intro G _ es hes
    exact ⟨Bindings.listing_eq_entries hes, hes.length_eq, Bindings.lookup_eq_get? hes⟩
  · intro e he
    obtain ⟨⟨id, fault⟩, hblames, rfl⟩ := build_eq_error_iff.1 he
    obtain ⟨fault', hblames'⟩ := exists_blamesFirst_of_reordered hdefaults huser hblames
    exact ⟨id, fault, fault', rfl, build_eq_error_iff.2 ⟨_, hblames', rfl⟩⟩

end Reordered

/-! A group of two entries, and one in which the first wrong entry depends on the order. -/

def closingAndQuitting : GroupText :=
  ⟨none, [("cmd-w", some "tab::close"), ("cmd-q", some "app::quit")]⟩

def quittingAndClosing : GroupText :=
  ⟨none, [("cmd-q", some "app::quit"), ("cmd-w", some "tab::close")]⟩

def keylessFirst : GroupText := ⟨some "modalOpen", [("k", none), ("cmd-", none), ("K", none)]⟩

def repeatedFirst : GroupText := ⟨some "modalOpen", [("k", none), ("K", none), ("cmd-", none)]⟩

/-- Two orders of entries make one table, and the same group is to blame for another fault. -/
theorem build_of_isReordered_blamed :
    (∃ t, build [closingAndQuitting] [] = .ok t ∧ build [quittingAndClosing] [] = .ok t) ∧
      build [closingAndQuitting] [keylessFirst] =
        .error (.invalid ⟨⟨.user, 0⟩, .chord "cmd-" .missingKey⟩) ∧
      ∃ fault, build [quittingAndClosing] [repeatedFirst] =
        .error (.invalid ⟨⟨.user, 0⟩, fault⟩) := by
  have hsound : List.Forall₂ IsReordered [closingAndQuitting] [quittingAndClosing] :=
    .cons ⟨rfl, .swap _ _ []⟩ .nil
  have hwrong : List.Forall₂ IsReordered [keylessFirst] [repeatedFirst] :=
    .cons ⟨rfl, .cons _ (.swap _ _ [])⟩ .nil
  have hok : (build [closingAndQuitting] []).toOption.isSome = true := by decide +kernel
  have herror : build [closingAndQuitting] [keylessFirst] =
      .error (.invalid ⟨⟨.user, 0⟩, .chord "cmd-" .missingKey⟩) := by
    decide +kernel
  refine ⟨?_, herror, ?_⟩
  · cases ht : build [closingAndQuitting] [] with
    | error e =>
      rw [ht] at hok
      contradiction
    | ok t => exact ⟨t, rfl, ((build_of_isReordered hsound .nil).1 t ht).1⟩
  · obtain ⟨id, fault, fault', heq, herror'⟩ := (build_of_isReordered hsound hwrong).2 _ herror
    cases heq
    exact ⟨fault', herror'⟩

end Table

end Keybinding
