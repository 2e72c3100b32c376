import Keybinding.Session.Run

/-!
# Runs of a session

The session after a run is made step by step. The answer to a step of a run is the answer that the
session gives which the steps before it have left (`getElem?_answers`). What the steps of a run
leave alone is as the last step before them has left it (`IsLastStep.eq_next`).
-/

namespace Keybinding.Session

/-! ## §1 The session after a run -/

/-- The session after steps that are taken one after the other. -/
def after (s : Session) (steps : List Step) : Session :=
  steps.foldl next s

@[simp] theorem after_nil (s : Session) : s.after [] = s := rfl

@[simp] theorem after_cons (s : Session) (a : Step) (steps : List Step) :
    s.after (a :: steps) = (s.next a).after steps := rfl

@[simp] theorem after_append (s : Session) (as bs : List Step) :
    s.after (as ++ bs) = (s.after as).after bs :=
  List.foldl_append

theorem answer_of_step {s t : Session} {a : Step} {answer : Answer}
    (h : s.step a = .ok (t, answer)) : s.answer a = .ok answer := by
  rw [Session.answer, h]
  rfl

theorem next_of_step {s t : Session} {a : Step} {answer : Answer}
    (h : s.step a = .ok (t, answer)) : s.next a = t := by
  rw [next, h]

/-- The answers of a run are those of the sessions along the run. -/
theorem getElem?_answers (s : Session) (before : List Step) (a : Step) (later : List Step) :
    (s.answers (before ++ a :: later))[before.length]? = some ((s.after before).answer a) := by
  induction before generalizing s with
  | nil => rfl
  | cons b before ih =>
    simp only [List.cons_append, answers, List.length_cons, List.getElem?_cons_succ, after_cons]
    apply ih

/-- What no step of a run changes is the same after the run. -/
theorem after_eq_of_forall {α : Type} {f : Session → α} {steps : List Step} (s : Session)
    (h : ∀ a ∈ steps, ∀ s : Session, f (s.next a) = f s) : f (s.after steps) = f s := by
  induction steps generalizing s with
  | nil => rfl
  | cons a steps ih =>
    calc f (s.after (a :: steps))
      _ = f (s.next a) := ih (s.next a) fun b hb => h b (by simp [hb])
      _ = f s := h a (by simp) s

/-! ## §2 The last step of a kind -/

/-- The last step of a kind in a run, between the steps before it and those after it. -/
structure IsLastStep (kind : Step → Bool) (steps before : List Step) (a : Step)
    (later : List Step) : Prop where
  split : steps = before ++ a :: later
  of_kind : kind a = true
  none_later : ∀ b ∈ later, kind b = false

variable {kind : Step → Bool} {steps before later : List Step} {a : Step}

/-- If a run has a step of a kind, it has a last one. -/
theorem exists_isLastStep (h : ∃ a ∈ steps, kind a = true) :
    ∃ before a later, IsLastStep kind steps before a later := by
  induction steps with
  | nil => simp at h
  | cons b steps ih =>
    -- the first step is the last one only if none behind it is of the kind
    by_cases hlater : ∃ a ∈ steps, kind a = true
    · obtain ⟨before, a, later, hlast⟩ := ih hlater
      exact ⟨b :: before, a, later, by rw [hlast.split]; rfl, hlast.of_kind, hlast.none_later⟩
    · obtain ⟨a, ha, hkind⟩ := h
      rcases List.mem_cons.1 ha with rfl | ha
      · refine ⟨[], a, steps, rfl, hkind, ?_⟩
        intro c hc
        exact Bool.eq_false_iff.2 fun hkind => hlater ⟨c, hc, hkind⟩
      · exact absurd ⟨a, ha, hkind⟩ hlater

theorem IsLastStep.after_eq (h : IsLastStep kind steps before a later) (s : Session) :
    s.after steps = ((s.after before).next a).after later := by
  rw [h.split, after_append, after_cons]

/-- What only steps of a kind change is as the last of them has left it. -/
theorem IsLastStep.eq_next {α : Type} {f : Session → α} (h : IsLastStep kind steps before a later)
    (s : Session) (hkeep : ∀ b, kind b = false → ∀ s : Session, f (s.next b) = f s) :
    f (s.after steps) = f ((s.after before).next a) := by
  rw [h.after_eq]
  apply after_eq_of_forall
  intro b hb
  exact hkeep b (h.none_later b hb)

end Keybinding.Session
