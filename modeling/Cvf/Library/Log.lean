/-
# Cvf.Library.Log — lists that grow at the end.

An entry of a log may have to rest on the entries before it: a result on its inputs, an answer on its
question.  `Grounded R log` says that every entry does, and entries that do may be appended.
-/
import Mathlib

namespace Cvf.Library

variable {α : Type*} {R : List α → α → Prop} {log entries : List α}

/-- Where an entry of an extended log stands. -/
theorem append_eq_append_cons_iff {before after : List α} {entry : α} :
    log ++ entries = before ++ entry :: after ↔
      (∃ later, log = before ++ entry :: later ∧ after = later ++ entries) ∨
        ∃ earlier, before = log ++ earlier ∧ entries = earlier ++ entry :: after := by
  rw [List.append_eq_append_iff]
  constructor
  · rintro (⟨earlier, hbefore, hentries⟩ | ⟨middle, hlog, hafter⟩)
    · exact .inr ⟨earlier, hbefore, hentries⟩
    · cases middle with
      | nil =>
        rw [List.append_nil] at hlog
        exact .inr ⟨[], by rw [hlog, List.append_nil], hafter.symm⟩
      | cons first later =>
        obtain ⟨rfl, rfl⟩ := List.cons.inj hafter
        exact .inl ⟨later, hlog, rfl⟩
  · rintro (⟨later, rfl, rfl⟩ | ⟨earlier, rfl, rfl⟩)
    · exact .inr ⟨entry :: later, rfl, rfl⟩
    · exact .inl ⟨earlier, rfl, rfl⟩

/-- Every entry stands in the relation to the entries before it. -/
def Grounded (R : List α → α → Prop) (log : List α) : Prop :=
  ∀ before entry after, log = before ++ entry :: after → R before entry

theorem Grounded.nil : Grounded R [] := fun _ _ _ h =>
  absurd h.symm (List.append_ne_nil_of_right_ne_nil _ (List.cons_ne_nil _ _))

/-- Entries that rest on the log, or on those appended before them. -/
theorem Grounded.append (h : Grounded R log)
    (hentries : ∀ before entry after, entries = before ++ entry :: after → R (log ++ before) entry) :
    Grounded R (log ++ entries) := by
  intro before entry after heq
  rcases append_eq_append_cons_iff.mp heq with ⟨later, hlog, -⟩ | ⟨earlier, rfl, hentry⟩
  · exact h before entry later hlog
  · exact hentries earlier entry after hentry

end Cvf.Library
