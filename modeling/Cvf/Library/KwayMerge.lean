/-
# Cvf.Library.KwayMerge — merging sorted lists.

`heapq.merge(*iterables, key=…)`: again and again the least head is taken, of equal ones that of the first
list.  The merge has the elements of all lists (`kwayMerge_perm`), and is sorted when every list is
(`pairwise_kwayMerge`).
-/
import Cvf.Library.SortByKey

namespace Cvf.Library

variable {α κ : Type*} [LinearOrder κ] {key : α → κ} {lists rest : List (List α)} {x : α}

/-- The least head, and the lists without it. -/
def popLeast (key : α → κ) : List (List α) → Option (α × List (List α))
  | [] => none
  | [] :: lists => (popLeast key lists).map fun least => (least.1, [] :: least.2)
  | (x :: xs) :: lists =>
    match popLeast key lists with
    | none => some (x, xs :: lists)
    | some least =>
      if key least.1 < key x then some (least.1, (x :: xs) :: least.2) else some (x, xs :: lists)

/-- The first elements of the merge, as many as are asked for. -/
def takeMerge (key : α → κ) : Nat → List (List α) → List α
  | 0, _ => []
  | n + 1, lists =>
    match popLeast key lists with
    | none => []
    | some least => least.1 :: takeMerge key n least.2

def kwayMerge (key : α → κ) (lists : List (List α)) : List α :=
  takeMerge key lists.flatten.length lists

/-! ## The least head -/

theorem popLeast_eq_none_iff : popLeast key lists = none ↔ lists.flatten = [] := by
  induction lists with
  | nil => exact iff_of_true rfl rfl
  | cons list lists ih =>
    cases list with
    | nil =>
      rw [popLeast, Option.map_eq_none_iff, ih]
      rfl
    | cons x xs =>
      refine iff_of_false ?_ (List.cons_ne_nil _ _)
      rw [popLeast]
      cases popLeast key lists with
      | none => exact Option.some_ne_none _
      | some least =>
        show (if key least.1 < key x then some _ else some _) ≠ none
        split_ifs
        · exact Option.some_ne_none _
        · exact Option.some_ne_none _

theorem popLeast_perm (h : popLeast key lists = some (x, rest)) :
    lists.flatten.Perm (x :: rest.flatten) := by
  induction lists generalizing x rest with
  | nil => cases h
  | cons list lists ih =>
    cases list with
    | nil =>
      rw [popLeast] at h
      obtain ⟨least, hleast, heq⟩ := Option.map_eq_some_iff.mp h
      cases heq
      exact (ih hleast : lists.flatten.Perm (least.1 :: least.2.flatten))
    | cons y ys =>
      rw [popLeast] at h
      cases hleast : popLeast key lists with
      | none =>
        rw [hleast] at h
        cases h
        exact List.Perm.refl _
      | some least =>
        rw [hleast] at h
        dsimp only at h
        split_ifs at h
        · cases h
          show ((y :: ys) ++ lists.flatten).Perm (least.1 :: ((y :: ys) ++ least.2.flatten))
          exact ((ih hleast).append_left _).trans List.perm_middle
        · cases h
          exact List.Perm.refl _

/-- The lists that are left are lists there were, but for the one whose head has gone. -/
theorem popLeast_pairwise {r : α → α → Prop} (hsorted : ∀ list ∈ lists, list.Pairwise r)
    (h : popLeast key lists = some (x, rest)) : ∀ list ∈ rest, list.Pairwise r := by
  induction lists generalizing x rest with
  | nil => cases h
  | cons list lists ih =>
    have hlists : ∀ other ∈ lists, other.Pairwise r := fun other hother =>
      hsorted other (List.mem_cons_of_mem _ hother)
    cases list with
    | nil =>
      rw [popLeast] at h
      obtain ⟨least, hleast, heq⟩ := Option.map_eq_some_iff.mp h
      cases heq
      intro other hother
      rcases List.mem_cons.mp hother with rfl | hother
      · exact List.Pairwise.nil
      · exact ih hlists hleast other hother
    | cons y ys =>
      have hhead := hsorted (y :: ys) List.mem_cons_self
      have htail : ∀ other ∈ ys :: lists, other.Pairwise r := by
        intro other hother
        rcases List.mem_cons.mp hother with rfl | hother
        · exact (List.pairwise_cons.mp hhead).2
        · exact hlists other hother
      rw [popLeast] at h
      cases hleast : popLeast key lists with
      | none =>
        rw [hleast] at h
        cases h
        exact htail
      | some least =>
        rw [hleast] at h
        dsimp only at h
        split_ifs at h
        · cases h
          intro other hother
          rcases List.mem_cons.mp hother with rfl | hother
          · exact hhead
          · exact ih hlists hleast other hother
        · cases h
          exact htail

/-- Of sorted lists the least head is least of all. -/
theorem popLeast_le (hsorted : ∀ list ∈ lists, list.Pairwise fun a b => key a ≤ key b)
    (h : popLeast key lists = some (x, rest)) : ∀ y ∈ lists.flatten, key x ≤ key y := by
  induction lists generalizing x rest with
  | nil => cases h
  | cons list lists ih =>
    have hlists : ∀ other ∈ lists, other.Pairwise fun a b => key a ≤ key b := fun other hother =>
      hsorted other (List.mem_cons_of_mem _ hother)
    cases list with
    | nil =>
      rw [popLeast] at h
      obtain ⟨least, hleast, heq⟩ := Option.map_eq_some_iff.mp h
      cases heq
      exact ih hlists hleast
    | cons z zs =>
      have hhead := List.pairwise_cons.mp (hsorted (z :: zs) List.mem_cons_self)
      -- the first list lies above its head, the others above their least head
      have hbound : ∀ bound, bound ≤ key z → (∀ y ∈ lists.flatten, bound ≤ key y) →
          ∀ y ∈ ((z :: zs) :: lists).flatten, bound ≤ key y := by
        intro bound hz hothers y hy
        rcases List.mem_append.mp hy with hy | hy
        · rcases List.mem_cons.mp hy with heq | hy
          · exact heq ▸ hz
          · exact hz.trans (hhead.1 y hy)
        · exact hothers y hy
      rw [popLeast] at h
      cases hleast : popLeast key lists with
      | none =>
        rw [hleast] at h
        cases h
        apply hbound _ le_rfl
        intro y hy
        rw [popLeast_eq_none_iff.mp hleast] at hy
        exact absurd hy List.not_mem_nil
      | some least =>
        rw [hleast] at h
        have hothers := ih hlists hleast
        dsimp only at h
        split_ifs at h with hlt
        · cases h
          exact hbound _ hlt.le hothers
        · cases h
          apply hbound _ le_rfl
          exact fun y hy => (not_lt.mp hlt).trans (hothers y hy)

/-! ## The merge -/

theorem takeMerge_perm (key : α → κ) {n : Nat} (hn : n = lists.flatten.length) :
    (takeMerge key n lists).Perm lists.flatten := by
  induction n generalizing lists with
  | zero =>
    rw [List.length_eq_zero_iff.mp hn.symm]
    exact List.Perm.refl _
  | succ n ih =>
    rw [takeMerge]
    cases hleast : popLeast key lists with
    | none =>
      rw [popLeast_eq_none_iff.mp hleast] at hn
      cases hn
    | some least =>
      have hperm := popLeast_perm hleast
      have hlength : n = least.2.flatten.length := by
        have := hperm.length_eq
        rw [List.length_cons] at this
        omega
      exact ((ih hlength).cons _).trans hperm.symm

theorem kwayMerge_perm (key : α → κ) (lists : List (List α)) :
    (kwayMerge key lists).Perm lists.flatten := takeMerge_perm key rfl

theorem pairwise_takeMerge (hsorted : ∀ list ∈ lists, list.Pairwise fun a b => key a ≤ key b)
    {n : Nat} (hn : n = lists.flatten.length) :
    (takeMerge key n lists).Pairwise fun a b => key a ≤ key b := by
  induction n generalizing lists with
  | zero => exact List.Pairwise.nil
  | succ n ih =>
    rw [takeMerge]
    cases hleast : popLeast key lists with
    | none => exact List.Pairwise.nil
    | some least =>
      have hperm := popLeast_perm hleast
      have hlength : n = least.2.flatten.length := by
        have := hperm.length_eq
        rw [List.length_cons] at this
        omega
      apply List.pairwise_cons.mpr ⟨?_, ih (popLeast_pairwise hsorted hleast) hlength⟩
      intro y hy
      have hrest : y ∈ least.2.flatten := (takeMerge_perm key hlength).mem_iff.mp hy
      exact popLeast_le hsorted hleast y (hperm.mem_iff.mpr (List.mem_cons_of_mem _ hrest))

/-- Sorted lists merge to a sorted list. -/
theorem pairwise_kwayMerge (hsorted : ∀ list ∈ lists, list.Pairwise fun a b => key a ≤ key b) :
    (kwayMerge key lists).Pairwise fun a b => key a ≤ key b := pairwise_takeMerge hsorted rfl

end Cvf.Library
