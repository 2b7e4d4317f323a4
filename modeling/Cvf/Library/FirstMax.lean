/-
# Cvf.Library.FirstMax — the first of the largest.

`max(items, key=…)`: of several items with the largest key the first one.  Where keys tell items apart it
is the one item no other reaches, so the order of the items is irrelevant (`firstMax_perm`).
-/
import Mathlib

namespace Cvf.Library

variable {α β κ : Type*} [LinearOrder κ] {key : α → κ} {xs ys : List α} {x m : α}

/-- One item after another, each replacing the best so far only when it is larger. -/
def firstMax (key : α → κ) : List α → Option α
  | [] => none
  | x :: xs =>
    some (xs.foldl (fun best y => if key best < key y then y else best) x)

theorem firstMax_eq_none_iff : firstMax key xs = none ↔ xs = [] := by
  cases xs with
  | nil => exact iff_of_true rfl rfl
  | cons x xs => exact iff_of_false (Option.some_ne_none _) (List.cons_ne_nil x xs)

theorem foldl_best_spec (xs : List α) (best : α) :
    xs.foldl (fun best y => if key best < key y then y else best) best ∈ best :: xs ∧
      ∀ y ∈ best :: xs,
        key y ≤ key (xs.foldl (fun best y => if key best < key y then y else best) best) := by
  induction xs generalizing best with
  | nil => simp
  | cons x xs ih =>
    rw [List.foldl_cons]
    obtain ⟨hmem, hmax⟩ := ih (if key best < key x then x else best)
    have hhead := hmax _ List.mem_cons_self
    constructor
    · rcases List.mem_cons.mp hmem with heq | hmem
      · rw [heq]
        split_ifs
        · exact List.mem_cons_of_mem _ List.mem_cons_self
        · exact List.mem_cons_self
      · exact List.mem_cons_of_mem _ (List.mem_cons_of_mem _ hmem)
    · -- the better of the two heads is at least both
      have hboth : key best ≤ key (if key best < key x then x else best) ∧
          key x ≤ key (if key best < key x then x else best) := by
        split_ifs with hlt
        · exact ⟨hlt.le, le_rfl⟩
        · exact ⟨le_rfl, not_lt.mp hlt⟩
      intro y hy
      rcases List.mem_cons.mp hy with rfl | hy
      · exact hboth.1.trans hhead
      rcases List.mem_cons.mp hy with rfl | hy
      · exact hboth.2.trans hhead
      · exact hmax y (List.mem_cons_of_mem _ hy)

theorem firstMax_mem (h : firstMax key xs = some m) : m ∈ xs := by
  cases xs with
  | nil => cases h
  | cons x xs => exact Option.some.inj h ▸ (foldl_best_spec xs x).1

theorem le_firstMax (h : firstMax key xs = some m) (hx : x ∈ xs) : key x ≤ key m := by
  cases xs with
  | nil => cases h
  | cons y xs => exact Option.some.inj h ▸ (foldl_best_spec xs y).2 x hx

theorem exists_firstMax (h : xs ≠ []) : ∃ m, firstMax key xs = some m :=
  Option.ne_none_iff_exists'.mp (mt firstMax_eq_none_iff.mp h)

/-- An item that alone has the largest key. -/
theorem firstMax_eq_some (hm : m ∈ xs) (hmax : ∀ x ∈ xs, x ≠ m → key x < key m) :
    firstMax key xs = some m := by
  obtain ⟨best, hbest⟩ : ∃ best, firstMax key xs = some best :=
    exists_firstMax (List.ne_nil_of_mem hm)
  by_contra hne
  have hother : best ≠ m := fun h => hne (h ▸ hbest)
  exact absurd (le_firstMax hbest hm) (not_le.mpr (hmax best (firstMax_mem hbest) hother))

/-- Where keys tell the items apart, only which items there are counts. -/
theorem firstMax_congr (hmem : ∀ x, x ∈ xs ↔ x ∈ ys)
    (hkey : ∀ x ∈ xs, ∀ y ∈ xs, key x = key y → x = y) : firstMax key xs = firstMax key ys := by
  cases hys : firstMax key ys with
  | none =>
    rw [firstMax_eq_none_iff] at hys ⊢
    exact List.eq_nil_iff_forall_not_mem.mpr fun x hx => by
      have := (hmem x).mp hx
      rw [hys] at this
      cases this
  | some m =>
    have hm : m ∈ xs := (hmem m).mpr (firstMax_mem hys)
    apply firstMax_eq_some hm
    intro x hx hne
    have hle := le_firstMax hys ((hmem x).mp hx)
    exact lt_of_le_of_ne hle fun heq => hne (hkey x hx m hm heq)

/-- The first of the largest is the first of its own key. -/
theorem firstMax_eq_head? (h : firstMax key xs = some m) :
    (xs.filter fun x => key x = key m).head? = some m := by
  cases xs with
  | nil => cases h
  | cons x xs =>
    induction xs generalizing x with
    | nil =>
      obtain rfl : x = m := Option.some.inj h
      simp
    | cons y xs ih =>
      by_cases hxy : key x < key y
      · -- a larger second item: the first one never counts
        have hrest : firstMax key (y :: xs) = some m := by
          rw [← h]
          simp only [firstMax, List.foldl_cons, if_pos hxy]
        have hle := le_firstMax hrest List.mem_cons_self
        rw [List.filter_cons_of_neg (by simpa using (hxy.trans_le hle).ne)]
        exact ih y hrest
      · have hrest : firstMax key (x :: xs) = some m := by
          rw [← h]
          simp only [firstMax, List.foldl_cons, if_neg hxy]
        have hhead := ih x hrest
        have hxm := le_firstMax hrest List.mem_cons_self
        rcases hxm.lt_or_eq with hlt | heq
        · have hy : ¬ key y = key m := ((not_lt.mp hxy).trans_lt hlt).ne
          rw [List.filter_cons_of_neg (by simpa using hlt.ne)] at hhead ⊢
          rwa [List.filter_cons_of_neg (by simpa using hy)]
        · rw [List.filter_cons_of_pos (by simpa using heq)] at hhead ⊢
          exact hhead

/-- Only the order of items of one key counts. -/
theorem firstMax_stable (hperm : xs.Perm ys)
    (h : ∀ k, xs.filter (fun x => key x = k) = ys.filter fun x => key x = k) :
    firstMax key xs = firstMax key ys := by
  cases hxs : firstMax key xs with
  | none =>
    rw [firstMax_eq_none_iff] at hxs
    rw [hxs] at hperm
    exact (firstMax_eq_none_iff.mpr hperm.symm.eq_nil).symm
  | some m =>
    obtain ⟨m', hys⟩ : ∃ m', firstMax key ys = some m' :=
      exists_firstMax (List.ne_nil_of_mem (hperm.subset (firstMax_mem hxs)))
    have hkey : key m = key m' := le_antisymm
      (le_firstMax hys (hperm.subset (firstMax_mem hxs)))
      (le_firstMax hxs (hperm.symm.subset (firstMax_mem hys)))
    have hhead := firstMax_eq_head? hxs
    rw [h, hkey, firstMax_eq_head? hys] at hhead
    rw [hys, hhead]

/-- Items renamed without touching their keys. -/
theorem firstMax_map {key' : β → κ} (f : α → β) (hf : ∀ x, key' (f x) = key x) (xs : List α) :
    firstMax key' (xs.map f) = (firstMax key xs).map f := by
  cases xs with
  | nil => rfl
  | cons x xs =>
    show some (_ : β) = some (f _)
    rw [List.foldl_map]
    congr 1
    induction xs generalizing x with
    | nil => rfl
    | cons y xs ih =>
      rw [List.foldl_cons, List.foldl_cons, ← ih]
      congr 1
      rw [hf, hf]
      split_ifs <;> rfl

/-! ## The largest and the smallest value -/

/-- The largest value does not depend on the order. -/
theorem max?_perm {xs ys : List κ} (h : xs.Perm ys) : xs.max? = ys.max? := by
  induction h with
  | nil => rfl
  | cons x _ ih => rw [List.max?_cons, ih, List.max?_cons]
  | swap x y zs =>
    simp only [List.max?_cons]
    cases zs.max? with
    | none => exact congrArg some (max_comm _ _)
    | some z => exact congrArg some (max_left_comm _ _ _)
  | trans _ _ ih ih' => rw [ih, ih']

/-- Neither does the smallest. -/
theorem min?_perm {xs ys : List κ} (h : xs.Perm ys) : xs.min? = ys.min? := by
  induction h with
  | nil => rfl
  | cons x _ ih => rw [List.min?_cons, ih, List.min?_cons]
  | swap x y zs =>
    simp only [List.min?_cons]
    cases zs.min? with
    | none => exact congrArg some (min_comm _ _)
    | some z => exact congrArg some (min_left_comm _ _ _)
  | trans _ _ ih ih' => rw [ih, ih']

end Cvf.Library
