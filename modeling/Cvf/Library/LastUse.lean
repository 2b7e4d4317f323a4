/-
# Cvf.Library.LastUse — the last use of each key.

A list of keyed uses, oldest first, is reduced to the last one of each key, in the order of these last
uses.  A further use drops the earlier one of its key and goes to the end (`lastUses_concat`), and what
stands behind a key in the reduced list is the reduction of what followed its last use
(`lastUses_split_iff`).
-/
import Mathlib

namespace Cvf.Library

variable {ι τ : Type*} [DecidableEq ι] {uses : List (ι × τ)}

/-- A use of a key: its earlier one goes, the new one is last. -/
def touch (uses : List (ι × τ)) (use : ι × τ) : List (ι × τ) :=
  uses.filter (·.1 ≠ use.1) ++ [use]

/-- The last use of each key, in order. -/
def lastUses : List (ι × τ) → List (ι × τ)
  | [] => []
  | use :: uses =>
    if use.1 ∈ uses.map Prod.fst then lastUses uses else use :: lastUses uses

theorem lastUses_sublist (uses : List (ι × τ)) : (lastUses uses).Sublist uses := by
  induction uses with
  | nil => exact .slnil
  | cons use uses ih =>
    unfold lastUses
    split_ifs with hagain
    · exact ih.cons _
    · exact ih.cons_cons _

/-- The keys of the last uses are those of the uses, each at its last occurrence. -/
theorem map_fst_lastUses (uses : List (ι × τ)) :
    (lastUses uses).map Prod.fst = (uses.map Prod.fst).dedup := by
  induction uses with
  | nil => rfl
  | cons use uses ih =>
    unfold lastUses
    split_ifs with hagain
    · rw [List.map_cons, List.dedup_cons_of_mem hagain, ih]
    · rw [List.map_cons, List.map_cons, List.dedup_cons_of_notMem hagain, ih]

theorem nodup_lastUses (uses : List (ι × τ)) : ((lastUses uses).map Prod.fst).Nodup := by
  rw [map_fst_lastUses]
  exact List.nodup_dedup _

theorem length_lastUses (uses : List (ι × τ)) :
    (lastUses uses).length = (uses.map Prod.fst).dedup.length := by
  rw [← map_fst_lastUses, List.length_map]

/-- One more use touches the last uses. -/
theorem lastUses_concat (uses : List (ι × τ)) (use : ι × τ) :
    lastUses (uses ++ [use]) = touch (lastUses uses) use := by
  induction uses with
  | nil => rfl
  | cons first uses ih =>
    rw [List.cons_append, lastUses, lastUses, ih]
    by_cases hkey : first.1 = use.1
    · -- the first use is the one that goes
      have hagain : first.1 ∈ (uses ++ [use]).map Prod.fst := by
        simp [hkey]
      rw [if_pos hagain]
      split_ifs
      · rfl
      · show touch (lastUses uses) use = (first :: lastUses uses).filter (·.1 ≠ use.1) ++ [use]
        rw [List.filter_cons_of_neg (by simpa using hkey)]
        rfl
    · have hiff : first.1 ∈ (uses ++ [use]).map Prod.fst ↔ first.1 ∈ uses.map Prod.fst := by
        simp [hkey]
      simp only [hiff]
      split_ifs
      · rfl
      · show first :: touch (lastUses uses) use =
          (first :: lastUses uses).filter (·.1 ≠ use.1) ++ [use]
        rw [List.filter_cons_of_pos (by simpa using hkey)]
        rfl

/-- What stands behind a last use is the last uses of what followed it. -/
theorem lastUses_split_iff {use : ι × τ} {later : List (ι × τ)} :
    (∃ earlier, lastUses uses = earlier ++ use :: later) ↔
      ∃ before after, uses = before ++ use :: after ∧ use.1 ∉ after.map Prod.fst ∧
        later = lastUses after := by
  induction uses with
  | nil =>
    constructor
    · rintro ⟨earlier, h⟩
      cases earlier <;> cases h
    · rintro ⟨before, after, h, -⟩
      cases before <;> cases h
  | cons first uses ih =>
    constructor
    · rintro ⟨earlier, h⟩
      rw [lastUses] at h
      split_ifs at h with hagain
      · obtain ⟨before, after, rfl, hnot, hlater⟩ := ih.mp ⟨earlier, h⟩
        exact ⟨first :: before, after, rfl, hnot, hlater⟩
      · cases earlier with
        | nil =>
          obtain ⟨rfl, rfl⟩ := List.cons_eq_cons.mp h
          exact ⟨[], uses, rfl, hagain, rfl⟩
        | cons other earlier =>
          obtain ⟨before, after, rfl, hnot, hlater⟩ := ih.mp ⟨earlier, (List.cons_eq_cons.mp h).2⟩
          exact ⟨first :: before, after, rfl, hnot, hlater⟩
    · rintro ⟨before, after, h, hnot, rfl⟩
      rw [lastUses]
      cases before with
      | nil =>
        obtain ⟨rfl, rfl⟩ := List.cons_eq_cons.mp h
        rw [if_neg hnot]
        exact ⟨[], rfl⟩
      | cons other before =>
        obtain ⟨earlier, hearlier⟩ := ih.mpr ⟨before, after, (List.cons_eq_cons.mp h).2, hnot, rfl⟩
        split_ifs
        · exact ⟨earlier, hearlier⟩
        · exact ⟨first :: earlier, by rw [hearlier]; rfl⟩

/-! ## Touching -/

theorem touch_of_notMem {use : ι × τ} (h : use.1 ∉ uses.map Prod.fst) :
    touch uses use = uses ++ [use] := by
  unfold touch
  rw [List.filter_eq_self.mpr]
  intro other hother
  simp only [decide_not, Bool.not_eq_eq_eq_not, Bool.not_true, decide_eq_false_iff_not]
  intro hkey
  exact h (List.mem_map.mpr ⟨other, hother, hkey⟩)

theorem touch_append (earlier later : List (ι × τ)) (use : ι × τ) :
    touch (earlier ++ later) use = earlier.filter (·.1 ≠ use.1) ++ touch later use := by
  unfold touch
  rw [List.filter_append, List.append_assoc]

/-- A key used again keeps the number of keys. -/
theorem length_touch_of_mem (hkeys : (uses.map Prod.fst).Nodup) {use : ι × τ}
    (h : use.1 ∈ uses.map Prod.fst) : (touch uses use).length = uses.length := by
  obtain ⟨last, hlast, hkey⟩ := List.mem_map.mp h
  obtain ⟨earlier, later, rfl⟩ := List.append_of_mem hlast
  rw [List.map_append, List.map_cons, List.nodup_middle, List.nodup_cons, ← List.map_append,
    hkey] at hkeys
  have hearlier : use.1 ∉ earlier.map Prod.fst := fun hmem =>
    hkeys.1 (List.map_append ▸ List.mem_append_left _ hmem)
  have hlater : use.1 ∉ later.map Prod.fst := fun hmem =>
    hkeys.1 (List.map_append ▸ List.mem_append_right _ hmem)
  rw [touch_append, ← List.singleton_append, touch_append, touch_of_notMem hlater]
  have hgone : [last].filter (·.1 ≠ use.1) = [] := by simp [hkey]
  have hstay : earlier.filter (·.1 ≠ use.1) = earlier := by
    have := touch_of_notMem hearlier
    exact List.append_cancel_right this
  rw [hgone, hstay]
  simp only [List.nil_append, List.length_append, List.length_cons]
  omega

end Cvf.Library
