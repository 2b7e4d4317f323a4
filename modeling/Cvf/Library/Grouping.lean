/-
# Cvf.Library.Grouping — a list split by key, groups in order of first appearance.

The effect of appending every element to the list a dictionary keeps under its key.  The groups hold
the elements of the list, each once; no group is empty, and no key has two.
-/
import Mathlib

namespace Cvf.Library

variable {α κ : Type*} [DecidableEq κ]

/-- Append to the group of a key, or start one at the end. -/
def addToGroup (k : κ) (a : α) : List (κ × List α) → List (κ × List α)
  | [] => [(k, [a])]
  | (k', members) :: groups =>
    if k' = k then (k', members ++ [a]) :: groups else (k', members) :: addToGroup k a groups

def groupByKey (key : α → κ) (xs : List α) : List (κ × List α) :=
  xs.foldl (fun groups a => addToGroup (key a) a groups) []

theorem flatMap_addToGroup_perm (k : κ) (a : α) (groups : List (κ × List α)) :
    ((addToGroup k a groups).flatMap Prod.snd).Perm (groups.flatMap Prod.snd ++ [a]) := by
  induction groups with
  | nil => simp [addToGroup]
  | cons g groups ih =>
      unfold addToGroup
      split_ifs with hk
      · simp only [List.flatMap_cons, List.append_assoc]
        exact List.perm_append_comm.append_left _
      · simp only [List.flatMap_cons, List.append_assoc]
        exact ih.append_left _

theorem mem_addToGroup {k : κ} {a : α} {groups : List (κ × List α)} {g : κ × List α}
    (h : g ∈ addToGroup k a groups) :
    g ∈ groups ∨ (g.1 = k ∧ g.2 ≠ [] ∧ ∀ b ∈ g.2, b = a ∨ ∃ g' ∈ groups, g'.1 = k ∧ b ∈ g'.2) := by
  induction groups with
  | nil =>
      obtain rfl : g = (k, [a]) := by simpa [addToGroup] using h
      exact Or.inr ⟨rfl, by simp, by simp⟩
  | cons g₀ groups ih =>
      unfold addToGroup at h
      split_ifs at h with hk
      · rcases List.mem_cons.mp h with rfl | h
        · right
          refine ⟨hk, by simp, ?_⟩
          intro b hb
          rcases List.mem_append.mp hb with hb | hb
          · exact Or.inr ⟨g₀, List.mem_cons_self, hk, hb⟩
          · exact Or.inl (by simpa using hb)
        · exact Or.inl (List.mem_cons_of_mem _ h)
      · rcases List.mem_cons.mp h with rfl | h
        · exact Or.inl List.mem_cons_self
        · rcases ih h with h | ⟨hkey, hne, hmem⟩
          · exact Or.inl (List.mem_cons_of_mem _ h)
          · refine Or.inr ⟨hkey, hne, ?_⟩
            intro b hb
            rcases hmem b hb with hb | ⟨g', hg', hrest⟩
            · exact Or.inl hb
            · exact Or.inr ⟨g', List.mem_cons_of_mem _ hg', hrest⟩

/-- The groups hold the elements of the list. -/
theorem groupByKey_perm (key : α → κ) (xs : List α) :
    ((groupByKey key xs).flatMap Prod.snd).Perm xs := by
  unfold groupByKey
  have hfold : ∀ groups : List (κ × List α),
      ((xs.foldl (fun groups a => addToGroup (key a) a groups) groups).flatMap Prod.snd).Perm
        (groups.flatMap Prod.snd ++ xs) := by
    induction xs with
    | nil => intro groups; simp
    | cons a xs ih =>
        intro groups
        rw [List.foldl_cons, List.append_cons]
        exact (ih _).trans ((flatMap_addToGroup_perm (key a) a groups).append_right xs)
  simpa using hfold []

/-- No group is empty, and its members have its key. -/
theorem groupByKey_members (key : α → κ) (xs : List α) :
    ∀ g ∈ groupByKey key xs, g.2 ≠ [] ∧ ∀ a ∈ g.2, key a = g.1 := by
  unfold groupByKey
  have hfold : ∀ groups : List (κ × List α),
      (∀ g ∈ groups, g.2 ≠ [] ∧ ∀ a ∈ g.2, key a = g.1) →
      ∀ g ∈ xs.foldl (fun groups a => addToGroup (key a) a groups) groups,
        g.2 ≠ [] ∧ ∀ a ∈ g.2, key a = g.1 := by
    induction xs with
    | nil => exact fun groups h => h
    | cons a xs ih =>
        intro groups h
        apply ih
        intro g hg
        rcases mem_addToGroup hg with hg | ⟨hkey, hne, hmem⟩
        · exact h g hg
        · refine ⟨hne, ?_⟩
          intro b hb
          rcases hmem b hb with rfl | ⟨g', hg', hkey', hb⟩
          · exact hkey.symm
          · rw [(h g' hg').2 b hb, hkey', hkey]
  exact hfold [] (by simp)

/-- What the groups of a list are, one element after the other. -/
structure GroupsOf (key : α → κ) (xs : List α) (groups : List (κ × List α)) : Prop where
  nodup : (groups.map Prod.fst).Nodup
  group : ∀ g ∈ groups, g.2 = xs.filter (key · = g.1)
  mem_iff : ∀ k, k ∈ groups.map Prod.fst ↔ ∃ a ∈ xs, key a = k

theorem addToGroup_keys (k : κ) (a : α) (groups : List (κ × List α)) :
    (addToGroup k a groups).map Prod.fst =
      if k ∈ groups.map Prod.fst then groups.map Prod.fst else groups.map Prod.fst ++ [k] := by
  induction groups with
  | nil => rfl
  | cons g groups ih =>
      unfold addToGroup
      by_cases hk : g.1 = k
      · simp [hk]
      · have hne : k ≠ g.1 := fun h => hk h.symm
        rw [if_neg hk, List.map_cons, ih]
        by_cases hmem : k ∈ groups.map Prod.fst
        · rw [if_pos hmem, if_pos (by simp [hmem])]
          rfl
        · rw [if_neg hmem, if_neg (by simpa [hne] using hmem)]
          rfl

/-- A group after an element was added: the one that took it, or one of another key. -/
theorem addToGroup_group {k : κ} {a : α} {groups : List (κ × List α)}
    (hnodup : (groups.map Prod.fst).Nodup) {g : κ × List α} (hg : g ∈ addToGroup k a groups) :
    (g.1 ≠ k ∧ g ∈ groups) ∨
      (g.1 = k ∧ ((k ∉ groups.map Prod.fst ∧ g.2 = [a]) ∨
        ∃ g' ∈ groups, g'.1 = k ∧ g.2 = g'.2 ++ [a])) := by
  induction groups with
  | nil =>
      obtain rfl : g = (k, [a]) := by simpa [addToGroup] using hg
      exact Or.inr ⟨rfl, Or.inl ⟨by simp, rfl⟩⟩
  | cons g₀ groups ih =>
      obtain ⟨hnew, hrest⟩ := List.nodup_cons.mp hnodup
      unfold addToGroup at hg
      split_ifs at hg with hk
      · rcases List.mem_cons.mp hg with rfl | hg
        · exact Or.inr ⟨hk, Or.inr ⟨g₀, List.mem_cons_self, hk, rfl⟩⟩
        · refine Or.inl ⟨?_, List.mem_cons_of_mem _ hg⟩
          rintro rfl
          rw [hk] at hnew
          exact hnew (List.mem_map_of_mem hg)
      · rcases List.mem_cons.mp hg with rfl | hg
        · exact Or.inl ⟨hk, List.mem_cons_self⟩
        · rcases ih hrest hg with ⟨hne, hmem⟩ | ⟨hkey, hgroup⟩
          · exact Or.inl ⟨hne, List.mem_cons_of_mem _ hmem⟩
          · refine Or.inr ⟨hkey, ?_⟩
            rcases hgroup with ⟨hnot, hsingle⟩ | ⟨g', hg', hrest⟩
            · refine Or.inl ⟨?_, hsingle⟩
              rw [List.map_cons, List.mem_cons, not_or]
              exact ⟨fun h => hk h.symm, hnot⟩
            · exact Or.inr ⟨g', List.mem_cons_of_mem _ hg', hrest⟩

theorem GroupsOf.snoc {key : α → κ} {xs : List α} {groups : List (κ × List α)}
    (h : GroupsOf key xs groups) (a : α) :
    GroupsOf key (xs ++ [a]) (addToGroup (key a) a groups) where
  nodup := by
    rw [addToGroup_keys]
    split_ifs with hmem
    · exact h.nodup
    · exact List.nodup_append.mpr ⟨h.nodup, by simp, by
        intro k hk k' hk' heq
        rw [heq, List.mem_singleton.mp hk'] at hk
        exact hmem hk⟩
  group := by
    intro g hg
    rw [List.filter_append]
    rcases addToGroup_group h.nodup hg with ⟨hne, hmem⟩ | ⟨hkey, hgroup⟩
    · rw [h.group g hmem, List.filter_cons_of_neg (by simpa using hne.symm)]
      simp
    · rw [List.filter_cons_of_pos (by simpa using hkey.symm)]
      rcases hgroup with ⟨hnot, hsingle⟩ | ⟨g', hg', hkey', hmembers⟩
      · have hnone : xs.filter (key · = g.1) = [] := by
          apply List.filter_eq_nil_iff.mpr
          intro b hb hkb
          apply hnot
          rw [h.mem_iff, ← hkey]
          exact ⟨b, hb, by simpa using hkb⟩
        rw [hnone, hsingle]
        rfl
      · rw [hmembers, h.group g' hg', hkey', hkey]
        rfl
  mem_iff := by
    intro k
    have hmem : k ∈ (addToGroup (key a) a groups).map Prod.fst ↔
        k ∈ groups.map Prod.fst ∨ k = key a := by
      rw [addToGroup_keys]
      split_ifs with hin
      · exact ⟨Or.inl, fun hk => hk.elim id fun hk => hk ▸ hin⟩
      · rw [List.mem_append, List.mem_singleton]
    rw [hmem, h.mem_iff]
    constructor
    · rintro (⟨b, hb, rfl⟩ | rfl)
      · exact ⟨b, List.mem_append_left _ hb, rfl⟩
      · exact ⟨a, by simp, rfl⟩
    · rintro ⟨b, hb, rfl⟩
      rcases List.mem_append.mp hb with hb | hb
      · exact Or.inl ⟨b, hb, rfl⟩
      · exact Or.inr (by rw [List.mem_singleton.mp hb])

/-- Every group is the part of the list with its key, and every key has exactly one. -/
theorem groupsOf_groupByKey (key : α → κ) (xs : List α) : GroupsOf key xs (groupByKey key xs) := by
  unfold groupByKey
  induction xs using List.reverseRecOn with
  | nil => exact ⟨by simp, by simp, by simp⟩
  | append_singleton xs a ih =>
      rw [List.foldl_append]
      exact ih.snoc a

end Cvf.Library
