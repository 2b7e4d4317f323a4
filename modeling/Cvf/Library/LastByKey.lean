/-
# Cvf.Library.LastByKey — the last item of each key.

A dictionary filled from a list keeps, for each key, the last item that has it.  Over a list in strictly
ascending order that is the key's greatest item (`find?_reverse_iff_of_ascending`).
-/
import Mathlib

namespace Cvf.Library

variable {α κ ω : Type*} [LinearOrder κ]

/-- The dictionary: later items of a key replace earlier ones. -/
def lastByKey (key : α → κ) (xs : List α) : Finmap fun _ : κ => α :=
  xs.foldl (fun dict x => dict.insert (key x) x) ∅

/-- Its values, keys ascending. -/
def lastValues (key : α → κ) (xs : List α) : List α :=
  ((lastByKey key xs).keys.sort (· ≤ ·)).filterMap fun k => (lastByKey key xs).lookup k

theorem lookup_lastByKey (key : α → κ) (xs : List α) (k : κ) :
    (lastByKey key xs).lookup k = xs.reverse.find? fun x => key x = k := by
  induction xs using List.reverseRecOn with
  | nil => exact Finmap.lookup_empty k
  | append_singleton front last ih =>
    unfold lastByKey at ih ⊢
    rw [List.foldl_append, List.reverse_append, List.reverse_singleton, List.singleton_append]
    rw [List.foldl_cons, List.foldl_nil]
    by_cases hk : key last = k
    · rw [List.find?_cons_of_pos (by simpa using hk), ← hk, Finmap.lookup_insert]
    · have hne : k ≠ key last := fun heq => hk heq.symm
      rw [List.find?_cons_of_neg (by simpa using hk), Finmap.lookup_insert_of_ne _ hne, ih]

/-- An item is among the values if it is the last of its key. -/
theorem mem_lastValues {key : α → κ} {xs : List α} {x : α} :
    x ∈ lastValues key xs ↔ (xs.reverse.find? fun y => key y = key x) = some x := by
  unfold lastValues
  rw [List.mem_filterMap]
  constructor
  · rintro ⟨k, -, hlookup⟩
    rw [lookup_lastByKey] at hlookup
    have hk : key x = k := of_decide_eq_true (List.find?_some (p := fun y => decide (key y = k)) hlookup)
    rw [hk]
    exact hlookup
  · intro hfound
    have hlookup := (lookup_lastByKey key xs (key x)).trans hfound
    refine ⟨key x, ?_, hlookup⟩
    rw [Finset.mem_sort, Finmap.mem_keys]
    exact Finmap.mem_of_lookup_eq_some hlookup

/-- No two values have one key. -/
theorem nodup_lastValues (key : α → κ) (xs : List α) : ((lastValues key xs).map key).Nodup := by
  have hkey : ∀ k x, (lastByKey key xs).lookup k = some x → key x = k := by
    intro k x hlookup
    rw [lookup_lastByKey] at hlookup
    exact of_decide_eq_true (List.find?_some (p := fun y => decide (key y = k)) hlookup)
  unfold lastValues
  rw [List.Nodup, List.pairwise_map, List.pairwise_filterMap]
  have hkeys : ((lastByKey key xs).keys.sort (· ≤ ·)).Nodup := Finset.sort_nodup ..
  refine hkeys.imp ?_
  intro k k' hne x hx x' hx' heq
  rw [hkey k x hx, hkey k' x' hx'] at heq
  exact hne heq

/-- Dropping a prefix that does not hold it leaves the last item with a property the last. -/
theorem find?_reverse_dropWhile {xs : List α} {p q : α → Bool} {x : α}
    (hfound : xs.reverse.find? p = some x) (hkept : ¬ q x = true) :
    (xs.dropWhile q).reverse.find? p = some x := by
  have hsplit : xs.reverse = (xs.dropWhile q).reverse ++ (xs.takeWhile q).reverse := by
    rw [← List.reverse_append, List.takeWhile_append_dropWhile]
  rw [hsplit, List.find?_append] at hfound
  cases hdropped : (xs.dropWhile q).reverse.find? p with
  | some y =>
    rw [hdropped] at hfound
    exact hfound
  | none =>
    -- what is dropped fails `q`
    rw [hdropped, Option.none_or] at hfound
    have hin := List.mem_reverse.mp (List.mem_of_find?_eq_some hfound)
    exact absurd (List.mem_takeWhile_imp hin) hkept

section

variable [LinearOrder ω] {order : α → ω} {xs : List α} {p : α → Bool} {x : α}

/-- In strictly ascending order, the last item with a property is the greatest. -/
theorem greatest_of_find?_reverse (h : xs.Pairwise fun a b => order a < order b)
    (hfound : xs.reverse.find? p = some x) :
    x ∈ xs ∧ p x = true ∧ ∀ y ∈ xs, p y = true → order y ≤ order x := by
  obtain ⟨hp, before, after, hreverse, hbefore⟩ := List.find?_eq_some_iff_append.mp hfound
  have hsplit : xs = after.reverse ++ x :: before.reverse := by
    rw [← List.reverse_reverse xs, hreverse]
    simp
  rw [hsplit] at h ⊢
  refine ⟨List.mem_append_right _ List.mem_cons_self, hp, ?_⟩
  intro y hy hpy
  rcases List.mem_append.mp hy with hy | hy
  · exact ((List.pairwise_append.mp h).2.2 y hy x List.mem_cons_self).le
  · rcases List.mem_cons.mp hy with rfl | hy
    · exact le_rfl
    · -- behind the last item with the property there is none
      have hnot := hbefore y (List.mem_reverse.mp hy)
      rw [hpy] at hnot
      cases hnot

theorem find?_reverse_iff_of_ascending (h : xs.Pairwise fun a b => order a < order b) :
    xs.reverse.find? p = some x ↔ x ∈ xs ∧ p x = true ∧ ∀ y ∈ xs, p y = true → order y ≤ order x := by
  refine ⟨greatest_of_find?_reverse h, ?_⟩
  rintro ⟨hx, hp, hgreatest⟩
  obtain ⟨y, hfound⟩ : ∃ y, xs.reverse.find? p = some y :=
    Option.isSome_iff_exists.mp (List.find?_isSome.mpr ⟨x, List.mem_reverse.mpr hx, hp⟩)
  obtain ⟨hy, hpy, hbelow⟩ := greatest_of_find?_reverse h hfound
  have hsymm : Std.Symm fun a b => order a ≠ order b := ⟨fun a b hab => hab.symm⟩
  have hdistinct : xs.Pairwise fun a b => order a ≠ order b := h.imp fun hlt => hlt.ne
  have heq : order x = order y := le_antisymm (hbelow x hx hp) (hgreatest y hy hpy)
  have hsame : x = y := by
    by_contra hne
    exact hdistinct.forall hx hy hne heq
  rw [hsame]
  exact hfound

end

end Cvf.Library
