/-
# Cvf.Library.SortByKey — lists sorted by a key.

`sortByKey key xs` is the list in ascending order of its keys.  When the keys differ there is only one
such list (`eq_sortByKey`), so sorting forgets how the list was arranged (`sortByKey_perm_eq`).

The last section compares composite keys: a lexicographic comparison of columns that were encoded each
by an order embedding, with more columns behind, implies the comparison of the columns themselves.
-/
import Mathlib

namespace Cvf.Library

variable {α β κ : Type*} [LinearOrder κ]

def sortByKey (key : α → κ) (xs : List α) : List α :=
  xs.insertionSort fun a b => key a ≤ key b

theorem sortByKey_perm (key : α → κ) (xs : List α) : (sortByKey key xs).Perm xs :=
  List.perm_insertionSort _ xs

theorem pairwise_sortByKey (key : α → κ) (xs : List α) :
    (sortByKey key xs).Pairwise fun a b => key a ≤ key b := by
  have htotal : Std.Total fun a b : α => key a ≤ key b := ⟨fun a b => le_total (key a) (key b)⟩
  have htrans : IsTrans α fun a b : α => key a ≤ key b := ⟨fun _ _ _ => le_trans⟩
  exact List.pairwise_insertionSort _ xs

/-- The only sorted arrangement of elements with different keys. -/
theorem eq_sortByKey {key : α → κ} {xs ys : List α} (hperm : ys.Perm xs)
    (hsorted : ys.Pairwise fun a b => key a ≤ key b)
    (hkey : ∀ a ∈ xs, ∀ b ∈ xs, key a = key b → a = b) : ys = sortByKey key xs := by
  have hall : ys.Perm (sortByKey key xs) := hperm.trans (sortByKey_perm key xs).symm
  apply List.Perm.eq_of_pairwise _ hsorted (pairwise_sortByKey key xs) hall
  intro a b ha hb hab hba
  have hbx : b ∈ xs := (sortByKey_perm key xs).mem_iff.mp hb
  exact hkey a (hperm.mem_iff.mp ha) b hbx (le_antisymm hab hba)

theorem sortByKey_perm_eq {key : α → κ} {xs ys : List α} (hperm : ys.Perm xs)
    (hkey : ∀ a ∈ xs, ∀ b ∈ xs, key a = key b → a = b) :
    sortByKey key ys = sortByKey key xs :=
  eq_sortByKey ((sortByKey_perm key ys).trans hperm) (pairwise_sortByKey key ys) hkey

/-- Different keys come out strictly ascending. -/
theorem pairwise_lt_sortByKey {key : α → κ} {xs : List α} (hkey : xs.Pairwise fun a b => key a ≠ key b) :
    (sortByKey key xs).Pairwise fun a b => key a < key b := by
  have hdistinct : (sortByKey key xs).Pairwise fun a b => key a ≠ key b :=
    ((sortByKey_perm key xs).pairwise_iff fun hab => hab.symm).mpr hkey
  exact (pairwise_sortByKey key xs).imp₂ (fun _ _ hle hne => lt_of_le_of_ne hle hne) hdistinct

/-- The sort is stable: items of one key stay in the order they came in. -/
theorem filter_sortByKey {key : α → κ} {p : α → Bool} {k : κ} {xs : List α}
    (h : ∀ x ∈ xs, p x = true → key x = k) : (sortByKey key xs).filter p = xs.filter p := by
  have hsame : (xs.filter p).Pairwise fun a b => key a ≤ key b := by
    apply List.pairwise_of_forall_mem_list
    intro a ha b hb
    obtain ⟨ha, hpa⟩ := List.mem_filter.mp ha
    obtain ⟨hb, hpb⟩ := List.mem_filter.mp hb
    exact ((h a ha hpa).trans (h b hb hpb).symm).le
  have hkept : ((xs.filter p).filter p).Sublist ((sortByKey key xs).filter p) :=
    (List.sublist_insertionSort hsame List.filter_sublist).filter p
  simp only [List.filter_filter, Bool.and_self] at hkept
  exact (hkept.eq_of_length ((sortByKey_perm key xs).filter p).length_eq.symm).symm

/-- A list behind a sorted one need only be compared with its last element. -/
theorem pairwise_append_getLast? {key : α → κ} {xs ys : List α} :
    (xs ++ ys).Pairwise (fun a b => key a ≤ key b) ↔
      xs.Pairwise (fun a b => key a ≤ key b) ∧
        (xs.getLast?.toList ++ ys).Pairwise fun a b => key a ≤ key b := by
  induction xs using List.reverseRecOn with
  | nil => exact (and_iff_right List.Pairwise.nil).symm
  | append_singleton front last _ =>
    rw [List.getLast?_concat]
    show (front ++ [last] ++ ys).Pairwise _ ↔ _ ∧ (last :: ys).Pairwise _
    rw [List.pairwise_append, List.pairwise_cons]
    constructor
    · rintro ⟨hfront, hys, hall⟩
      exact ⟨hfront, fun y hy => hall last (by simp) y hy, hys⟩
    · rintro ⟨hfront, hlast, hys⟩
      refine ⟨hfront, hys, ?_⟩
      intro x hx y hy
      rcases List.mem_append.mp hx with hx | hx
      · exact ((List.pairwise_append.mp hfront).2.2 x hx last List.mem_cons_self).trans (hlast y hy)
      · rw [List.mem_singleton.mp hx]
        exact hlast y hy

/-- A rearrangement of the image of a list is the image of a rearrangement. -/
theorem exists_perm_map {f : α → β} {xs : List α} {ys : List β} (h : ys.Perm (xs.map f)) :
    ∃ xs' : List α, xs'.Perm xs ∧ ys = xs'.map f := by
  induction xs generalizing ys with
  | nil => exact ⟨[], List.Perm.refl _, h.eq_nil⟩
  | cons x xs ih =>
      have hmem : f x ∈ ys := h.mem_iff.mpr List.mem_cons_self
      obtain ⟨before, after, rfl⟩ := List.append_of_mem hmem
      have hrest : (before ++ after).Perm (xs.map f) :=
        (List.perm_middle.symm.trans h).cons_inv
      obtain ⟨zs, hzs, heq⟩ := ih hrest
      obtain ⟨us, vs, rfl, rfl, rfl⟩ := List.append_eq_map_iff.mp heq
      exact ⟨us ++ x :: vs, List.perm_middle.trans (hzs.cons x), by simp⟩

/-- In a list sorted by keys nothing stands in front of what is below it, exactly when the keys say so. -/
theorem pairwise_not_below_iff {key : α → κ} {below : α → α → Prop} {xs : List α}
    (hsorted : xs.Pairwise fun a b => key a ≤ key b)
    (hne : ∀ a ∈ xs, ∀ b ∈ xs, below a b → key a ≠ key b) :
    (xs.Pairwise fun a b => ¬ below b a) ↔ ∀ a ∈ xs, ∀ b ∈ xs, below a b → key a < key b := by
  constructor
  · intro horder
    have hself : ∀ a ∈ xs, below a a → key a < key a := fun a ha hbelow =>
      absurd rfl (hne a ha a ha hbelow)
    have hforward : xs.Pairwise fun a b => below a b → key a < key b :=
      hsorted.imp_of_mem fun ha hb hle hbelow => lt_of_le_of_ne hle (hne _ ha _ hb hbelow)
    have hbackward : xs.Pairwise (flip fun a b => below a b → key a < key b) :=
      horder.imp fun hno hbelow => absurd hbelow hno
    intro a ha b hb
    exact List.Pairwise.forall_of_forall_of_flip hself hforward hbackward ha hb
  · intro hkeys
    refine hsorted.imp_of_mem ?_
    intro a b ha hb hle hbelow
    exact not_le.mpr (hkeys b hb a ha hbelow) hle

/-! ## Composite keys -/

section

variable {κ' κ'' : Type*} [LinearOrder κ'] [LinearOrder κ'']

/-- One encoded column in front of the rest of the key. -/
theorem toLex_le_of_encoded {encode : α → κ'} {a b : α} [LinearOrder α]
    (hencode : ∀ {x y : α}, encode x < encode y → x < y) (hinj : ∀ {x y : α}, encode x = encode y → x = y)
    {r s : κ''} {r' s' : κ} (hrest : r ≤ s → r' ≤ s')
    (h : toLex (encode a, r) ≤ toLex (encode b, s)) : toLex (a, r') ≤ toLex (b, s') := by
  rcases Prod.Lex.toLex_le_toLex.mp h with hlt | ⟨heq, hle⟩
  · exact Prod.Lex.toLex_le_toLex.mpr (Or.inl (hencode hlt))
  · exact Prod.Lex.toLex_le_toLex.mpr (Or.inr ⟨hinj heq, hrest hle⟩)

/-- The last encoded column, with a tie-breaker behind it. -/
theorem le_of_encoded {encode : α → κ'} {a b : α} [LinearOrder α]
    (hencode : ∀ {x y : α}, encode x < encode y → x < y) (hinj : ∀ {x y : α}, encode x = encode y → x = y)
    {r s : κ''} (h : toLex (encode a, r) ≤ toLex (encode b, s)) : a ≤ b := by
  rcases Prod.Lex.toLex_le_toLex.mp h with hlt | ⟨heq, -⟩
  · exact (hencode hlt).le
  · exact (hinj heq).le

end

end Cvf.Library
