/-
# Cvf.Library.Newest — bounded retention of keyed items.

A sorted list is kept above a cutoff and within a cap, both counted from its newest end.  What was cut
away never comes back: inserting into what is left and cutting again gives what cutting the whole would
have given (`newest_insertByKey`, `newest_above`).  Insertions of different keys commute, so a retained
list depends on what was inserted and not on the order.
-/
import Mathlib

namespace Cvf.Library

variable {α κ : Type*} [LinearOrder κ]

/-- The last `cap` items. -/
def newest (cap : Nat) (xs : List α) : List α := xs.drop (xs.length - cap)

/-- The items of a key above the cutoff. -/
def above (key : α → κ) (cutoff : κ) (xs : List α) : List α := xs.filter fun x => cutoff < key x

/-- An item enters behind those of its key and before the later ones. -/
def insertByKey (key : α → κ) (xs : List α) (x : α) : List α :=
  (xs.filter fun y => key y ≤ key x) ++ x :: xs.filter fun y => key x < key y

/-- In order of their keys. -/
def Ascending (key : α → κ) (xs : List α) : Prop := xs.Pairwise fun a b => key a ≤ key b

variable {key : α → κ} {xs ys : List α}

/-! ## Suffixes -/

theorem newest_suffix (cap : Nat) (xs : List α) : newest cap xs <:+ xs := List.drop_suffix _ _

theorem length_newest (cap : Nat) (xs : List α) : (newest cap xs).length = min cap xs.length := by
  rw [newest, List.length_drop]
  omega

theorem newest_of_length_le {cap : Nat} (h : xs.length ≤ cap) : newest cap xs = xs := by
  rw [newest, Nat.sub_eq_zero_of_le h, List.drop_zero]

/-- Two suffixes of one list of the same length are the same. -/
theorem eq_of_suffix {zs : List α} (hx : xs <:+ zs) (hy : ys <:+ zs)
    (hlength : xs.length = ys.length) : xs = ys := by
  rw [List.suffix_iff_eq_drop.mp hx, List.suffix_iff_eq_drop.mp hy, hlength]

/-- The newest items of a list are those of any long enough end of it. -/
theorem newest_append {cap : Nat} (h : cap ≤ ys.length) : newest cap (xs ++ ys) = newest cap ys := by
  apply eq_of_suffix (newest_suffix cap _) ((newest_suffix cap ys).trans (List.suffix_append xs ys))
  rw [length_newest, length_newest, List.length_append]
  omega

/-- A short enough end of a list is among its newest items. -/
theorem mem_newest_append {cap : Nat} (h : ys.length ≤ cap) {y : α} (hy : y ∈ ys) :
    y ∈ newest cap (xs ++ ys) := by
  have hcut : (xs ++ ys).length - cap ≤ xs.length := by
    rw [List.length_append]
    omega
  rw [newest, List.drop_append_of_le_length hcut]
  exact List.mem_append_right _ hy

/-- The last item is one of the newest. -/
theorem newest_concat {cap : Nat} (h : 1 ≤ cap) (xs : List α) (x : α) :
    newest cap (xs ++ [x]) = newest (cap - 1) xs ++ [x] := by
  unfold newest
  rw [List.length_append, List.length_singleton,
    show xs.length + 1 - cap = xs.length - (cap - 1) by omega,
    List.drop_append_of_le_length (Nat.sub_le _ _)]

/-! ## Sorted lists -/

theorem Ascending.suffix (h : Ascending key ys) (hsuffix : xs <:+ ys) : Ascending key xs :=
  List.Pairwise.sublist hsuffix.sublist h

/-- What lies above a cutoff is an end of a sorted list. -/
theorem above_suffix (h : Ascending key xs) (cutoff : κ) : above key cutoff xs <:+ xs := by
  induction xs with
  | nil => exact List.suffix_refl _
  | cons x xs ih =>
    obtain ⟨hx, hxs⟩ := List.pairwise_cons.mp h
    by_cases hcut : cutoff < key x
    · have hall : above key cutoff (x :: xs) = x :: xs := by
        apply List.filter_eq_self.mpr
        intro y hy
        rcases List.mem_cons.mp hy with rfl | hy
        · exact decide_eq_true hcut
        · exact decide_eq_true (hcut.trans_le (hx y hy))
      rw [hall]
    · have hnot : above key cutoff (x :: xs) = above key cutoff xs :=
        List.filter_cons_of_neg (by simpa using hcut)
      rw [hnot]
      exact (ih hxs).trans (List.suffix_cons x xs)

/-- Cutting at a later cutoff cuts what an earlier one left. -/
theorem above_above {earlier later : κ} (h : earlier ≤ later) (xs : List α) :
    above key later (above key earlier xs) = above key later xs := by
  unfold above
  rw [List.filter_filter]
  apply List.filter_congr
  intro x _
  by_cases hlater : later < key x
  · simp [hlater, h.trans_lt hlater]
  · simp [hlater]

/-- The cap and the cutoff may be applied in either order. -/
theorem newest_above (h : Ascending key xs) (cap : Nat) (cutoff : κ) :
    above key cutoff (newest cap xs) = newest cap (above key cutoff xs) := by
  have hends := (newest_suffix cap xs)
  have hleft := above_suffix (h.suffix hends) cutoff
  have hright := newest_suffix cap (above key cutoff xs)
  apply eq_of_suffix (hleft.trans hends) (hright.trans (above_suffix h cutoff))
  -- of two ends of one list the shorter is counted
  rcases List.suffix_or_suffix_of_suffix hends (above_suffix h cutoff) with hshort | hshort
  · have hall : above key cutoff (newest cap xs) = newest cap xs := by
      apply List.filter_eq_self.mpr
      intro x hx
      exact (List.mem_filter.mp (hshort.subset hx)).2
    rw [hall, length_newest, length_newest]
    have := hshort.length_le
    rw [length_newest] at this
    have := (above_suffix h cutoff).length_le
    omega
  · have hall : above key cutoff (newest cap xs) = above key cutoff xs := by
      apply eq_of_suffix (hleft.trans hends) (above_suffix h cutoff)
      have hback := hshort.sublist.filter fun x => decide (cutoff < key x)
      have hself : (above key cutoff xs).filter (fun x => decide (cutoff < key x)) =
          above key cutoff xs := List.filter_eq_self.mpr fun x hx => (List.mem_filter.mp hx).2
      rw [hself] at hback
      exact le_antisymm ((hends.sublist.filter _).length_le) hback.length_le
    rw [hall, length_newest]
    have := hshort.length_le
    rw [length_newest] at this
    omega

/-! ## Insertion -/

theorem ascending_insertByKey (h : Ascending key xs) (x : α) :
    Ascending key (insertByKey key xs x) := by
  refine List.pairwise_append.mpr ⟨h.filter _, List.pairwise_cons.mpr ⟨?_, h.filter _⟩, ?_⟩
  · intro y hy
    exact (of_decide_eq_true (List.mem_filter.mp hy).2 : key x < key y).le
  · intro a ha b hb
    have hax : key a ≤ key x := of_decide_eq_true (List.mem_filter.mp ha).2
    rcases List.mem_cons.mp hb with rfl | hb
    · exact hax
    · exact hax.trans (of_decide_eq_true (List.mem_filter.mp hb).2 : key x < key b).le

theorem insertByKey_perm (key : α → κ) (xs : List α) (x : α) :
    (insertByKey key xs x).Perm (x :: xs) := by
  have hsplit := List.filter_append_perm (fun y => decide (key y ≤ key x)) xs
  have hnot : (xs.filter fun y => !decide (key y ≤ key x)) =
      xs.filter fun y => decide (key x < key y) := by
    apply List.filter_congr
    intro y _
    rw [← decide_not, decide_eq_decide, not_le]
  rw [hnot] at hsplit
  exact List.perm_middle.trans (hsplit.cons x)

/-- An item at or after all others enters last. -/
theorem insertByKey_of_forall_le {x : α} (h : ∀ y ∈ xs, key y ≤ key x) :
    insertByKey key xs x = xs ++ [x] := by
  have hbefore : (xs.filter fun y => key y ≤ key x) = xs :=
    List.filter_eq_self.mpr fun y hy => decide_eq_true (h y hy)
  have hafter : (xs.filter fun y => key x < key y) = [] :=
    List.filter_eq_nil_iff.mpr fun y hy hlt => absurd (of_decide_eq_true hlt) (not_lt.mpr (h y hy))
  rw [insertByKey, hbefore, hafter]

/-- An item before all others enters first. -/
theorem insertByKey_of_forall_lt {x : α} (h : ∀ y ∈ xs, key x < key y) :
    insertByKey key xs x = x :: xs := by
  have hbefore : (xs.filter fun y => key y ≤ key x) = [] :=
    List.filter_eq_nil_iff.mpr fun y hy hle => absurd (of_decide_eq_true hle) (not_le.mpr (h y hy))
  have hafter : (xs.filter fun y => key x < key y) = xs :=
    List.filter_eq_self.mpr fun y hy => decide_eq_true (h y hy)
  rw [insertByKey, hbefore, hafter, List.nil_append]

/-- Insertions of different keys commute. -/
theorem insertByKey_comm {x y : α} (h : key x ≠ key y) (xs : List α) :
    insertByKey key (insertByKey key xs x) y = insertByKey key (insertByKey key xs y) x := by
  wlog hlt : key x < key y
  · exact (this h.symm xs (lt_of_le_of_ne (not_lt.mp hlt) h.symm)).symm
  have hnot : ¬ key y ≤ key x := not_le.mpr hlt
  have hself : ¬ key y < key x := hlt.le.not_gt
  unfold insertByKey
  simp only [List.filter_append, List.filter_cons, List.filter_filter, hlt, hlt.le, hnot, hself,
    decide_true, decide_false, if_true, Bool.false_eq_true, if_false]
  -- the stretches of the list around the two keys
  have hlow : ∀ z, (decide (key z ≤ key y) && decide (key z ≤ key x)) = decide (key z ≤ key x) := by
    intro z
    by_cases hz : key z ≤ key x
    · simp [hz, hz.trans hlt.le]
    · simp [hz]
  have hnone : ∀ z, (decide (key y < key z) && decide (key z ≤ key x)) = false := by
    intro z
    by_cases hz : key z ≤ key x
    · simp [hz, hz.trans hlt.le]
    · simp [hz]
  have hswap : ∀ z, (decide (key z ≤ key x) && decide (key z ≤ key y)) = decide (key z ≤ key x) :=
    fun z => (Bool.and_comm _ _).trans (hlow z)
  have hnone' : ∀ z, (decide (key z ≤ key x) && decide (key y < key z)) = false :=
    fun z => (Bool.and_comm _ _).trans (hnone z)
  have hmiddle : ∀ z, (decide (key z ≤ key y) && decide (key x < key z)) =
      (decide (key x < key z) && decide (key z ≤ key y)) := fun z => Bool.and_comm _ _
  have hhigh : ∀ z, (decide (key y < key z) && decide (key x < key z)) =
      (decide (key x < key z) && decide (key y < key z)) := fun z => Bool.and_comm _ _
  simp only [hlow, hswap, hnone, hnone', hmiddle, hhigh, List.filter_false, List.nil_append,
    List.append_nil, List.append_assoc, List.cons_append]

/-- Inserted in any order, items of different keys make one list. -/
theorem foldl_insertByKey_perm {first second : List α} (hperm : first.Perm second)
    (hkeys : (first.map key).Nodup) (xs : List α) :
    first.foldl (insertByKey key) xs = second.foldl (insertByKey key) xs := by
  apply hperm.foldl_eq'
  intro x hx y hy zs
  by_cases hkey : key x = key y
  · rw [List.inj_on_of_nodup_map hkeys hx hy hkey]
  · exact insertByKey_comm hkey zs

/-! ## Retention -/

/-- An item above the cutoff enters among those above it. -/
theorem above_insertByKey {cutoff : κ} {x : α} (hx : cutoff < key x) (xs : List α) :
    above key cutoff (insertByKey key xs x) = insertByKey key (above key cutoff xs) x := by
  unfold above insertByKey
  rw [List.filter_append, List.filter_cons_of_pos (by simpa using hx)]
  congr 1
  · exact List.filter_comm ..
  · exact congrArg (x :: ·) (List.filter_comm ..)

/-- What the cap has cut away stays out after an insertion. -/
theorem newest_insertByKey (h : Ascending key xs) (cap : Nat) (x : α) :
    newest cap (insertByKey key (newest cap xs) x) = newest cap (insertByKey key xs x) := by
  obtain ⟨front, hfront⟩ := newest_suffix cap xs
  rcases le_or_gt xs.length cap with hle | hfull
  · rw [newest_of_length_le hle]
  have hlength : (newest cap xs).length = cap := by
    rw [length_newest]
    omega
  generalize newest cap xs = kept at hfront hlength
  subst hfront
  obtain ⟨hfrontSorted, hkeptSorted, hacross⟩ := List.pairwise_append.mp h
  by_cases hbehind : ∀ y ∈ front, key y ≤ key x
  · -- the item enters behind everything cut away
    have hsplit : insertByKey key (front ++ kept) x = front ++ insertByKey key kept x := by
      have hbefore : (front.filter fun y => key y ≤ key x) = front :=
        List.filter_eq_self.mpr fun y hy => decide_eq_true (hbehind y hy)
      have hafter : (front.filter fun y => key x < key y) = [] :=
        List.filter_eq_nil_iff.mpr fun y hy hlt =>
          absurd (of_decide_eq_true hlt) (not_lt.mpr (hbehind y hy))
      unfold insertByKey
      rw [List.filter_append, List.filter_append, hbefore, hafter, List.nil_append,
        List.append_assoc]
    rw [hsplit, newest_append]
    rw [(insertByKey_perm key kept x).length_eq, List.length_cons]
    omega
  · -- the item is older than all that is kept, and is cut away itself
    simp only [not_forall, not_le] at hbehind
    obtain ⟨y, hy, hlt⟩ := hbehind
    have hkept : ∀ z ∈ kept, key x < key z := fun z hz => hlt.trans_le (hacross y hy z hz)
    have hself : (kept.filter fun z => key x < key z) = kept :=
      List.filter_eq_self.mpr fun z hz => decide_eq_true (hkept z hz)
    have hnone : (kept.filter fun z => key z ≤ key x) = [] :=
      List.filter_eq_nil_iff.mpr fun z hz hle =>
        absurd (of_decide_eq_true hle) (not_le.mpr (hkept z hz))
    have hwhole : insertByKey key (front ++ kept) x =
        (front.filter fun z => key z ≤ key x) ++ x :: (front.filter fun z => key x < key z) ++
          kept := by
      unfold insertByKey
      rw [List.filter_append, List.filter_append, hself, hnone, List.append_nil,
        List.append_assoc, List.cons_append]
    rw [insertByKey_of_forall_lt hkept, hwhole, newest_append hlength.ge,
      show x :: kept = [x] ++ kept from rfl, newest_append hlength.ge]

/-- The retention rule: one insertion into what is retained under a cutoff, cut again under a later
one, retains what the same insertion into everything would. -/
theorem retain_insertByKey (h : Ascending key xs) {earlier later : κ} (hle : earlier ≤ later)
    {x : α} (hx : later < key x) (cap : Nat) :
    newest cap (above key later (insertByKey key (newest cap (above key earlier xs)) x)) =
      newest cap (above key later (insertByKey key xs x)) := by
  have hearlier := h.suffix (above_suffix h earlier)
  have hlater := h.suffix (above_suffix h later)
  rw [above_insertByKey hx, above_insertByKey hx, newest_above hearlier, above_above hle,
    newest_insertByKey hlater]

end Cvf.Library
