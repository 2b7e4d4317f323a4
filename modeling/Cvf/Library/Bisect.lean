/-
# Cvf.Library.Bisect — positions in a sorted list.

`bisectLeft` and `bisectRight` count the keys below a bound, or at most a bound, from a start index on;
in a sorted list that is the position the bound would be inserted at.  A slice between two such
positions is a filter (`slice_eq_filter`), however the positions are clipped by an outer slice.  The
statements speak of a predicate that holds on an initial part of the list, so that one rule serves
strict and non-strict bounds.
-/
import Mathlib

namespace Cvf.Library

variable {β γ : Type*}

section

variable [LinearOrder γ]

/-- `bisect_left(keys, x, lo)`. -/
def bisectLeft (keys : List γ) (x : γ) (lo : Nat) : Nat :=
  lo + ((keys.drop lo).takeWhile (· < x)).length

/-- `bisect_right(keys, x, lo)`. -/
def bisectRight (keys : List γ) (x : γ) (lo : Nat) : Nat :=
  lo + ((keys.drop lo).takeWhile (· ≤ x)).length

omit [LinearOrder γ] in
theorem takeWhile_map_length (f : β → γ) (p : γ → Bool) (xs : List β) :
    ((xs.map f).takeWhile p).length = (xs.takeWhile fun x => p (f x)).length := by
  induction xs with
  | nil => rfl
  | cons x xs ih =>
    cases hx : p (f x) with
    | true => simp [hx, ih]
    | false => simp [hx]

theorem bisectLeft_map (f : β → γ) (xs : List β) (x : γ) (lo : Nat) :
    bisectLeft (xs.map f) x lo = lo + ((xs.drop lo).takeWhile (f · < x)).length := by
  rw [bisectLeft, ← List.map_drop, takeWhile_map_length]

theorem bisectRight_map (f : β → γ) (xs : List β) (x : γ) (lo : Nat) :
    bisectRight (xs.map f) x lo = lo + ((xs.drop lo).takeWhile (f · ≤ x)).length := by
  rw [bisectRight, ← List.map_drop, takeWhile_map_length]

end

/-- `p` holds on an initial part of the list and nowhere behind it. -/
def Initial (p : β → Bool) (xs : List β) : Prop :=
  xs.Pairwise fun a b => p b = true → p a = true

theorem Initial.sublist {p : β → Bool} {xs ys : List β} (h : Initial p ys)
    (hsub : xs.Sublist ys) : Initial p xs :=
  List.Pairwise.sublist hsub h

/-- Nothing behind an element that fails an initial predicate meets it. -/
theorem Initial.filter_eq_nil {p : β → Bool} {x : β} {xs : List β} (h : Initial p (x :: xs))
    (hx : p x = false) : xs.filter p = [] := by
  apply List.filter_eq_nil_iff.mpr
  intro y hy hpy
  have hpx := (List.pairwise_cons.mp h).1 y hy hpy
  rw [hx] at hpx
  exact absurd hpx Bool.false_ne_true

theorem Initial.takeWhile_eq_filter {p : β → Bool} {xs : List β} (h : Initial p xs) :
    xs.takeWhile p = xs.filter p := by
  induction xs with
  | nil => rfl
  | cons x xs ih =>
    cases hx : p x with
    | true =>
      rw [List.takeWhile_cons_of_pos hx, List.filter_cons_of_pos hx,
        ih (List.pairwise_cons.mp h).2]
    | false =>
      rw [List.takeWhile_cons_of_neg (by simp [hx]), List.filter_cons_of_neg (by simp [hx]),
        h.filter_eq_nil hx]

theorem Initial.drop_takeWhile {p : β → Bool} {xs : List β} (h : Initial p xs) :
    xs.drop (xs.takeWhile p).length = xs.filter (fun x => !p x) := by
  induction xs with
  | nil => rfl
  | cons x xs ih =>
    cases hx : p x with
    | true =>
      rw [List.takeWhile_cons_of_pos hx, List.length_cons, List.drop_succ_cons,
        List.filter_cons_of_neg (by simp [hx]), ih (List.pairwise_cons.mp h).2]
    | false =>
      rw [List.takeWhile_cons_of_neg (by simp [hx]), List.length_nil, List.drop_zero,
        List.filter_eq_self.mpr]
      intro y hy
      rcases List.mem_cons.mp hy with rfl | hy
      · simp [hx]
      · have := List.filter_eq_nil_iff.mp (h.filter_eq_nil hx) y hy
        simpa using this

theorem Initial.dropWhile_eq_filter {p : β → Bool} {xs : List β} (h : Initial p xs) :
    xs.dropWhile p = xs.filter (fun x => !p x) := by
  have hsplit : xs.drop (xs.takeWhile p).length = xs.dropWhile p := by
    have hdrop : (xs.takeWhile p ++ xs.dropWhile p).drop (xs.takeWhile p).length = xs.dropWhile p :=
      List.drop_left
    rwa [List.takeWhile_append_dropWhile] at hdrop
  rw [← hsplit, h.drop_takeWhile]

/-- Skipping an initial part, and then what a second test still passes, ends at the first element
that fails both. -/
theorem Initial.skip_length {p q : β → Bool} {front rest : List β} {x : β}
    (h : Initial p (front ++ x :: rest)) (hpx : p x = false) (hqx : q x = false)
    (hq : ∀ y ∈ front, p y = false → q y = true) :
    ((front ++ x :: rest).takeWhile p).length +
        (((front ++ x :: rest).drop ((front ++ x :: rest).takeWhile p).length).takeWhile q).length =
      front.length := by
  induction front with
  | nil => simp [hpx, hqx]
  | cons y front ih =>
    have hrest := ih (List.pairwise_cons.mp h).2 fun z hz => hq z (List.mem_cons_of_mem _ hz)
    rw [List.cons_append]
    cases hpy : p y with
    | true =>
      rw [List.takeWhile_cons_of_pos hpy, List.length_cons, List.length_cons,
        List.drop_succ_cons]
      omega
    | false =>
      -- the initial part is over, so the second test passes up to the end of the front
      have hfront : ∀ z ∈ y :: front, q z = true := by
        intro z hz
        apply hq z hz
        rcases List.mem_cons.mp hz with rfl | hz
        · exact hpy
        · by_contra hpz
          have := (List.pairwise_cons.mp h).1 z (List.mem_append_left _ hz)
            (Bool.eq_true_of_not_eq_false hpz)
          rw [hpy] at this
          exact absurd this Bool.false_ne_true
      rw [List.takeWhile_cons_of_neg (by simp [hpy]), List.length_nil, List.drop_zero,
        Nat.zero_add, ← List.cons_append, List.takeWhile_append_of_pos hfront,
        List.takeWhile_cons_of_neg (by simp [hqx]), List.append_nil]

/-- Between two bounds, one after the other, lies a filter. -/
theorem Initial.takeWhile_eq_append {p q : β → Bool} {xs : List β} (hp : Initial p xs)
    (hq : Initial q xs) (himp : ∀ x ∈ xs, p x = true → q x = true) :
    xs.takeWhile q = xs.takeWhile p ++ xs.filter fun x => !p x && q x := by
  have hwithin : Initial p (xs.filter q) := hp.sublist List.filter_sublist
  have hfirst : (xs.filter q).filter p = xs.takeWhile p := by
    rw [hp.takeWhile_eq_filter, List.filter_filter]
    apply List.filter_congr
    intro x hx
    cases hpx : p x with
    | true => rw [himp x hx hpx, Bool.and_self]
    | false => rw [Bool.false_and]
  calc xs.takeWhile q
      = xs.filter q := hq.takeWhile_eq_filter
    _ = (xs.filter q).take ((xs.filter q).takeWhile p).length ++
          (xs.filter q).drop ((xs.filter q).takeWhile p).length :=
        (List.take_append_drop _ _).symm
    _ = (xs.filter q).filter p ++ (xs.filter q).filter fun x => !p x := by
        rw [hwithin.drop_takeWhile, ← hwithin.takeWhile_eq_filter,
          ← List.prefix_iff_eq_take.mp (List.takeWhile_prefix p)]
    _ = _ := by rw [hfirst, List.filter_filter]

/-- The slice between two bounds, clipped by another slice, is the filter of that slice. -/
theorem slice_eq_filter {p q : β → Bool} {xs : List β} (hp : Initial p xs) (hq : Initial q xs)
    (i j : Nat) :
    (xs.take (min j (xs.takeWhile q).length)).drop (max i (xs.takeWhile p).length) =
      ((xs.take j).drop i).filter fun x => !p x && q x := by
  induction xs generalizing i j with
  | nil => simp
  | cons x xs ih =>
    have hrest := fun i j => ih (List.pairwise_cons.mp hp).2 (List.pairwise_cons.mp hq).2 i j
    cases j with
    | zero => simp
    | succ j =>
      cases hqx : q x with
      | false =>
        -- nothing from here on is before the end
        have hnone := hq.filter_eq_nil hqx
        have hlength : ((x :: xs).takeWhile q).length = 0 := by simp [hqx]
        rw [hlength, min_zero, List.take_zero, List.drop_nil, eq_comm]
        apply List.filter_eq_nil_iff.mpr
        intro y hy hpass
        have hqy : q y = true := (Bool.and_eq_true _ _ ▸ hpass).2
        have hmem := List.mem_of_mem_take (List.mem_of_mem_drop hy)
        rcases List.mem_cons.mp hmem with rfl | hmem
        · rw [hqx] at hqy
          exact absurd hqy Bool.false_ne_true
        · exact List.filter_eq_nil_iff.mp hnone y hmem hqy
      | true =>
        have hlength : ((x :: xs).takeWhile q).length = (xs.takeWhile q).length + 1 := by
          simp [hqx]
        rw [hlength, Nat.add_min_add_right, List.take_succ_cons, List.take_succ_cons]
        cases hpx : p x with
        | true =>
          have hstart : ((x :: xs).takeWhile p).length = (xs.takeWhile p).length + 1 := by
            simp [hpx]
          rw [hstart]
          cases i with
          | zero =>
            rw [Nat.zero_max, List.drop_succ_cons, List.drop_zero,
              List.filter_cons_of_neg (by simp [hpx])]
            simpa using hrest 0 j
          | succ i =>
            rw [Nat.add_max_add_right, List.drop_succ_cons, List.drop_succ_cons]
            exact hrest i j
        | false =>
          have hstart : ((x :: xs).takeWhile p).length = 0 := by simp [hpx]
          have hnone : (xs.takeWhile p).length = 0 := by
            have htail : Initial p xs := (List.pairwise_cons.mp hp).2
            rw [htail.takeWhile_eq_filter, hp.filter_eq_nil hpx]
            rfl
          rw [hstart, max_zero]
          have hshift := fun i => hrest i j
          simp only [hnone, max_zero] at hshift
          cases i with
          | zero =>
            have hzero := hshift 0
            rw [List.drop_zero, List.drop_zero] at hzero
            rw [List.drop_zero, List.drop_zero, List.filter_cons_of_pos (by simp [hpx, hqx]),
              hzero]
          | succ i =>
            rw [List.drop_succ_cons, List.drop_succ_cons]
            exact hshift i

/-- The slice between two bounds. -/
theorem slice_eq_filter_all {p q : β → Bool} {xs : List β} (hp : Initial p xs)
    (hq : Initial q xs) :
    (xs.take (xs.takeWhile q).length).drop (xs.takeWhile p).length =
      xs.filter fun x => !p x && q x := by
  have hslice := slice_eq_filter hp hq 0 xs.length
  have hlength : (xs.takeWhile q).length ≤ xs.length := (List.takeWhile_sublist q).length_le
  rwa [Nat.zero_max, min_eq_right hlength, List.take_length, List.drop_zero] at hslice

end Cvf.Library
