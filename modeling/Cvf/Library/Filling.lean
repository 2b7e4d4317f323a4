/-
# Cvf.Library.Filling — spending an amount along a list of offers.

An offer is a price and a quantity at it.  An amount is spent on the offers in turn, each up to its
value.  What is bought (`bought`) grows with the amount, per unit by the inverse of the last price
reached (`side_mul_bought_sub_le`), so along prices that only rise the yield of an amount falls, and along
prices that only fall it rises (`side_mul_bought_cross`).

Both directions are one statement, signed by `side`, which is 1 where prices rise and -1 where they fall.
-/
import Mathlib.Algebra.Order.Field.Basic
import Mathlib.Algebra.Order.BigOperators.Group.List
import Mathlib.Tactic.Linarith
import Mathlib.Tactic.Ring
import Mathlib.Tactic.FieldSimp

namespace Cvf.Library

variable {K : Type*} [Field K]

/-- What all offers are worth. -/
def worth (offers : List (K × K)) : K := (offers.map fun offer => offer.1 * offer.2).sum

@[simp]
theorem worth_cons (offer : K × K) (later : List (K × K)) :
    worth (offer :: later) = offer.1 * offer.2 + worth later := by
  simp [worth]

variable [LinearOrder K]

/-- What an amount buys, each offer taken up to its value. -/
def bought : List (K × K) → K → K
  | [], _ => 0
  | offer :: later, amount =>
    min (offer.1 * offer.2) amount / offer.1 + bought later (amount - min (offer.1 * offer.2) amount)

/-- Positive prices and no negative quantity. -/
def Offered (offers : List (K × K)) : Prop := ∀ offer ∈ offers, 0 < offer.1 ∧ 0 ≤ offer.2

theorem Offered.head {offer : K × K} {later : List (K × K)} (h : Offered (offer :: later)) :
    0 < offer.1 ∧ 0 ≤ offer.2 :=
  h offer List.mem_cons_self

theorem Offered.tail {offer : K × K} {later : List (K × K)} (h : Offered (offer :: later)) :
    Offered later :=
  fun other hother => h other (List.mem_cons_of_mem _ hother)

section

variable [IsStrictOrderedRing K]

theorem Offered.value_nonneg {offer : K × K} {later : List (K × K)} (h : Offered (offer :: later)) :
    0 ≤ offer.1 * offer.2 :=
  mul_nonneg h.head.1.le h.head.2

theorem Offered.worth_nonneg {offers : List (K × K)} (h : Offered offers) : 0 ≤ worth offers := by
  apply List.sum_nonneg
  intro value hin
  obtain ⟨offer, hoffer, rfl⟩ := List.mem_map.mp hin
  exact mul_nonneg (h offer hoffer).1.le (h offer hoffer).2

/-- What is left of an amount behind an offer is nothing negative. -/
theorem left_nonneg (offer : K × K) (amount : K) : 0 ≤ amount - min (offer.1 * offer.2) amount :=
  sub_nonneg.mpr (min_le_right _ _)

/-- What is left of an amount within the worth is within the worth of the later offers. -/
theorem Offered.left_le_worth {offer : K × K} {later : List (K × K)} (h : Offered (offer :: later))
    {amount : K} (hworth : amount ≤ worth (offer :: later)) :
    amount - min (offer.1 * offer.2) amount ≤ worth later := by
  rw [worth_cons] at hworth
  rcases le_total (offer.1 * offer.2) amount with hfull | hpart
  · rw [min_eq_left hfull]
    linarith
  · rw [min_eq_right hpart, sub_self]
    exact h.tail.worth_nonneg

theorem bought_zero {offers : List (K × K)} (h : Offered offers) : bought offers 0 = 0 := by
  induction offers with
  | nil => rfl
  | cons offer later ih =>
    rw [bought, min_eq_right h.value_nonneg, zero_div, sub_zero, ih h.tail, zero_add]

/-- Between two amounts, what is bought grows by at most, or at least, the difference over a price
that no offer undercuts, or exceeds. -/
theorem side_mul_bought_sub_le {side price : K} (hside : side = 1 ∨ side = -1) (hprice : 0 < price)
    {offers : List (K × K)} (h : Offered offers) (hoffers : ∀ offer ∈ offers, side * price ≤ side * offer.1)
    {amount more : K} (hamount : 0 ≤ amount) (hle : amount ≤ more) (hworth : more ≤ worth offers) :
    side * (bought offers more - bought offers amount) ≤ side * ((more - amount) / price) := by
  induction offers generalizing amount more with
  | nil =>
    have hnone : worth ([] : List (K × K)) = 0 := rfl
    have hzero : more - amount = 0 := by linarith
    rw [hzero]
    simp [bought]
  | cons offer later ih =>
    obtain ⟨hpositive, hquantity⟩ := h.head
    have hcut : side * price ≤ side * offer.1 := hoffers offer List.mem_cons_self
    rw [bought, bought]
    set used := min (offer.1 * offer.2) amount with hused
    set usedMore := min (offer.1 * offer.2) more with husedMore
    have hmono : used ≤ usedMore := min_le_min le_rfl hle
    -- past the first offer, the larger amount has more left
    have hleft : amount - used ≤ more - usedMore := by
      rcases le_total (offer.1 * offer.2) amount with hfull | hpart
      · rw [hused, husedMore, min_eq_left hfull, min_eq_left (hfull.trans hle)]
        exact sub_le_sub_right hle _
      · rw [hused, min_eq_right hpart, sub_self]
        exact left_nonneg offer more
    have hrest := ih h.tail (fun other hother => hoffers other (List.mem_cons_of_mem _ hother))
      (left_nonneg offer amount) hleft (h.left_le_worth hworth)
    have hfirst : side * ((usedMore - used) / offer.1) ≤ side * ((usedMore - used) / price) := by
      have hgrown : 0 ≤ usedMore - used := sub_nonneg.mpr hmono
      rcases hside with rfl | rfl
      · have hdear : price ≤ offer.1 := by linarith
        rw [one_mul, one_mul]
        exact div_le_div_of_nonneg_left hgrown hprice hdear
      · have hcheap : offer.1 ≤ price := by linarith
        have hdiv := div_le_div_of_nonneg_left hgrown hpositive hcheap
        linarith
    calc side * (usedMore / offer.1 + bought later (more - usedMore) -
          (used / offer.1 + bought later (amount - used)))
        = side * ((usedMore - used) / offer.1) +
            side * (bought later (more - usedMore) - bought later (amount - used)) := by ring
      _ ≤ side * ((usedMore - used) / price) +
            side * ((more - usedMore - (amount - used)) / price) := add_le_add hfirst hrest
      _ = side * ((more - amount) / price) := by ring

/-- A positive amount within the worth buys something. -/
theorem bought_pos {offers : List (K × K)} (h : Offered offers) {amount : K} (hamount : 0 < amount)
    (hworth : amount ≤ worth offers) : 0 < bought offers amount := by
  induction offers generalizing amount with
  | nil => exact absurd (hamount.trans_le hworth) (lt_irrefl 0)
  | cons offer later ih =>
    obtain ⟨hpositive, -⟩ := h.head
    have hused : 0 ≤ min (offer.1 * offer.2) amount / offer.1 :=
      div_nonneg (le_min h.value_nonneg hamount.le) hpositive.le
    rw [bought]
    rcases (left_nonneg offer amount).lt_or_eq with hleft | hnone
    · exact add_pos_of_nonneg_of_pos hused (ih h.tail hleft (h.left_le_worth hworth))
    · have hall : min (offer.1 * offer.2) amount = amount := (sub_eq_zero.mp hnone.symm).symm
      rw [← hnone, bought_zero h.tail, add_zero, hall]
      exact div_pos hamount hpositive

/-- Along prices that only rise a larger amount buys less for its size, along prices that only fall more. -/
theorem side_mul_bought_cross {side : K} (hside : side = 1 ∨ side = -1) {offers : List (K × K)}
    (h : Offered offers) (hsorted : offers.Pairwise fun earlier later => side * earlier.1 ≤ side * later.1)
    {amount more : K} (hamount : 0 ≤ amount) (hle : amount ≤ more) (hworth : more ≤ worth offers) :
    side * (amount * bought offers more) ≤ side * (more * bought offers amount) := by
  induction offers generalizing amount more with
  | nil => simp [bought]
  | cons offer later ih =>
    obtain ⟨hpositive, hquantity⟩ := h.head
    obtain ⟨hfirst, hlater⟩ := List.pairwise_cons.mp hsorted
    have hprice : offer.1 ≠ 0 := hpositive.ne'
    have hvalue := h.value_nonneg
    have hmore := h.left_le_worth hworth
    rw [bought, bought]
    rcases le_total more (offer.1 * offer.2) with hpart | hfull
    · -- both amounts stay within the first offer
      rw [min_eq_right hpart, min_eq_right (hle.trans hpart), sub_self, sub_self, bought_zero h.tail]
      apply le_of_eq
      ring
    · rw [min_eq_left hfull] at hmore ⊢
      rcases le_total amount (offer.1 * offer.2) with hwithin | hbeyond
      · -- only the larger one reaches the later offers
        have hrest := side_mul_bought_sub_le hside hpositive h.tail hfirst le_rfl
          (sub_nonneg.mpr hfull) hmore
        rw [bought_zero h.tail, sub_zero, sub_zero] at hrest
        rw [min_eq_right hwithin, sub_self, bought_zero h.tail, add_zero]
        have hscaled := mul_le_mul_of_nonneg_left hrest hamount
        calc side * (amount * (offer.1 * offer.2 / offer.1 + bought later (more - offer.1 * offer.2)))
            = side * (amount * (offer.1 * offer.2 / offer.1)) +
                amount * (side * bought later (more - offer.1 * offer.2)) := by ring
          _ ≤ side * (amount * (offer.1 * offer.2 / offer.1)) +
                amount * (side * ((more - offer.1 * offer.2) / offer.1)) := by linarith
          _ = side * (more * (amount / offer.1)) := by ring
      · -- both reach them: the later offers by induction, the first by what the later ones add
        rw [min_eq_left hbeyond]
        have hshift : amount - offer.1 * offer.2 ≤ more - offer.1 * offer.2 := sub_le_sub_right hle _
        have hcross := ih h.tail hlater (sub_nonneg.mpr hbeyond) hshift hmore
        have hgrown := side_mul_bought_sub_le hside hpositive h.tail hfirst (sub_nonneg.mpr hbeyond)
          hshift hmore
        have hscaled := mul_le_mul_of_nonneg_left hgrown hvalue
        generalize bought later (more - offer.1 * offer.2) = gainedMore at hcross hscaled ⊢
        generalize bought later (amount - offer.1 * offer.2) = gained at hcross hscaled ⊢
        have hquotient : offer.1 * offer.2 / offer.1 = offer.2 := mul_div_cancel_left₀ _ hprice
        have hslope : offer.1 * offer.2 *
            (side * ((more - offer.1 * offer.2 - (amount - offer.1 * offer.2)) / offer.1)) =
              side * ((more - amount) * offer.2) := by
          field_simp
          ring
        rw [hslope] at hscaled
        rw [hquotient]
        calc side * (amount * (offer.2 + gainedMore))
            = side * ((amount - offer.1 * offer.2) * gainedMore) +
                offer.1 * offer.2 * (side * (gainedMore - gained)) +
                side * (amount * offer.2) + side * (offer.1 * offer.2 * gained) := by ring
          _ ≤ side * ((more - offer.1 * offer.2) * gained) + side * ((more - amount) * offer.2) +
                side * (amount * offer.2) + side * (offer.1 * offer.2 * gained) := by linarith
          _ = side * (more * (offer.2 + gained)) := by ring

end

end Cvf.Library
