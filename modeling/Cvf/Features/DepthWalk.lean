/-
# Cvf.Features.DepthWalk — slippage of an order against the levels of a book.

`_depth_walk_bps` spends a notional level by level and compares the average price it pays with the mid
price.  Its loop is the spending of `Cvf.Library.Filling` (`walkLevels_eq`): nothing is left exactly when
the levels are worth the notional, and the average price moves one way along sorted levels.

The numbers are exact: the last conversion, `float`, is left out.
-/
import Cvf.Features.BookInvariant
import Cvf.Library.Filling

namespace Cvf

open Cvf.Library

/-! ## The loop -/

/-- The local variables of the loop. -/
structure DepthWalk where
  remaining : Decimal
  acquired : Decimal
  spent : Decimal
  deriving DecidableEq, Repr

namespace DepthWalk

/-- One level, up to the check for an early end. -/
def takeLevel (walk : DepthWalk) (level : Decimal × Decimal) : DepthWalk :=
  let available := level.1 * level.2
  let used := min available walk.remaining
  if 0 < used then
    { remaining := walk.remaining - used
      acquired := walk.acquired + used / level.1
      spent := walk.spent + used }
  else walk

def walkLevels : List (Decimal × Decimal) → DepthWalk → DepthWalk
  | [], walk => walk
  | level :: later, walk =>
    let next := walk.takeLevel level
    if next.remaining ≤ 0 then next else walkLevels later next

end DepthWalk

/-- `_depth_walk_bps` -/
def depthWalkBps (levels : List (Decimal × Decimal)) (targetNotional midPrice : Decimal) (buy : Bool) :
    Option Decimal :=
  let walk := DepthWalk.walkLevels levels { remaining := targetNotional, acquired := 0, spent := 0 }
  if 0 < walk.remaining ∨ walk.acquired ≤ 0 then none
  else
    let average := walk.spent / walk.acquired
    let relative := average / midPrice - 1
    some ((if buy then relative else -relative) * 10000)

namespace DepthWalk

/-- A level takes its share, which may be nothing. -/
theorem takeLevel_eq (walk : DepthWalk) {level : Decimal × Decimal} (hprice : 0 < level.1)
    (hquantity : 0 ≤ level.2) (hremaining : 0 ≤ walk.remaining) :
    walk.takeLevel level =
      { remaining := walk.remaining - min (level.1 * level.2) walk.remaining
        acquired := walk.acquired + min (level.1 * level.2) walk.remaining / level.1
        spent := walk.spent + min (level.1 * level.2) walk.remaining } := by
  unfold takeLevel
  dsimp only
  split_ifs with hused
  · rfl
  · have hnothing : min (level.1 * level.2) walk.remaining = 0 :=
      le_antisymm (not_lt.mp hused) (le_min (mul_nonneg hprice.le hquantity) hremaining)
    rw [hnothing, sub_zero, zero_div, add_zero, add_zero]

/-- The loop spends what the levels are worth, or all there is, and acquires what that buys. -/
theorem walkLevels_eq {levels : List (Decimal × Decimal)} (h : Offered levels) (walk : DepthWalk)
    (hremaining : 0 ≤ walk.remaining) :
    walkLevels levels walk =
      { remaining := walk.remaining - min (worth levels) walk.remaining
        acquired := walk.acquired + bought levels walk.remaining
        spent := walk.spent + min (worth levels) walk.remaining } := by
  induction levels generalizing walk with
  | nil =>
    have hnothing : min (worth ([] : List (Decimal × Decimal))) walk.remaining = 0 :=
      min_eq_left hremaining
    rw [hnothing, sub_zero, add_zero]
    show walk = { walk with acquired := walk.acquired + 0 }
    rw [add_zero]
  | cons level later ih =>
    obtain ⟨hprice, hquantity⟩ := h.head
    have hvalue := h.value_nonneg
    have hlater := h.tail.worth_nonneg
    have hleft := left_nonneg level walk.remaining
    -- the share of the first level and the later levels' share of what is left
    have hshares : min (worth (level :: later)) walk.remaining =
        min (level.1 * level.2) walk.remaining +
          min (worth later) (walk.remaining - min (level.1 * level.2) walk.remaining) := by
      rw [worth_cons]
      rcases le_total (level.1 * level.2) walk.remaining with hfull | hpart
      · rw [min_eq_left hfull, ← min_add_add_left, add_sub_cancel]
      · rw [min_eq_right hpart, sub_self, min_eq_right hlater, add_zero]
        exact min_eq_right (hpart.trans (le_add_of_nonneg_right hlater))
    rw [walkLevels, walk.takeLevel_eq hprice hquantity hremaining, bought, hshares]
    dsimp only
    split_ifs with hdone
    · have hnone : walk.remaining - min (level.1 * level.2) walk.remaining = 0 := le_antisymm hdone hleft
      rw [hnone, bought_zero h.tail, min_eq_right hlater, add_zero, add_zero]
      congr 1
      exact hnone.symm
    · rw [ih h.tail _ hleft]
      congr 1
      · exact sub_sub _ _ _
      · exact add_assoc _ _ _
      · exact add_assoc _ _ _

end DepthWalk

/-! ## The answer -/

section

variable {levels : List (Decimal × Decimal)} {targetNotional midPrice : Decimal} {buy : Bool}

/-- The average price an amount is spent at. -/
def averagePrice (levels : List (Decimal × Decimal)) (notional : Decimal) : Decimal :=
  notional / bought levels notional

theorem depthWalkBps_eq_none (h : Offered levels) (htarget : 0 < targetNotional)
    (hdeep : worth levels < targetNotional) : depthWalkBps levels targetNotional midPrice buy = none := by
  unfold depthWalkBps
  rw [DepthWalk.walkLevels_eq h _ htarget.le]
  dsimp only
  rw [min_eq_left hdeep.le, if_pos (.inl (sub_pos.mpr hdeep))]

theorem depthWalkBps_eq_some (h : Offered levels) (htarget : 0 < targetNotional)
    (hworth : targetNotional ≤ worth levels) :
    depthWalkBps levels targetNotional midPrice buy =
      some ((if buy then averagePrice levels targetNotional / midPrice - 1
        else -(averagePrice levels targetNotional / midPrice - 1)) * 10000) := by
  have hacquired := bought_pos h htarget hworth
  have hgoes : ¬ (0 < targetNotional - targetNotional ∨ 0 + bought levels targetNotional ≤ 0) := by
    rw [sub_self, zero_add]
    rintro (hmore | hnothing)
    · exact lt_irrefl 0 hmore
    · exact absurd hacquired (not_lt.mpr hnothing)
  unfold depthWalkBps averagePrice
  rw [DepthWalk.walkLevels_eq h _ htarget.le]
  dsimp only
  rw [min_eq_right hworth, if_neg hgoes, zero_add, zero_add]

theorem depthWalkBps_eq_none_iff (h : Offered levels) (htarget : 0 < targetNotional) :
    depthWalkBps levels targetNotional midPrice buy = none ↔ worth levels < targetNotional := by
  constructor
  · intro hnone
    by_contra hworth
    rw [depthWalkBps_eq_some h htarget (not_lt.mp hworth)] at hnone
    cases hnone
  · exact depthWalkBps_eq_none h htarget

/-- The sign of a side: prices rise along the asks and fall along the bids. -/
def sideSign (buy : Bool) : Decimal := if buy then 1 else -1

theorem sideSign_eq (buy : Bool) : sideSign buy = 1 ∨ sideSign buy = -1 := by
  cases buy
  · exact .inr rfl
  · exact .inl rfl

theorem depthWalkBps_some (h : Offered levels) (htarget : 0 < targetNotional) {slippage : Decimal}
    (hslippage : depthWalkBps levels targetNotional midPrice buy = some slippage) :
    targetNotional ≤ worth levels ∧
      slippage = (sideSign buy * (averagePrice levels targetNotional / midPrice) - sideSign buy) * 10000 := by
  have hworth : targetNotional ≤ worth levels := by
    by_contra hdeep
    rw [depthWalkBps_eq_none h htarget (not_le.mp hdeep)] at hslippage
    cases hslippage
  rw [depthWalkBps_eq_some h htarget hworth] at hslippage
  refine ⟨hworth, (Option.some.inj hslippage).symm.trans ?_⟩
  cases buy
  · show -(averagePrice levels targetNotional / midPrice - 1) * 10000 =
      (-1 * (averagePrice levels targetNotional / midPrice) - -1) * 10000
    ring
  · show (averagePrice levels targetNotional / midPrice - 1) * 10000 =
      (1 * (averagePrice levels targetNotional / midPrice) - 1) * 10000
    ring

/-- The average price is no better than the price of the first level. -/
theorem side_mul_le_averagePrice {side price : Decimal} (hside : side = 1 ∨ side = -1) (hprice : 0 < price)
    (h : Offered levels) (hlevels : ∀ level ∈ levels, side * price ≤ side * level.1)
    (htarget : 0 < targetNotional) (hworth : targetNotional ≤ worth levels) :
    side * price ≤ side * averagePrice levels targetNotional := by
  have hacquired := bought_pos h htarget hworth
  have hgrown := side_mul_bought_sub_le hside hprice h hlevels le_rfl htarget.le hworth
  rw [bought_zero h, sub_zero, sub_zero] at hgrown
  have hscaled := mul_le_mul_of_nonneg_left hgrown hprice.le
  have hcancel : price * (side * (targetNotional / price)) = side * targetNotional := by
    field_simp
  rw [hcancel] at hscaled
  unfold averagePrice
  rw [← mul_div_assoc, le_div_iff₀ hacquired]
  calc side * price * bought levels targetNotional
      = price * (side * bought levels targetNotional) := by ring
    _ ≤ side * targetNotional := hscaled

/-- The average price gets no better with a larger notional. -/
theorem side_mul_averagePrice_le {side : Decimal} (hside : side = 1 ∨ side = -1) (h : Offered levels)
    (hsorted : levels.Pairwise fun earlier later => side * earlier.1 ≤ side * later.1)
    {larger : Decimal} (htarget : 0 < targetNotional) (hle : targetNotional ≤ larger)
    (hworth : larger ≤ worth levels) :
    side * averagePrice levels targetNotional ≤ side * averagePrice levels larger := by
  have hacquired := bought_pos h htarget (hle.trans hworth)
  have hmore := bought_pos h (htarget.trans_le hle) hworth
  have hcross := side_mul_bought_cross hside h hsorted htarget.le hle hworth
  unfold averagePrice
  rw [← mul_div_assoc, ← mul_div_assoc, div_le_div_iff₀ hacquired hmore, mul_assoc, mul_assoc]
  exact hcross

/-- Prices that get no better, and a mid price no worse than the first. -/
structure Faces (buy : Bool) (levels : List (Decimal × Decimal)) (midPrice : Decimal) : Prop where
  offered : Offered levels
  sorted : levels.Pairwise fun earlier later => sideSign buy * earlier.1 ≤ sideSign buy * later.1
  mid : ∀ best ∈ levels.head?, sideSign buy * midPrice ≤ sideSign buy * best.1

theorem Faces.mid_le (h : Faces buy levels midPrice) :
    ∀ level ∈ levels, sideSign buy * midPrice ≤ sideSign buy * level.1 := by
  intro level hlevel
  cases levels with
  | nil => cases hlevel
  | cons best later =>
    have hbest := h.mid best rfl
    rcases List.mem_cons.mp hlevel with rfl | hlater
    · exact hbest
    · exact hbest.trans ((List.pairwise_cons.mp h.sorted).1 level hlater)

theorem Faces.slippage_nonneg (h : Faces buy levels midPrice) (hmid : 0 < midPrice)
    (htarget : 0 < targetNotional) {slippage : Decimal}
    (hslippage : depthWalkBps levels targetNotional midPrice buy = some slippage) : 0 ≤ slippage := by
  obtain ⟨hworth, rfl⟩ := depthWalkBps_some h.offered htarget hslippage
  have haverage := side_mul_le_averagePrice (sideSign_eq buy) hmid h.offered h.mid_le htarget hworth
  have hside : sideSign buy ≤ sideSign buy * (averagePrice levels targetNotional / midPrice) := by
    rw [← mul_div_assoc, le_div_iff₀ hmid]
    exact haverage
  exact mul_nonneg (sub_nonneg.mpr hside) (by norm_num)

theorem Faces.slippage_mono (h : Faces buy levels midPrice) (hmid : 0 < midPrice)
    (htarget : 0 < targetNotional) {larger : Decimal} (hle : targetNotional ≤ larger)
    {slippage slippageLarger : Decimal}
    (hslippage : depthWalkBps levels targetNotional midPrice buy = some slippage)
    (hlarger : depthWalkBps levels larger midPrice buy = some slippageLarger) :
    slippage ≤ slippageLarger := by
  obtain ⟨-, rfl⟩ := depthWalkBps_some h.offered htarget hslippage
  obtain ⟨hworth, rfl⟩ := depthWalkBps_some h.offered (htarget.trans_le hle) hlarger
  have haverage := side_mul_averagePrice_le (sideSign_eq buy) h.offered h.sorted htarget hle hworth
  have hrelative := div_le_div_of_nonneg_right haverage hmid.le
  rw [mul_div_assoc, mul_div_assoc] at hrelative
  exact mul_le_mul_of_nonneg_right (sub_le_sub_right hrelative _) (by norm_num)

theorem faces_asks (h : Offered levels) (hsorted : levels.Pairwise fun a b => a.1 ≤ b.1)
    (hmid : ∀ best ∈ levels.head?, midPrice ≤ best.1) : Faces true levels midPrice where
  offered := h
  sorted := hsorted.imp fun hle => mul_le_mul_of_nonneg_left hle zero_le_one
  mid := fun best hbest => mul_le_mul_of_nonneg_left (hmid best hbest) zero_le_one

theorem faces_bids (h : Offered levels) (hsorted : levels.Pairwise fun a b => b.1 ≤ a.1)
    (hmid : ∀ best ∈ levels.head?, best.1 ≤ midPrice) : Faces false levels midPrice where
  offered := h
  sorted := hsorted.imp fun hle => mul_le_mul_of_nonpos_left hle (neg_nonpos.mpr zero_le_one)
  mid := fun best hbest => mul_le_mul_of_nonpos_left (hmid best hbest) (neg_nonpos.mpr zero_le_one)

end

/-- Never negative, and no smaller for a larger target. -/
def SlippageRises (levels : List (Decimal × Decimal)) (midPrice : Decimal) (buy : Bool) : Prop :=
  ∀ target slippage, 0 < target → depthWalkBps levels target midPrice buy = some slippage →
    0 ≤ slippage ∧ ∀ larger slippageLarger, target ≤ larger →
      depthWalkBps levels larger midPrice buy = some slippageLarger → slippage ≤ slippageLarger

theorem Faces.slippageRises {levels : List (Decimal × Decimal)} {midPrice : Decimal} {buy : Bool}
    (h : Faces buy levels midPrice) (hmid : 0 < midPrice) : SlippageRises levels midPrice buy := by
  intro target slippage htarget hslippage
  refine ⟨h.slippage_nonneg hmid htarget hslippage, ?_⟩
  intro larger slippageLarger hle hlarger
  exact h.slippage_mono hmid htarget hle hslippage hlarger

/-- For levels of positive prices and no negative quantity: no slippage is given exactly when the levels
are worth less than the target; along asks from a mid price at most the best, and along bids from a mid
price at least the best, it is never negative and no smaller for a larger target. -/
theorem depth_walk_sound (levels : List (Decimal × Decimal)) (midPrice : Decimal) (hmid : 0 < midPrice)
    (hlevels : ∀ level ∈ levels, 0 < level.1 ∧ 0 ≤ level.2) :
    (∀ (buy : Bool) (target : Decimal), 0 < target →
      (depthWalkBps levels target midPrice buy = none ↔
        (levels.map fun level => level.1 * level.2).sum < target)) ∧
      (levels.Pairwise (fun earlier later => earlier.1 ≤ later.1) →
        (∀ best ∈ levels.head?, midPrice ≤ best.1) → SlippageRises levels midPrice true) ∧
      (levels.Pairwise (fun earlier later => later.1 ≤ earlier.1) →
        (∀ best ∈ levels.head?, best.1 ≤ midPrice) → SlippageRises levels midPrice false) :=
  ⟨fun _ _ htarget => depthWalkBps_eq_none_iff hlevels htarget,
    fun hsorted hbest => (faces_asks hlevels hsorted hbest).slippageRises hmid,
    fun hsorted hbest => (faces_bids hlevels hsorted hbest).slippageRises hmid⟩

/-- Asks worth 320, one of quantity zero between two: 500 is too much, and 300 costs no less than 100. -/
theorem depth_walk_sound_three_asks :
    (depthWalkBps [(100, 1), (101, 0), (110, 2)] 500 99 true = none ↔
      ([((100 : Decimal), (1 : Decimal)), (101, 0), (110, 2)].map fun level => level.1 * level.2).sum < 500) ∧
      SlippageRises [(100, 1), (101, 0), (110, 2)] 99 true := by
  obtain ⟨hnone, hasks, -⟩ :=
    depth_walk_sound [(100, 1), (101, 0), (110, 2)] 99 (by norm_num) (by norm_num)
  exact ⟨hnone true 500 (by norm_num), hasks (by norm_num) (by norm_num)⟩

end Cvf
