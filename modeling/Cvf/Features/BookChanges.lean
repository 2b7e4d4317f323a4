/-
# Cvf.Features.BookChanges — the quantity an update moves.

The change of an update is measured level by level against the book before it, while the levels are put
one after the other.  Levels of different prices do not see each other, so both count the same quantity;
of several levels of one price only the last is left, and each was measured.

The measurement is made in the default context of `decimal`, which rounds to 28 digits.  It is the exact
one where no operation of it rounds (`MeasuredExactly`), as for quantities of a common number of decimals
whose moves add up to less than 28 digits (`measuredExactly_of_units`).
-/
import Cvf.Features.BookReplay

namespace Cvf

open Cvf.Library

namespace BookSide

/-- The quantity held at a price. -/
def held (side : BookSide) (price : Decimal) : Decimal := (side.lookup price).getD 0

/-- The quantity held in all. -/
def total (side : BookSide) : Decimal := ∑ price ∈ side.keys, side.held price

theorem held_put (side : BookSide) (price quantity p : Decimal) :
    (side.put price quantity).held p = if p = price then quantity else side.held p := by
  unfold held
  rw [lookup_put]
  split_ifs with hp hzero
  · rw [hzero]
    rfl
  · rfl
  · rfl

theorem held_of_notMem {side : BookSide} {price : Decimal} (h : price ∉ side.keys) :
    side.held price = 0 := by
  rw [Finmap.mem_keys, ← Finmap.lookup_eq_none] at h
  rw [held, h]
  rfl

/-- Prices that hold nothing add nothing. -/
theorem total_eq_sum {side : BookSide} {prices : Finset Decimal} (h : side.keys ⊆ prices) :
    side.total = ∑ price ∈ prices, side.held price :=
  Finset.sum_subset h fun _ _ hnot => held_of_notMem hnot

/-- One level moves the total by its quantity against the one held. -/
theorem total_put (side : BookSide) (price quantity : Decimal) :
    (side.put price quantity).total = side.total + (quantity - side.held price) := by
  have hkeys : (side.put price quantity).keys ⊆ insert price side.keys := by
    intro p hp
    by_cases hprice : p = price
    · rw [hprice]
      exact Finset.mem_insert_self ..
    · rw [Finmap.mem_keys, ← Finmap.lookup_isSome, lookup_put, if_neg hprice,
        Finmap.lookup_isSome, ← Finmap.mem_keys] at hp
      exact Finset.mem_insert_of_mem hp
  have hprice : price ∈ insert price side.keys := Finset.mem_insert_self ..
  have hrest : ∑ p ∈ (insert price side.keys).erase price, (side.put price quantity).held p =
      ∑ p ∈ (insert price side.keys).erase price, side.held p := by
    apply Finset.sum_congr rfl
    intro p hp
    rw [held_put, if_neg (Finset.ne_of_mem_erase hp)]
  rw [total_eq_sum hkeys, total_eq_sum (Finset.subset_insert price side.keys),
    ← Finset.add_sum_erase _ _ hprice, ← Finset.add_sum_erase _ _ hprice, hrest, held_put,
    if_pos rfl]
  ring

/-- A level put before another of its price leaves nothing behind. -/
theorem put_put (side : BookSide) (price first quantity : Decimal) :
    (side.put price first).put price quantity = side.put price quantity := by
  apply Finmap.ext_lookup
  intro p
  rw [lookup_put, lookup_put, lookup_put]
  split_ifs <;> rfl

theorem put_comm (side : BookSide) {price other : Decimal} (h : price ≠ other)
    (quantity quantity' : Decimal) :
    (side.put price quantity).put other quantity' =
      (side.put other quantity').put price quantity := by
  apply Finmap.ext_lookup
  intro p
  rw [lookup_put, lookup_put, lookup_put, lookup_put]
  by_cases hp : p = price
  · rw [if_pos hp, if_neg (hp ▸ h), if_pos hp]
  · rw [if_neg hp, if_neg hp]

end BookSide

namespace FeatureOrderBookState

variable (digest : SourceDigest)

/-- The deltas of one side's levels against the quantities it holds, before rounding. -/
def heldDeltas (side : BookSide) (levels : List OrderBookLevel) : List Decimal :=
  levels.map fun level => level.quantity - side.held level.price

/-- The levels a later level of the same price replaces. -/
def replacedLevels : List OrderBookLevel → List OrderBookLevel
  | [] => []
  | level :: rest =>
    if rest.any (·.price = level.price) then level :: replacedLevels rest else replacedLevels rest

theorem replacedLevels_subset (levels : List OrderBookLevel) : replacedLevels levels ⊆ levels := by
  induction levels with
  | nil => exact List.Subset.refl _
  | cons level rest ih =>
    unfold replacedLevels
    split_ifs
    · exact List.cons_subset_cons level ih
    · exact List.Subset.trans ih (List.subset_cons_self level rest)

/-- A level that is replaced changes nothing. -/
theorem applySide_put_replaced {levels : List OrderBookLevel} {price : Decimal}
    (h : levels.any (·.price = price) = true) (side : BookSide) (quantity : Decimal) :
    applySide (side.put price quantity) levels = applySide side levels := by
  induction levels generalizing side with
  | nil => cases h
  | cons level rest ih =>
    show applySide ((side.put price quantity).put level.price level.quantity) rest =
      applySide (side.put level.price level.quantity) rest
    by_cases hprice : level.price = price
    · rw [← hprice, BookSide.put_put]
    · have hrest : rest.any (·.price = price) = true := by
        rw [List.any_cons] at h
        simpa [hprice] using h
      rw [BookSide.put_comm side (Ne.symm hprice), ih hrest]

/-- The total moves by the levels that are not replaced. -/
theorem total_applySide (side : BookSide) (levels : List OrderBookLevel) :
    (applySide side levels).total + (heldDeltas side (replacedLevels levels)).sum =
      side.total + (heldDeltas side levels).sum := by
  induction levels generalizing side with
  | nil => simp [applySide, heldDeltas, replacedLevels]
  | cons level rest ih =>
    have hcons : applySide side (level :: rest) =
        applySide (side.put level.price level.quantity) rest := rfl
    have hdelta : (heldDeltas side (level :: rest)).sum =
        level.quantity - side.held level.price + (heldDeltas side rest).sum := rfl
    unfold replacedLevels
    by_cases hreplaced : rest.any (·.price = level.price) = true
    · have hreplacedDelta : (heldDeltas side (level :: replacedLevels rest)).sum =
          level.quantity - side.held level.price +
            (heldDeltas side (replacedLevels rest)).sum := rfl
      -- a replaced level leaves nothing behind, but was measured
      rw [if_pos hreplaced, hcons, applySide_put_replaced hreplaced, hdelta, hreplacedDelta]
      linarith [ih side]
    · -- the other levels find the quantities they would have found
      have hsame : ∀ levels : List OrderBookLevel, levels ⊆ rest →
          heldDeltas (side.put level.price level.quantity) levels =
            heldDeltas side levels := by
        intro levels hsub
        apply List.map_congr_left
        intro other hother
        have hne : other.price ≠ level.price := by
          intro heq
          exact hreplaced (List.any_eq_true.mpr ⟨other, hsub hother, decide_eq_true heq⟩)
        have hheld := side.held_put level.price level.quantity other.price
        rw [if_neg hne] at hheld
        exact congrArg (other.quantity - ·) hheld
      have hstep := ih (side.put level.price level.quantity)
      rw [hsame rest (List.Subset.refl _), hsame (replacedLevels rest) (replacedLevels_subset rest),
        BookSide.total_put] at hstep
      rw [if_neg hreplaced, hcons, hdelta]
      linarith

/-! ## A measurement that does not round -/

/-- A result that fits the context. -/
abbrev FitsContext (x : Decimal) : Prop := Library.Fits 10 28 x

theorem one_lt_ten : 1 < 10 := by decide

theorem contextRound_eq_iff {x : Decimal} : contextRound x = x ↔ FitsContext x :=
  (fits_iff one_lt_ten).symm

/-- No running sum of the values rounds. -/
def SumsExactly (values : List Decimal) : Prop := ∀ front ∈ values.inits, FitsContext front.sum

/-- No operation on the deltas of a side rounds. -/
structure ExactSide (deltas : List Decimal) : Prop where
  each : ∀ delta ∈ deltas, FitsContext delta
  sum : SumsExactly deltas
  added : SumsExactly (deltas.filter (0 < ·))
  removed : SumsExactly ((deltas.filter (· < 0)).map (-·))

/-- No operation of `_measure_change` rounds. -/
structure MeasuredExactly (book : FeatureOrderBookState) (update : OrderBookUpdate) : Prop where
  bids : ExactSide (heldDeltas book.bids update.bids)
  asks : ExactSide (heldDeltas book.asks update.asks)
  flow : FitsContext
    ((heldDeltas book.bids update.bids).sum - (heldDeltas book.asks update.asks).sum)

theorem contextSum_of_sumsExactly {values : List Decimal} (h : SumsExactly values) :
    contextSum values = values.sum := by
  have hfrom : ∀ (values : List Decimal) (total : Decimal),
      (∀ front ∈ values.inits, FitsContext (total + front.sum)) →
        values.foldl (fun total value => contextRound (total + value)) total = total + values.sum := by
    intro values
    induction values with
    | nil => simp
    | cons value rest ih =>
      intro total hfits
      have hone := hfits [value] (by simp)
      rw [List.sum_singleton, ← contextRound_eq_iff] at hone
      rw [List.foldl_cons, hone, ih, List.sum_cons, add_assoc]
      intro front hfront
      have hnext := hfits (value :: front) (by simpa using hfront)
      rwa [List.sum_cons, ← add_assoc] at hnext
  have hzero := hfrom values 0 fun front hfront => by
    rw [zero_add]
    exact h front hfront
  rwa [zero_add] at hzero

theorem quantityDeltas_of_exact {side : BookSide} {levels : List OrderBookLevel}
    (h : ∀ delta ∈ heldDeltas side levels, FitsContext delta) :
    quantityDeltas side levels = heldDeltas side levels := by
  apply List.map_congr_left
  intro level hlevel
  exact contextRound_eq_iff.mpr (h _ (List.mem_map_of_mem hlevel))

/-- The negated deltas fit as the deltas do. -/
theorem removed_of_exact {deltas : List Decimal} (h : ∀ delta ∈ deltas, FitsContext delta) :
    ((deltas.filter (· < 0)).map fun delta => contextRound (-delta)) =
      (deltas.filter (· < 0)).map (-·) := by
  apply List.map_congr_left
  intro delta hdelta
  exact contextRound_eq_iff.mpr (h delta (List.mem_of_mem_filter hdelta)).neg

/-- The change of an update over exact numbers. -/
def exactChange (book : FeatureOrderBookState) (update : OrderBookUpdate) : BookChange :=
  let bidDeltas := heldDeltas book.bids update.bids
  let askDeltas := heldDeltas book.asks update.asks
  { bidQuantityDelta := bidDeltas.sum
    askQuantityDelta := askDeltas.sum
    addedBidQuantity := (bidDeltas.filter (0 < ·)).sum
    addedAskQuantity := (askDeltas.filter (0 < ·)).sum
    removedBidQuantity := ((bidDeltas.filter (· < 0)).map (-·)).sum
    removedAskQuantity := ((askDeltas.filter (· < 0)).map (-·)).sum
    orderFlowImbalance := bidDeltas.sum - askDeltas.sum }

theorem measureChange_of_exact {book : FeatureOrderBookState} {update : OrderBookUpdate}
    (h : MeasuredExactly book update) : book.measureChange update = exactChange book update := by
  unfold measureChange exactChange
  dsimp only
  rw [quantityDeltas_of_exact h.bids.each, quantityDeltas_of_exact h.asks.each,
    removed_of_exact h.bids.each, removed_of_exact h.asks.each,
    contextSum_of_sumsExactly h.bids.sum, contextSum_of_sumsExactly h.asks.sum,
    contextSum_of_sumsExactly h.bids.added, contextSum_of_sumsExactly h.asks.added,
    contextSum_of_sumsExactly h.bids.removed, contextSum_of_sumsExactly h.asks.removed,
    contextRound_eq_iff.mpr h.flow]

/-! ### Quantities of a common number of decimals -/

/-- A whole number of units of a decimal place. -/
def InUnits (place : Int) (x : Decimal) : Prop := ∃ units : Int, x = units * (10 : Decimal) ^ place

section

variable {place : Int}

theorem InUnits.sub {x y : Decimal} (hx : InUnits place x) (hy : InUnits place y) :
    InUnits place (x - y) := by
  obtain ⟨m, rfl⟩ := hx
  obtain ⟨n, rfl⟩ := hy
  exact ⟨m - n, by push_cast; ring⟩

theorem InUnits.neg {x : Decimal} (hx : InUnits place x) : InUnits place (-x) := by
  obtain ⟨m, rfl⟩ := hx
  exact ⟨-m, by push_cast; ring⟩

theorem InUnits.sum {values : List Decimal} (h : ∀ value ∈ values, InUnits place value) :
    InUnits place values.sum := by
  induction values with
  | nil => exact ⟨0, by simp⟩
  | cons value rest ih =>
    obtain ⟨m, hm⟩ := h value List.mem_cons_self
    obtain ⟨n, hn⟩ := ih fun other hother => h other (List.mem_cons_of_mem _ hother)
    exact ⟨m + n, by rw [List.sum_cons, hm, hn]; push_cast; ring⟩

/-- Less than 28 digits of units fit the context. -/
theorem InUnits.fits {x : Decimal} (h : InUnits place x) (hx : |x| < 10 ^ 28 * (10 : Decimal) ^ place) :
    FitsContext x := by
  obtain ⟨units, rfl⟩ := h
  refine ⟨units, place, ?_, rfl⟩
  have hplace : (0 : Decimal) < 10 ^ place := by positivity
  rw [abs_mul, abs_of_pos hplace, mul_lt_mul_iff_left₀ hplace] at hx
  exact_mod_cast hx

/-- What a list moves in all. -/
def moved (values : List Decimal) : Decimal := (values.map (|·|)).sum

theorem abs_sum_le_moved (values : List Decimal) : |values.sum| ≤ moved values :=
  List.le_sum_of_subadditive (|·|) abs_zero.le abs_add_le values

theorem moved_le_of_sublist {some all : List Decimal} (h : some.Sublist all) : moved some ≤ moved all := by
  refine (h.map (|·|)).sum_le_sum fun value hvalue => ?_
  obtain ⟨x, -, rfl⟩ := List.mem_map.mp hvalue
  exact abs_nonneg x

theorem sumsExactly_of_units {values : List Decimal} (hunits : ∀ value ∈ values, InUnits place value)
    (hmoved : moved values < 10 ^ 28 * (10 : Decimal) ^ place) : SumsExactly values := by
  intro front hfront
  have hsublist := ((List.mem_inits ..).mp hfront).sublist
  refine (InUnits.sum fun value hvalue => hunits value (hsublist.subset hvalue)).fits ?_
  exact ((abs_sum_le_moved front).trans (moved_le_of_sublist hsublist)).trans_lt hmoved

theorem exactSide_of_units {deltas : List Decimal} (hunits : ∀ delta ∈ deltas, InUnits place delta)
    (hmoved : moved deltas < 10 ^ 28 * (10 : Decimal) ^ place) : ExactSide deltas where
  each := by
    intro delta hdelta
    have hone := moved_le_of_sublist (List.singleton_sublist.mpr hdelta)
    unfold moved at hone
    rw [List.map_singleton, List.sum_singleton] at hone
    exact (hunits delta hdelta).fits (hone.trans_lt hmoved)
  sum := sumsExactly_of_units hunits hmoved
  added := sumsExactly_of_units (fun delta hdelta => hunits delta (List.mem_of_mem_filter hdelta))
    ((moved_le_of_sublist List.filter_sublist).trans_lt hmoved)
  removed := by
    have hsame : moved ((deltas.filter (· < 0)).map (-·)) = moved (deltas.filter (· < 0)) := by
      unfold moved
      rw [List.map_map]
      congr 1
      exact List.map_congr_left fun delta _ => abs_neg delta
    refine sumsExactly_of_units ?_ (hsame ▸ (moved_le_of_sublist List.filter_sublist).trans_lt hmoved)
    intro removed hremoved
    obtain ⟨delta, hdelta, rfl⟩ := List.mem_map.mp hremoved
    exact (hunits delta (List.mem_of_mem_filter hdelta)).neg

/-- Quantities in units of one decimal place, which move less than 28 digits of them, are measured
exactly. -/
theorem measuredExactly_of_units (place : Int) {book : FeatureOrderBookState}
    {update : OrderBookUpdate}
    (hbids : ∀ level ∈ update.bids,
      InUnits place level.quantity ∧ InUnits place (book.bids.held level.price))
    (hasks : ∀ level ∈ update.asks,
      InUnits place level.quantity ∧ InUnits place (book.asks.held level.price))
    (hmoved : moved (heldDeltas book.bids update.bids) + moved (heldDeltas book.asks update.asks) <
      10 ^ 28 * (10 : Decimal) ^ place) : MeasuredExactly book update := by
  have hunits : ∀ {side : BookSide} {levels : List OrderBookLevel},
      (∀ level ∈ levels, InUnits place level.quantity ∧ InUnits place (side.held level.price)) →
        ∀ delta ∈ heldDeltas side levels, InUnits place delta := by
    intro side levels h delta hdelta
    obtain ⟨level, hlevel, rfl⟩ := List.mem_map.mp hdelta
    exact (h level hlevel).1.sub (h level hlevel).2
  have hnonneg : ∀ values, 0 ≤ moved values := fun values =>
    (abs_nonneg values.sum).trans (abs_sum_le_moved values)
  refine ⟨exactSide_of_units (hunits hbids) ?_, exactSide_of_units (hunits hasks) ?_, ?_⟩
  · linarith [hnonneg (heldDeltas book.asks update.asks)]
  · linarith [hnonneg (heldDeltas book.bids update.bids)]
  · refine ((InUnits.sum (hunits hbids)).sub (InUnits.sum (hunits hasks))).fits ?_
    calc |(heldDeltas book.bids update.bids).sum - (heldDeltas book.asks update.asks).sum|
        ≤ |(heldDeltas book.bids update.bids).sum| + |(heldDeltas book.asks update.asks).sum| := abs_sub _ _
      _ ≤ moved (heldDeltas book.bids update.bids) + moved (heldDeltas book.asks update.asks) :=
        add_le_add (abs_sum_le_moved _) (abs_sum_le_moved _)
      _ < _ := hmoved

end

/-! ## Exactly when a change conserves quantity -/

/-- A change accounts for what both sides hold before and after. -/
structure Conserves (before after : FeatureOrderBookState) (change : BookChange) : Prop where
  bids : change.bidQuantityDelta = after.bids.total - before.bids.total
  asks : change.askQuantityDelta = after.asks.total - before.asks.total
  bidParts : change.addedBidQuantity - change.removedBidQuantity = change.bidQuantityDelta
  askParts : change.addedAskQuantity - change.removedAskQuantity = change.askQuantityDelta
  added : 0 ≤ change.addedBidQuantity ∧ 0 ≤ change.addedAskQuantity
  removed : 0 ≤ change.removedBidQuantity ∧ 0 ≤ change.removedAskQuantity
  flow : change.orderFlowImbalance = change.bidQuantityDelta - change.askQuantityDelta

/-- On each side, the levels replaced within the update come to nothing against what the side held. -/
def ReplacedCancel (book : FeatureOrderBookState) (update : OrderBookUpdate) : Prop :=
  (heldDeltas book.bids (replacedLevels update.bids)).sum = 0 ∧
    (heldDeltas book.asks (replacedLevels update.asks)).sum = 0

/-- Positive and negative parts of a sum. -/
theorem sum_parts (deltas : List Decimal) :
    (deltas.filter (0 < ·)).sum - ((deltas.filter (· < 0)).map (-·)).sum = deltas.sum := by
  induction deltas with
  | nil => simp
  | cons delta rest ih =>
    rcases lt_trichotomy delta 0 with hneg | rfl | hpos
    · have hnot : ¬ 0 < delta := hneg.le.not_gt
      simp only [List.filter_cons, hneg, hnot, decide_true, decide_false, if_true,
        Bool.false_eq_true, if_false, List.map_cons, List.sum_cons]
      linarith
    · simpa using ih
    · have hnot : ¬ delta < 0 := hpos.le.not_gt
      simp only [List.filter_cons, hpos, hnot, decide_true, decide_false, if_true,
        Bool.false_eq_true, if_false, List.sum_cons]
      linarith

theorem sum_positive_nonneg (deltas : List Decimal) : 0 ≤ (deltas.filter (0 < ·)).sum := by
  apply List.sum_nonneg
  intro delta hdelta
  exact (of_decide_eq_true (List.mem_filter.mp hdelta).2 : 0 < delta).le

theorem sum_negative_nonneg (deltas : List Decimal) :
    0 ≤ ((deltas.filter (· < 0)).map (-·)).sum := by
  apply List.sum_nonneg
  intro removed hremoved
  obtain ⟨delta, hdelta, rfl⟩ := List.mem_map.mp hremoved
  exact neg_nonneg.mpr (of_decide_eq_true (List.mem_filter.mp hdelta).2 : delta < 0).le

/-- An update the book accepts puts its levels and records its change. -/
theorem applyUpdate_accepted {book : FeatureOrderBookState} {update : OrderBookUpdate}
    (h : (book.applyUpdate digest update).2 = .accepted) :
    (book.applyUpdate digest update).1.bids = applySide book.bids update.bids ∧
      (book.applyUpdate digest update).1.asks = applySide book.asks update.asks ∧
      (book.applyUpdate digest update).1.lastChange = some (book.measureChange update) := by
  rcases book.applyUpdate_cases digest update with
    ⟨answer, hanswer, hstale⟩ | ⟨waiting, -, hbuffer⟩ | ⟨-, -, hnext⟩
  · rw [hstale] at h
    rw [show answer = .accepted from h] at hanswer
    cases hanswer
  · rw [hbuffer] at h
    unfold buffer at h
    split_ifs at h
  · rw [hnext] at h ⊢
    rcases book.applyNext_cases digest update with ⟨reason, hlost⟩ | ⟨-, happlied⟩
    · rw [hlost] at h
      cases h
    · rw [happlied]
      exact ⟨rfl, rfl, rfl⟩

theorem conserves_iff {book : FeatureOrderBookState} {update : OrderBookUpdate}
    (h : (book.applyUpdate digest update).2 = .accepted) (hexact : MeasuredExactly book update) :
    Conserves book (book.applyUpdate digest update).1 (book.measureChange update) ↔
      ReplacedCancel book update := by
  rw [measureChange_of_exact hexact]
  obtain ⟨hbids, hasks, -⟩ := applyUpdate_accepted digest h
  have hbidTotal := total_applySide book.bids update.bids
  have haskTotal := total_applySide book.asks update.asks
  rw [← hbids] at hbidTotal
  rw [← hasks] at haskTotal
  constructor
  · intro hconserves
    have hbid : (heldDeltas book.bids update.bids).sum = _ := hconserves.bids
    have hask : (heldDeltas book.asks update.asks).sum = _ := hconserves.asks
    exact ⟨by linarith, by linarith⟩
  · rintro ⟨hbid, hask⟩
    exact
      { bids := by
          show (heldDeltas book.bids update.bids).sum = _
          linarith
        asks := by
          show (heldDeltas book.asks update.asks).sum = _
          linarith
        bidParts := sum_parts _
        askParts := sum_parts _
        added := ⟨sum_positive_nonneg _, sum_positive_nonneg _⟩
        removed := ⟨sum_negative_nonneg _, sum_negative_nonneg _⟩
        flow := rfl }

/-- The changes a run of updates records, in order. -/
def recordedChanges (book : FeatureOrderBookState) : List OrderBookUpdate → List BookChange
  | [] => []
  | update :: rest =>
    (book.applyUpdate digest update).1.lastChange.toList ++
      recordedChanges (book.applyUpdate digest update).1 rest

/-- Where no operation of the measurement rounds, the change of an update the book accepts accounts for
the quantity it moved if and only if the levels replaced within the update cancel; and along a run of
such updates the changes add up to the change of each side's total. -/
theorem liquidity_change_conserves_iff :
    (∀ (book : FeatureOrderBookState) (update : OrderBookUpdate), book.synchronized = true →
      (book.applyUpdate digest update).2 = .accepted → MeasuredExactly book update →
        ∃ change, (book.applyUpdate digest update).1.lastChange = some change ∧
          (Conserves book (book.applyUpdate digest update).1 change ↔
            ReplacedCancel book update)) ∧
    ∀ (book : FeatureOrderBookState) (updates : List OrderBookUpdate),
      Admitted (fun book update => (book.applyUpdate digest update).1)
        (fun book update =>
          (book.applyUpdate digest update).2 = .accepted ∧ MeasuredExactly book update ∧
            ReplacedCancel book update)
        book updates →
      let after := updates.foldl (fun book update => (book.applyUpdate digest update).1) book
      ((recordedChanges digest book updates).map (·.bidQuantityDelta)).sum =
          after.bids.total - book.bids.total ∧
        ((recordedChanges digest book updates).map (·.askQuantityDelta)).sum =
          after.asks.total - book.asks.total := by
  constructor
  · intro book update _ haccepted hexact
    exact ⟨_, (applyUpdate_accepted digest haccepted).2.2, conserves_iff digest haccepted hexact⟩
  · intro book updates hrun
    induction updates generalizing book with
    | nil => simp [recordedChanges]
    | cons update rest ih =>
      obtain ⟨⟨haccepted, hexact, hcancel⟩, hrest⟩ := hrun
      have hconserves := (conserves_iff digest haccepted hexact).mpr hcancel
      obtain ⟨hbids, hasks⟩ := ih _ hrest
      have hchange := (applyUpdate_accepted digest haccepted).2.2
      have hrecorded : recordedChanges digest book (update :: rest) =
          book.measureChange update ::
            recordedChanges digest (book.applyUpdate digest update).1 rest := by
        rw [recordedChanges, hchange]
        rfl
      rw [hrecorded, List.map_cons, List.sum_cons, List.map_cons, List.sum_cons, hbids, hasks,
        hconserves.bids, hconserves.asks, List.foldl_cons]
      exact ⟨by ring, by ring⟩

/-! ### Two updates, and one that repeats a price -/

def tenthBook : FeatureOrderBookState := ((fresh 1 le_rfl).applySnapshot noDigest tenthSnapshot).1

/-- A higher bid, a new one, and half of the ask. -/
def thirteenthUpdate : OrderBookUpdate :=
  { bidUpdate 12 13 with bids := [⟨100, 4⟩, ⟨99, 2⟩], asks := [⟨101, 1 / 2⟩] }

theorem liquidity_change_conserves_iff_two_updates :
    (∃ change, (tenthBook.applyUpdate noDigest (bidUpdate 10 12)).1.lastChange = some change ∧
        Conserves tenthBook (tenthBook.applyUpdate noDigest (bidUpdate 10 12)).1 change) ∧
      let after := [bidUpdate 10 12, thirteenthUpdate].foldl
        (fun book update => (book.applyUpdate noDigest update).1) tenthBook
      ((recordedChanges noDigest tenthBook [bidUpdate 10 12, thirteenthUpdate]).map
          (·.bidQuantityDelta)).sum = after.bids.total - tenthBook.bids.total ∧
        ((recordedChanges noDigest tenthBook [bidUpdate 10 12, thirteenthUpdate]).map
          (·.askQuantityDelta)).sum = after.asks.total - tenthBook.asks.total := by
  obtain ⟨hone, hrun⟩ := liquidity_change_conserves_iff noDigest
  have hfirst : MeasuredExactly tenthBook (bidUpdate 10 12) := by
    apply measuredExactly_of_units (-1)
    · intro level hlevel
      rw [List.mem_singleton.mp hlevel]
      exact ⟨⟨30, by decide +kernel⟩, ⟨20, by decide +kernel⟩⟩
    · intro level hlevel
      cases hlevel
    · decide +kernel
  have hsecond : MeasuredExactly (tenthBook.applyUpdate noDigest (bidUpdate 10 12)).1 thirteenthUpdate := by
    apply measuredExactly_of_units (-1)
    · intro level hlevel
      rcases List.mem_cons.mp hlevel with rfl | hlevel
      · exact ⟨⟨40, by decide +kernel⟩, ⟨30, by decide +kernel⟩⟩
      · rw [List.mem_singleton.mp hlevel]
        exact ⟨⟨20, by decide +kernel⟩, ⟨0, by decide +kernel⟩⟩
    · intro level hlevel
      rw [List.mem_singleton.mp hlevel]
      exact ⟨⟨5, by decide +kernel⟩, ⟨10, by decide +kernel⟩⟩
    · decide +kernel
  have hcancel : ReplacedCancel tenthBook (bidUpdate 10 12) := ⟨by decide +kernel, by decide +kernel⟩
  have hcancel' : ReplacedCancel (tenthBook.applyUpdate noDigest (bidUpdate 10 12)).1 thirteenthUpdate :=
    ⟨by decide +kernel, by decide +kernel⟩
  constructor
  · obtain ⟨change, hchange, hconserves⟩ := hone tenthBook (bidUpdate 10 12) (by decide +kernel)
      (by decide +kernel) hfirst
    exact ⟨change, hchange, hconserves.mpr hcancel⟩
  · exact hrun tenthBook [bidUpdate 10 12, thirteenthUpdate]
      ⟨⟨by decide +kernel, hfirst, hcancel⟩, ⟨by decide +kernel, hsecond, hcancel'⟩, trivial⟩

/-- An update that names its price twice, at three and then at five. -/
def repeatedBid : OrderBookUpdate := { bidUpdate 10 12 with bids := [⟨100, 3⟩, ⟨100, 5⟩] }

/-- The bid goes from two to five, and the change says four. -/
theorem repeated_price_counted_twice :
    ¬ ∀ (digest : SourceDigest) (book : FeatureOrderBookState) (update : OrderBookUpdate),
        update.validate = .ok () → book.synchronized = true →
        (book.applyUpdate digest update).2 = .accepted →
        ∃ change, (book.applyUpdate digest update).1.lastChange = some change ∧
          Conserves book (book.applyUpdate digest update).1 change := by
  intro hclaim
  obtain ⟨change, hchange, hconserves⟩ := hclaim noDigest tenthBook repeatedBid
    (by decide +kernel) (by decide +kernel) (by decide +kernel)
  have hdelta := hconserves.bids
  have hrecorded : (tenthBook.applyUpdate noDigest repeatedBid).1.lastChange.map
      (·.bidQuantityDelta) = some 4 := by
    decide +kernel
  have hfour : change.bidQuantityDelta = 4 := by
    rw [hchange] at hrecorded
    exact Option.some.inj hrecorded
  rw [hfour] at hdelta
  revert hdelta
  decide +kernel

/-- A quantity of 31 digits and a half is taken as it is, and its delta is rounded. -/
example :
    (tenthBook.measureChange
      { bidUpdate 10 12 with bids := [⟨100, 10 ^ 30 + 1 / 2⟩] }).bidQuantityDelta = 10 ^ 30 := by
  decide +kernel

end FeatureOrderBookState

end Cvf
