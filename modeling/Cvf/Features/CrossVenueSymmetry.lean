/-
# Cvf.Features.CrossVenueSymmetry — neither venue is privileged.

The engine writes each comparison out by hand, Binance before OKX.  Over exact arithmetic every one of them
is symmetric or changes sign when the venues are exchanged, so the paired snapshot of an exchanged
collection is the exchanged paired snapshot (`calculate_swapVenue`).  Each function of the engine has its own
law; the reasons stay the same up to order.
-/
import Cvf.Features.CrossVenueSwap

namespace Cvf

open Cvf.Library

section Arithmetic

variable {F : Type} [Field F]

/-! ## Statistics -/

theorem sum_map_neg (values : List F) : (values.map (-·)).sum = -values.sum := by
  induction values with
  | nil => exact neg_zero.symm
  | cons value values ih => rw [List.map_cons, List.sum_cons, ih, List.sum_cons, neg_add]

theorem exactFeatureMath_fmean_neg (sqrt : F → F) (largestFloat : F) (values : List F) :
    (exactFeatureMath sqrt largestFloat).fmean (values.map (-·)) =
      -(exactFeatureMath sqrt largestFloat).fmean values := by
  show (values.map (-·)).sum / ((values.map (-·)).length : F) = -(values.sum / (values.length : F))
  rw [sum_map_neg, List.length_map, neg_div]

theorem exactFeatureMath_pstdev_neg (sqrt : F → F) (largestFloat : F) (values : List F) :
    (exactFeatureMath sqrt largestFloat).pstdev (values.map (-·)) =
      (exactFeatureMath sqrt largestFloat).pstdev values := by
  show sqrt (((values.map (-·)).map fun value =>
      (value - (values.map (-·)).sum / ((values.map (-·)).length : F)) ^ 2).sum /
        ((values.map (-·)).length : F)) =
    sqrt ((values.map fun value => (value - values.sum / (values.length : F)) ^ 2).sum /
      (values.length : F))
  rw [sum_map_neg, List.length_map, List.map_map]
  congr 3
  apply List.map_congr_left
  intro value _
  show (-value - -values.sum / (values.length : F)) ^ 2 = _
  rw [neg_div, ← neg_sub', neg_sq]

variable [LinearOrder F]

/-! ## Comparisons -/

theorem floatAbs_neg (value : F) : floatAbs (-value) = floatAbs value := by
  unfold floatAbs
  rw [neg_neg, max_comm]

theorem floatAbs_sub_comm (left right : F) : floatAbs (left - right) = floatAbs (right - left) := by
  rw [← neg_sub, floatAbs_neg]

theorem difference_swap {N : Type} [AddGroup N] (left right : Option N) :
    difference right left = (difference left right).map (-·) := by
  cases left with
  | none => cases right <;> rfl
  | some left =>
    cases right with
    | none => rfl
    | some right => exact congrArg some (neg_sub left right).symm

/-- The absolute difference of two venues. -/
theorem difference_map_floatAbs_swap (left right : Option F) :
    (difference right left).map floatAbs = (difference left right).map floatAbs := by
  rw [difference_swap, Option.map_map]
  congr 1
  funext value
  exact floatAbs_neg value

theorem directionAgreement_swap (epsilon : F) (left right : Option F) :
    directionAgreement epsilon right left = directionAgreement epsilon left right := by
  unfold directionAgreement
  cases direction epsilon left <;> cases direction epsilon right <;> rfl

end Arithmetic

namespace CrossVenueFeatureEngine

variable {F : Type} [Field F] {engine : CrossVenueFeatureEngine F} {sqrt : F → F} {largestFloat : F}
  (hmath : engine.math = exactFeatureMath sqrt largestFloat)

/-! ## The spread -/

theorem spreadDenominator_swap (binanceMid okxMid : Decimal) :
    spreadDenominator okxMid binanceMid = spreadDenominator binanceMid okxMid := by
  unfold spreadDenominator
  rw [add_comm]

include hmath in
theorem percentageSpread_swap (binanceMid okxMid : Option Decimal) :
    engine.percentageSpread okxMid binanceMid = (engine.percentageSpread binanceMid okxMid).map (-·) := by
  cases binanceMid with
  | none => cases okxMid <;> rfl
  | some binanceMid =>
    cases okxMid with
    | none => rfl
    | some okxMid =>
      unfold percentageSpread
      dsimp only
      rw [spreadDenominator_swap]
      split_ifs
      · rfl
      · rw [hmath, Option.map_some]
        congr 1
        show (((okxMid - binanceMid) / spreadDenominator binanceMid okxMid : ℚ) : F) =
          -(((binanceMid - okxMid) / spreadDenominator binanceMid okxMid : ℚ) : F)
        rw [← Rat.cast_neg, ← neg_div, neg_sub]

omit [Field F] in
theorem pairedAt_swapVenue (inside : List (FeatureSnapshot F)) (timestamp : Int) (exchange : Exchange) :
    pairedAt (inside.map FeatureSnapshot.swapVenue) timestamp exchange =
      (pairedAt inside timestamp exchange.swapVenue).map FeatureSnapshot.swapVenue := by
  unfold pairedAt
  have hid : ∀ snapshot : FeatureSnapshot F,
      snapshot.swapVenue.featureSnapshotId.int = snapshot.featureSnapshotId.int := fun _ => rfl
  rw [List.filter_map, firstMax_map FeatureSnapshot.swapVenue hid]
  congr 2
  apply List.filter_congr
  intro snapshot _
  show decide (snapshot.decisionTimestamp = timestamp ∧ snapshot.exchange.swapVenue = exchange) = _
  rw [decide_eq_decide, Exchange.swapVenue_eq_iff]

include hmath in
/-- The history of the exchanged candidates pairs the same snapshots. -/
theorem spreadHistory_swapVenue (candidates : List (FeatureSnapshot F)) (symbol : String)
    (decision windowSeconds : Int) :
    engine.spreadHistory (candidates.map FeatureSnapshot.swapVenue) symbol decision windowSeconds =
      (engine.spreadHistory candidates symbol decision windowSeconds).map
        SpreadHistoryEntry.swapVenue := by
  have hinside : engine.insideLookback (candidates.map FeatureSnapshot.swapVenue) symbol decision
      windowSeconds = (engine.insideLookback candidates symbol decision windowSeconds).map
        FeatureSnapshot.swapVenue := List.filter_map
  have htimestamps : ∀ inside : List (FeatureSnapshot F),
      pairedTimestamps (inside.map FeatureSnapshot.swapVenue) = pairedTimestamps inside := by
    intro inside
    unfold pairedTimestamps
    rw [List.map_map]
    rfl
  have hentry : ∀ inside : List (FeatureSnapshot F),
      engine.historyEntry (inside.map FeatureSnapshot.swapVenue) =
        fun timestamp => (engine.historyEntry inside timestamp).map SpreadHistoryEntry.swapVenue := by
    intro inside
    funext timestamp
    unfold historyEntry
    rw [pairedAt_swapVenue, pairedAt_swapVenue]
    have hbinance : Exchange.binance.swapVenue = .okx := rfl
    have hokx : Exchange.okx.swapVenue = .binance := rfl
    rw [hbinance, hokx]
    cases pairedAt inside timestamp .binance with
    | none => cases pairedAt inside timestamp .okx <;> rfl
    | some binance =>
      cases pairedAt inside timestamp .okx with
      | none => rfl
      | some okx =>
        show (engine.percentageSpread (midPrice okx) (midPrice binance)).map _ = _
        rw [percentageSpread_swap hmath, Option.map_map, Option.map_map]
        rfl
  unfold spreadHistory
  dsimp only
  rw [hinside, htimestamps, hentry, List.map_filterMap]

variable [LinearOrder F]

include hmath in
theorem historyZscore_neg (history : List F) (value : F) :
    engine.historyZscore (history.map (-·)) (-value) = (engine.historyZscore history value).map (-·) := by
  unfold historyZscore
  rw [List.length_map, hmath, exactFeatureMath_pstdev_neg, exactFeatureMath_fmean_neg]
  split_ifs
  · rfl
  · dsimp only
    split_ifs
    · rfl
    · rw [Option.map_some, ← neg_sub', neg_div]

include hmath in
/-- The z-score of the opposite spread; the history is as long, its digest another. -/
theorem spreadZscore_swapVenue (candidates : List (FeatureSnapshot F)) (symbol : String)
    (decision windowSeconds : Int) (value : Option F) :
    let spread := engine.spreadZscore candidates symbol decision windowSeconds value
    let mirrored := engine.spreadZscore (candidates.map FeatureSnapshot.swapVenue) symbol decision
      windowSeconds (value.map (-·))
    mirrored.1 = spread.1.map (-·) ∧ mirrored.2.1 = spread.2.1 ∧
      mirrored.2.2.isSome = spread.2.2.isSome := by
  cases value with
  | none => exact ⟨rfl, rfl, rfl⟩
  | some value =>
    unfold spreadZscore
    dsimp only [Option.map_some]
    rw [spreadHistory_swapVenue hmath]
    refine ⟨?_, List.length_map _, rfl⟩
    rw [← historyZscore_neg hmath, List.map_map, List.map_map]
    rfl

/-! ## The paired groups -/

variable (binance okx : FeatureSnapshot F)

include hmath in
theorem priceFeatures_swapVenue (zscore : Option F) :
    engine.priceFeatures okx.swapVenue binance.swapVenue (zscore.map (-·)) =
      (engine.priceFeatures binance okx zscore).swapVenue := by
  have habsolute : ((difference (midPrice okx) (midPrice binance)).map fun apart => |apart|) =
      (difference (midPrice binance) (midPrice okx)).map fun apart => |apart| := by
    rw [difference_swap, Option.map_map]
    congr 1
    funext apart
    exact abs_neg apart
  apply CrossVenuePriceFeatureValues.ext
  case binanceMidPrice => rfl
  case okxMidPrice => rfl
  case midPriceDifference => exact difference_swap _ _
  case midPriceAbsoluteSpread => exact habsolute
  case percentageSpreadDenominator =>
    have hbinance : midPrice binance.swapVenue = midPrice binance := rfl
    have hokx : midPrice okx.swapVenue = midPrice okx := rfl
    unfold priceFeatures CrossVenuePriceFeatureValues.swapVenue
    dsimp only
    rw [hbinance, hokx]
    cases midPrice binance with
    | none => cases midPrice okx <;> rfl
    | some binanceMid =>
      cases midPrice okx with
      | none => rfl
      | some okxMid => exact congrArg some (spreadDenominator_swap binanceMid okxMid)
  case midPricePercentageSpread => exact percentageSpread_swap hmath _ _
  case midPriceSpreadZscore => rfl
  case returnDirectionAgreement => exact directionAgreement_swap _ _ _
  case priceImpulseDirectionAgreement => exact directionAgreement_swap _ _ _
  case priceImpulseStrengthDifference => exact difference_swap _ _
  case realizedVolatilityDifference => exact difference_swap _ _
  case relativeSpreadDivergence => exact difference_swap _ _

theorem strengthAgreement_swap (left right : Option F) :
    engine.strengthAgreement right left = engine.strengthAgreement left right := by
  cases left with
  | none => cases right <;> rfl
  | some left =>
    cases right with
    | none => rfl
    | some right =>
      unfold strengthAgreement
      dsimp only
      rw [floatAbs_sub_comm]

theorem liquidityStatus_swap (binanceAdd binanceRemove okxAdd okxRemove : Option Decimal) :
    engine.liquidityStatus okxAdd okxRemove binanceAdd binanceRemove =
      engine.liquidityStatus binanceAdd binanceRemove okxAdd okxRemove := by
  cases binanceAdd with
  | none => cases okxAdd <;> cases okxRemove <;> rfl
  | some binanceAdd =>
    cases binanceRemove with
    | none => cases okxAdd <;> cases okxRemove <;> rfl
    | some binanceRemove =>
      cases okxAdd with
      | none => rfl
      | some okxAdd =>
        cases okxRemove with
        | none => rfl
        | some okxRemove =>
          unfold liquidityStatus
          dsimp only
          cases direction engine.settings.directionEpsilon
              (some (engine.math.toFloat (binanceAdd - binanceRemove))) <;>
            cases direction engine.settings.directionEpsilon
              (some (engine.math.toFloat (okxAdd - okxRemove))) <;> rfl

theorem orderFlowFeatures_swapVenue :
    engine.orderFlowFeatures okx.swapVenue binance.swapVenue =
      (engine.orderFlowFeatures binance okx).swapVenue := by
  apply CrossVenueOrderFlowFeatureValues.ext
  case takerFlowDirectionAgreement => exact directionAgreement_swap _ _ _
  case takerImbalanceDifference => exact difference_swap _ _
  case takerImbalanceStrengthAgreement => exact strengthAgreement_swap _ _
  case ofiDirectionAgreement => exact directionAgreement_swap _ _ _
  case ofiDifference => exact difference_swap _ _
  case depthImbalanceDifference => exact difference_swap _ _
  case liquidityAdditionDifference => exact difference_swap _ _
  case liquidityRemovalDifference => exact difference_swap _ _
  case orderBookRecoverySpeedDifference => exact difference_swap _ _
  case liquidityDivergenceStatus => exact liquidityStatus_swap _ _ _ _

theorem crowdingAgreement_swap (left right : Option CrowdingState) :
    crowdingAgreement right left = crowdingAgreement left right := by
  cases left with
  | none =>
    cases right with
    | none => rfl
    | some right => cases right <;> rfl
  | some left =>
    cases right with
    | none => cases left <;> rfl
    | some right => cases left <;> cases right <;> rfl

theorem priceOiAgreement_swap (left right : Option PriceOpenInterestState) :
    priceOiAgreement right left = priceOiAgreement left right := by
  cases left with
  | none => cases right <;> rfl
  | some left =>
    cases right with
    | none => rfl
    | some right =>
      unfold priceOiAgreement
      dsimp only
      simp only [eq_comm]

theorem liquidationAgreement_swapVenue :
    engine.liquidationAgreement okx.swapVenue binance.swapVenue =
      engine.liquidationAgreement binance okx := by
  have hbinance : binance.swapVenue.liquidation = binance.liquidation := rfl
  have hokx : okx.swapVenue.liquidation = okx.liquidation := rfl
  unfold liquidationAgreement
  rw [hbinance, hokx]
  cases binance.liquidation.bind (·.publicSampleActivityZscore) with
  | none => cases okx.liquidation.bind (·.publicSampleActivityZscore) <;> rfl
  | some binanceZscore =>
    cases okx.liquidation.bind (·.publicSampleActivityZscore) with
    | none => rfl
    | some okxZscore =>
      dsimp only
      simp only [and_comm, or_comm]

theorem positioningFeatures_swapVenue :
    engine.positioningFeatures okx.swapVenue binance.swapVenue =
      (engine.positioningFeatures binance okx).swapVenue := by
  have hoi : priceOiAgreement (okx.openInterest.bind (·.priceOiState))
      (binance.openInterest.bind (·.priceOiState)) =
      priceOiAgreement (binance.openInterest.bind (·.priceOiState))
        (okx.openInterest.bind (·.priceOiState)) := priceOiAgreement_swap _ _
  have hcrowding : crowdingAgreement (okx.crowding.bind (·.jointState))
      (binance.crowding.bind (·.jointState)) =
      crowdingAgreement (binance.crowding.bind (·.jointState))
        (okx.crowding.bind (·.jointState)) := crowdingAgreement_swap _ _
  apply CrossVenuePositioningFeatureValues.ext
  case priceOiStateAgreement => exact hoi
  case binanceOiChangeDirection => rfl
  case okxOiChangeDirection => rfl
  case oiContextConflict =>
    exact congrArg (fun agreement : ContextAgreement =>
      if agreement = .unavailable then none else some (decide (agreement = .conflict))) hoi
  case fundingDirectionAgreement => exact directionAgreement_swap _ _ _
  case binanceFundingAbnormality => rfl
  case okxFundingAbnormality => rfl
  case fundingAbnormalityDifference => exact difference_swap _ _
  case markIndexPremiumDifference => exact difference_swap _ _
  case crowdingDirectionAgreement => exact hcrowding
  case oneSidedCrowdingUnconfirmed =>
    exact congrArg (fun agreement : CrowdingAgreement =>
      if agreement = .unavailable then none else some (decide (agreement = .oneSided))) hcrowding
  case liquidationActivityAgreement => exact liquidationAgreement_swapVenue _ _

/-- The confirmation reads agreements and statuses only. -/
theorem confirmationFeatures_swapVenue (price : CrossVenuePriceFeatureValues F)
    (orderFlow : CrossVenueOrderFlowFeatureValues F)
    (positioning : CrossVenuePositioningFeatureValues F) (quality : F) :
    engine.confirmationFeatures price.swapVenue orderFlow.swapVenue positioning.swapVenue quality =
      engine.confirmationFeatures price orderFlow positioning quality := rfl

/-! ## Alignment -/

theorem alignmentQuality_swap (binanceAge okxAge timeDifference : Option F) :
    engine.alignmentQuality okxAge binanceAge timeDifference =
      engine.alignmentQuality binanceAge okxAge timeDifference := by
  cases binanceAge with
  | none => cases okxAge <;> rfl
  | some binanceAge =>
    cases okxAge with
    | none => rfl
    | some okxAge =>
      cases timeDifference with
      | none => rfl
      | some timeDifference =>
        unfold alignmentQuality
        dsimp only
        rw [max_comm (okxAge / _)]

include hmath in
/-- The distance of two source timestamps in milliseconds. -/
theorem timeDifference_swap (binanceSource okxSource : Option Int) :
    ((difference okxSource binanceSource).map fun apart => floatAbs (engine.math.milliseconds apart)) =
      (difference binanceSource okxSource).map fun apart =>
        floatAbs (engine.math.milliseconds apart) := by
  rw [difference_swap, Option.map_map]
  congr 1
  funext apart
  show floatAbs (engine.math.milliseconds (-apart)) = _
  have hneg : engine.math.milliseconds (-apart) = -engine.math.milliseconds apart := by
    rw [hmath]
    show ((-apart : Int) : F) / 1000 = -((apart : F) / 1000)
    rw [Int.cast_neg, neg_div]
  rw [hneg, floatAbs_neg]

omit [Field F] [LinearOrder F] in
theorem pairStatus_swapVenue (binanceStale okxStale badTimeAlignment : Bool) :
    pairStatus okx.swapVenue binance.swapVenue okxStale binanceStale badTimeAlignment =
      (pairStatus binance okx binanceStale okxStale badTimeAlignment).swapVenue := by
  have hdegraded : (okx.newestSourceTimestamp.isNone || binance.newestSourceTimestamp.isNone ||
        badTimeAlignment || !okx.isWarm || !binance.isWarm || !okx.isHealthy || !binance.isHealthy) =
      (binance.newestSourceTimestamp.isNone || okx.newestSourceTimestamp.isNone ||
        badTimeAlignment || !binance.isWarm || !okx.isWarm || !binance.isHealthy || !okx.isHealthy) := by
    rw [Bool.or_comm okx.newestSourceTimestamp.isNone, Bool.or_right_comm _ (!okx.isWarm),
      Bool.or_right_comm _ (!okx.isHealthy)]
  cases binanceStale with
  | true => cases okxStale <;> rfl
  | false =>
    cases okxStale with
    | true => rfl
    | false =>
      show (if okx.newestSourceTimestamp.isNone || binance.newestSourceTimestamp.isNone ||
          badTimeAlignment || !okx.isWarm || !binance.isWarm || !okx.isHealthy || !binance.isHealthy then
        AlignmentStatus.degraded else AlignmentStatus.aligned) = _
      rw [hdegraded]
      show _ = (if binance.newestSourceTimestamp.isNone || okx.newestSourceTimestamp.isNone ||
          badTimeAlignment || !binance.isWarm || !okx.isWarm || !binance.isHealthy || !okx.isHealthy then
        AlignmentStatus.degraded else AlignmentStatus.aligned).swapVenue
      split_ifs <;> rfl

omit [Field F] [LinearOrder F] in
/-- The reasons of a pair come in twos, and the last one is about both venues. -/
theorem mirrored_pairReasons (binanceStale okxStale badTimeAlignment : Bool) :
    MirroredReasons (pairReasons binance okx binanceStale okxStale badTimeAlignment)
      (pairReasons okx.swapVenue binance.swapVenue okxStale binanceStale badTimeAlignment) := by
  refine MirroredReasons.append (.append_twice (.append_twice (.append_twice (.append_swap
    ?_ ?_) ?_ ?_) ?_ ?_) ?_ ?_) ?_
  all_goals exact .ite (by decide)

omit [Field F] [LinearOrder F] in
theorem pairReasons_paired (binanceStale okxStale badTimeAlignment : Bool) :
    ∀ reason ∈ pairReasons binance okx binanceStale okxStale badTimeAlignment, reason.Paired := by
  intro reason hreason
  simp only [pairReasons, List.mem_append] at hreason
  have hone : ∀ {c : Prop} [Decidable c] {other : FeatureUnavailableReason},
      reason ∈ (if c then [other] else []) → other.Paired → reason.Paired := by
    intro c _ other h hother
    split_ifs at h
    · exact List.mem_singleton.mp h ▸ hother
    · exact absurd h List.not_mem_nil
  rcases hreason with (((((((h | h) | h) | h) | h) | h) | h) | h) | h
  all_goals exact hone h (by unfold FeatureUnavailableReason.Paired; decide)

include hmath in
/-- The alignment of the exchanged snapshots. -/
theorem align_swapVenue (binance okx : Option (FeatureSnapshot F)) (decision : Int)
    {reasons mirrored : List FeatureUnavailableReason} (hreasons : MirroredReasons reasons mirrored)
    (hpaired : ∀ reason ∈ reasons, reason.Paired) :
    MirroredAlignment (engine.align binance okx decision reasons)
      (engine.align (okx.map FeatureSnapshot.swapVenue) (binance.map FeatureSnapshot.swapVenue) decision
        mirrored) := by
  have hsource : ∀ snapshot : Option (FeatureSnapshot F),
      (snapshot.map FeatureSnapshot.swapVenue).bind (·.newestSourceTimestamp) =
        snapshot.bind (·.newestSourceTimestamp) := by
    intro snapshot
    cases snapshot <;> rfl
  have hid : ∀ snapshot : Option (FeatureSnapshot F),
      (snapshot.map FeatureSnapshot.swapVenue).map (·.featureSnapshotId) =
        snapshot.map (·.featureSnapshotId) := by
    intro snapshot
    cases snapshot <;> rfl
  have htime := timeDifference_swap hmath (binance.bind (·.newestSourceTimestamp))
    (okx.bind (·.newestSourceTimestamp))
  unfold align
  dsimp only
  rw [hsource, hsource, htime]
  constructor
  case decisionTimestamp => rfl
  case binanceSnapshotId => exact hid okx
  case okxSnapshotId => exact hid binance
  case binanceSourceTimestamp => rfl
  case okxSourceTimestamp => rfl
  case binanceDataAgeMs => rfl
  case okxDataAgeMs => rfl
  case dataAgeDifferenceMs => exact difference_map_floatAbs_swap _ _
  case snapshotTimeDifferenceMs => rfl
  case status =>
    cases binance with
    | none => cases okx <;> rfl
    | some binance =>
      cases okx with
      | none => rfl
      | some okx => exact pairStatus_swapVenue binance okx _ _ _
  case quality => exact alignmentQuality_swap _ _ _
  case unavailableReasons =>
    cases binance with
    | none => cases okx <;> exact hreasons.unique hpaired
    | some binance =>
      cases okx with
      | none => exact hreasons.unique hpaired
      | some okx =>
        apply (hreasons.append (mirrored_pairReasons binance okx _ _ _)).unique
        intro reason hreason
        rcases List.mem_append.mp hreason with hreason | hreason
        · exact hpaired reason hreason
        · exact pairReasons_paired binance okx _ _ _ reason hreason

/-! ## The snapshot -/

section

omit [Field F] [LinearOrder F]

/-- The detail of the reason begins with `cross-venue`. -/
theorem insufficientHistory_swapVenue :
    engine.insufficientHistory.swapVenue = engine.insufficientHistory := by
  have htext : swapVenueText engine.insufficientHistory.detail = engine.insufficientHistory.detail := by
    apply swapVenueText_of_head 'c' _ (by decide)
    unfold insufficientHistory
    simp only [String.toList_append]
    rfl
  show { engine.insufficientHistory with detail := swapVenueText engine.insufficientHistory.detail } = _
  rw [htext]

/-- The reason about the denominator names neither venue. -/
theorem mirrored_zeroDenominator (binanceMid okxMid : Option Decimal) :
    MirroredReasons (zeroDenominator binanceMid okxMid) (zeroDenominator okxMid binanceMid) ∧
      ∀ reason ∈ zeroDenominator binanceMid okxMid, reason.Paired := by
  cases binanceMid with
  | none => cases okxMid <;> exact ⟨.of_eq rfl, fun _ h => absurd h List.not_mem_nil⟩
  | some binanceMid =>
    cases okxMid with
    | none => exact ⟨.of_eq rfl, fun _ h => absurd h List.not_mem_nil⟩
    | some okxMid =>
      unfold zeroDenominator
      dsimp only
      rw [spreadDenominator_swap]
      refine ⟨.ite (by decide), ?_⟩
      intro reason hreason
      split_ifs at hreason
      · rw [List.mem_singleton.mp hreason]
        unfold FeatureUnavailableReason.Paired
        decide
      · exact absurd hreason List.not_mem_nil

theorem mirrored_priceReasons :
    MirroredReasons (priceReasons binance okx) (priceReasons okx.swapVenue binance.swapVenue) ∧
      ∀ reason ∈ priceReasons binance okx, reason.Paired := by
  obtain ⟨hzero, hzero'⟩ := mirrored_zeroDenominator (midPrice binance) (midPrice okx)
  obtain ⟨hmid, hmid'⟩ := mirrored_missingPair "price mid prices" "price" (midPrice binance)
    (midPrice okx) (by decide) (by decide) (by decide)
  obtain ⟨hreturn, hreturn'⟩ := mirrored_missingPair "venue returns" "price.return_direction_agreement"
    (binance.price.bind (·.returnValue)) (okx.price.bind (·.returnValue)) (by decide) (by decide)
      (by decide)
  refine ⟨(hzero.append hmid).append hreturn, ?_⟩
  intro reason hreason
  rcases List.mem_append.mp hreason with hreason | hreason
  · exact (List.mem_append.mp hreason).elim (hzero' reason) (hmid' reason)
  · exact hreturn' reason hreason

theorem mirrored_orderFlowReasons :
    MirroredReasons (orderFlowReasons binance okx) (orderFlowReasons okx.swapVenue binance.swapVenue) ∧
      ∀ reason ∈ orderFlowReasons binance okx, reason.Paired := by
  obtain ⟨htaker, htaker'⟩ := mirrored_missingPair "taker imbalances" "order_flow.taker"
    (binance.tradeFlow.bind (·.takerImbalance)) (okx.tradeFlow.bind (·.takerImbalance)) (by decide)
      (by decide) (by decide)
  obtain ⟨hofi, hofi'⟩ := mirrored_missingPair "order-flow imbalances" "order_flow.ofi"
    (binance.orderBook.bind (·.orderFlowImbalance)) (okx.orderBook.bind (·.orderFlowImbalance))
      (by decide) (by decide) (by decide)
  refine ⟨htaker.append hofi, ?_⟩
  intro reason hreason
  exact (List.mem_append.mp hreason).elim (htaker' reason) (hofi' reason)

theorem mirrored_positioningReasons :
    MirroredReasons (positioningReasons binance okx)
        (positioningReasons okx.swapVenue binance.swapVenue) ∧
      ∀ reason ∈ positioningReasons binance okx, reason.Paired := by
  obtain ⟨hchange, hchange'⟩ := mirrored_missingPair "percentage open-interest changes"
    "positioning.open_interest" (binance.openInterest.bind (·.percentageChange))
      (okx.openInterest.bind (·.percentageChange)) (by decide) (by decide) (by decide)
  obtain ⟨hfunding, hfunding'⟩ := mirrored_missingPair "funding rates" "positioning.funding"
    (binance.crowding.bind (·.fundingRate)) (okx.crowding.bind (·.fundingRate)) (by decide) (by decide)
      (by decide)
  refine ⟨hchange.append hfunding, ?_⟩
  intro reason hreason
  exact (List.mem_append.mp hreason).elim (hchange' reason) (hfunding' reason)

end

omit [Field F] [LinearOrder F] in
theorem absentGroups_mirrored [Neg F] {alignment mirrored : CrossVenueAlignmentResult F}
    (h : MirroredReasons alignment.unavailableReasons mirrored.unavailableReasons) :
    MirroredGroups (absentGroups alignment) (absentGroups mirrored) :=
  { pairCount := rfl
    sha256 := rfl
    isWarm := rfl
    isHealthy := rfl
    unavailableReasons := h
    price := rfl
    orderFlow := rfl
    positioning := rfl
    confirmation := rfl }

include hmath in
theorem pairedGroups_mirrored {candidates : List (FeatureSnapshot F)} {binance okx : FeatureSnapshot F}
    (hsymbol : binance.symbol = okx.symbol) (decision windowSeconds : Int)
    {alignment mirrored : CrossVenueAlignmentResult F} (h : MirroredAlignment alignment mirrored)
    (hpaired : ∀ reason ∈ alignment.unavailableReasons, reason.Paired) :
    MirroredGroups (engine.pairedGroups candidates binance okx decision windowSeconds alignment)
      (engine.pairedGroups (candidates.map FeatureSnapshot.swapVenue) okx.swapVenue binance.swapVenue
        decision windowSeconds mirrored) := by
  obtain ⟨hzscore, hcount, hdigest⟩ := spreadZscore_swapVenue hmath candidates binance.symbol decision
    windowSeconds (engine.percentageSpread (midPrice binance) (midPrice okx))
  have hspread : engine.spreadZscore (candidates.map FeatureSnapshot.swapVenue) okx.swapVenue.symbol
      decision windowSeconds (engine.percentageSpread (midPrice okx.swapVenue)
        (midPrice binance.swapVenue)) =
      engine.spreadZscore (candidates.map FeatureSnapshot.swapVenue) binance.symbol decision
        windowSeconds ((engine.percentageSpread (midPrice binance) (midPrice okx)).map (-·)) := by
    rw [← percentageSpread_swap hmath, hsymbol]
    rfl
  have hsome : ∀ value : Option F, (value.map (-·)).isSome = value.isSome := fun _ => Option.isSome_map
  have hprice := priceFeatures_swapVenue hmath binance okx
    (engine.spreadZscore candidates binance.symbol decision windowSeconds
      (engine.percentageSpread (midPrice binance) (midPrice okx))).1
  rw [← hzscore] at hprice
  unfold pairedGroups
  dsimp only
  rw [hspread]
  constructor
  case pairCount => exact hcount
  case sha256 => exact hdigest
  case isWarm =>
    rw [hzscore, hsome]
    exact congrArg (· && _) (Bool.and_comm okx.isWarm binance.isWarm)
  case isHealthy =>
    have haligned : decide (mirrored.status = .aligned) = decide (alignment.status = .aligned) := by
      rw [h.status, decide_eq_decide]
      cases alignment.status <;> decide
    show (decide (mirrored.status = .aligned) && okx.isHealthy && binance.isHealthy) =
      (decide (alignment.status = .aligned) && binance.isHealthy && okx.isHealthy)
    rw [haligned, Bool.and_right_comm]
  case unavailableReasons =>
    obtain ⟨hpriceReasons, hpricePaired⟩ := mirrored_priceReasons binance okx
    obtain ⟨hflowReasons, hflowPaired⟩ := mirrored_orderFlowReasons binance okx
    obtain ⟨hpositioning, hpositioningPaired⟩ :=
      mirrored_positioningReasons binance okx
    apply MirroredReasons.unique
    · rw [hzscore, hsome]
      apply (((h.unavailableReasons.append hpriceReasons).append hflowReasons).append hpositioning).append
      split_ifs
      · exact .of_eq rfl
      · exact .of_eq (congrArg (fun reason => [reason]) insufficientHistory_swapVenue.symm)
    · intro reason hreason
      simp only [List.mem_append] at hreason
      rcases hreason with (((hreason | hreason) | hreason) | hreason) | hreason
      · exact hpaired reason hreason
      · exact hpricePaired reason hreason
      · exact hflowPaired reason hreason
      · exact hpositioningPaired reason hreason
      · split_ifs at hreason
        · exact absurd hreason List.not_mem_nil
        · rw [List.mem_singleton.mp hreason]
          unfold FeatureUnavailableReason.Paired
          rw [insufficientHistory_swapVenue, insufficientHistory_swapVenue]
  case price => exact congrArg some hprice
  case orderFlow => exact congrArg some (orderFlowFeatures_swapVenue binance okx)
  case positioning => exact congrArg some (positioningFeatures_swapVenue binance okx)
  case confirmation =>
    rw [hprice, orderFlowFeatures_swapVenue, positioningFeatures_swapVenue, h.quality,
      confirmationFeatures_swapVenue]

omit [Field F] [LinearOrder F] in
/-- The sources in the other order. -/
theorem sources_swap (binance okx : Option (FeatureSnapshot F)) :
    [okx.map FeatureSnapshot.swapVenue, binance.map FeatureSnapshot.swapVenue].filterMap id =
      ([binance, okx].filterMap id).reverse.map FeatureSnapshot.swapVenue := by
  cases binance <;> cases okx <;> rfl

theorem snapshotOf_mirrored (symbol : String) (decision windowSeconds : Int)
    (binance okx : Option (FeatureSnapshot F)) {alignment mirrored : CrossVenueAlignmentResult F}
    {groups mirroredGroups : PairedGroups F} (halignment : MirroredAlignment alignment mirrored)
    (hgroups : MirroredGroups groups mirroredGroups) :
    Mirrored
      (engine.snapshotOf (engine.identity symbol decision windowSeconds binance okx alignment groups))
      (engine.snapshotOf (engine.identity symbol decision windowSeconds
        (okx.map FeatureSnapshot.swapVenue) (binance.map FeatureSnapshot.swapVenue) mirrored
          mirroredGroups)) := by
  have htimestamps : (sourceTimestamps
      (([binance, okx].filterMap id).reverse.map FeatureSnapshot.swapVenue)).Perm
        (sourceTimestamps ([binance, okx].filterMap id)) := by
    unfold sourceTimestamps
    rw [List.flatMap_map]
    exact (List.reverse_perm _).flatMap_right _
  have hages : ([mirrored.binanceDataAgeMs, mirrored.okxDataAgeMs].filterMap id).Perm
      ([alignment.binanceDataAgeMs, alignment.okxDataAgeMs].filterMap id) := by
    rw [halignment.binanceDataAgeMs, halignment.okxDataAgeMs]
    exact (List.Perm.swap _ _ _).filterMap _
  unfold identity
  dsimp only
  rw [sources_swap]
  constructor
  case binanceBookGeneration => cases okx <;> rfl
  case okxBookGeneration => cases binance <;> rfl
  case sourceSnapshotIds =>
    show (([binance, okx].filterMap id).reverse.map FeatureSnapshot.swapVenue).map
        (·.featureSnapshotId) = (([binance, okx].filterMap id).map (·.featureSnapshotId)).reverse
    rw [List.map_map, List.map_reverse]
    rfl
  case sourceEventCount =>
    show ((([binance, okx].filterMap id).reverse.map FeatureSnapshot.swapVenue).map
        (·.sourceEventCount)).sum = (([binance, okx].filterMap id).map (·.sourceEventCount)).sum
    rw [List.map_map, List.map_reverse, List.sum_reverse]
    rfl
  case oldestSourceTimestamp => exact min?_perm htimestamps
  case newestSourceTimestamp => exact max?_perm htimestamps
  case dataAgeMs => exact max?_perm hages
  case spreadHistoryPairCount => exact hgroups.pairCount
  case spreadHistorySha256 => exact hgroups.sha256
  case isWarm => exact hgroups.isWarm
  case isHealthy => exact hgroups.isHealthy
  case alignment => exact halignment
  case unavailableReasons => exact hgroups.unavailableReasons
  case price => exact hgroups.price
  case orderFlow => exact hgroups.orderFlow
  case positioning => exact hgroups.positioning
  case confirmation => exact hgroups.confirmation
  case leadLag => exact congrArg leadLag halignment.quality
  all_goals rfl

end CrossVenueFeatureEngine

/-! ## The validators -/

section Validators

variable {F : Type} [Neg F] {snapshot mirrored : CrossVenueFeatureSnapshot F}

theorem Mirrored.expectedIds (h : Mirrored snapshot mirrored) :
    CrossVenueFeatureSnapshot.expectedIds mirrored.alignment =
      (CrossVenueFeatureSnapshot.expectedIds snapshot.alignment).reverse := by
  unfold CrossVenueFeatureSnapshot.expectedIds
  rw [h.alignment.binanceSnapshotId, h.alignment.okxSnapshotId]
  cases snapshot.alignment.binanceSnapshotId <;> cases snapshot.alignment.okxSnapshotId <;> rfl

theorem Mirrored.historyRules (h : Mirrored snapshot mirrored) :
    mirrored.historyRules = snapshot.historyRules := by
  have hnone : mirrored.spreadHistorySha256.isNone = snapshot.spreadHistorySha256.isNone := by
    rw [← Option.not_isSome, h.spreadHistorySha256, Option.not_isSome]
  have hprice : mirrored.price.isNone = snapshot.price.isNone := by
    rw [h.price, Option.isNone_map]
  have hspread : mirrored.price.any (·.midPricePercentageSpread.isSome) =
      snapshot.price.any (·.midPricePercentageSpread.isSome) := by
    rw [h.price]
    cases snapshot.price with
    | none => rfl
    | some price => exact Option.isSome_map
  unfold CrossVenueFeatureSnapshot.historyRules
  simp only [hnone, hprice, hspread, h.sourceSnapshotIds, h.expectedIds, List.reverse_inj,
    h.spreadHistoryPairCount, h.spreadHistorySha256, List.length_reverse, List.nodup_reverse]

theorem Mirrored.availabilityRules (h : Mirrored snapshot mirrored) :
    mirrored.availabilityRules = snapshot.availabilityRules := by
  have hstatus : (mirrored.alignment.status = .unavailable) =
        (snapshot.alignment.status = .unavailable) ∧
      (mirrored.alignment.status = .aligned) = (snapshot.alignment.status = .aligned) := by
    rw [h.alignment.status]
    cases snapshot.alignment.status <;> decide
  have hempty : mirrored.unavailableReasons.isEmpty = snapshot.unavailableReasons.isEmpty := by
    rw [Bool.eq_iff_iff, List.isEmpty_iff, List.isEmpty_iff, ← List.length_eq_zero_iff,
      ← List.length_eq_zero_iff, h.unavailableReasons.length_eq, List.length_map]
  unfold CrossVenueFeatureSnapshot.availabilityRules
  simp only [hstatus.1, hstatus.2, hempty, h.alignment.decisionTimestamp, h.decisionTimestamp,
    h.price, h.orderFlow, h.positioning, h.confirmation, h.isHealthy, h.isWarm, Option.isSome_map]

theorem Mirrored.validate (h : Mirrored snapshot mirrored) :
    mirrored.validateCrossVenueBoundaries = snapshot.validateCrossVenueBoundaries := by
  unfold CrossVenueFeatureSnapshot.validateCrossVenueBoundaries
  rw [h.historyRules, h.availabilityRules, h.sourceEventCount, h.oldestSourceTimestamp,
    h.newestSourceTimestamp, h.dataAgeMs, h.decisionTimestamp, h.calculationTimestamp]

/-- A test that does not see the sign does not see which venue came first. -/
theorem Mirrored.all_checkedNumbers (h : Mirrored snapshot mirrored) {p : F → Bool}
    (hneg : ∀ value, p (-value) = p value) :
    mirrored.checkedNumbers.all p = snapshot.checkedNumbers.all p := by
  have hfields : ∀ fields : List (Option F), (fields.filterMap id).all p = fields.all (·.all p) := by
    intro fields
    rw [List.all_filterMap]
    congr 1
  have hmap : ∀ field : Option F, (field.map (-·)).all p = field.all p := by
    intro field
    cases field with
    | none => rfl
    | some value => exact hneg value
  have halignment : mirrored.alignment.checked.all (·.all p) = snapshot.alignment.checked.all (·.all p) := by
    unfold CrossVenueAlignmentResult.checked
    rw [h.alignment.binanceDataAgeMs, h.alignment.okxDataAgeMs, h.alignment.dataAgeDifferenceMs,
      h.alignment.snapshotTimeDifferenceMs, h.alignment.quality]
    exact Bool.and_left_comm ..
  have hprice : (mirrored.price.elim [] CrossVenuePriceFeatureValues.checked).all (·.all p) =
      (snapshot.price.elim [] CrossVenuePriceFeatureValues.checked).all (·.all p) := by
    rw [h.price]
    cases snapshot.price with
    | none => rfl
    | some price =>
      simp [CrossVenuePriceFeatureValues.checked, CrossVenuePriceFeatureValues.swapVenue, hmap]
  have horderFlow : (mirrored.orderFlow.elim [] CrossVenueOrderFlowFeatureValues.checked).all (·.all p) =
      (snapshot.orderFlow.elim [] CrossVenueOrderFlowFeatureValues.checked).all (·.all p) := by
    rw [h.orderFlow]
    cases snapshot.orderFlow with
    | none => rfl
    | some orderFlow =>
      simp [CrossVenueOrderFlowFeatureValues.checked, CrossVenueOrderFlowFeatureValues.swapVenue, hmap]
  have hpositioning :
      (mirrored.positioning.elim [] CrossVenuePositioningFeatureValues.checked).all (·.all p) =
        (snapshot.positioning.elim [] CrossVenuePositioningFeatureValues.checked).all (·.all p) := by
    rw [h.positioning]
    cases snapshot.positioning with
    | none => rfl
    | some positioning =>
      simp [CrossVenuePositioningFeatureValues.checked, CrossVenuePositioningFeatureValues.swapVenue, hmap,
        Bool.and_left_comm]
  unfold CrossVenueFeatureSnapshot.checkedNumbers
  simp only [hfields, List.all_append, halignment, hprice, horderFlow, hpositioning, h.confirmation,
    h.leadLag, h.dataAgeMs]

end Validators

theorem FeatureMath.isFinite_neg {F : Type} [Field F] [LinearOrder F] (math : FeatureMath F) (value : F) :
    math.isFinite (-value) = math.isFinite value := by
  unfold FeatureMath.isFinite floatAbs
  rw [neg_neg, max_comm]

/-- The same rule broken, or paired snapshots with the venues exchanged. -/
inductive MirroredOutcome {F : Type} [Neg F] :
    Except String (CrossVenueFeatureSnapshot F) → Except String (CrossVenueFeatureSnapshot F) → Prop
  | error (text : String) : MirroredOutcome (.error text) (.error text)
  | ok {snapshot mirrored : CrossVenueFeatureSnapshot F} (h : Mirrored snapshot mirrored) :
      MirroredOutcome (.ok snapshot) (.ok mirrored)

namespace CrossVenueFeatureEngine

variable {F : Type} [Field F] [LinearOrder F] {engine : CrossVenueFeatureEngine F} {sqrt : F → F}
  {largestFloat : F}

theorem unavailable_of_swapVenue {status : AlignmentStatus} (h : status.swapVenue = .unavailable) :
    status = .unavailable := by
  cases status
  case unavailable => rfl
  all_goals exact absurd h (by decide)

theorem align_paired (binance okx : Option (FeatureSnapshot F)) (decision : Int)
    {reasons : List FeatureUnavailableReason} (hpaired : ∀ reason ∈ reasons, reason.Paired) :
    ∀ reason ∈ (engine.align binance okx decision reasons).unavailableReasons, reason.Paired := by
  intro reason hreason
  have hreason := List.mem_eraseDups.mp hreason
  cases binance with
  | none => cases okx <;> exact hpaired reason hreason
  | some binance =>
    cases okx with
    | none => exact hpaired reason hreason
    | some okx =>
      rcases List.mem_append.mp hreason with hreason | hreason
      · exact hpaired reason hreason
      · exact pairReasons_paired binance okx _ _ _ reason hreason

/-- The paired snapshot of exchanged candidates of one symbol. -/
theorem assemble_swapVenue (hmath : engine.math = exactFeatureMath sqrt largestFloat)
    {candidates : List (FeatureSnapshot F)} {symbol : String}
    (hsymbol : ∀ candidate ∈ candidates, candidate.symbol = symbol) (decision windowSeconds : Int) :
    Mirrored (engine.assemble candidates symbol decision windowSeconds)
      (engine.assemble (candidates.map FeatureSnapshot.swapVenue) symbol decision windowSeconds) := by
  have hbinance : selectSnapshot (candidates.map FeatureSnapshot.swapVenue) .binance decision =
      (((selectSnapshot candidates .okx decision).1).map FeatureSnapshot.swapVenue,
        ((selectSnapshot candidates .okx decision).2).map FeatureUnavailableReason.swapVenue) :=
    selectSnapshot_swapVenue candidates (.inl rfl) decision
  have hokx : selectSnapshot (candidates.map FeatureSnapshot.swapVenue) .okx decision =
      (((selectSnapshot candidates .binance decision).1).map FeatureSnapshot.swapVenue,
        ((selectSnapshot candidates .binance decision).2).map FeatureUnavailableReason.swapVenue) :=
    selectSnapshot_swapVenue candidates (.inr rfl) decision
  have hreasons : ∀ reason : Option FeatureUnavailableReason,
      MirroredReasons reason.toList (reason.map FeatureUnavailableReason.swapVenue).toList := by
    intro reason
    cases reason <;> exact .of_eq rfl
  have hselected : ∀ {exchange} {snapshot : FeatureSnapshot F},
      (selectSnapshot candidates exchange decision).1 = some snapshot → snapshot.symbol = symbol := by
    intro exchange snapshot h
    exact hsymbol snapshot (selectSnapshot_mem h).1
  have hpaired : ∀ reason ∈ (selectSnapshot candidates .binance decision).2.toList ++
      (selectSnapshot candidates .okx decision).2.toList, reason.Paired := by
    intro reason hreason
    exact (List.mem_append.mp hreason).elim (selectSnapshot_paired candidates (.inl rfl) decision reason)
      (selectSnapshot_paired candidates (.inr rfl) decision reason)
  unfold assemble
  rw [hbinance, hokx]
  generalize hleft : selectSnapshot candidates .binance decision = left at hpaired ⊢
  generalize hright : selectSnapshot candidates .okx decision = right at hpaired ⊢
  obtain ⟨binance, binanceReason⟩ := left
  obtain ⟨okx, okxReason⟩ := right
  dsimp only at hpaired ⊢
  have halignment := align_swapVenue hmath binance okx decision
    ((hreasons binanceReason).append_swap (hreasons okxReason)) hpaired
  apply snapshotOf_mirrored _ _ _ _ _ halignment
  cases binance with
  | none => cases okx <;> exact absentGroups_mirrored halignment.unavailableReasons
  | some binance =>
    cases okx with
    | none => exact absentGroups_mirrored halignment.unavailableReasons
    | some okx =>
      have hsame : binance.symbol = okx.symbol :=
        (hselected (congrArg Prod.fst hleft)).trans (hselected (congrArg Prod.fst hright)).symm
      dsimp only [Option.map_some] at halignment ⊢
      by_cases hstatus : (engine.align (some binance) (some okx) decision
          (binanceReason.toList ++ okxReason.toList)).status = .unavailable
      · have hmirrored : (engine.align (some okx.swapVenue) (some binance.swapVenue) decision
            ((okxReason.map FeatureUnavailableReason.swapVenue).toList ++
              (binanceReason.map FeatureUnavailableReason.swapVenue).toList)).status = .unavailable :=
          halignment.status.trans (congrArg AlignmentStatus.swapVenue hstatus)
        rw [if_pos hstatus, if_pos hmirrored]
        exact absentGroups_mirrored halignment.unavailableReasons
      · rw [if_neg hstatus,
          if_neg (fun h => hstatus (unavailable_of_swapVenue (halignment.status.symm.trans h)))]
        exact pairedGroups_mirrored hmath hsame decision windowSeconds halignment
          (align_paired _ _ decision hpaired)

/-- Exchanging Binance and OKX in the collection exchanges them in the result. -/
theorem calculate_swapVenue (hmath : engine.math = exactFeatureMath sqrt largestFloat)
    (snapshots : List (FeatureSnapshot F)) (symbol : String) (decision windowSeconds : Int) :
    MirroredOutcome (engine.calculate snapshots symbol decision windowSeconds)
      (engine.calculate (snapshots.map FeatureSnapshot.swapVenue) symbol decision windowSeconds) := by
  have hmirrored : Mirrored
      (engine.assemble (crossVenueCandidates snapshots symbol windowSeconds) symbol decision windowSeconds)
      (engine.assemble (crossVenueCandidates (snapshots.map FeatureSnapshot.swapVenue) symbol
        windowSeconds) symbol decision windowSeconds) := by
    have hsorted : ∀ collection : List (FeatureSnapshot F),
        crossVenueCandidates collection symbol windowSeconds =
          sortByKey candidateKey (relevantSnapshots collection symbol windowSeconds) := fun _ => rfl
    rw [hsorted, hsorted, assemble_sort, assemble_sort, relevantSnapshots_swapVenue]
    apply assemble_swapVenue hmath
    intro candidate hcandidate
    exact (of_decide_eq_true (List.mem_filter.mp hcandidate).2).1
  unfold calculate
  split_ifs
  · dsimp only [bind, Except.bind]
    unfold FeatureMath.ensureFinite
    rw [hmirrored.all_checkedNumbers engine.math.isFinite_neg, hmirrored.validate]
    split_ifs
    · cases (engine.assemble (crossVenueCandidates snapshots symbol windowSeconds) symbol decision
          windowSeconds).validateCrossVenueBoundaries with
      | some text => exact .error text
      | none => exact .ok hmirrored
    · exact .error _
  · exact .error _

/-- A square root that is exact on the squares of rationals. -/
def squareRoot (variance : ℚ) : ℚ := variance.num.toNat.sqrt / variance.den.sqrt

def exactVenueEngine : CrossVenueFeatureEngine ℚ :=
  { exampleCrossVenueEngine with math := exactFeatureMath squareRoot (2 ^ 1024 - 2 ^ 971) }

theorem calculate_swapVenue_two :
    MirroredOutcome (exactVenueEngine.calculate exampleVenueSnapshots "BTC-USDT-PERP" 1000000 5)
      (exactVenueEngine.calculate (exampleVenueSnapshots.map FeatureSnapshot.swapVenue)
        "BTC-USDT-PERP" 1000000 5) :=
  calculate_swapVenue (rfl : exactVenueEngine.math = exactFeatureMath squareRoot (2 ^ 1024 - 2 ^ 971))
    exampleVenueSnapshots "BTC-USDT-PERP" 1000000 5

end CrossVenueFeatureEngine

end Cvf
