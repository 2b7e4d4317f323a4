/-
# Cvf.Features.CrossVenue — paired features of Binance and OKX.

`CrossVenueFeatureEngine` selects the newest snapshot of each venue at or before a decision, judges how well
the two are aligned, and compares them field by field.  What a venue lacks is noted as a reason.  The
history of the spread pairs the snapshots of equal decision time within the lookback.

`float` is any ordered type with the operations the engine uses and none of their laws, the conversions from
`Decimal` and from a duration are parameters, and so are the two hashes: of the spread history, and of the
identity of a snapshot.  A number beyond the largest `float` stands for an infinite one.
-/
import Cvf.Features.FeatureModels
import Cvf.Library.FirstMax
import Cvf.Library.SortByKey

namespace Cvf

open Cvf.Library

/-- The conversions and statistics the engines compute with. -/
structure FeatureMath (F : Type) extends MetricMath F where
  /-- `float(value)` of a `Decimal` -/
  toFloat : Decimal → F
  /-- `duration.total_seconds() * 1000.0` -/
  milliseconds : Int → F
  /-- `sys.float_info.max` -/
  largestFloat : F

/-- What the engine reads off `Settings`. -/
structure CrossVenueSettings (F : Type) where
  strategyVersion : String
  /-- `__version__` -/
  codeVersion : String
  /-- `settings_fingerprint(settings)` -/
  configHash : String
  canonicalSymbols : List String
  featureWindowsSeconds : List Int
  zscoreLookbackSeconds : Int
  maxSnapshotAgeMs : Nat
  maxTimeDifferenceMs : Nat
  zscoreMinimumSamples : Nat
  directionEpsilon : F
  strengthTolerance : F
  abnormalJumpZscore : F

/-- One entry of `history_identity`. -/
structure SpreadHistoryEntry (F : Type) where
  decisionTimestamp : Int
  binanceSnapshotId : Uuid
  okxSnapshotId : Uuid
  binanceMidPrice : Option Decimal
  okxMidPrice : Option Decimal
  percentageSpread : F
  deriving DecidableEq

/-- The part of a snapshot that depends on whether the alignment is available. -/
structure PairedGroups (F : Type) where
  /-- `spread_history_pair_count` and `spread_history_sha256`, where they are given -/
  spreadHistory : Option (Nat × Option String)
  isWarm : Bool
  isHealthy : Bool
  unavailableReasons : List FeatureUnavailableReason
  price : Option (CrossVenuePriceFeatureValues F)
  orderFlow : Option (CrossVenueOrderFlowFeatureValues F)
  positioning : Option (CrossVenuePositioningFeatureValues F)
  confirmation : Option (CrossVenueConfirmationFeatureValues F)

/-- What an id is computed from: `identity_base`, and the rest as `groups`. -/
structure CrossVenueIdentity (F : Type) where
  strategyVersion : String
  codeVersion : String
  configHash : String
  symbol : String
  decisionTimestamp : Int
  windowSeconds : Int
  binanceBookGeneration : Option Nat
  okxBookGeneration : Option Nat
  sourceSnapshotIds : List Uuid
  sourceEventCount : Nat
  oldestSourceTimestamp : Option Int
  newestSourceTimestamp : Option Int
  dataAgeMs : Option F
  alignment : CrossVenueAlignmentResult F
  leadLag : LeadLagResearchFeatureValues F
  groups : PairedGroups F

structure CrossVenueFeatureEngine (F : Type) where
  settings : CrossVenueSettings F
  math : FeatureMath F
  /-- `sha256_text(canonical_json(canonicalize_for_hash(history_identity)))` -/
  historySha256 : List (SpreadHistoryEntry F) → String
  /-- `_feature_id` -/
  featureId : CrossVenueIdentity F → Uuid

/-! ## Comparisons -/

section Comparisons

variable {F : Type} [Zero F] [One F] [Neg F] [Sub F] [LinearOrder F]

/-- `abs` of a `float`. -/
def floatAbs (value : F) : F := max value (-value)

/-- `math.isfinite` -/
def FeatureMath.isFinite (math : FeatureMath F) (value : F) : Bool :=
  decide (floatAbs value ≤ math.largestFloat)

/-- `ensure_finite_number`, of some numbers. -/
def FeatureMath.ensureFinite (math : FeatureMath F) (numbers : List F) : Except String Unit :=
  if numbers.all math.isFinite then .ok () else .error "feature values must be finite"

omit [Zero F] [One F] [Sub F] in
theorem FeatureMath.ensureFinite_ok_iff {math : FeatureMath F} {numbers : List F} {checked : Unit} :
    math.ensureFinite numbers = .ok checked ↔ numbers.all math.isFinite = true := by
  unfold FeatureMath.ensureFinite
  split_ifs with hall
  · exact iff_of_true rfl hall
  · exact iff_of_false (fun h => by cases h) hall

/-- `_direction`, of a number already converted to `float`. -/
def direction (epsilon : F) : Option F → DirectionState
  | none => .unavailable
  | some numeric =>
    if epsilon < numeric then .positive
    else if numeric < -epsilon then .negative
    else .flat

/-- `_direction_agreement`. -/
def directionAgreement (epsilon : F) (left right : Option F) : DirectionAgreement :=
  match direction epsilon left, direction epsilon right with
  | .unavailable, _ => .unavailable
  | _, .unavailable => .unavailable
  | .positive, .positive => .bothPositive
  | .negative, .negative => .bothNegative
  | .flat, .flat => .bothFlat
  | _, _ => .divergent

/-- `_difference` and `_decimal_difference`. -/
def difference {N : Type} [Sub N] (left right : Option N) : Option N :=
  match left, right with
  | some left, some right => some (left - right)
  | _, _ => none

/-- `_agreement_value`. -/
def agreementValue : DirectionAgreement → Option F
  | .unavailable => none
  | .divergent => some (-1)
  | .bothFlat => some 0
  | _ => some 1

/-- `_context_value`. -/
def contextValue : ContextAgreement → Option F
  | .unavailable => none
  | .matched => some 1
  | .conflict => some (-1)

/-- `_crowding_value`. -/
def crowdingValue : CrowdingAgreement → Option F
  | .unavailable => none
  | .divergent => some (-1)
  | .oneSided => some 0
  | _ => some 1

/-- `_activity_value`. -/
def activityValue : ActivityAgreement → Option F
  | .unavailable => none
  | .divergent => some (-1)
  | .oneSided => some 0
  | _ => some 1

end Comparisons

/-- `_unique_reasons`: each reason where it first stands. -/
def uniqueReasons (reasons : List FeatureUnavailableReason) : List FeatureUnavailableReason :=
  reasons.eraseDups

/-- A reason of the alignment. -/
def alignmentReason (code : FeatureUnavailableCode) (detail : String) : FeatureUnavailableReason :=
  { code, detail, channel := some "alignment" }

/-- `_note_missing_pair`. -/
def missingPair {α : Type} (label : String) (left right : Option α) (channel : String) :
    List FeatureUnavailableReason :=
  let missing : Option String :=
    match left, right with
    | some _, some _ => none
    | none, some _ => some "Binance"
    | some _, none => some "OKX"
    | none, none => some "Binance and OKX"
  missing.toList.map fun venues =>
    { code := .featureInputMissing, detail := venues ++ " missing " ++ label, channel := some channel }

/-! ## Selection -/

section Selection

variable {F : Type}

/-- The key of `candidates`; ids of one width compare as their numbers do. -/
def candidateKey (snapshot : FeatureSnapshot F) : Int ×ₗ String ×ₗ Nat :=
  toLex (snapshot.decisionTimestamp,
    toLex (snapshot.exchange.value, snapshot.featureSnapshotId.int))

/-- The key a venue's eligible snapshots are compared by. -/
def selectionKey (snapshot : FeatureSnapshot F) : Int ×ₗ Nat :=
  toLex (snapshot.decisionTimestamp, snapshot.featureSnapshotId.int)

/-- `candidates`. -/
def crossVenueCandidates (snapshots : List (FeatureSnapshot F)) (symbol : String)
    (windowSeconds : Int) : List (FeatureSnapshot F) :=
  sortByKey candidateKey (snapshots.filter fun snapshot =>
    snapshot.symbol = symbol ∧ snapshot.windowSeconds = windowSeconds ∧
      (snapshot.exchange = .binance ∨ snapshot.exchange = .okx))

/-- `_select_snapshot`. -/
def selectSnapshot (snapshots : List (FeatureSnapshot F)) (exchange : Exchange) (decision : Int) :
    Option (FeatureSnapshot F) × Option FeatureUnavailableReason :=
  let venue := snapshots.filter (·.exchange = exchange)
  let eligible := venue.filter (·.decisionTimestamp ≤ decision)
  match firstMax selectionKey eligible with
  | some newest => (some newest, none)
  | none =>
    let label := if exchange = .binance then "binance" else "okx"
    if venue.isEmpty then
      (none, some (alignmentReason
        (if exchange = .binance then .missingBinanceSnapshot else .missingOkxSnapshot)
        ("no " ++ label ++ " snapshot exists for symbol/window")))
    else
      (none, some (alignmentReason
        (if exchange = .binance then .futureBinanceSnapshot else .futureOkxSnapshot)
        ("only future " ++ label ++ " snapshots exist at the decision boundary")))

end Selection

namespace CrossVenueFeatureEngine

variable {F : Type} [Zero F] [One F] [Neg F] [Add F] [Sub F] [Div F] [LinearOrder F]
  (engine : CrossVenueFeatureEngine F)

/-! ## Alignment -/

/-- `max(0.0, (decision - source).total_seconds() * 1000.0)`. -/
def sourceAge (decision : Int) (source : Option Int) : Option F :=
  source.map fun source => max 0 (engine.math.milliseconds (decision - source))

/-- `_alignment_quality`. -/
def alignmentQuality (binanceAge okxAge timeDifference : Option F) : F :=
  match binanceAge, okxAge, timeDifference with
  | some binanceAge, some okxAge, some timeDifference =>
    let ageLimit := engine.math.toFloat engine.settings.maxSnapshotAgeMs
    let differenceLimit := engine.math.toFloat engine.settings.maxTimeDifferenceMs
    let worstRatio :=
      max (max (binanceAge / ageLimit) (okxAge / ageLimit)) (timeDifference / differenceLimit)
    1 / (1 + worstRatio)
  | _, _, _ => 0

/-- The reasons `_align` appends for two selected snapshots. -/
def pairReasons (binance okx : FeatureSnapshot F) (binanceStale okxStale badTimeAlignment : Bool) :
    List FeatureUnavailableReason :=
  (if binance.newestSourceTimestamp.isNone then
    [alignmentReason .featureInputMissing "Binance snapshot has no source timestamp"] else []) ++
  (if okx.newestSourceTimestamp.isNone then
    [alignmentReason .featureInputMissing "OKX snapshot has no source timestamp"] else []) ++
  (if binanceStale then
    [alignmentReason .staleBinanceSnapshot "Binance source age exceeds the configured threshold"]
    else []) ++
  (if okxStale then
    [alignmentReason .staleOkxSnapshot "OKX source age exceeds the configured threshold"] else []) ++
  (if !binance.isWarm then
    [alignmentReason .binanceNotWarm "Binance feature snapshot is not warm"] else []) ++
  (if !okx.isWarm then [alignmentReason .okxNotWarm "OKX feature snapshot is not warm"] else []) ++
  (if !binance.isHealthy then
    [alignmentReason .binanceUnhealthy "Binance feature snapshot is unhealthy"] else []) ++
  (if !okx.isHealthy then
    [alignmentReason .okxUnhealthy "OKX feature snapshot is unhealthy"] else []) ++
  (if badTimeAlignment then
    [alignmentReason .timeAlignment "venue source timestamps exceed the configured separation"]
    else [])

/-- The status `_align` gives two selected snapshots. -/
def pairStatus (binance okx : FeatureSnapshot F) (binanceStale okxStale badTimeAlignment : Bool) :
    AlignmentStatus :=
  if binanceStale && okxStale then .unavailable
  else if binanceStale then .staleBinance
  else if okxStale then .staleOkx
  else if binance.newestSourceTimestamp.isNone || okx.newestSourceTimestamp.isNone ||
      badTimeAlignment || !binance.isWarm || !okx.isWarm || !binance.isHealthy || !okx.isHealthy then
    .degraded
  else .aligned

/-- `_align`. -/
def align (binance okx : Option (FeatureSnapshot F)) (decision : Int)
    (selectionReasons : List FeatureUnavailableReason) : CrossVenueAlignmentResult F :=
  let binanceSource := binance.bind (·.newestSourceTimestamp)
  let okxSource := okx.bind (·.newestSourceTimestamp)
  let binanceAge := engine.sourceAge decision binanceSource
  let okxAge := engine.sourceAge decision okxSource
  let timeDifference := (difference binanceSource okxSource).map fun apart =>
    floatAbs (engine.math.milliseconds apart)
  let ageDifference := (difference binanceAge okxAge).map floatAbs
  let ageLimit := engine.math.toFloat engine.settings.maxSnapshotAgeMs
  let binanceStale := binanceAge.any (ageLimit < ·)
  let okxStale := okxAge.any (ageLimit < ·)
  let badTimeAlignment :=
    timeDifference.any (engine.math.toFloat engine.settings.maxTimeDifferenceMs < ·)
  { decisionTimestamp := decision
    binanceSnapshotId := binance.map (·.featureSnapshotId)
    okxSnapshotId := okx.map (·.featureSnapshotId)
    binanceSourceTimestamp := binanceSource
    okxSourceTimestamp := okxSource
    binanceDataAgeMs := binanceAge
    okxDataAgeMs := okxAge
    dataAgeDifferenceMs := ageDifference
    snapshotTimeDifferenceMs := timeDifference
    status :=
      match binance, okx with
      | some binance, some okx => pairStatus binance okx binanceStale okxStale badTimeAlignment
      | _, _ => .unavailable
    quality := engine.alignmentQuality binanceAge okxAge timeDifference
    unavailableReasons := uniqueReasons
      (match binance, okx with
      | some binance, some okx =>
        selectionReasons ++ pairReasons binance okx binanceStale okxStale badTimeAlignment
      | _, _ => selectionReasons) }

/-! ## The spread -/

/-- `(abs(binance_mid) + abs(okx_mid)) / Decimal(2)`. -/
def spreadDenominator (binanceMid okxMid : Decimal) : Decimal := (|binanceMid| + |okxMid|) / 2

/-- `_percentage_spread`. -/
def percentageSpread (binanceMid okxMid : Option Decimal) : Option F :=
  match binanceMid, okxMid with
  | some binanceMid, some okxMid =>
    let denominator := spreadDenominator binanceMid okxMid
    if denominator = 0 then none
    else some (engine.math.toFloat ((binanceMid - okxMid) / denominator))
  | _, _ => none

/-- The reason `_percentage_spread` appends. -/
def zeroDenominator (binanceMid okxMid : Option Decimal) : List FeatureUnavailableReason :=
  match binanceMid, okxMid with
  | some binanceMid, some okxMid =>
    if spreadDenominator binanceMid okxMid = 0 then
      [{ code := .zeroDenominator
         detail := "symmetric mid-price denominator is zero"
         channel := some "price.mid_price_percentage_spread" }]
    else []
  | _, _ => []

/-- `snapshot.order_book.mid_price`, where there is a book. -/
def midPrice (snapshot : FeatureSnapshot F) : Option Decimal :=
  snapshot.orderBook.bind (·.midPrice)

/-- The snapshots the history is made of. -/
def insideLookback (snapshots : List (FeatureSnapshot F)) (symbol : String) (decision : Int)
    (windowSeconds : Int) : List (FeatureSnapshot F) :=
  snapshots.filter fun snapshot =>
    snapshot.symbol = symbol ∧ snapshot.windowSeconds = windowSeconds ∧
      decision - engine.settings.zscoreLookbackSeconds * 1000000 < snapshot.decisionTimestamp ∧
        snapshot.decisionTimestamp < decision

/-- What `paired` keeps for a timestamp and an exchange: the snapshot of the largest id. -/
def pairedAt (inside : List (FeatureSnapshot F)) (timestamp : Int) (exchange : Exchange) :
    Option (FeatureSnapshot F) :=
  firstMax (·.featureSnapshotId.int) (inside.filter fun snapshot =>
    snapshot.decisionTimestamp = timestamp ∧ snapshot.exchange = exchange)

/-- `sorted(paired)`. -/
def pairedTimestamps (inside : List (FeatureSnapshot F)) : List Int :=
  sortByKey id (inside.map (·.decisionTimestamp)).dedup

/-- One round of the loop over `sorted(paired)`. -/
def historyEntry (inside : List (FeatureSnapshot F)) (timestamp : Int) :
    Option (SpreadHistoryEntry F) :=
  match pairedAt inside timestamp .binance, pairedAt inside timestamp .okx with
  | some binance, some okx =>
    (engine.percentageSpread (midPrice binance) (midPrice okx)).map fun spread =>
      { decisionTimestamp := timestamp
        binanceSnapshotId := binance.featureSnapshotId
        okxSnapshotId := okx.featureSnapshotId
        binanceMidPrice := midPrice binance
        okxMidPrice := midPrice okx
        percentageSpread := spread }
  | _, _ => none

/-- `history_identity`; `history` is its percentage spreads. -/
def spreadHistory (snapshots : List (FeatureSnapshot F)) (symbol : String) (decision : Int)
    (windowSeconds : Int) : List (SpreadHistoryEntry F) :=
  let inside := engine.insideLookback snapshots symbol decision windowSeconds
  (pairedTimestamps inside).filterMap (engine.historyEntry inside)

/-- The z-score of a spread against a history long enough and not constant. -/
def historyZscore (history : List F) (value : F) : Option F :=
  if history.length < engine.settings.zscoreMinimumSamples then none
  else
    let deviation := engine.math.pstdev history
    if deviation = 0 then none else some ((value - engine.math.fmean history) / deviation)

/-- `_spread_zscore`. -/
def spreadZscore (snapshots : List (FeatureSnapshot F)) (symbol : String) (decision : Int)
    (windowSeconds : Int) (value : Option F) : Option F × Nat × Option String :=
  match value with
  | none => (none, 0, none)
  | some value =>
    let history := engine.spreadHistory snapshots symbol decision windowSeconds
    (engine.historyZscore (history.map (·.percentageSpread)) value, history.length,
      some (engine.historySha256 history))

/-! ## The paired groups -/

/-- `_price_features`, without the reasons. -/
def priceFeatures (binance okx : FeatureSnapshot F) (zscore : Option F) :
    CrossVenuePriceFeatureValues F :=
  let epsilon := engine.settings.directionEpsilon
  let returnValue (snapshot : FeatureSnapshot F) := snapshot.price.bind (·.returnValue)
  let impulse (snapshot : FeatureSnapshot F) := snapshot.price.bind (·.impulseZscore)
  let volatility (snapshot : FeatureSnapshot F) := snapshot.price.bind (·.realizedVolatility)
  let relativeSpread (snapshot : FeatureSnapshot F) := snapshot.orderBook.bind (·.relativeSpread)
  { binanceMidPrice := midPrice binance
    okxMidPrice := midPrice okx
    midPriceDifference := difference (midPrice binance) (midPrice okx)
    midPriceAbsoluteSpread :=
      (difference (midPrice binance) (midPrice okx)).map fun apart => |apart|
    percentageSpreadDenominator :=
      match midPrice binance, midPrice okx with
      | some binanceMid, some okxMid => some (spreadDenominator binanceMid okxMid)
      | _, _ => none
    midPricePercentageSpread := engine.percentageSpread (midPrice binance) (midPrice okx)
    midPriceSpreadZscore := zscore
    returnDirectionAgreement :=
      directionAgreement epsilon (returnValue binance) (returnValue okx)
    priceImpulseDirectionAgreement := directionAgreement epsilon (impulse binance) (impulse okx)
    priceImpulseStrengthDifference := difference (impulse binance) (impulse okx)
    realizedVolatilityDifference := difference (volatility binance) (volatility okx)
    relativeSpreadDivergence := difference (relativeSpread binance) (relativeSpread okx) }

/-- The reasons `_price_features` appends. -/
def priceReasons (binance okx : FeatureSnapshot F) : List FeatureUnavailableReason :=
  zeroDenominator (midPrice binance) (midPrice okx) ++
  missingPair "price mid prices" (midPrice binance) (midPrice okx) "price" ++
  missingPair "venue returns" (binance.price.bind (·.returnValue)) (okx.price.bind (·.returnValue))
    "price.return_direction_agreement"

/-- `_liquidity_status`. -/
def liquidityStatus (binanceAdd binanceRemove okxAdd okxRemove : Option Decimal) :
    LiquidityDivergenceStatus :=
  match binanceAdd, binanceRemove, okxAdd, okxRemove with
  | some binanceAdd, some binanceRemove, some okxAdd, some okxRemove =>
    let epsilon := engine.settings.directionEpsilon
    match direction epsilon (some (engine.math.toFloat (binanceAdd - binanceRemove))),
      direction epsilon (some (engine.math.toFloat (okxAdd - okxRemove))) with
    | .positive, .positive => .confirmedAddition
    | .negative, .negative => .confirmedRemoval
    | .flat, .flat => .neutral
    | _, _ => .divergent
  | _, _, _, _ => .unavailable

/-- The strength agreement of `_order_flow_features`. -/
def strengthAgreement (binanceTaker okxTaker : Option F) : StrengthAgreement :=
  match binanceTaker, okxTaker with
  | some binanceTaker, some okxTaker =>
    if floatAbs (floatAbs binanceTaker - floatAbs okxTaker) ≤ engine.settings.strengthTolerance then
      .consistent
    else .divergent
  | _, _ => .unavailable

/-- `_order_flow_features`, without the reasons. -/
def orderFlowFeatures (binance okx : FeatureSnapshot F) : CrossVenueOrderFlowFeatureValues F :=
  let epsilon := engine.settings.directionEpsilon
  let taker (snapshot : FeatureSnapshot F) := snapshot.tradeFlow.bind (·.takerImbalance)
  let ofi (snapshot : FeatureSnapshot F) := snapshot.orderBook.bind (·.orderFlowImbalance)
  let depth (snapshot : FeatureSnapshot F) := snapshot.orderBook.bind (·.depthImbalance)
  let add (snapshot : FeatureSnapshot F) := snapshot.orderBook.bind (·.addedLiquidityQuantity)
  let remove (snapshot : FeatureSnapshot F) := snapshot.orderBook.bind (·.removedLiquidityQuantity)
  let recovery (snapshot : FeatureSnapshot F) :=
    snapshot.orderBook.bind (·.liquidityRecoveryQuantityPerSecond)
  { takerFlowDirectionAgreement := directionAgreement epsilon (taker binance) (taker okx)
    takerImbalanceDifference := difference (taker binance) (taker okx)
    takerImbalanceStrengthAgreement := engine.strengthAgreement (taker binance) (taker okx)
    ofiDirectionAgreement := directionAgreement epsilon (ofi binance) (ofi okx)
    ofiDifference := difference (ofi binance) (ofi okx)
    depthImbalanceDifference := difference (depth binance) (depth okx)
    liquidityAdditionDifference := difference (add binance) (add okx)
    liquidityRemovalDifference := difference (remove binance) (remove okx)
    orderBookRecoverySpeedDifference := difference (recovery binance) (recovery okx)
    liquidityDivergenceStatus :=
      engine.liquidityStatus (add binance) (remove binance) (add okx) (remove okx) }

/-- The reasons `_order_flow_features` appends. -/
def orderFlowReasons (binance okx : FeatureSnapshot F) : List FeatureUnavailableReason :=
  missingPair "taker imbalances" (binance.tradeFlow.bind (·.takerImbalance))
    (okx.tradeFlow.bind (·.takerImbalance)) "order_flow.taker" ++
  missingPair "order-flow imbalances" (binance.orderBook.bind (·.orderFlowImbalance))
    (okx.orderBook.bind (·.orderFlowImbalance)) "order_flow.ofi"

/-- `_crowding_agreement`. -/
def crowdingAgreement : Option CrowdingState → Option CrowdingState → CrowdingAgreement
  | some .crowdedLong, some .crowdedLong => .bothLong
  | some .crowdedShort, some .crowdedShort => .bothShort
  | some .mixed, some .mixed => .bothMixed
  | some .mixed, some _ => .oneSided
  | some _, some .mixed => .oneSided
  | some _, some _ => .divergent
  | _, _ => .unavailable

/-- `_liquidation_agreement`. -/
def liquidationAgreement (binance okx : FeatureSnapshot F) : ActivityAgreement :=
  match binance.liquidation.bind (·.publicSampleActivityZscore),
    okx.liquidation.bind (·.publicSampleActivityZscore) with
  | some binanceZscore, some okxZscore =>
    let threshold := engine.settings.abnormalJumpZscore
    if threshold ≤ binanceZscore ∧ threshold ≤ okxZscore then .bothElevated
    else if threshold ≤ binanceZscore ∧ okxZscore ≤ -threshold ∨
        threshold ≤ okxZscore ∧ binanceZscore ≤ -threshold then .divergent
    else if threshold ≤ binanceZscore ∨ threshold ≤ okxZscore then .oneSided
    else .bothNormal
  | _, _ => .unavailable

/-- The agreement of two price and open-interest states. -/
def priceOiAgreement : Option PriceOpenInterestState → Option PriceOpenInterestState → ContextAgreement
  | some binance, some okx => if binance = okx then .matched else .conflict
  | _, _ => .unavailable

/-- `_positioning_features`, without the reasons. -/
def positioningFeatures (binance okx : FeatureSnapshot F) : CrossVenuePositioningFeatureValues F :=
  let epsilon := engine.settings.directionEpsilon
  let oiChange (snapshot : FeatureSnapshot F) := snapshot.openInterest.bind (·.percentageChange)
  let oiState (snapshot : FeatureSnapshot F) := snapshot.openInterest.bind (·.priceOiState)
  let funding (snapshot : FeatureSnapshot F) :=
    (snapshot.crowding.bind (·.fundingRate)).map engine.math.toFloat
  let abnormality (snapshot : FeatureSnapshot F) :=
    (snapshot.crowding.bind (·.fundingZscore)).map floatAbs
  let premium (snapshot : FeatureSnapshot F) := snapshot.crowding.bind (·.markIndexPremium)
  let agreement := priceOiAgreement (oiState binance) (oiState okx)
  let crowding := crowdingAgreement (binance.crowding.bind (·.jointState))
    (okx.crowding.bind (·.jointState))
  { priceOiStateAgreement := agreement
    binanceOiChangeDirection := direction epsilon (oiChange binance)
    okxOiChangeDirection := direction epsilon (oiChange okx)
    oiContextConflict :=
      if agreement = .unavailable then none else some (decide (agreement = .conflict))
    fundingDirectionAgreement := directionAgreement epsilon (funding binance) (funding okx)
    binanceFundingAbnormality := abnormality binance
    okxFundingAbnormality := abnormality okx
    fundingAbnormalityDifference := difference (abnormality binance) (abnormality okx)
    markIndexPremiumDifference := difference (premium binance) (premium okx)
    crowdingDirectionAgreement := crowding
    oneSidedCrowdingUnconfirmed :=
      if crowding = .unavailable then none else some (decide (crowding = .oneSided))
    liquidationActivityAgreement := engine.liquidationAgreement binance okx }

/-- The reasons `_positioning_features` appends. -/
def positioningReasons (binance okx : FeatureSnapshot F) : List FeatureUnavailableReason :=
  missingPair "percentage open-interest changes" (binance.openInterest.bind (·.percentageChange))
    (okx.openInterest.bind (·.percentageChange)) "positioning.open_interest" ++
  missingPair "funding rates" (binance.crowding.bind (·.fundingRate))
    (okx.crowding.bind (·.fundingRate)) "positioning.funding"

/-- The agreement values `_confirmation_features` averages. -/
def confirmationValues (price : CrossVenuePriceFeatureValues F)
    (orderFlow : CrossVenueOrderFlowFeatureValues F)
    (positioning : CrossVenuePositioningFeatureValues F) : List F :=
  [agreementValue price.returnDirectionAgreement,
    agreementValue price.priceImpulseDirectionAgreement,
    agreementValue orderFlow.takerFlowDirectionAgreement,
    agreementValue orderFlow.ofiDirectionAgreement,
    contextValue positioning.priceOiStateAgreement,
    crowdingValue positioning.crowdingDirectionAgreement,
    activityValue positioning.liquidationActivityAgreement].filterMap id

/-- `_confirmation_features`. -/
def confirmationFeatures (price : CrossVenuePriceFeatureValues F)
    (orderFlow : CrossVenueOrderFlowFeatureValues F)
    (positioning : CrossVenuePositioningFeatureValues F) (alignmentQuality : F) :
    CrossVenueConfirmationFeatureValues F :=
  let values := confirmationValues price orderFlow positioning
  { priceDirectionAgreement := price.returnDirectionAgreement
    priceImpulseAgreement := price.priceImpulseDirectionAgreement
    takerFlowAgreement := orderFlow.takerFlowDirectionAgreement
    ofiAgreement := orderFlow.ofiDirectionAgreement
    oiContextConflict := positioning.oiContextConflict
    crowdingAgreement := positioning.crowdingDirectionAgreement
    liquidationActivityAgreement := positioning.liquidationActivityAgreement
    crossVenueConfirmation := if values.isEmpty then none else some (engine.math.fmean values)
    divergencePenaltyInput :=
      if values.isEmpty then none
      else some (engine.math.toFloat ((values.countP (· < 0) : Decimal) / values.length))
    alignmentQuality }

/-! ## The snapshot -/

/-- `lead_lag`. -/
def leadLag (quality : F) : LeadLagResearchFeatureValues F :=
  { alignmentQuality := quality
    unavailableReasons :=
      [{ code := .leadLagInsufficient
         detail := "lead/lag requires independently validated event-time history; " ++
          "local arrival order is never used"
         channel := some "lead_lag" }] }

/-- `source_timestamps`. -/
def sourceTimestamps (sources : List (FeatureSnapshot F)) : List Int :=
  sources.flatMap fun snapshot =>
    [snapshot.oldestSourceTimestamp, snapshot.newestSourceTimestamp].filterMap id

/-- `identity_base`, with the groups. -/
def identity (symbol : String) (decision windowSeconds : Int)
    (binance okx : Option (FeatureSnapshot F)) (alignment : CrossVenueAlignmentResult F)
    (groups : PairedGroups F) : CrossVenueIdentity F :=
  let sources := [binance, okx].filterMap id
  { strategyVersion := engine.settings.strategyVersion
    codeVersion := engine.settings.codeVersion
    configHash := engine.settings.configHash
    symbol
    decisionTimestamp := decision
    windowSeconds
    binanceBookGeneration := binance.map (·.bookGeneration)
    okxBookGeneration := okx.map (·.bookGeneration)
    sourceSnapshotIds := sources.map (·.featureSnapshotId)
    sourceEventCount := (sources.map (·.sourceEventCount)).sum
    oldestSourceTimestamp := (sourceTimestamps sources).min?
    newestSourceTimestamp := (sourceTimestamps sources).max?
    dataAgeMs := ([alignment.binanceDataAgeMs, alignment.okxDataAgeMs].filterMap id).max?
    alignment
    leadLag := leadLag alignment.quality
    groups }

/-- Both calls of `CrossVenueFeatureSnapshot(…)`. -/
def snapshotOf (identity : CrossVenueIdentity F) : CrossVenueFeatureSnapshot F :=
  let featureId := engine.featureId identity
  let spreadHistory := identity.groups.spreadHistory.getD (0, none)
  { symbol := identity.symbol
    exchangeTimestamp := identity.decisionTimestamp
    localReceiveTimestamp := identity.decisionTimestamp
    normalizationTimestamp := identity.decisionTimestamp
    sequenceId := some (.text (String.ofList featureId.hex))
    featureSnapshotId := featureId
    strategyVersion := identity.strategyVersion
    codeVersion := identity.codeVersion
    configHash := identity.configHash
    calculationTimestamp := identity.decisionTimestamp
    decisionTimestamp := identity.decisionTimestamp
    windowSeconds := identity.windowSeconds
    binanceBookGeneration := identity.binanceBookGeneration
    okxBookGeneration := identity.okxBookGeneration
    sourceSnapshotIds := identity.sourceSnapshotIds
    spreadHistoryPairCount := spreadHistory.1
    spreadHistorySha256 := spreadHistory.2
    sourceEventCount := identity.sourceEventCount
    oldestSourceTimestamp := identity.oldestSourceTimestamp
    newestSourceTimestamp := identity.newestSourceTimestamp
    dataAgeMs := identity.dataAgeMs
    isWarm := identity.groups.isWarm
    isHealthy := identity.groups.isHealthy
    alignment := identity.alignment
    unavailableReasons := identity.groups.unavailableReasons
    price := identity.groups.price
    orderFlow := identity.groups.orderFlow
    positioning := identity.groups.positioning
    confirmation := identity.groups.confirmation
    leadLag := identity.leadLag }

/-- The groups of an unavailable alignment. -/
def absentGroups (alignment : CrossVenueAlignmentResult F) : PairedGroups F :=
  { spreadHistory := none
    isWarm := false
    isHealthy := false
    unavailableReasons := alignment.unavailableReasons
    price := none
    orderFlow := none
    positioning := none
    confirmation := none }

/-- The reason for a z-score that is absent. -/
def insufficientHistory : FeatureUnavailableReason :=
  { code := .insufficientHistory
    detail := "cross-venue spread z-score has fewer than " ++
      toString engine.settings.zscoreMinimumSamples ++
      " prior paired observations or zero variance"
    channel := some "price.mid_price_spread_zscore" }

/-- The groups of two selected snapshots. -/
def pairedGroups (candidates : List (FeatureSnapshot F)) (binance okx : FeatureSnapshot F)
    (decision windowSeconds : Int) (alignment : CrossVenueAlignmentResult F) : PairedGroups F :=
  let spread := engine.spreadZscore candidates binance.symbol decision windowSeconds
    (engine.percentageSpread (midPrice binance) (midPrice okx))
  let price := engine.priceFeatures binance okx spread.1
  let orderFlow := engine.orderFlowFeatures binance okx
  let positioning := engine.positioningFeatures binance okx
  { spreadHistory := some spread.2
    isWarm := binance.isWarm && okx.isWarm && spread.1.isSome
    isHealthy := decide (alignment.status = .aligned) && binance.isHealthy && okx.isHealthy
    unavailableReasons := uniqueReasons
      (alignment.unavailableReasons ++ priceReasons binance okx ++ orderFlowReasons binance okx ++
        positioningReasons binance okx ++
          if spread.1.isSome then [] else [engine.insufficientHistory])
    price := some price
    orderFlow := some orderFlow
    positioning := some positioning
    confirmation := some
      (engine.confirmationFeatures price orderFlow positioning alignment.quality) }

/-- `calculate` on `candidates`, before the validators of the models. -/
def assemble (candidates : List (FeatureSnapshot F)) (symbol : String)
    (decision windowSeconds : Int) : CrossVenueFeatureSnapshot F :=
  let binance := selectSnapshot candidates .binance decision
  let okx := selectSnapshot candidates .okx decision
  let alignment := engine.align binance.1 okx.1 decision (binance.2.toList ++ okx.2.toList)
  let groups :=
    match binance.1, okx.1 with
    | some binance, some okx =>
      if alignment.status = .unavailable then absentGroups alignment
      else engine.pairedGroups candidates binance okx decision windowSeconds alignment
    | _, _ => absentGroups alignment
  engine.snapshotOf (engine.identity symbol decision windowSeconds binance.1 okx.1 alignment groups)

/-- `calculate`. -/
def calculate (snapshots : List (FeatureSnapshot F)) (symbol : String)
    (decision windowSeconds : Int) : Except String (CrossVenueFeatureSnapshot F) :=
  if windowSeconds ∈ engine.settings.featureWindowsSeconds then do
    let snapshot :=
      engine.assemble (crossVenueCandidates snapshots symbol windowSeconds) symbol decision windowSeconds
    engine.math.ensureFinite snapshot.checkedNumbers
    match snapshot.validateCrossVenueBoundaries with
    | some text => .error text
    | none => .ok snapshot
  else .error "window_seconds is not a configured feature window"

end CrossVenueFeatureEngine

end Cvf
