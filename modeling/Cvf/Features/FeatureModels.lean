/-
# Cvf.Features.FeatureModels — the typed feature snapshots and their validators.

`cvf.features.models`: the observations of one venue, the paired observations of two, and the reasons why
something is absent.  Instants are microseconds; `F` stands for `float`, and absent numbers are `none` and
never zero.  `ensure_finite_number` and `_finite` check the numbers that a snapshot is made of, in their
order.  The two model validators return the text of the first rule that a record breaks.
-/
import Cvf.Features.MetricHistory
import Cvf.Storage.Raw

namespace Cvf

/-! ## Enumerations -/

inductive FeatureUnavailableCode where
  | notWarm
  | noTrades
  | bookUnsynchronized
  | bookGenerationWarmup
  | openInterestMissing
  | openInterestStale
  | healthBlocked
  | pipelineBacklog
  | eventGap
  | timeAlignment
  | missingBinanceSnapshot
  | missingOkxSnapshot
  | futureBinanceSnapshot
  | futureOkxSnapshot
  | staleBinanceSnapshot
  | staleOkxSnapshot
  | binanceUnhealthy
  | okxUnhealthy
  | binanceNotWarm
  | okxNotWarm
  | featureInputMissing
  | zeroDenominator
  | insufficientHistory
  | leadLagInsufficient
  deriving DecidableEq, Repr

inductive AlignmentStatus where
  | aligned
  | degraded
  | staleBinance
  | staleOkx
  | unavailable
  deriving DecidableEq, Repr

inductive DirectionState where
  | positive
  | negative
  | flat
  | unavailable
  deriving DecidableEq, Repr

inductive DirectionAgreement where
  | bothPositive
  | bothNegative
  | bothFlat
  | divergent
  | unavailable
  deriving DecidableEq, Repr

inductive StrengthAgreement where
  | consistent
  | divergent
  | unavailable
  deriving DecidableEq, Repr

inductive ContextAgreement where
  | matched
  | conflict
  | unavailable
  deriving DecidableEq, Repr

inductive CrowdingAgreement where
  | bothLong
  | bothShort
  | bothMixed
  | oneSided
  | divergent
  | unavailable
  deriving DecidableEq, Repr

inductive ActivityAgreement where
  | bothElevated
  | bothNormal
  | oneSided
  | divergent
  | unavailable
  deriving DecidableEq, Repr

inductive LiquidityDivergenceStatus where
  | confirmedAddition
  | confirmedRemoval
  | neutral
  | divergent
  | unavailable
  deriving DecidableEq, Repr

inductive LeadLagStatus where
  | binanceLeads
  | okxLeads
  | simultaneous
  | unavailable
  deriving DecidableEq, Repr

inductive PriceOpenInterestState where
  | priceUpOiUp
  | priceUpOiDown
  | priceDownOiUp
  | priceDownOiDown
  | flat
  deriving DecidableEq, Repr

inductive CrowdingState where
  | crowdedLong
  | crowdedShort
  | mixed
  deriving DecidableEq, Repr

structure FeatureUnavailableReason where
  code : FeatureUnavailableCode
  detail : String
  channel : Option String := none
  deriving DecidableEq, Repr

/-! ## One venue -/

structure TradeFlowFeatureValues (F : Type) where
  aggressiveBuyNotional : Option Decimal := none
  aggressiveSellNotional : Option Decimal := none
  takerImbalance : Option F := none
  takerImbalanceZscore : Option F := none
  tradeNotionalImpulse : Option F := none
  tradeCountImpulse : Option F := none
  averageTradeNotional : Option Decimal := none
  largeTradeShare : Option F := none
  deriving DecidableEq, Repr

structure OrderBookFeatureValues (F : Type) where
  weightedBidDepth : Option Decimal := none
  weightedAskDepth : Option Decimal := none
  bidLiquidityChange : Option Decimal := none
  askLiquidityChange : Option Decimal := none
  addedLiquidityQuantity : Option Decimal := none
  removedLiquidityQuantity : Option Decimal := none
  liquidityRecoveryQuantityPerSecond : Option F := none
  depthImbalance : Option F := none
  spread : Option Decimal := none
  relativeSpread : Option F := none
  midPrice : Option Decimal := none
  microprice : Option Decimal := none
  buySlippageBps : Option F := none
  sellSlippageBps : Option F := none
  orderFlowImbalance : Option F := none
  orderFlowImbalanceZscore : Option F := none
  deriving DecidableEq, Repr

structure PriceFeatureValues (F : Type) where
  returnValue : Option F := none
  impulseZscore : Option F := none
  realizedVolatility : Option F := none
  atr1m : Option Decimal := none
  trailingHigh : Option Decimal := none
  trailingLow : Option Decimal := none
  recentMoveAtr : Option F := none
  abnormalJump : Option Bool := none
  deriving DecidableEq, Repr

structure OpenInterestFeatureValues (F : Type) where
  change : Option Decimal := none
  percentageChange : Option F := none
  zscore : Option F := none
  dataAgeMs : Option F := none
  priceOiState : Option PriceOpenInterestState := none
  deriving DecidableEq, Repr

structure CrowdingFeatureValues (F : Type) where
  fundingRate : Option Decimal := none
  fundingZscore : Option F := none
  markIndexPremium : Option F := none
  premiumZscore : Option F := none
  takerBias : Option F := none
  jointState : Option CrowdingState := none
  deriving DecidableEq, Repr

structure LiquidationFeatureValues (F : Type) where
  publicSampleLongNotional : Option Decimal := none
  publicSampleShortNotional : Option Decimal := none
  publicSampleActivityZscore : Option F := none
  activityWithOiDecline : Option Bool := none
  deriving DecidableEq, Repr

structure FeatureSnapshot (F : Type) extends EventBase where
  featureSnapshotId : Uuid
  schemaVersion : Nat := 1
  strategyVersion : String
  calculationTimestamp : Int
  decisionTimestamp : Int
  windowSeconds : Int
  bookGeneration : Nat
  sourceSequenceId : Option SequenceId := none
  sourceEventCount : Nat
  oldestSourceTimestamp : Option Int := none
  newestSourceTimestamp : Option Int := none
  dataAgeMs : Option F := none
  isWarm : Bool
  isHealthy : Bool
  unavailableReasons : List FeatureUnavailableReason := []
  tradeFlow : Option (TradeFlowFeatureValues F) := none
  orderBook : Option (OrderBookFeatureValues F) := none
  price : Option (PriceFeatureValues F) := none
  openInterest : Option (OpenInterestFeatureValues F) := none
  crowding : Option (CrowdingFeatureValues F) := none
  liquidation : Option (LiquidationFeatureValues F) := none
  deriving DecidableEq

/-- The first of the rules that is broken, each with the text it raises. -/
def firstBroken (rules : List (Bool × String)) : Option String :=
  (rules.find? (·.1)).map Prod.snd

/-- The texts of the rules on the sources, which differ between the two snapshots. -/
structure SourceRuleTexts where
  claimedBounds : String
  fabricatedAge : String
  missingBounds : String
  missingAge : String
  reversed : String
  future : String

/-- The rules on the source count, the bounds and the age that both snapshots check. -/
def sourceRules {F : Type} (texts : SourceRuleTexts) (count : Nat) (oldest newest : Option Int)
    (dataAge : Option F) (decision : Int) : List (Bool × String) :=
  [(count == 0 && (oldest.isSome || newest.isSome), texts.claimedBounds),
    (count == 0 && dataAge.isSome, texts.fabricatedAge),
    (count != 0 && (oldest.isNone || newest.isNone), texts.missingBounds),
    (count != 0 && dataAge.isNone, texts.missingAge),
    (oldest.any fun first => newest.any fun last => decide (last < first), texts.reversed),
    (oldest.isSome && newest.any fun last => decide (decision < last), texts.future)]

/-- `validate_snapshot_boundaries`. -/
def FeatureSnapshot.validateSnapshotBoundaries {F : Type} (snapshot : FeatureSnapshot F) :
    Option String :=
  firstBroken
    ([(decide (snapshot.calculationTimestamp < snapshot.decisionTimestamp),
        "calculation_timestamp cannot precede decision_timestamp")] ++
      sourceRules
        { claimedBounds := "empty snapshots cannot claim source timestamp bounds"
          fabricatedAge := "empty snapshots cannot fabricate a data age"
          missingBounds := "nonempty snapshots require both source timestamp bounds"
          missingAge := "nonempty snapshots require a data age"
          reversed := "source timestamp bounds are reversed"
          future := "feature snapshot contains a future source event" }
        snapshot.sourceEventCount snapshot.oldestSourceTimestamp snapshot.newestSourceTimestamp
        snapshot.dataAgeMs snapshot.decisionTimestamp ++
      [(snapshot.isWarm && snapshot.isHealthy && !snapshot.unavailableReasons.isEmpty,
          "available snapshots cannot have unavailable reasons"),
        ((!snapshot.isWarm || !snapshot.isHealthy) && snapshot.unavailableReasons.isEmpty,
          "unavailable snapshots require structured reasons")])

/-! ## Two venues -/

structure CrossVenueAlignmentResult (F : Type) where
  decisionTimestamp : Int
  binanceSnapshotId : Option Uuid := none
  okxSnapshotId : Option Uuid := none
  binanceSourceTimestamp : Option Int := none
  okxSourceTimestamp : Option Int := none
  binanceDataAgeMs : Option F := none
  okxDataAgeMs : Option F := none
  dataAgeDifferenceMs : Option F := none
  snapshotTimeDifferenceMs : Option F := none
  status : AlignmentStatus
  quality : F
  unavailableReasons : List FeatureUnavailableReason := []
  deriving DecidableEq

@[ext]
structure CrossVenuePriceFeatureValues (F : Type) where
  binanceMidPrice : Option Decimal := none
  okxMidPrice : Option Decimal := none
  midPriceDifference : Option Decimal := none
  midPriceAbsoluteSpread : Option Decimal := none
  percentageSpreadDenominator : Option Decimal := none
  midPricePercentageSpread : Option F := none
  midPriceSpreadZscore : Option F := none
  returnDirectionAgreement : DirectionAgreement := .unavailable
  priceImpulseDirectionAgreement : DirectionAgreement := .unavailable
  priceImpulseStrengthDifference : Option F := none
  realizedVolatilityDifference : Option F := none
  relativeSpreadDivergence : Option F := none
  deriving DecidableEq

@[ext]
structure CrossVenueOrderFlowFeatureValues (F : Type) where
  takerFlowDirectionAgreement : DirectionAgreement := .unavailable
  takerImbalanceDifference : Option F := none
  takerImbalanceStrengthAgreement : StrengthAgreement := .unavailable
  ofiDirectionAgreement : DirectionAgreement := .unavailable
  ofiDifference : Option F := none
  depthImbalanceDifference : Option F := none
  liquidityAdditionDifference : Option Decimal := none
  liquidityRemovalDifference : Option Decimal := none
  orderBookRecoverySpeedDifference : Option F := none
  liquidityDivergenceStatus : LiquidityDivergenceStatus := .unavailable
  deriving DecidableEq

@[ext]
structure CrossVenuePositioningFeatureValues (F : Type) where
  priceOiStateAgreement : ContextAgreement := .unavailable
  binanceOiChangeDirection : DirectionState := .unavailable
  okxOiChangeDirection : DirectionState := .unavailable
  oiContextConflict : Option Bool := none
  fundingDirectionAgreement : DirectionAgreement := .unavailable
  binanceFundingAbnormality : Option F := none
  okxFundingAbnormality : Option F := none
  fundingAbnormalityDifference : Option F := none
  markIndexPremiumDifference : Option F := none
  crowdingDirectionAgreement : CrowdingAgreement := .unavailable
  oneSidedCrowdingUnconfirmed : Option Bool := none
  liquidationActivityAgreement : ActivityAgreement := .unavailable
  deriving DecidableEq

structure CrossVenueConfirmationFeatureValues (F : Type) where
  priceDirectionAgreement : DirectionAgreement
  priceImpulseAgreement : DirectionAgreement
  takerFlowAgreement : DirectionAgreement
  ofiAgreement : DirectionAgreement
  oiContextConflict : Option Bool := none
  crowdingAgreement : CrowdingAgreement
  liquidationActivityAgreement : ActivityAgreement
  crossVenueConfirmation : Option F := none
  divergencePenaltyInput : Option F := none
  alignmentQuality : F
  researchOnly : Bool := true
  deriving DecidableEq

structure LeadLagResearchFeatureValues (F : Type) where
  priceImpulseStatus : LeadLagStatus := .unavailable
  takerFlowStatus : LeadLagStatus := .unavailable
  ofiStatus : LeadLagStatus := .unavailable
  alignmentQuality : F
  researchOnly : Bool := true
  unavailableReasons : List FeatureUnavailableReason := []
  deriving DecidableEq

/-- The exchange is always `CROSS_VENUE`. -/
structure CrossVenueFeatureSnapshot (F : Type) where
  symbol : String
  exchangeTimestamp : Int
  localReceiveTimestamp : Int
  normalizationTimestamp : Int
  sequenceId : Option SequenceId
  rawPayloadReference : Option String := none
  featureSnapshotId : Uuid
  schemaVersion : Nat := 1
  strategyVersion : String
  codeVersion : String
  configHash : String
  calculationTimestamp : Int
  decisionTimestamp : Int
  windowSeconds : Int
  binanceBookGeneration : Option Nat := none
  okxBookGeneration : Option Nat := none
  sourceSnapshotIds : List Uuid := []
  spreadHistoryPairCount : Nat := 0
  spreadHistorySha256 : Option String := none
  sourceEventCount : Nat
  oldestSourceTimestamp : Option Int := none
  newestSourceTimestamp : Option Int := none
  dataAgeMs : Option F := none
  isWarm : Bool
  isHealthy : Bool
  alignment : CrossVenueAlignmentResult F
  unavailableReasons : List FeatureUnavailableReason := []
  price : Option (CrossVenuePriceFeatureValues F) := none
  orderFlow : Option (CrossVenueOrderFlowFeatureValues F) := none
  positioning : Option (CrossVenuePositioningFeatureValues F) := none
  confirmation : Option (CrossVenueConfirmationFeatureValues F) := none
  leadLag : LeadLagResearchFeatureValues F
  deriving DecidableEq

namespace CrossVenueFeatureSnapshot

variable {F : Type}

/-- The ids `validate_cross_venue_boundaries` expects. -/
def expectedIds (alignment : CrossVenueAlignmentResult F) : List Uuid :=
  [alignment.binanceSnapshotId, alignment.okxSnapshotId].filterMap id

/-- The rules on the source ids and the spread history. -/
def historyRules (snapshot : CrossVenueFeatureSnapshot F) : List (Bool × String) :=
  [(decide (2 < snapshot.sourceSnapshotIds.length) || !decide snapshot.sourceSnapshotIds.Nodup,
      "cross-venue source snapshot IDs must be unique and bounded"),
    (!decide (snapshot.sourceSnapshotIds = expectedIds snapshot.alignment),
      "source_snapshot_ids must match the alignment result"),
    (snapshot.spreadHistorySha256.isNone && snapshot.spreadHistoryPairCount != 0,
      "spread history count requires a deterministic history fingerprint"),
    (snapshot.price.isNone &&
        (snapshot.spreadHistoryPairCount != 0 || snapshot.spreadHistorySha256.isSome),
      "snapshots without price features cannot claim spread history"),
    (snapshot.price.any (·.midPricePercentageSpread.isSome) && snapshot.spreadHistorySha256.isNone,
      "evaluated spread z-score requires a deterministic history fingerprint")]

/-- The rules on the alignment, the flags and the reasons. -/
def availabilityRules (snapshot : CrossVenueFeatureSnapshot F) : List (Bool × String) :=
  [(!decide (snapshot.alignment.decisionTimestamp = snapshot.decisionTimestamp),
      "alignment and snapshot decision timestamps must match"),
    (decide (snapshot.alignment.status = .unavailable) &&
        (snapshot.price.isSome || snapshot.orderFlow.isSome || snapshot.positioning.isSome ||
          snapshot.confirmation.isSome),
      "unavailable alignments cannot expose paired feature groups"),
    (snapshot.isHealthy && !decide (snapshot.alignment.status = .aligned),
      "only aligned snapshots can be healthy"),
    (snapshot.isWarm && snapshot.isHealthy && !snapshot.unavailableReasons.isEmpty,
      "available cross-venue snapshots cannot have unavailable reasons"),
    ((!snapshot.isWarm || !snapshot.isHealthy) && snapshot.unavailableReasons.isEmpty,
      "unavailable cross-venue snapshots require structured reasons")]

/-- `validate_cross_venue_boundaries`. -/
def validateCrossVenueBoundaries (snapshot : CrossVenueFeatureSnapshot F) : Option String :=
  firstBroken
    ([(decide (snapshot.calculationTimestamp < snapshot.decisionTimestamp),
        "calculation_timestamp cannot precede decision_timestamp")] ++
      snapshot.historyRules ++
      sourceRules
        { claimedBounds := "empty cross-venue snapshots cannot claim source bounds"
          fabricatedAge := "empty cross-venue snapshots cannot fabricate a data age"
          missingBounds := "nonempty cross-venue snapshots require source bounds"
          missingAge := "nonempty cross-venue snapshots require a data age"
          reversed := "cross-venue source timestamp bounds are reversed"
          future := "cross-venue snapshot contains a future source event" }
        snapshot.sourceEventCount snapshot.oldestSourceTimestamp snapshot.newestSourceTimestamp
        snapshot.dataAgeMs snapshot.decisionTimestamp ++
      snapshot.availabilityRules)

end CrossVenueFeatureSnapshot

/-! ## The numbers that must be finite -/

section

variable {F : Type}

/-- The fields of `finite_float`. -/
def TradeFlowFeatureValues.checked (values : TradeFlowFeatureValues F) : List (Option F) :=
  [values.takerImbalance, values.takerImbalanceZscore, values.tradeNotionalImpulse,
    values.tradeCountImpulse, values.largeTradeShare]

/-- The fields of `finite_float`. -/
def OrderBookFeatureValues.checked (values : OrderBookFeatureValues F) : List (Option F) :=
  [values.depthImbalance, values.relativeSpread, values.buySlippageBps, values.sellSlippageBps,
    values.orderFlowImbalance, values.orderFlowImbalanceZscore,
    values.liquidityRecoveryQuantityPerSecond]

/-- The fields of `finite_float`. -/
def PriceFeatureValues.checked (values : PriceFeatureValues F) : List (Option F) :=
  [values.returnValue, values.impulseZscore, values.realizedVolatility, values.recentMoveAtr]

/-- The fields of `finite_float`. -/
def OpenInterestFeatureValues.checked (values : OpenInterestFeatureValues F) : List (Option F) :=
  [values.percentageChange, values.zscore, values.dataAgeMs]

/-- The fields of `finite_float`. -/
def CrowdingFeatureValues.checked (values : CrowdingFeatureValues F) : List (Option F) :=
  [values.fundingZscore, values.markIndexPremium, values.premiumZscore, values.takerBias]

/-- The fields of `finite_float`. -/
def LiquidationFeatureValues.checked (values : LiquidationFeatureValues F) : List (Option F) :=
  [values.publicSampleActivityZscore]

/-- What the value models of a calculation and `finite_feature_data_age` check.  Three z-scores come in by
`model_copy`, behind the checks. -/
def FeatureSnapshot.checkedNumbers (snapshot : FeatureSnapshot F) : List F :=
  (snapshot.tradeFlow.elim [] TradeFlowFeatureValues.checked ++
    (snapshot.orderBook.elim [] fun values =>
      OrderBookFeatureValues.checked { values with orderFlowImbalanceZscore := none }) ++
    (snapshot.price.elim [] fun values =>
      PriceFeatureValues.checked { values with impulseZscore := none }) ++
    (snapshot.openInterest.elim [] fun values =>
      OpenInterestFeatureValues.checked { values with zscore := none }) ++
    snapshot.crowding.elim [] CrowdingFeatureValues.checked ++
    snapshot.liquidation.elim [] LiquidationFeatureValues.checked ++
    [snapshot.dataAgeMs]).filterMap id

/-- The fields of `finite_alignment_float`. -/
def CrossVenueAlignmentResult.checked (alignment : CrossVenueAlignmentResult F) : List (Option F) :=
  [alignment.binanceDataAgeMs, alignment.okxDataAgeMs, alignment.dataAgeDifferenceMs,
    alignment.snapshotTimeDifferenceMs, some alignment.quality]

/-- The fields of `finite_float`. -/
def CrossVenuePriceFeatureValues.checked (values : CrossVenuePriceFeatureValues F) : List (Option F) :=
  [values.midPricePercentageSpread, values.midPriceSpreadZscore, values.priceImpulseStrengthDifference,
    values.realizedVolatilityDifference, values.relativeSpreadDivergence]

/-- The fields of `finite_float`. -/
def CrossVenueOrderFlowFeatureValues.checked (values : CrossVenueOrderFlowFeatureValues F) :
    List (Option F) :=
  [values.takerImbalanceDifference, values.ofiDifference, values.depthImbalanceDifference,
    values.orderBookRecoverySpeedDifference]

/-- The fields of `finite_float`. -/
def CrossVenuePositioningFeatureValues.checked (values : CrossVenuePositioningFeatureValues F) :
    List (Option F) :=
  [values.binanceFundingAbnormality, values.okxFundingAbnormality, values.fundingAbnormalityDifference,
    values.markIndexPremiumDifference]

/-- The fields of `finite_float`. -/
def CrossVenueConfirmationFeatureValues.checked (values : CrossVenueConfirmationFeatureValues F) :
    List (Option F) :=
  [values.crossVenueConfirmation, values.divergencePenaltyInput, some values.alignmentQuality]

/-- What the models of a paired calculation check. -/
def CrossVenueFeatureSnapshot.checkedNumbers (snapshot : CrossVenueFeatureSnapshot F) : List F :=
  (snapshot.alignment.checked ++ snapshot.price.elim [] CrossVenuePriceFeatureValues.checked ++
    snapshot.orderFlow.elim [] CrossVenueOrderFlowFeatureValues.checked ++
    snapshot.positioning.elim [] CrossVenuePositioningFeatureValues.checked ++
    snapshot.confirmation.elim [] CrossVenueConfirmationFeatureValues.checked ++
    [some snapshot.leadLag.alignmentQuality, snapshot.dataAgeMs]).filterMap id

end

/-- No rule is broken. -/
theorem firstBroken_eq_none_iff {rules : List (Bool × String)} :
    firstBroken rules = none ↔ ∀ rule ∈ rules, rule.1 = false := by
  unfold firstBroken
  rw [Option.map_eq_none_iff, List.find?_eq_none]
  constructor
  · intro h rule hrule
    exact Bool.eq_false_iff.mpr (h rule hrule)
  · intro h rule hrule
    rw [h rule hrule]
    exact Bool.false_ne_true

end Cvf
