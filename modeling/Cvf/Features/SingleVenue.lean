/-
# Cvf.Features.SingleVenue — the features of one venue and symbol.

`SingleVenueFeatureEngine.calculate` reads the windows of a state as of a decision and puts together one
snapshot: trade flow, order book, price, open interest, crowding and liquidations, with the availability of
the state and a commitment to the sources.  It remembers the histories of its metrics, the generation of the
last book it saw and a price cache for each state.

`F` is `float`: its conversions, logarithm, square root and the statistics are parameters, sums and quotients
are exact.  The digest of a source, the fingerprint of a lineage and the id of a snapshot are parameters too.
-/
import Cvf.Features.Availability
import Cvf.Features.DepthWalk
import Cvf.Features.MetricWarmup
import Cvf.Features.PriceCacheSources
import Cvf.Library.Parsed

namespace Cvf

open Cvf.Library

/-! ## Settings and memory -/

/-- What the engine reads off `Settings`, with the checks of the fields. -/
structure SingleVenueSettings (F : Type) where
  strategyVersion : String
  /-- `__version__` -/
  codeVersion : String
  /-- `settings_fingerprint(settings)` -/
  configHash : String
  features : FeaturesConfig
  featureWindowsSeconds : List Int
  orderBookLevelWeights : List Decimal
  breakoutLookbackSeconds : Nat
  atrPeriodSeconds : Nat
  zscoreLookbackSeconds : Nat
  largeTradeNotionalUsdt : Decimal
  depthWalkNotionalUsdt : Decimal
  abnormalJumpZscore : F
  openInterestStaleAfterMs : Nat
  blockEntryStatuses : List HealthStatus
  /-- `order_book_level_weights must match order_book_depth` -/
  weights_length : orderBookLevelWeights.length = features.orderBookDepth
  zscoreLookbackSeconds_pos : 0 < zscoreLookbackSeconds
  openInterestStaleAfterMs_pos : 0 < openInterestStaleAfterMs

/-- The conversions, statistics and functions the engine computes with. -/
structure SingleVenueMath (F : Type) extends FeatureMath F where
  /-- `duration.total_seconds()` -/
  seconds : Int → F
  /-- `math.log(float(quotient))` -/
  log : Decimal → F
  /-- `math.sqrt` -/
  sqrt : F → F

/-- What a snapshot id is computed from. -/
structure SingleVenueIdentity (F : Type) where
  strategyVersion : String
  codeVersion : String
  configHash : String
  exchange : Exchange
  symbol : String
  decisionTimestamp : Int
  windowSeconds : Int
  bookGeneration : Nat
  sourceSequenceId : Option Int
  sourceEventCount : Nat
  oldestSourceTimestamp : Option Int
  newestSourceTimestamp : Option Int
  dataAgeMs : Option F
  sourceFingerprint : String
  isWarm : Bool
  isHealthy : Bool
  unavailableReasons : List FeatureUnavailableReason
  tradeFlow : TradeFlowFeatureValues F
  orderBook : Option (OrderBookFeatureValues F)
  price : PriceFeatureValues F
  openInterest : Option (OpenInterestFeatureValues F)
  crowding : CrowdingFeatureValues F
  liquidation : LiquidationFeatureValues F

/-- The engine without what it remembers. -/
structure SingleVenueFeatureEngine (F : Type) where
  settings : SingleVenueSettings F
  math : SingleVenueMath F
  /-- `semantic_source_digest` -/
  digest : SourceDigest
  /-- `SourceLineage.fingerprint` -/
  fingerprint : SourceLineage → String
  /-- `_feature_id` -/
  featureId : SingleVenueIdentity F → Uuid

/-- `_history`, `_book_generations` and `_price_caches`; the states of one store have one cache a key. -/
structure SingleVenueMemory (F : Type) where
  history : MetricHistory F
  bookGenerations : Exchange × String → Option Nat
  priceCaches : Exchange × String → SourcedPriceCache NormalizedMarketEvent F

/-- `_reference_price`; no other event is in a price window. -/
def NormalizedMarketEvent.referencePrice : NormalizedMarketEvent → Decimal
  | .trade e => e.price
  | .bestBidAsk e => e.midPrice
  | .markPrice e => e.markPrice
  | _ => 0

/-- An item of a window of one kind of event, as an item of events. -/
def TimedValue.asSource {α : Type} (event : α → NormalizedMarketEvent) (item : TimedValue α) :
    TimedValue NormalizedMarketEvent :=
  ⟨item.timestamp, event item.value, item.ordinal⟩

/-- `items_between`, which raises on a reversed interval. -/
def BoundedTimeWindow.between {α : Type} (window : BoundedTimeWindow α) (start stop : Int) :
    Except String (List (TimedValue α)) :=
  match window.itemsBetween start stop with
  | none => .error "window end cannot precede start"
  | some items => .ok items

theorem BoundedTimeWindow.between_eq {α : Type} (window : BoundedTimeWindow α) {start stop : Int}
    (hle : start ≤ stop) :
    window.between start stop =
      .ok (window.items.filter fun item => start < item.timestamp ∧ item.timestamp ≤ stop) := by
  unfold between
  rw [window.itemsBetween_eq hle]

/-- A second, in microseconds. -/
def secondMicros : Int := 1000000

/-! ## Feature values -/

section Values

variable {F : Type} [Field F] [LinearOrder F] (math : SingleVenueMath F)

/-- `_ratio_impulse`. -/
def ratioImpulse (current previous : Decimal) : Option F :=
  if previous = 0 then none else some (math.toFloat (current / previous - 1))

/-- `_count_impulse`. -/
def countImpulse (current previous : Nat) : Option F :=
  if previous = 0 then none else some ((current : F) / previous - 1)

/-- The notional of some trades. -/
def totalNotional (trades : List (TimedValue Trade)) : Decimal :=
  (trades.map fun item => item.value.notional).sum

/-- `imbalance`, of the aggressive buys and sells. -/
def takerImbalance (trades : List (TimedValue Trade)) : Option F :=
  let buy := totalNotional (trades.filter (·.value.aggressorSide = .buy))
  let sell := totalNotional (trades.filter (·.value.aggressorSide = .sell))
  if buy + sell = 0 then none else some (math.toFloat ((buy - sell) / (buy + sell)))

/-- `trade_flow`, with the z-score of its imbalance. -/
def tradeFlowValues (largeTradeNotional : Decimal) (trades previousTrades : List (TimedValue Trade))
    (imbalanceZscore : Option F) : TradeFlowFeatureValues F :=
  let buy := totalNotional (trades.filter (·.value.aggressorSide = .buy))
  let sell := totalNotional (trades.filter (·.value.aggressorSide = .sell))
  let total := buy + sell
  let large := totalNotional (trades.filter (largeTradeNotional ≤ ·.value.notional))
  { aggressiveBuyNotional := some buy
    aggressiveSellNotional := some sell
    takerImbalance := takerImbalance math trades
    takerImbalanceZscore := imbalanceZscore
    tradeNotionalImpulse := ratioImpulse math total (totalNotional previousTrades)
    tradeCountImpulse := countImpulse trades.length previousTrades.length
    averageTradeNotional := if trades = [] then none else some (total / trades.length)
    largeTradeShare := if total = 0 then none else some (math.toFloat (large / total)) }

/-- The depth of a side, each level with its weight. -/
def weightedDepth (weights : List Decimal) (levels : List OrderBookLevel) : Decimal :=
  ((levels.zip weights).map fun level => level.1.quantity * level.2).sum

/-- The changes of the view's own generation and epoch. -/
def changesOf (view : FeatureBookView) (checkpoints : List (TimedValue FeatureBookCheckpoint)) :
    List (TimedValue BookChange) :=
  checkpoints.filterMap fun checkpoint =>
    if checkpoint.value.view.generation = view.generation ∧ checkpoint.value.view.epoch = view.epoch then
      checkpoint.value.change.map fun change => ⟨checkpoint.timestamp, change, checkpoint.ordinal⟩
    else none

def BookChange.removed (change : BookChange) : Decimal :=
  change.removedBidQuantity + change.removedAskQuantity

def BookChange.added (change : BookChange) : Decimal :=
  change.addedBidQuantity + change.addedAskQuantity

/-- `recovery_rate`: what was added after the first removal, for each second since. -/
def recoveryRate (changes : List (TimedValue BookChange)) (decision : Int) : Option F :=
  match changes.find? fun item => 0 < item.value.removed with
  | none => none
  | some first =>
    let recovered := ((changes.filter fun item =>
      first.timestamp < item.timestamp ∧ item.timestamp ≤ decision).map (·.value.added)).sum
    let recoverySeconds := math.seconds (decision - first.timestamp)
    if 0 < recoverySeconds then some (math.toFloat recovered / recoverySeconds) else none

/-- A side as the levels of a depth walk. -/
def walkedLevels (levels : List OrderBookLevel) : List (Decimal × Decimal) :=
  levels.map fun level => (level.price, level.quantity)

/-- `_order_book_values`, of a synchronized view with two sides. -/
def orderBookValues (settings : SingleVenueSettings F) (view : FeatureBookView)
    (bestBid bestAsk : OrderBookLevel) (changes : List (TimedValue BookChange)) (decision : Int)
    (ofiZscore : Option F) : OrderBookFeatureValues F :=
  let bidDepth := weightedDepth settings.orderBookLevelWeights view.bids
  let askDepth := weightedDepth settings.orderBookLevelWeights view.asks
  let depthTotal := bidDepth + askDepth
  let spread := bestAsk.price - bestBid.price
  let mid := (bestAsk.price + bestBid.price) / 2
  let topQuantity := bestBid.quantity + bestAsk.quantity
  { weightedBidDepth := some bidDepth
    weightedAskDepth := some askDepth
    bidLiquidityChange := some ((changes.map (·.value.bidQuantityDelta)).sum)
    askLiquidityChange := some ((changes.map (·.value.askQuantityDelta)).sum)
    addedLiquidityQuantity := some ((changes.map (·.value.added)).sum)
    removedLiquidityQuantity := some ((changes.map (·.value.removed)).sum)
    liquidityRecoveryQuantityPerSecond := recoveryRate math changes decision
    depthImbalance :=
      if depthTotal = 0 then none else some (math.toFloat ((bidDepth - askDepth) / depthTotal))
    spread := some spread
    relativeSpread := some (math.toFloat (spread / mid))
    midPrice := some mid
    microprice :=
      if topQuantity = 0 then none
      else some ((bestAsk.price * bestBid.quantity + bestBid.price * bestAsk.quantity) / topQuantity)
    buySlippageBps :=
      (depthWalkBps (walkedLevels view.asks) settings.depthWalkNotionalUsdt mid true).map math.toFloat
    sellSlippageBps :=
      (depthWalkBps (walkedLevels view.bids) settings.depthWalkNotionalUsdt mid false).map math.toFloat
    orderFlowImbalance := some (math.toFloat (changes.map (·.value.orderFlowImbalance)).sum)
    orderFlowImbalanceZscore := ofiZscore }

/-- The return of a price range. -/
def returnValue (priceRange : PriceRange F) : Option F :=
  match priceRange.first, priceRange.last with
  | some first, some last => if first = 0 then none else some (math.toFloat (last / first - 1))
  | _, _ => none

/-- `_recent_move_atr`. -/
def recentMoveAtr (priceRange : PriceRange F) (atr : Option Decimal) : Option F :=
  match priceRange.first, priceRange.last, atr with
  | some first, some last, some atr =>
    if atr = 0 then none else some (math.toFloat ((last - first) / atr))
  | _, _, _ => none

/-- `_price_values`, with the z-score of its return. -/
def priceValues (settings : SingleVenueSettings F) (priceRange : PriceRange F) (atr : Option Decimal)
    (trailing : Option Decimal × Option Decimal) (returnZscore : Option F) : PriceFeatureValues F :=
  { returnValue := returnValue math priceRange
    impulseZscore := returnZscore
    realizedVolatility := priceRange.realizedVolatility
    atr1m := atr
    trailingHigh := trailing.1
    trailingLow := trailing.2
    recentMoveAtr := recentMoveAtr math priceRange atr
    abnormalJump := returnZscore.map fun z => decide (settings.abnormalJumpZscore ≤ floatAbs z) }

/-- `quantity`. -/
def OpenInterest.quantity (event : OpenInterest) : Decimal :=
  event.openInterestBase.getD event.openInterestContracts

/-- `percentage`. -/
def percentageChange (latest : OpenInterest) (anchor : Option (TimedValue OpenInterest)) : Option F :=
  match anchor with
  | none => none
  | some anchor =>
    if anchor.value.quantity = 0 then none
    else some (math.toFloat (latest.quantity / anchor.value.quantity - 1))

/-- `_price_oi_state`. -/
def priceOiState (priceReturn oiChange : Option F) : Option PriceOpenInterestState :=
  match priceReturn, oiChange with
  | some priceReturn, some oiChange =>
    if priceReturn = 0 ∨ oiChange = 0 then some .flat
    else if 0 < priceReturn then some (if 0 < oiChange then .priceUpOiUp else .priceUpOiDown)
    else some (if 0 < oiChange then .priceDownOiUp else .priceDownOiDown)
  | _, _ => none

/-- `_open_interest_values`, with the z-score and the joint state. -/
def openInterestValues (latest : TimedValue OpenInterest) (anchor : Option (TimedValue OpenInterest))
    (decision : Int) (priceReturn zscore : Option F) : OpenInterestFeatureValues F :=
  { change := anchor.map fun anchor => latest.value.quantity - anchor.value.quantity
    percentageChange := percentageChange math latest.value anchor
    zscore
    dataAgeMs := some (max 0 (math.milliseconds (decision - latest.timestamp)))
    priceOiState := priceOiState priceReturn (percentageChange math latest.value anchor) }

/-- `_crowding_state`. -/
def crowdingState (takerBias priceReturn oiChange : Option F) (fundingRate : Option Decimal) :
    Option CrowdingState :=
  match takerBias, priceReturn, oiChange, fundingRate with
  | some takerBias, some priceReturn, some oiChange, some fundingRate =>
    if (0 < takerBias ∧ 0 < priceReturn ∧ 0 < oiChange) ∧ 0 < fundingRate then some .crowdedLong
    else if (takerBias < 0 ∧ priceReturn < 0 ∧ oiChange < 0) ∧ fundingRate < 0 then some .crowdedShort
    else some .mixed
  | _, _, _, _ => none

/-- `premium`. -/
def markIndexPremium (mark : Option (TimedValue MarkPrice)) (index : Option (TimedValue IndexPrice)) :
    Option F :=
  match mark, index with
  | some mark, some index =>
    if index.value.indexPrice = 0 then none
    else some (math.toFloat (mark.value.markPrice / index.value.indexPrice - 1))
  | _, _ => none

/-- The notional of the liquidations of one side. -/
def liquidatedNotional (side : LiquidatedPositionSide) (events : List (TimedValue LiquidationEvent)) :
    Decimal :=
  ((events.filter (·.value.positionSide = side)).map (·.value.notional)).sum

/-- `activity`. -/
def liquidationActivity (events : List (TimedValue LiquidationEvent)) : F :=
  math.toFloat (liquidatedNotional .long events + liquidatedNotional .short events)

/-- `_liquidation_values`, with its z-score. -/
def liquidationValues (events : List (TimedValue LiquidationEvent)) (oiChange zscore : Option F) :
    LiquidationFeatureValues F :=
  { publicSampleLongNotional := some (liquidatedNotional .long events)
    publicSampleShortNotional := some (liquidatedNotional .short events)
    publicSampleActivityZscore := zscore
    activityWithOiDecline :=
      if events = [] then none else oiChange.map fun change => decide (change < 0) }

end Values

/-! ## Reads and metrics -/

/-- What `calculate` reads of a state as of a decision. -/
structure SingleVenueReads (F : Type) where
  bookView : FeatureBookView
  availability : FeatureAvailability
  trades : List (TimedValue Trade)
  previousTrades : List (TimedValue Trade)
  checkpoints : List (TimedValue FeatureBookCheckpoint)
  priceRange : PriceRange F
  atr : Option Decimal
  trailing : Option Decimal × Option Decimal
  latestOpenInterest : Option (TimedValue OpenInterest)
  anchorOpenInterest : Option (TimedValue OpenInterest)
  fundingRate : Option (TimedValue FundingRate)
  markPrice : Option (TimedValue MarkPrice)
  indexPrice : Option (TimedValue IndexPrice)
  liquidations : List (TimedValue LiquidationEvent)
  lineage : SourceLineage

/-- The z-score of each metric and whether it is ready. -/
structure SingleVenueMetrics (F : Type) where
  imbalance : Option F × Bool
  ofi : Option F × Bool
  returned : Option F × Bool
  openInterest : Option F × Bool
  premium : Option F × Bool
  funding : Option F × Bool
  liquidation : Option F × Bool

/-- The scope of `clear_scope`. -/
def VenueSymbolState.metricScope (state : VenueSymbolState) : String :=
  state.exchange.value ++ ":" ++ state.symbol ++ ":"

namespace SingleVenueMemory

variable {F : Type}

/-- `SingleVenueFeatureEngine(settings)`. -/
def new [Ring F] (settings : SingleVenueSettings F) : SingleVenueMemory F :=
  { history := .new settings.zscoreLookbackSeconds settings.features.maximumEventsPerStream
      settings.zscoreLookbackSeconds_pos settings.features.maximumEventsPerStream_pos
    bookGenerations := fun _ => none
    priceCaches := fun _ => .new }

/-- The history once the generation of the book is known: a new one clears the scope. -/
def enterGeneration (memory : SingleVenueMemory F) (state : VenueSymbolState) (generation : Nat) :
    MetricHistory F :=
  match memory.bookGenerations (state.exchange, state.symbol) with
  | none => memory.history
  | some previous =>
    if previous = generation then memory.history
    else memory.history.clearScope state.metricScope

end SingleVenueMemory

namespace FeatureUnavailableReason

def noWindowTrades : FeatureUnavailableReason :=
  { code := .noTrades, detail := "no accepted trades fall inside the feature window" }

def notWarm : FeatureUnavailableReason :=
  { code := .notWarm
    detail := "derived statistical history has not covered the configured lookback" }

end FeatureUnavailableReason

/-! ## Sources -/

/-- `_direct_lineage`: one leaf for each digest, of the first source that has it, by ascending digest. -/
def directLineage (digest : SourceDigest) (sources : List (TimedValue NormalizedMarketEvent)) :
    SourceLineage :=
  -- `setdefault` keeps what it met first, which is the last one from behind
  (lastValues (fun item => (digest item.timestamp item.value).toNat) sources.reverse).foldl
    (fun lineage item => lineage.combine
      (.fromDigest item.timestamp (digest item.timestamp item.value))) {}

/-- `symbol_is_canonical` and `wildcard_is_exchange_health_only`, for an event that is no health event. -/
def checkedSymbol (symbol : String) : Except String String := do
  let canonical ← validateCanonicalSymbol symbol true
  if canonical = "*" then .error "symbol='*' is reserved for exchange-wide health events"
  else .ok canonical

/-- `FeatureSnapshot(…)`. -/
def FeatureSnapshot.validated {F : Type} (snapshot : FeatureSnapshot F) :
    Except String (FeatureSnapshot F) := do
  let symbol ← checkedSymbol snapshot.symbol
  match snapshot.validateSnapshotBoundaries with
  | some text => .error text
  | none => .ok { snapshot with symbol }

namespace SingleVenueFeatureEngine

variable {F : Type}

/-- The arguments of the price cache. -/
def priceMath (engine : SingleVenueFeatureEngine F) : PriceMath NormalizedMarketEvent F :=
  { referencePrice := NormalizedMarketEvent.referencePrice
    digest := engine.digest
    log := engine.math.log
    sqrt := engine.math.sqrt }

/-- The keyword arguments of `evaluate_availability`. -/
def policy (engine : SingleVenueFeatureEngine F) : AvailabilityPolicy :=
  { openInterestStaleAfter := engine.settings.openInterestStaleAfterMs * 1000
    blockedHealthStatuses := engine.settings.blockEntryStatuses }

/-- `price_start`. -/
def priceStart (engine : SingleVenueFeatureEngine F) (start decision : Int) : Int :=
  min (min start (decision - engine.settings.atrPeriodSeconds * secondMicros))
    (decision - engine.settings.breakoutLookbackSeconds * secondMicros)

variable [Field F] [LinearOrder F]

/-- The list `direct_sources`. -/
def directSources (engine : SingleVenueFeatureEngine F) (state : VenueSymbolState)
    (exchangeHealthEvents : BoundedTimeWindow ExchangeHealth)
    (priceCache : SourcedPriceCache NormalizedMarketEvent F) (start decision : Int) :
    Except String (List (TimedValue NormalizedMarketEvent)) := do
  let notCovered (item : TimedValue NormalizedMarketEvent) : Bool :=
    !priceCache.coversSource item.value (engine.priceStart start decision) decision
  let trades ← state.trades.between (start - (decision - start)) decision
  let liquidations ← state.liquidations.between start decision
  .ok ((trades.map (.asSource .trade)).filter notCovered ++
    ((state.openInterest.latestAtOrBefore start).toList ++
      (state.openInterest.latestAtOrBefore decision).toList).map (.asSource .openInterest) ++
    (state.fundingRates.latestAtOrBefore decision).toList.map (.asSource .fundingRate) ++
    (state.indexPrices.latestAtOrBefore decision).toList.map (.asSource .indexPrice) ++
    ((state.markPrices.latestAtOrBefore decision).toList.map (.asSource .markPrice)).filter notCovered ++
    liquidations.map (.asSource .liquidation) ++
    (state.healthSourcesAtOrBefore exchangeHealthEvents decision).map (.asSource .exchangeHealth))

/-- `_source_lineage`. -/
def sourceLineage (engine : SingleVenueFeatureEngine F) (state : VenueSymbolState)
    (exchangeHealthEvents : BoundedTimeWindow ExchangeHealth) (bookView : FeatureBookView)
    (priceCache : SourcedPriceCache NormalizedMarketEvent F) (start decision : Int) :
    Except String SourceLineage := do
  let sources ← engine.directSources state exchangeHealthEvents priceCache start decision
  let prices ← priceCache.cache.lineage (engine.priceStart start decision) decision
  .ok ((prices.combine bookView.lineage).combine (directLineage engine.digest sources))

/-- Everything `calculate` asks the state and the price cache for. -/
def reads (engine : SingleVenueFeatureEngine F) (state : VenueSymbolState)
    (exchangeHealthEvents : BoundedTimeWindow ExchangeHealth) (channels : List String)
    (priceCache : SourcedPriceCache NormalizedMarketEvent F) (decision windowSeconds : Int) :
    Except String (SingleVenueReads F) := do
  let window := windowSeconds * secondMicros
  let start := decision - window
  let bookView := state.bookViewAsOf engine.settings.features decision
  let availability ←
    state.availabilityAsOf engine.policy exchangeHealthEvents channels decision window bookView
  let trades ← state.trades.between start decision
  let previousTrades ← state.trades.between (start - window) start
  let checkpoints ← state.bookHistory.between start decision
  let priceRange ← priceCache.cache.range engine.priceMath start decision
  let atr ← priceCache.cache.atr (decision - engine.settings.atrPeriodSeconds * secondMicros) decision
  let trailing ←
    priceCache.cache.highLow (decision - engine.settings.breakoutLookbackSeconds * secondMicros) decision
  let liquidations ← state.liquidations.between start decision
  let lineage ←
    engine.sourceLineage state exchangeHealthEvents bookView priceCache start decision
  .ok
    { bookView
      availability
      trades
      previousTrades
      checkpoints
      priceRange
      atr
      trailing
      latestOpenInterest := state.openInterest.latestAtOrBefore decision
      anchorOpenInterest := state.openInterest.latestAtOrBefore start
      fundingRate := state.fundingRates.latestAtOrBefore decision
      markPrice := state.markPrices.latestAtOrBefore decision
      indexPrice := state.indexPrices.latestAtOrBefore decision
      liquidations
      lineage }

/-- `order_book`: none without a synchronized view with two sides. -/
def orderBook (engine : SingleVenueFeatureEngine F) (reads : SingleVenueReads F) (decision : Int)
    (ofiZscore : Option F) : Option (OrderBookFeatureValues F) :=
  match reads.bookView.bids.head?, reads.bookView.asks.head? with
  | some bestBid, some bestAsk =>
    if reads.bookView.synchronized then
      some (orderBookValues engine.math engine.settings reads.bookView bestBid bestAsk
        (changesOf reads.bookView reads.checkpoints) decision ofiZscore)
    else none
  | _, _ => none

/-- The relative change of the open interest over the window. -/
def oiChange (engine : SingleVenueFeatureEngine F) (reads : SingleVenueReads F) : Option F :=
  reads.latestOpenInterest.bind fun latest =>
    percentageChange engine.math latest.value reads.anchorOpenInterest

/-! ## Calculation -/

/-- The key of a metric of a venue, symbol and window. -/
def metricKey (state : VenueSymbolState) (windowSeconds : Int) (metric : String) : String :=
  state.metricScope ++ (toString windowSeconds ++ ":" ++ metric)

/-- The records of the metrics, one after another. -/
def metrics (engine : SingleVenueFeatureEngine F) (history : MetricHistory F) (state : VenueSymbolState)
    (reads : SingleVenueReads F) (decision windowSeconds : Int) :
    SingleVenueMetrics F × MetricHistory F :=
  let record (history : MetricHistory F) (metric : String) (value : Option F) :
      (Option F × Bool) × MetricHistory F :=
    history.record engine.math.toMetricMath (metricKey state windowSeconds metric) decision value
  let imbalance := record history "taker_imbalance" (takerImbalance engine.math reads.trades)
  let ofi := record imbalance.2 "ofi" ((engine.orderBook reads decision none).bind (·.orderFlowImbalance))
  let returned := record ofi.2 "return" (returnValue engine.math reads.priceRange)
  let openInterest :=
    match reads.latestOpenInterest with
    | none => ((none, false), returned.2)
    | some latest =>
      record returned.2 "oi_change" (percentageChange engine.math latest.value reads.anchorOpenInterest)
  let premium :=
    record openInterest.2 "premium" (markIndexPremium engine.math reads.markPrice reads.indexPrice)
  let funding :=
    record premium.2 "funding" (reads.fundingRate.map fun rate => engine.math.toFloat rate.value.fundingRate)
  let liquidation :=
    record funding.2 "liquidation" (some (liquidationActivity engine.math reads.liquidations))
  ({ imbalance := imbalance.1
     ofi := ofi.1
     returned := returned.1
     openInterest := openInterest.1
     premium := premium.1
     funding := funding.1
     liquidation := liquidation.1 }, liquidation.2)

/-- `reasons`, with those of the window and of the statistics. -/
def unavailableReasons (reads : SingleVenueReads F) (statisticalWarm : Bool) :
    List FeatureUnavailableReason :=
  uniqueReasons
    (reads.availability.reasons ++
      givenIf (reads.trades = [] ∧ ¬ reads.availability.reasons.any (·.code = .noTrades)) .noWindowTrades ++
      givenIf (!statisticalWarm) .notWarm)

/-- The snapshot, before its checks. -/
def snapshot (engine : SingleVenueFeatureEngine F) (state : VenueSymbolState) (reads : SingleVenueReads F)
    (metrics : SingleVenueMetrics F) (decision windowSeconds : Int) : FeatureSnapshot F :=
  let settings := engine.settings
  let priceReturn := returnValue engine.math reads.priceRange
  let tradeFlow := tradeFlowValues engine.math settings.largeTradeNotionalUsdt reads.trades
    reads.previousTrades metrics.imbalance.1
  let orderBook := engine.orderBook reads decision metrics.ofi.1
  let price := priceValues engine.math settings reads.priceRange reads.atr reads.trailing
    metrics.returned.1
  let openInterest := reads.latestOpenInterest.map fun latest =>
    openInterestValues engine.math latest reads.anchorOpenInterest decision priceReturn
      metrics.openInterest.1
  let fundingRate := reads.fundingRate.map (·.value.fundingRate)
  let takerBias := takerImbalance engine.math reads.trades
  let crowding : CrowdingFeatureValues F :=
    { fundingRate
      fundingZscore := metrics.funding.1
      markIndexPremium := markIndexPremium engine.math reads.markPrice reads.indexPrice
      premiumZscore := metrics.premium.1
      takerBias
      jointState := crowdingState takerBias priceReturn (engine.oiChange reads) fundingRate }
  let liquidation := liquidationValues reads.liquidations (engine.oiChange reads) metrics.liquidation.1
  let statisticalWarm := metrics.imbalance.2 && metrics.ofi.2 && metrics.returned.2 &&
    metrics.openInterest.2 && (metrics.premium.2 && metrics.funding.2) && metrics.liquidation.2
  let unavailableReasons := unavailableReasons reads statisticalWarm
  let dataAgeMs := reads.lineage.newestTimestamp.map fun newest =>
    max 0 (engine.math.milliseconds (decision - newest))
  let isWarm := reads.availability.isWarm && statisticalWarm && !reads.trades.isEmpty
  let isHealthy := reads.availability.isHealthy
  let sourceFingerprint := engine.fingerprint reads.lineage
  { exchange := state.exchange
    symbol := state.symbol
    exchangeTimestamp := decision
    localReceiveTimestamp := decision
    normalizationTimestamp := decision
    sequenceId := reads.bookView.sequenceId.map .int
    rawPayloadReference := some ("feature-sources://sha256-sum-xor-v1/" ++ sourceFingerprint)
    featureSnapshotId := engine.featureId
      { strategyVersion := settings.strategyVersion
        codeVersion := settings.codeVersion
        configHash := settings.configHash
        exchange := state.exchange
        symbol := state.symbol
        decisionTimestamp := decision
        windowSeconds
        bookGeneration := reads.bookView.generation
        sourceSequenceId := reads.bookView.sequenceId
        sourceEventCount := reads.lineage.count
        oldestSourceTimestamp := reads.lineage.oldestTimestamp
        newestSourceTimestamp := reads.lineage.newestTimestamp
        dataAgeMs
        sourceFingerprint
        isWarm
        isHealthy
        unavailableReasons
        tradeFlow
        orderBook
        price
        openInterest
        crowding
        liquidation }
    strategyVersion := settings.strategyVersion
    calculationTimestamp := decision
    decisionTimestamp := decision
    windowSeconds
    bookGeneration := reads.bookView.generation
    sourceSequenceId := reads.bookView.sequenceId.map .int
    sourceEventCount := reads.lineage.count
    oldestSourceTimestamp := reads.lineage.oldestTimestamp
    newestSourceTimestamp := reads.lineage.newestTimestamp
    dataAgeMs
    isWarm
    isHealthy
    unavailableReasons
    tradeFlow := some tradeFlow
    orderBook
    price := some price
    openInterest
    crowding := some crowding
    liquidation := some liquidation }

/-- `calculate`, without the validators of the models. -/
def assemble (engine : SingleVenueFeatureEngine F) (memory : SingleVenueMemory F)
    (state : VenueSymbolState) (exchangeHealthEvents : BoundedTimeWindow ExchangeHealth)
    (channels : List String) (decision windowSeconds : Int) :
    Except String (FeatureSnapshot F × SingleVenueMemory F) :=
  if windowSeconds ∉ engine.settings.featureWindowsSeconds then
    .error "window_seconds is not a configured feature window"
  else do
    let key := (state.exchange, state.symbol)
    let priceCache ← (memory.priceCaches key).update engine.priceMath state.prices
    let reads ← engine.reads state exchangeHealthEvents channels priceCache decision windowSeconds
    let history := memory.enterGeneration state reads.bookView.generation
    let (metrics, history) := engine.metrics history state reads decision windowSeconds
    .ok (engine.snapshot state reads metrics decision windowSeconds,
      { history
        bookGenerations :=
          Function.update memory.bookGenerations key (some reads.bookView.generation)
        priceCaches := Function.update memory.priceCaches key priceCache })

/-- `calculate`. -/
def calculate (engine : SingleVenueFeatureEngine F) (memory : SingleVenueMemory F)
    (state : VenueSymbolState) (exchangeHealthEvents : BoundedTimeWindow ExchangeHealth)
    (channels : List String) (decision windowSeconds : Int) :
    Except String (FeatureSnapshot F × SingleVenueMemory F) := do
  let (snapshot, after) ←
    engine.assemble memory state exchangeHealthEvents channels decision windowSeconds
  engine.math.ensureFinite snapshot.checkedNumbers
  let snapshot ← snapshot.validated
  .ok (snapshot, after)

end SingleVenueFeatureEngine

end Cvf
