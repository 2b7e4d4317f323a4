/-
# Cvf.Features.EngineRuns — a store and an engine over it.

The runtime ingests events into one store and lets one engine calculate over it, in any order.  A step that
raises ends the run, as it does in the runtime.

Through every run the price cache of a key stays with the price window of the key: it holds what the window
held at the last calculation (`Attended.run`).  It takes different events, since the index of the cache knows
its sources by identity.
-/
import Cvf.Features.HeldSources
import Cvf.Features.SingleVenue

namespace Cvf

open Cvf.Library

/-- A store, and what the engine over it remembers. -/
structure EngineTimeline (F : Type) where
  store : MarketStateStore
  memory : SingleVenueMemory F

/-- An operation on the store, or a calculation for the state under a key; `channels` is the order in which
the state lists its health channels. -/
inductive EngineStep where
  | store (operation : MarketStateStore.StoreOperation)
  | calculate (exchange : Exchange) (symbol : String) (channels : List String)
      (decision windowSeconds : Int)

/-- The event a step ingests. -/
def EngineStep.event? : EngineStep → Option NormalizedMarketEvent
  | .store operation => operation.event?
  | .calculate .. => none

/-- The events of a run. -/
def engineEvents (steps : List EngineStep) : List NormalizedMarketEvent :=
  steps.filterMap EngineStep.event?

namespace EngineTimeline

variable {F : Type} [Field F] [LinearOrder F] (engine : SingleVenueFeatureEngine F)

/-- A new store and a new engine, of the same settings. -/
def new : EngineTimeline F :=
  { store := .new engine.settings.features, memory := .new engine.settings }

/-- `engine.calculate(store.state(exchange, symbol), …)`. -/
def calculate (timeline : EngineTimeline F) (exchange : Exchange) (symbol : String)
    (channels : List String) (decision windowSeconds : Int) :
    Except String (FeatureSnapshot F × SingleVenueMemory F) :=
  engine.calculate timeline.memory (timeline.store.lookup exchange symbol)
    (timeline.store.exchangeHealthEvents exchange) channels decision windowSeconds

/-- What the calculation puts together, before its checks. -/
def assemble (timeline : EngineTimeline F) (exchange : Exchange) (symbol : String)
    (channels : List String) (decision windowSeconds : Int) :
    Except String (FeatureSnapshot F × SingleVenueMemory F) :=
  engine.assemble timeline.memory (timeline.store.lookup exchange symbol)
    (timeline.store.exchangeHealthEvents exchange) channels decision windowSeconds

def perform (timeline : EngineTimeline F) : EngineStep → Except String (EngineTimeline F)
  | .store operation => .ok { timeline with store := timeline.store.perform engine.digest operation }
  | .calculate exchange symbol channels decision windowSeconds =>
    match timeline.calculate engine exchange symbol channels decision windowSeconds with
    | .error e => .error e
    | .ok (_, memory) => .ok { timeline with memory }

def run (steps : List EngineStep) : Except String (EngineTimeline F) :=
  steps.foldlM (perform engine) (new engine)

theorem perform_calculate_ok {timeline after : EngineTimeline F} {exchange : Exchange} {symbol : String}
    {channels : List String} {decision windowSeconds : Int}
    (h : timeline.perform engine (.calculate exchange symbol channels decision windowSeconds) = .ok after) :
    ∃ snapshot memory, timeline.calculate engine exchange symbol channels decision windowSeconds =
      .ok (snapshot, memory) ∧ after = { timeline with memory } := by
  unfold perform at h
  dsimp only at h
  cases hcalculate : timeline.calculate engine exchange symbol channels decision windowSeconds with
  | error e =>
    rw [hcalculate] at h
    cases h
  | ok result =>
    rw [hcalculate] at h
    exact ⟨result.1, result.2, rfl, (Except.ok.inj h).symm⟩

theorem run_concat (steps : List EngineStep) (last : EngineStep) :
    run engine (steps ++ [last]) = run engine steps >>= fun timeline => timeline.perform engine last := by
  unfold run
  rw [List.foldlM_append]
  congr 1
  funext timeline
  rw [List.foldlM_cons]
  exact bind_pure (x := timeline.perform engine last)

end EngineTimeline

theorem engineEvents_concat (steps : List EngineStep) (last : EngineStep) :
    engineEvents (steps ++ [last]) = engineEvents steps ++ last.event?.toList := by
  unfold engineEvents
  rw [List.filterMap_append]
  cases hevent : last.event? with
  | none => rw [List.filterMap_cons_none hevent]; rfl
  | some event => rw [List.filterMap_cons_some hevent]; rfl

/-! ## A calculation -/

/-- A checked snapshot has the checked symbol, and is otherwise what it was. -/
theorem FeatureSnapshot.validated_ok_iff {F : Type} {snapshot checked : FeatureSnapshot F} :
    snapshot.validated = .ok checked ↔ checkedSymbol snapshot.symbol = .ok checked.symbol ∧
      checked.validateSnapshotBoundaries = none ∧
        checked = { snapshot with symbol := checked.symbol } := by
  unfold FeatureSnapshot.validated
  constructor
  · intro h
    obtain ⟨symbol, hsymbol, h⟩ := bind_eq_ok_iff.mp h
    split at h
    · cases h
    · obtain rfl := Except.ok.inj h
      exact ⟨hsymbol, by assumption, rfl⟩
  · rintro ⟨hsymbol, hvalid, hchecked⟩
    -- the rules do not look at the symbol
    have hsame : snapshot.validateSnapshotBoundaries = none := by
      rw [hchecked] at hvalid
      exact hvalid
    refine bind_eq_ok_iff.mpr ⟨checked.symbol, hsymbol, ?_⟩
    rw [hsame]
    exact congrArg Except.ok hchecked.symm

namespace SingleVenueFeatureEngine

variable {F : Type} [Field F] [LinearOrder F] {engine : SingleVenueFeatureEngine F}
  {memory after : SingleVenueMemory F} {state : VenueSymbolState}
  {exchangeHealthEvents : BoundedTimeWindow ExchangeHealth} {channels : List String}
  {priceCache : SourcedPriceCache NormalizedMarketEvent F} {reads : SingleVenueReads F}
  {decision windowSeconds : Int} {snapshot : FeatureSnapshot F}

/-- The start of a feature window. -/
def windowStart (decision windowSeconds : Int) : Int := decision - windowSeconds * secondMicros

/-- What every query answered. -/
structure ReadFrom (engine : SingleVenueFeatureEngine F) (state : VenueSymbolState)
    (exchangeHealthEvents : BoundedTimeWindow ExchangeHealth) (channels : List String)
    (priceCache : SourcedPriceCache NormalizedMarketEvent F) (decision windowSeconds : Int)
    (reads : SingleVenueReads F) : Prop where
  bookView : reads.bookView = state.bookViewAsOf engine.settings.features decision
  availability : state.availabilityAsOf engine.policy exchangeHealthEvents channels decision
    (windowSeconds * secondMicros) reads.bookView = .ok reads.availability
  trades : state.trades.between (windowStart decision windowSeconds) decision = .ok reads.trades
  previousTrades : state.trades.between
    (windowStart decision windowSeconds - windowSeconds * secondMicros)
    (windowStart decision windowSeconds) = .ok reads.previousTrades
  checkpoints : state.bookHistory.between (windowStart decision windowSeconds) decision =
    .ok reads.checkpoints
  priceRange : priceCache.cache.range engine.priceMath (windowStart decision windowSeconds) decision =
    .ok reads.priceRange
  atr : priceCache.cache.atr (decision - engine.settings.atrPeriodSeconds * secondMicros) decision =
    .ok reads.atr
  trailing : priceCache.cache.highLow
    (decision - engine.settings.breakoutLookbackSeconds * secondMicros) decision = .ok reads.trailing
  latestOpenInterest : reads.latestOpenInterest = state.openInterest.latestAtOrBefore decision
  anchorOpenInterest : reads.anchorOpenInterest =
    state.openInterest.latestAtOrBefore (windowStart decision windowSeconds)
  fundingRate : reads.fundingRate = state.fundingRates.latestAtOrBefore decision
  markPrice : reads.markPrice = state.markPrices.latestAtOrBefore decision
  indexPrice : reads.indexPrice = state.indexPrices.latestAtOrBefore decision
  liquidations : state.liquidations.between (windowStart decision windowSeconds) decision =
    .ok reads.liquidations
  lineage : engine.sourceLineage state exchangeHealthEvents reads.bookView priceCache
    (windowStart decision windowSeconds) decision = .ok reads.lineage

theorem reads_ok_iff :
    engine.reads state exchangeHealthEvents channels priceCache decision windowSeconds = .ok reads ↔
      ReadFrom engine state exchangeHealthEvents channels priceCache decision windowSeconds reads := by
  unfold SingleVenueFeatureEngine.reads
  constructor
  · intro h
    obtain ⟨availability, havailability, h⟩ := bind_eq_ok_iff.mp h
    obtain ⟨trades, htrades, h⟩ := bind_eq_ok_iff.mp h
    obtain ⟨previousTrades, hprevious, h⟩ := bind_eq_ok_iff.mp h
    obtain ⟨checkpoints, hcheckpoints, h⟩ := bind_eq_ok_iff.mp h
    obtain ⟨priceRange, hrange, h⟩ := bind_eq_ok_iff.mp h
    obtain ⟨atr, hatr, h⟩ := bind_eq_ok_iff.mp h
    obtain ⟨trailing, htrailing, h⟩ := bind_eq_ok_iff.mp h
    obtain ⟨liquidations, hliquidations, h⟩ := bind_eq_ok_iff.mp h
    obtain ⟨lineage, hlineage, h⟩ := bind_eq_ok_iff.mp h
    obtain rfl := Except.ok.inj h
    exact ⟨rfl, havailability, htrades, hprevious, hcheckpoints, hrange, hatr, htrailing, rfl, rfl, rfl,
      rfl, rfl, hliquidations, hlineage⟩
  · intro h
    obtain ⟨bookView, availability, trades, previousTrades, checkpoints, priceRange, atr, trailing,
      latest, anchor, funding, mark, index, liquidations, lineage⟩ := reads
    obtain ⟨hview, havailability, htrades, hprevious, hcheckpoints, hrange, hatr, htrailing, hlatest,
      hanchor, hfunding, hmark, hindex, hliquidations, hlineage⟩ := h
    dsimp only at hview hlatest hanchor hfunding hmark hindex
    subst hview hlatest hanchor hfunding hmark hindex
    exact bind_eq_ok_iff.mpr ⟨_, havailability, bind_eq_ok_iff.mpr ⟨_, htrades,
      bind_eq_ok_iff.mpr ⟨_, hprevious, bind_eq_ok_iff.mpr ⟨_, hcheckpoints,
        bind_eq_ok_iff.mpr ⟨_, hrange, bind_eq_ok_iff.mpr ⟨_, hatr, bind_eq_ok_iff.mpr ⟨_, htrailing,
          bind_eq_ok_iff.mpr ⟨_, hliquidations, bind_eq_ok_iff.mpr ⟨_, hlineage, rfl⟩⟩⟩⟩⟩⟩⟩⟩⟩

/-- A window that is read has a length. -/
theorem ReadFrom.window_pos
    (h : ReadFrom engine state exchangeHealthEvents channels priceCache decision windowSeconds reads) :
    0 < windowSeconds := by
  by_contra hnot
  have hwarmup : windowSeconds * secondMicros ≤ 0 := by
    unfold secondMicros
    omega
  have havailability := h.availability
  rw [VenueSymbolState.availabilityAsOf_error _ _ _ _ hwarmup] at havailability
  cases havailability

theorem windowStart_lt (hpos : 0 < windowSeconds) : windowStart decision windowSeconds < decision := by
  unfold windowStart secondMicros
  omega

/-- What is put together before the checks, from the answers of the queries. -/
structure Assembled (engine : SingleVenueFeatureEngine F) (memory : SingleVenueMemory F)
    (state : VenueSymbolState) (exchangeHealthEvents : BoundedTimeWindow ExchangeHealth)
    (channels : List String) (decision windowSeconds : Int) (snapshot : FeatureSnapshot F)
    (after : SingleVenueMemory F) (priceCache : SourcedPriceCache NormalizedMarketEvent F)
    (reads : SingleVenueReads F) : Prop where
  configured : windowSeconds ∈ engine.settings.featureWindowsSeconds
  updated : (memory.priceCaches (state.exchange, state.symbol)).update engine.priceMath state.prices =
    .ok priceCache
  read : engine.reads state exchangeHealthEvents channels priceCache decision windowSeconds = .ok reads
  assembled : snapshot = engine.snapshot state reads
    (engine.metrics (memory.enterGeneration state reads.bookView.generation) state reads decision
      windowSeconds).1 decision windowSeconds
  after : after =
    { history := (engine.metrics (memory.enterGeneration state reads.bookView.generation) state reads
        decision windowSeconds).2
      bookGenerations := Function.update memory.bookGenerations (state.exchange, state.symbol)
        (some reads.bookView.generation)
      priceCaches := Function.update memory.priceCaches (state.exchange, state.symbol) priceCache }

theorem assemble_ok_iff :
    engine.assemble memory state exchangeHealthEvents channels decision windowSeconds =
        .ok (snapshot, after) ↔
      ∃ priceCache reads, Assembled engine memory state exchangeHealthEvents channels decision
        windowSeconds snapshot after priceCache reads := by
  unfold assemble
  constructor
  · intro h
    split_ifs at h with hconfigured
    obtain ⟨priceCache, hupdated, h⟩ := bind_eq_ok_iff.mp h
    obtain ⟨reads, hread, h⟩ := bind_eq_ok_iff.mp h
    obtain ⟨rfl, rfl⟩ := Prod.mk.inj (Except.ok.inj h)
    exact ⟨priceCache, reads, hconfigured, hupdated, hread, rfl, rfl⟩
  · rintro ⟨priceCache, reads, hconfigured, hupdated, hread, rfl, rfl⟩
    rw [if_neg (not_not.mpr hconfigured)]
    exact bind_eq_ok_iff.mpr ⟨priceCache, hupdated, bind_eq_ok_iff.mpr ⟨reads, hread, rfl⟩⟩

/-- What a calculation that returns has done. -/
structure Calculated (engine : SingleVenueFeatureEngine F) (memory : SingleVenueMemory F)
    (state : VenueSymbolState) (exchangeHealthEvents : BoundedTimeWindow ExchangeHealth)
    (channels : List String) (decision windowSeconds : Int) (snapshot : FeatureSnapshot F)
    (after : SingleVenueMemory F) (priceCache : SourcedPriceCache NormalizedMarketEvent F)
    (reads : SingleVenueReads F) : Prop where
  configured : windowSeconds ∈ engine.settings.featureWindowsSeconds
  updated : (memory.priceCaches (state.exchange, state.symbol)).update engine.priceMath state.prices =
    .ok priceCache
  read : engine.reads state exchangeHealthEvents channels priceCache decision windowSeconds = .ok reads
  checked : checkedSymbol state.symbol = .ok snapshot.symbol
  assembled : snapshot =
    { engine.snapshot state reads
        (engine.metrics (memory.enterGeneration state reads.bookView.generation) state reads decision
          windowSeconds).1 decision windowSeconds with
      symbol := snapshot.symbol }
  finite : snapshot.checkedNumbers.all engine.math.isFinite = true
  valid : snapshot.validateSnapshotBoundaries = none
  after : after =
    { history := (engine.metrics (memory.enterGeneration state reads.bookView.generation) state reads
        decision windowSeconds).2
      bookGenerations := Function.update memory.bookGenerations (state.exchange, state.symbol)
        (some reads.bookView.generation)
      priceCaches := Function.update memory.priceCaches (state.exchange, state.symbol) priceCache }

theorem calculate_ok_iff :
    engine.calculate memory state exchangeHealthEvents channels decision windowSeconds =
        .ok (snapshot, after) ↔
      ∃ priceCache reads, Calculated engine memory state exchangeHealthEvents channels decision
        windowSeconds snapshot after priceCache reads := by
  unfold calculate
  constructor
  · intro h
    obtain ⟨⟨assembled, memory'⟩, hput, h⟩ := bind_eq_ok_iff.mp h
    obtain ⟨_, hfinite, h⟩ := bind_eq_ok_iff.mp h
    obtain ⟨checked, hchecked, h⟩ := bind_eq_ok_iff.mp h
    obtain ⟨rfl, rfl⟩ := Prod.mk.inj (Except.ok.inj h)
    obtain ⟨priceCache, reads, hconfigured, hupdated, hread, hmade, hafter⟩ := assemble_ok_iff.mp hput
    obtain ⟨hsymbol, hvalid, hassembled⟩ := FeatureSnapshot.validated_ok_iff.mp hchecked
    rw [hmade] at hsymbol hassembled
    have hnumbers : checked.checkedNumbers = assembled.checkedNumbers := by
      rw [hassembled, hmade]
      rfl
    exact ⟨priceCache, reads, hconfigured, hupdated, hread, hsymbol, hassembled,
      hnumbers ▸ FeatureMath.ensureFinite_ok_iff.mp hfinite, hvalid, hafter⟩
  · rintro ⟨priceCache, reads, hconfigured, hupdated, hread, hsymbol, hassembled, hfinite, hvalid, hafter⟩
    refine bind_eq_ok_iff.mpr ⟨(_, after), assemble_ok_iff.mpr
      ⟨priceCache, reads, hconfigured, hupdated, hread, rfl, hafter⟩, ?_⟩
    refine bind_eq_ok_iff.mpr ⟨(), FeatureMath.ensureFinite_ok_iff.mpr ?_, bind_eq_ok_iff.mpr
      ⟨snapshot, FeatureSnapshot.validated_ok_iff.mpr ⟨hsymbol, hvalid, hassembled⟩, rfl⟩⟩
    rw [hassembled] at hfinite
    exact hfinite

end SingleVenueFeatureEngine

/-! ## Runs -/

/-- The store holds what was ingested, and every price cache is behind its window. -/
structure Attended {F : Type} [Field F] [LinearOrder F] (engine : SingleVenueFeatureEngine F)
    (events : List NormalizedMarketEvent) (timeline : EngineTimeline F) : Prop where
  holds : MarketStateStore.HoldsEvents engine.digest events timeline.store
  caches : ∀ exchange symbol, SourcedPriceCache.Tracks engine.priceMath events
    (timeline.store.lookup exchange symbol).prices (timeline.memory.priceCaches (exchange, symbol))

namespace Attended

variable {F : Type} [Field F] [LinearOrder F] {engine : SingleVenueFeatureEngine F}
  {events : List NormalizedMarketEvent} {timeline : EngineTimeline F}

theorem new (engine : SingleVenueFeatureEngine F) : Attended engine [] (.new engine) where
  holds := .new engine.settings.features
  caches := fun _ _ => .new engine.settings.features.windowBounds

/-- An operation brings no event in twice. -/
theorem store (h : Attended engine events timeline) (operation : MarketStateStore.StoreOperation)
    (hnew : ∀ event ∈ operation.event?, event ∉ events) :
    Attended engine (events ++ operation.event?.toList)
      { timeline with store := timeline.store.perform engine.digest operation } where
  holds := h.holds.perform operation
  caches := by
    intro exchange symbol
    have hcache := h.caches exchange symbol
    rcases timeline.store.lookup_perform engine.digest operation exchange symbol with
      ⟨event, rfl, -, -, -, hlookup⟩ | ⟨healths, channels, hlookup⟩
    · show SourcedPriceCache.Tracks engine.priceMath (events ++ [event])
        ((timeline.store.perform engine.digest (.ingest event)).lookup exchange symbol).prices _
      rw [hlookup]
      have hstep := VenueSymbolState.eachWindow_ingest engine.digest timeline.store.config
        (timeline.store.lookup exchange symbol) event
      rcases hstep.prices with hsame | ⟨value, rfl, happended⟩
      · rw [hsame]
        exact hcache.past_mono event
      · rw [happended]
        exact hcache.append _ (hnew _ rfl)
    · show SourcedPriceCache.Tracks engine.priceMath (events ++ operation.event?.toList)
        ((timeline.store.perform engine.digest operation).lookup exchange symbol).prices _
      rw [hlookup]
      cases operation.event? with
      | none =>
        rw [Option.toList_none, List.append_nil]
        exact hcache
      | some event => exact hcache.past_mono event

/-- The price cache that a calculation reads counts the window's items. -/
theorem updated (h : Attended engine events timeline) (exchange : Exchange) (symbol : String) :
    ∃ priceCache, (timeline.memory.priceCaches (exchange, symbol)).update engine.priceMath
        (timeline.store.lookup exchange symbol).prices = .ok priceCache ∧
      SourcedPriceCache.Counts engine.priceMath events (timeline.store.lookup exchange symbol).prices
        priceCache :=
  (h.caches exchange symbol).update

theorem calculate (h : Attended engine events timeline) {exchange : Exchange} {symbol : String}
    {channels : List String} {decision windowSeconds : Int} {snapshot : FeatureSnapshot F}
    {memory : SingleVenueMemory F}
    (hcalculate : timeline.calculate engine exchange symbol channels decision windowSeconds =
      .ok (snapshot, memory)) :
    Attended engine events { timeline with memory } where
  holds := h.holds
  caches := by
    obtain ⟨priceCache, reads, hdone⟩ := SingleVenueFeatureEngine.calculate_ok_iff.mp hcalculate
    obtain ⟨hexchange, hsymbol⟩ := timeline.store.lookup_key exchange symbol
    have hupdated := hdone.updated
    rw [hexchange, hsymbol] at hupdated
    obtain ⟨counted, hcounted, hcounts⟩ := h.updated exchange symbol
    obtain rfl : counted = priceCache := Except.ok.inj (hcounted.symm.trans hupdated)
    intro exchange' symbol'
    rw [hdone.after]
    dsimp only
    rw [hexchange, hsymbol]
    by_cases hkey : (exchange', symbol') = (exchange, symbol)
    · obtain ⟨rfl, rfl⟩ := Prod.mk.inj hkey
      rw [Function.update_self]
      exact hcounts.toTracks
    · rw [Function.update_of_ne hkey]
      exact h.caches exchange' symbol'

/-- Through every run of different events. -/
theorem run {steps : List EngineStep} (hdistinct : (engineEvents steps).Nodup)
    (hrun : EngineTimeline.run engine steps = .ok timeline) :
    Attended engine (engineEvents steps) timeline := by
  induction steps using List.reverseRecOn generalizing timeline with
  | nil =>
    obtain rfl := Except.ok.inj hrun
    exact .new engine
  | append_singleton steps last ih =>
    rw [EngineTimeline.run_concat] at hrun
    obtain ⟨before, hbefore, hlast⟩ := bind_eq_ok_iff.mp hrun
    rw [engineEvents_concat] at hdistinct ⊢
    have hearlier := ih (List.nodup_append.mp hdistinct).1 hbefore
    cases last with
    | store operation =>
      obtain rfl := Except.ok.inj hlast
      apply hearlier.store operation
      intro event hevent hin
      exact (List.nodup_append.mp hdistinct).2.2 event hin event (Option.mem_toList.mpr hevent) rfl
    | calculate exchange symbol channels decision windowSeconds =>
      obtain ⟨snapshot, memory, hcalculate, rfl⟩ := EngineTimeline.perform_calculate_ok engine hlast
      rw [EngineStep.event?, Option.toList_none, List.append_nil]
      exact hearlier.calculate hcalculate

end Attended

/-! ### An example engine -/

theorem exampleWeights_length :
    (List.replicate 10 (1 : Decimal)).length = exampleFeatures.orderBookDepth := rfl

theorem exampleZscoreLookback_pos : 0 < 60 := by norm_num

theorem exampleStaleAfter_pos : 0 < 30000 := by norm_num

/-- A window of five seconds, over the default limits. -/
def exampleEngineSettings : SingleVenueSettings ℚ :=
  { strategyVersion := "CVF-01"
    codeVersion := "0.1.0"
    configHash := "config"
    features := exampleFeatures
    featureWindowsSeconds := [5]
    orderBookLevelWeights := List.replicate 10 1
    breakoutLookbackSeconds := 10
    atrPeriodSeconds := 10
    zscoreLookbackSeconds := 60
    largeTradeNotionalUsdt := 100000
    depthWalkNotionalUsdt := 10000
    abnormalJumpZscore := 4
    openInterestStaleAfterMs := 30000
    blockEntryStatuses := [.disconnected]
    weights_length := exampleWeights_length
    zscoreLookbackSeconds_pos := exampleZscoreLookback_pos
    openInterestStaleAfterMs_pos := exampleStaleAfter_pos }

/-- Exact arithmetic; a digest is the time of its event. -/
def exampleEngine : SingleVenueFeatureEngine ℚ :=
  { settings := exampleEngineSettings
    math :=
      { rationalMath with
        toFloat := fun value => value
        milliseconds := fun duration => duration / 1000
        largestFloat := 2 ^ 1024 - 2 ^ 971
        seconds := fun duration => duration / 1000000
        log := fun quotient => quotient - 1
        sqrt := fun value => value }
    digest := fun timestamp _ => BitVec.ofInt 256 timestamp
    fingerprint := fun lineage => toString lineage.count
    featureId := fun identity =>
      ⟨identity.decisionTimestamp.natAbs % 2 ^ 128, Nat.mod_lt _ (Nat.two_pow_pos 128)⟩ }

/-- Two trades of the example, at five and at seven seconds. -/
def exampleTradeSteps : List EngineStep :=
  [.store (.ingest (.trade exampleTrade)),
    .store (.ingest (.trade { exampleTrade with exchangeTimestamp := 7000000, tradeId := "2" }))]

/-- The run, and a calculation at its end, return. -/
theorem exampleTradeSteps_calculated : ∃ timeline snapshot memory,
    EngineTimeline.run exampleEngine exampleTradeSteps = .ok timeline ∧
      timeline.calculate exampleEngine .binance "BTC-USDT-PERP" [] 8000000 5 =
        .ok (snapshot, memory) := by
  have hreturns : (EngineTimeline.run exampleEngine exampleTradeSteps >>= fun timeline =>
      timeline.calculate exampleEngine .binance "BTC-USDT-PERP" [] 8000000 5).toBool = true := by
    decide +kernel
  cases hresult : EngineTimeline.run exampleEngine exampleTradeSteps >>= fun timeline =>
      timeline.calculate exampleEngine .binance "BTC-USDT-PERP" [] 8000000 5 with
  | error e =>
    rw [hresult] at hreturns
    cases hreturns
  | ok result =>
    obtain ⟨timeline, hrun, hcalculate⟩ := bind_eq_ok_iff.mp hresult
    exact ⟨timeline, result.1, result.2, hrun, hcalculate⟩

end Cvf
