/-
# Cvf.Features.State — bounded per-venue state fed by the normalized events.

`MarketStateStore` routes every event to the state of its exchange and symbol and, there, into one or
more event-time windows.  Each window has a watermark of its own, and an event that goes to several
of them is admitted by each in turn; a book event reaches its windows only after the feature book has
taken it.  What that order costs is the subject of the modules above this one.
-/
import Cvf.Features.Book
import Cvf.Features.Rolling
import Cvf.Monitoring.Health

namespace Cvf

/-- The part of `FeaturesConfig` the state reads, with its field bounds. -/
structure FeaturesConfig where
  orderBookDepth : Nat
  stateRetentionSeconds : Nat := 86400
  maximumEventsPerStream : Nat := 500000
  lateEventPolicy : LateEventPolicy := .drop
  maximumLatenessMs : Nat := 250
  bookPendingUpdates : Nat := 10000
  orderBookDepth_pos : 1 ≤ orderBookDepth
  orderBookDepth_le : orderBookDepth ≤ 20
  stateRetentionSeconds_pos : 0 < stateRetentionSeconds
  maximumEventsPerStream_pos : 0 < maximumEventsPerStream
  bookPendingUpdates_pos : 0 < bookPendingUpdates

namespace FeaturesConfig

/-- `_retention`, in microseconds. -/
def retention (config : FeaturesConfig) : Int := config.stateRetentionSeconds * 1000000

theorem retention_pos (config : FeaturesConfig) : 0 < config.retention := by
  have := config.stateRetentionSeconds_pos
  unfold retention
  omega

/-- `_window` and `_health_window`. -/
def windowBounds (config : FeaturesConfig) : WindowBounds where
  retention := config.retention
  maximumItems := config.maximumEventsPerStream
  lateEventPolicy := config.lateEventPolicy
  maximumLateness := config.maximumLatenessMs * 1000
  retention_pos := config.retention_pos
  maximumItems_pos := config.maximumEventsPerStream_pos
  maximumLateness_nonneg := by omega

/-- `_book_event_window`. -/
def bookEventBounds (config : FeaturesConfig) : WindowBounds where
  retention := config.retention
  maximumItems := config.maximumEventsPerStream
  lateEventPolicy := .drop
  maximumLateness := 0
  retention_pos := config.retention_pos
  maximumItems_pos := config.maximumEventsPerStream_pos
  maximumLateness_nonneg := le_rfl

/-- `_book_history_window`. -/
def bookHistoryBounds (config : FeaturesConfig) : WindowBounds where
  retention := config.retention
  maximumItems := config.maximumEventsPerStream
  lateEventPolicy := .insert
  maximumLateness := config.retention
  retention_pos := config.retention_pos
  maximumItems_pos := config.maximumEventsPerStream_pos
  maximumLateness_nonneg := config.retention_pos.le

end FeaturesConfig

structure StateUpdateResult where
  status : StateUpdateStatus
  exchange : Exchange
  symbol : String
  eventType : EventType
  reason : Option String := none
  deriving DecidableEq, Repr

structure FeatureBookCheckpoint where
  view : FeatureBookView
  sourceEvent : Option NormalizedMarketEvent
  change : Option BookChange
  deriving DecidableEq, Repr

/-- `VenueSymbolState`, but for the exchange-wide health window, which all states of an exchange
share and the store therefore keeps. -/
structure VenueSymbolState where
  exchange : Exchange
  symbol : String
  trades : BoundedTimeWindow Trade
  /-- `Trade | BestBidAsk | MarkPrice` -/
  prices : BoundedTimeWindow NormalizedMarketEvent
  openInterest : BoundedTimeWindow OpenInterest
  fundingRates : BoundedTimeWindow FundingRate
  markPrices : BoundedTimeWindow MarkPrice
  indexPrices : BoundedTimeWindow IndexPrice
  liquidations : BoundedTimeWindow LiquidationEvent
  /-- `OrderBookSnapshot | OrderBookUpdate` -/
  bookUpdates : BoundedTimeWindow NormalizedMarketEvent
  bookChanges : BoundedTimeWindow BookChange
  bookHistory : BoundedTimeWindow FeatureBookCheckpoint
  healthEvents : BoundedTimeWindow ExchangeHealth
  orderBook : FeatureOrderBookState
  latestByType : EventType → Option NormalizedMarketEvent
  healthByChannel : String → Option HealthStatus
  acceptedEvents : Nat
  rejectedEvents : Nat

/-- `_window_status`. -/
def windowStatus : AppendStatus → StateUpdateStatus
  | .lateDropped => .lateDropped
  | .expiredDropped => .expiredDropped
  | .accepted => .accepted

@[simp]
theorem windowStatus_accepted : windowStatus .accepted = .accepted := rfl

@[simp]
theorem windowStatus_eq_accepted_iff {status : AppendStatus} :
    windowStatus status = .accepted ↔ status = .accepted := by
  cases status <;> simp [windowStatus]

namespace VenueSymbolState

variable (digest : SourceDigest) (config : FeaturesConfig)

/-- `_create_state`. -/
def create (exchange : Exchange) (symbol : String) : VenueSymbolState :=
  { exchange
    symbol
    trades := .empty config.windowBounds
    prices := .empty config.windowBounds
    openInterest := .empty config.windowBounds
    fundingRates := .empty config.windowBounds
    markPrices := .empty config.windowBounds
    indexPrices := .empty config.windowBounds
    liquidations := .empty config.windowBounds
    bookUpdates := .empty config.bookEventBounds
    bookChanges := .empty config.windowBounds
    bookHistory := .empty config.bookHistoryBounds
    healthEvents := .empty config.windowBounds
    orderBook :=
      { pendingCapacity := config.bookPendingUpdates
        pendingCapacity_pos := config.bookPendingUpdates_pos }
    latestByType := fun _ => none
    healthByChannel := fun _ => none
    acceptedEvents := 0
    rejectedEvents := 0 }

/-- The state is the dictionary's value under `(exchange, symbol)`. -/
def hasKey (exchange : Exchange) (symbol : String) (state : VenueSymbolState) : Bool :=
  state.exchange = exchange ∧ state.symbol = symbol

/-- `health_by_channel[channel] = status`. -/
def setHealth (state : VenueSymbolState) (channel : String) (status : HealthStatus) :
    VenueSymbolState :=
  { state with healthByChannel := Function.update state.healthByChannel channel (some status) }

/-! ## The scalar events -/

/-- The branch of a trade: its own window, then `prices`. -/
def appendTrade (state : VenueSymbolState) (trade : Trade) :
    VenueSymbolState × StateUpdateStatus :=
  let trades := state.trades.append trade.exchangeTimestamp trade
  let status := windowStatus trades.2
  if status = .accepted then
    let prices := state.prices.append trade.exchangeTimestamp (.trade trade)
    let priceStatus := windowStatus prices.2
    ({ state with trades := trades.1, prices := prices.1 },
      if priceStatus = .accepted then status else priceStatus)
  else ({ state with trades := trades.1 }, status)

/-- The branch of a mark price: its own window, then `prices`. -/
def appendMarkPrice (state : VenueSymbolState) (mark : MarkPrice) :
    VenueSymbolState × StateUpdateStatus :=
  let markPrices := state.markPrices.append mark.exchangeTimestamp mark
  let status := windowStatus markPrices.2
  if status = .accepted then
    let prices := state.prices.append mark.exchangeTimestamp (.markPrice mark)
    ({ state with markPrices := markPrices.1, prices := prices.1 }, windowStatus prices.2)
  else ({ state with markPrices := markPrices.1 }, status)

/-- The branches of the events other than book events; health goes another way. -/
def appendScalar (state : VenueSymbolState) (event : NormalizedMarketEvent) :
    VenueSymbolState × StateUpdateStatus :=
  let eventAt := event.base.exchangeTimestamp
  match event with
  | .trade trade => state.appendTrade trade
  | .bestBidAsk _ =>
    let window := state.prices.append eventAt event
    ({ state with prices := window.1 }, windowStatus window.2)
  | .openInterest interest =>
    let window := state.openInterest.append eventAt interest
    ({ state with openInterest := window.1 }, windowStatus window.2)
  | .fundingRate rate =>
    let window := state.fundingRates.append eventAt rate
    ({ state with fundingRates := window.1 }, windowStatus window.2)
  | .markPrice mark => state.appendMarkPrice mark
  | .indexPrice index =>
    let window := state.indexPrices.append eventAt index
    ({ state with indexPrices := window.1 }, windowStatus window.2)
  | .liquidation liquidation =>
    let window := state.liquidations.append eventAt liquidation
    ({ state with liquidations := window.1 }, windowStatus window.2)
  | _ => (state, .accepted)

/-! ## The book events -/

/-- The book an event left, with the book windows emptied when it changed the generation. -/
def withBook (state : VenueSymbolState) (book : FeatureOrderBookState) : VenueSymbolState :=
  if book.generation ≠ state.orderBook.generation then
    { state with
      orderBook := book
      bookUpdates := state.bookUpdates.clear
      bookChanges := state.bookChanges.clear }
  else { state with orderBook := book }

/-- The branch of an admissible snapshot. -/
def applySnapshot (state : VenueSymbolState) (snapshot : OrderBookSnapshot) :
    VenueSymbolState × StateUpdateStatus × Option BookChange :=
  let applied := state.orderBook.applySnapshot digest snapshot
  let state := state.withBook applied.1
  if applied.2 = .accepted then
    let window := state.bookUpdates.clear.append snapshot.exchangeTimestamp
      (.orderBookSnapshot snapshot)
    ({ state with bookUpdates := window.1 }, windowStatus window.2, none)
  else (state, applied.2, none)

/-- The branch of an admissible update. -/
def applyUpdate (state : VenueSymbolState) (update : OrderBookUpdate) :
    VenueSymbolState × StateUpdateStatus × Option BookChange :=
  let applied := state.orderBook.applyUpdate digest update
  let state := state.withBook applied.1
  if applied.2 = .accepted then
    let window := state.bookUpdates.append update.exchangeTimestamp (.orderBookUpdate update)
    let status := windowStatus window.2
    let state := { state with bookUpdates := window.1 }
    match state.orderBook.lastChange with
    | some change =>
      if status = .accepted then
        let changes := state.bookChanges.append update.exchangeTimestamp change
        ({ state with bookChanges := changes.1 }, windowStatus changes.2, some change)
      else (state, status, none)
    | none => (state, status, none)
  else (state, applied.2, none)

/-- Both book branches. -/
def applyBook (state : VenueSymbolState) (event : NormalizedMarketEvent) :
    VenueSymbolState × StateUpdateStatus × Option BookChange :=
  match event with
  | .orderBookSnapshot snapshot => state.applySnapshot digest snapshot
  | .orderBookUpdate update => state.applyUpdate digest update
  | _ => (state, .accepted, none)

/-- `order_book.view(depth=order_book_depth)`, at a depth the configuration keeps positive. -/
def bookView (state : VenueSymbolState) : FeatureBookView :=
  (state.orderBook.view config.orderBookDepth).get (by
    have := config.orderBookDepth_pos
    rw [FeatureOrderBookState.view, if_neg (by omega)]
    rfl)

/-- The checkpoint a book event leaves in the history. -/
def checkpoint (state : VenueSymbolState) (event : NormalizedMarketEvent)
    (status : StateUpdateStatus) (change : Option BookChange) : FeatureBookCheckpoint :=
  { view := state.bookView config
    sourceEvent := if status = .lateDropped ∨ status = .expiredDropped then none else some event
    change := if status = .accepted then change else none }

/-! ## Ingestion -/

/-- One more rejected event, and what `ingest` answers. -/
def reject (state : VenueSymbolState) (status : StateUpdateStatus) (reason : Option String) :
    VenueSymbolState × StateUpdateStatus × Option String :=
  ({ state with rejectedEvents := state.rejectedEvents + 1 }, status, reason)

/-- The end of `ingest`: the counters, and the latest scalar event of its type. -/
def settle (state : VenueSymbolState) (event : NormalizedMarketEvent)
    (status : StateUpdateStatus) : VenueSymbolState × StateUpdateStatus × Option String :=
  if status = .accepted then
    let state := { state with acceptedEvents := state.acceptedEvents + 1 }
    match event with
    | .orderBookSnapshot _ | .orderBookUpdate _ | .exchangeHealth _ => (state, status, none)
    | event =>
      ({ state with
          latestByType := Function.update state.latestByType event.eventType (some event) },
        status, none)
  else state.reject status state.orderBook.lastError

/-- `ingest` after a book event the book took: the checkpoint, and the answer. -/
def recordBook (state : VenueSymbolState) (event : NormalizedMarketEvent)
    (status : StateUpdateStatus) (change : Option BookChange) :
    VenueSymbolState × StateUpdateStatus × Option String :=
  let history := state.bookHistory.append event.base.exchangeTimestamp
    (state.checkpoint config event status change)
  let historyStatus := windowStatus history.2
  let recorded := { state with bookHistory := history.1 }
  recorded.settle event (if status = StateUpdateStatus.accepted then historyStatus else status)

/-- `ingest` for a book event. -/
def ingestBook (state : VenueSymbolState) (event : NormalizedMarketEvent) :
    VenueSymbolState × StateUpdateStatus × Option String :=
  let admissibility := windowStatus (state.bookUpdates.admissibility event.base.exchangeTimestamp)
  if admissibility ≠ .accepted then
    state.reject admissibility
      (some "order-book event is outside the admissible event-time bound")
  else
    let applied := state.applyBook digest event
    let status : StateUpdateStatus := applied.2.1
    if status = .staleGeneration then
      applied.1.reject status (some "order-book generation is stale")
    else if status = .staleSequence then
      applied.1.reject status (some "order-book sequence does not advance current state")
    else applied.1.recordBook config event status applied.2.2

/-- `ingest`, within the state of the event's exchange and symbol. -/
def ingest (state : VenueSymbolState) (event : NormalizedMarketEvent) :
    VenueSymbolState × StateUpdateStatus × Option String :=
  match event with
  | .orderBookSnapshot _ | .orderBookUpdate _ => state.ingestBook digest config event
  | event =>
    let appended := state.appendScalar event
    appended.1.settle event appended.2

/-! ## What ingestion leaves alone -/

/-- The parts of a state no market event writes. -/
structure SameKey (before after : VenueSymbolState) : Prop where
  exchange : after.exchange = before.exchange
  symbol : after.symbol = before.symbol
  healthEvents : after.healthEvents = before.healthEvents
  healthByChannel : after.healthByChannel = before.healthByChannel

theorem SameKey.trans {a b c : VenueSymbolState} (h : SameKey a b) (h' : SameKey b c) :
    SameKey a c where
  exchange := h'.exchange.trans h.exchange
  symbol := h'.symbol.trans h.symbol
  healthEvents := h'.healthEvents.trans h.healthEvents
  healthByChannel := h'.healthByChannel.trans h.healthByChannel

theorem sameKey_appendScalar (state : VenueSymbolState) (event : NormalizedMarketEvent) :
    SameKey state (state.appendScalar event).1 := by
  cases event with
  | trade trade =>
    simp only [appendScalar, appendTrade]
    split <;> exact ⟨rfl, rfl, rfl, rfl⟩
  | markPrice mark =>
    simp only [appendScalar, appendMarkPrice]
    split <;> exact ⟨rfl, rfl, rfl, rfl⟩
  | _ => exact ⟨rfl, rfl, rfl, rfl⟩

theorem sameKey_withBook (state : VenueSymbolState) (book : FeatureOrderBookState) :
    SameKey state (state.withBook book) := by
  unfold withBook
  split <;> exact ⟨rfl, rfl, rfl, rfl⟩

theorem sameKey_applyBook (state : VenueSymbolState) (event : NormalizedMarketEvent) :
    SameKey state (state.applyBook digest event).1 := by
  cases event with
  | orderBookSnapshot snapshot =>
    apply (sameKey_withBook state (state.orderBook.applySnapshot digest snapshot).1).trans
    simp only [applyBook, applySnapshot]
    split <;> exact ⟨rfl, rfl, rfl, rfl⟩
  | orderBookUpdate update =>
    apply (sameKey_withBook state (state.orderBook.applyUpdate digest update).1).trans
    simp only [applyBook, applyUpdate]
    split
    · split
      · split <;> exact ⟨rfl, rfl, rfl, rfl⟩
      · exact ⟨rfl, rfl, rfl, rfl⟩
    · exact ⟨rfl, rfl, rfl, rfl⟩
  | _ => exact ⟨rfl, rfl, rfl, rfl⟩

theorem sameKey_settle (state : VenueSymbolState) (event : NormalizedMarketEvent)
    (status : StateUpdateStatus) : SameKey state (state.settle event status).1 := by
  unfold settle
  split_ifs
  · cases event <;> exact ⟨rfl, rfl, rfl, rfl⟩
  · exact ⟨rfl, rfl, rfl, rfl⟩

theorem sameKey_ingest (state : VenueSymbolState) (event : NormalizedMarketEvent) :
    SameKey state (state.ingest digest config event).1 := by
  have hbook : SameKey state (state.ingestBook digest config event).1 := by
    have happlied := sameKey_applyBook digest state event
    unfold ingestBook
    dsimp only
    split_ifs
    · exact ⟨rfl, rfl, rfl, rfl⟩
    · exact happlied.trans ⟨rfl, rfl, rfl, rfl⟩
    · exact happlied.trans ⟨rfl, rfl, rfl, rfl⟩
    · apply SameKey.trans _ (sameKey_settle ..)
      exact happlied.trans ⟨rfl, rfl, rfl, rfl⟩
  have hscalar : SameKey state
      ((state.appendScalar event).1.settle event (state.appendScalar event).2).1 :=
    (sameKey_appendScalar state event).trans (sameKey_settle ..)
  cases event with
  | orderBookSnapshot snapshot => exact hbook
  | orderBookUpdate update => exact hbook
  | _ => exact hscalar

end VenueSymbolState

/-! ## The store -/

/-- The exchanges a store keeps state for. -/
def Exchange.isConcrete : Exchange → Bool
  | .binance | .okx => true
  | .crossVenue | .simulated => false

structure MarketStateStore where
  config : FeaturesConfig
  /-- The dictionary of states, in insertion order; a state carries its own key. -/
  states : List VenueSymbolState
  /-- A dictionary over the concrete exchanges; the other arguments are never read. -/
  exchangeHealthEvents : Exchange → BoundedTimeWindow ExchangeHealth

namespace MarketStateStore

variable (digest : SourceDigest)

/-- `MarketStateStore(config)`. -/
def new (config : FeaturesConfig) : MarketStateStore :=
  { config, states := [], exchangeHealthEvents := fun _ => .empty config.windowBounds }

/-- The state under a key: the one the dictionary holds, or the one `state` would create. -/
def lookup (store : MarketStateStore) (exchange : Exchange) (symbol : String) :
    VenueSymbolState :=
  (store.states.find? (·.hasKey exchange symbol)).getD (.create store.config exchange symbol)

/-- Write a state back under its key. -/
def put (store : MarketStateStore) (state : VenueSymbolState) : MarketStateStore :=
  { store with
    states :=
      if store.states.any (·.hasKey state.exchange state.symbol) then
        store.states.map fun other =>
          if other.hasKey state.exchange state.symbol then state else other
      else store.states ++ [state] }

/-- `state`. -/
def state (store : MarketStateStore) (exchange : Exchange) (symbol : String) :
    Except String (MarketStateStore × VenueSymbolState) :=
  if !exchange.isConcrete then .error "feature market state requires a concrete exchange"
  else
    let state := store.lookup exchange symbol
    .ok (store.put state, state)

/-- `state.health_by_channel[channel] = status`, for every state of the exchange. -/
def setExchangeHealth (store : MarketStateStore) (exchange : Exchange) (channel : String)
    (status : HealthStatus) : MarketStateStore :=
  { store with
    states := store.states.map fun state =>
      if state.exchange = exchange then state.setHealth channel status else state }

/-- `update_health`. -/
def updateHealth (store : MarketStateStore) (health : ExchangeHealth) :
    Except String (MarketStateStore × StateUpdateStatus) :=
  if !health.exchange.isConcrete then
    .error "feature health requires a concrete market-data exchange"
  else if health.symbol = "*" then
    let window := (store.exchangeHealthEvents health.exchange).append health.exchangeTimestamp
      health
    let status := windowStatus window.2
    let store :=
      { store with
        exchangeHealthEvents :=
          Function.update store.exchangeHealthEvents health.exchange window.1 }
    if status ≠ .accepted then .ok (store, status)
    else .ok (store.setExchangeHealth health.exchange health.channel health.status, status)
  else
    let state := store.lookup health.exchange health.symbol
    let window := state.healthEvents.append health.exchangeTimestamp health
    let status := windowStatus window.2
    let state := { state with healthEvents := window.1 }
    if status = .accepted then
      .ok (store.put (state.setHealth health.channel health.status), status)
    else .ok (store.put state, status)

/-- `update_stream_health`, which reads a key and a status off the registry's record. -/
def updateStreamHealth (store : MarketStateStore) (key : StreamKey) (status : HealthStatus) :
    Except String MarketStateStore :=
  if key.symbol = "*" then .ok (store.setExchangeHealth key.exchange key.channel status)
  else
    match store.state key.exchange key.symbol with
    | .error e => .error e
    | .ok (store, state) =>
      .ok (store.put (state.setHealth key.channel status))

/-- `ingest`. -/
def ingest (store : MarketStateStore) (event : NormalizedMarketEvent) :
    Except String (MarketStateStore × StateUpdateResult) :=
  let result (status : StateUpdateStatus) (reason : Option String) : StateUpdateResult :=
    { status, exchange := event.base.exchange, symbol := event.base.symbol,
      eventType := event.eventType, reason }
  match event with
  | .exchangeHealth health =>
    match store.updateHealth health with
    | .error e => .error e
    | .ok (store, status) => .ok (store, result status none)
  | event =>
    match store.state event.base.exchange event.base.symbol with
    | .error e => .error e
    | .ok (store, state) =>
      let ingested := state.ingest digest store.config event
      .ok (store.put ingested.1, result ingested.2.1 ingested.2.2)

/-! ## The state under one key -/

theorem lookup_key (store : MarketStateStore) (exchange : Exchange) (symbol : String) :
    (store.lookup exchange symbol).exchange = exchange ∧
      (store.lookup exchange symbol).symbol = symbol := by
  unfold lookup
  cases hfound : store.states.find? (·.hasKey exchange symbol) with
  | none => exact ⟨rfl, rfl⟩
  | some state => simpa [VenueSymbolState.hasKey] using List.find?_some hfound

/-- Replacing what is under one key of the dictionary. -/
theorem find?_replaced {exchange : Exchange} {symbol : String} {state : VenueSymbolState}
    (hkey : state.hasKey exchange symbol = true) (states : List VenueSymbolState) :
    (states.map fun other => if other.hasKey exchange symbol then state else other).find?
        (·.hasKey exchange symbol) =
      if states.any (·.hasKey exchange symbol) then some state else none := by
  induction states with
  | nil => rfl
  | cons other rest ih =>
    by_cases hother : other.hasKey exchange symbol = true
    · simp [hother, hkey]
    · simpa [hother] using ih

/-- Replacing what is under another key. -/
theorem find?_replaced_of_ne {exchange exchange' : Exchange} {symbol symbol' : String}
    {state : VenueSymbolState} (hkey : state.hasKey exchange symbol = true)
    (hne : state.hasKey exchange' symbol' = false) (states : List VenueSymbolState) :
    (states.map fun other => if other.hasKey exchange symbol then state else other).find?
        (·.hasKey exchange' symbol') =
      states.find? (·.hasKey exchange' symbol') := by
  induction states with
  | nil => rfl
  | cons other rest ih =>
    by_cases hother : other.hasKey exchange symbol = true
    · have hother' : other.hasKey exchange' symbol' = false := by
        simp only [VenueSymbolState.hasKey, decide_eq_true_eq, decide_eq_false_iff_not] at *
        rintro ⟨rfl, rfl⟩
        exact hne ⟨hkey.1.trans hother.1.symm, hkey.2.trans hother.2.symm⟩
      simpa [hother, hother', hne] using ih
    · by_cases hfound : other.hasKey exchange' symbol' = true
      · simp [hother, hfound]
      · simpa [hother, hfound] using ih

/-- Writing a state back changes what is found under its key and nothing else. -/
theorem lookup_put (store : MarketStateStore) (state : VenueSymbolState) (exchange : Exchange)
    (symbol : String) :
    (store.put state).lookup exchange symbol =
      if state.exchange = exchange ∧ state.symbol = symbol then state
      else store.lookup exchange symbol := by
  have hself : state.hasKey state.exchange state.symbol = true := by
    simp [VenueSymbolState.hasKey]
  have hconfig : (store.put state).config = store.config := rfl
  rw [lookup, hconfig]
  unfold put
  split_ifs with hany hkey hkey
  · obtain ⟨rfl, rfl⟩ := hkey
    dsimp only
    rw [find?_replaced hself, if_pos hany]
    rfl
  · dsimp only
    rw [find?_replaced_of_ne hself (by simpa [VenueSymbolState.hasKey] using hkey)]
    rfl
  · obtain ⟨rfl, rfl⟩ := hkey
    have hnone : store.states.find? (·.hasKey state.exchange state.symbol) = none := by
      simpa using hany
    dsimp only
    rw [List.find?_append, hnone, List.find?_cons_of_pos hself]
    rfl
  · have hsingle : [state].find? (·.hasKey exchange symbol) = none := by
      simpa [VenueSymbolState.hasKey] using hkey
    dsimp only
    rw [List.find?_append, hsingle, Option.or_none]
    rfl

/-- What the writes of `health_by_channel` change in the state under a key. -/
theorem lookup_setExchangeHealth (store : MarketStateStore) (changed : Exchange) (channel : String)
    (status : HealthStatus) (exchange : Exchange) (symbol : String) :
    ∃ health, (store.setExchangeHealth changed channel status).lookup exchange symbol =
      { store.lookup exchange symbol with healthByChannel := health } := by
  let written (state : VenueSymbolState) : VenueSymbolState :=
    if state.exchange = changed then state.setHealth channel status else state
  have hwritten : ∀ state : VenueSymbolState,
      ∃ health, written state = { state with healthByChannel := health } := by
    intro state
    by_cases hchanged : state.exchange = changed
    · exact ⟨_, if_pos hchanged⟩
    · exact ⟨state.healthByChannel, if_neg hchanged⟩
  have hkey : (VenueSymbolState.hasKey exchange symbol ∘ written)
      = VenueSymbolState.hasKey exchange symbol := by
    funext state
    obtain ⟨health, hhealth⟩ := hwritten state
    rw [Function.comp_apply, hhealth]
    rfl
  show ∃ health, ((store.states.map written).find? (VenueSymbolState.hasKey exchange symbol)).getD
    (.create store.config exchange symbol) = _
  rw [List.find?_map, hkey, lookup]
  cases store.states.find? (VenueSymbolState.hasKey exchange symbol) with
  | none => exact ⟨_, rfl⟩
  | some state => exact hwritten state

/-- What the pipelines do with a store. -/
inductive StoreOperation where
  | ingest (event : NormalizedMarketEvent)
  | streamHealth (key : StreamKey) (status : HealthStatus)
  | state (exchange : Exchange) (symbol : String)

/-- One operation; an operation that raises leaves the store as it was. -/
def perform (store : MarketStateStore) : StoreOperation → MarketStateStore
  | .ingest event => ((store.ingest digest event).toOption.map Prod.fst).getD store
  | .streamHealth key status => (store.updateStreamHealth key status).toOption.getD store
  | .state exchange symbol => ((store.state exchange symbol).toOption.map Prod.fst).getD store

@[simp]
theorem lookup_put_lookup (store : MarketStateStore) (exchange exchange' : Exchange)
    (symbol symbol' : String) :
    (store.put (store.lookup exchange symbol)).lookup exchange' symbol' =
      store.lookup exchange' symbol' := by
  rw [lookup_put, (store.lookup_key exchange symbol).1, (store.lookup_key exchange symbol).2]
  split_ifs with hkey
  · rw [hkey.1, hkey.2]
  · rfl

/-- Only health events and stream statuses change the health fields under a key. -/
def HealthWritten (before after : VenueSymbolState) : Prop :=
  ∃ events channels, after = { before with healthEvents := events, healthByChannel := channels }

theorem HealthWritten.of_eq {before after : VenueSymbolState} (h : after = before) :
    HealthWritten before after := ⟨before.healthEvents, before.healthByChannel, h⟩

/-- Writing back a state whose health fields alone changed. -/
theorem HealthWritten.put {store : MarketStateStore} {exchange : Exchange} {symbol : String}
    {state : VenueSymbolState} (hstate : HealthWritten (store.lookup exchange symbol) state)
    (exchange' : Exchange) (symbol' : String) :
    HealthWritten (store.lookup exchange' symbol') ((store.put state).lookup exchange' symbol') := by
  obtain ⟨hexchange, hsymbol⟩ := store.lookup_key exchange symbol
  have hkey : state.exchange = exchange ∧ state.symbol = symbol := by
    obtain ⟨events, channels, rfl⟩ := hstate
    exact ⟨hexchange, hsymbol⟩
  rw [lookup_put, hkey.1, hkey.2]
  split_ifs with hsame
  · obtain ⟨rfl, rfl⟩ := hsame
    exact hstate
  · exact .of_eq rfl

theorem healthWritten_updateHealth {store after : MarketStateStore} {health : ExchangeHealth}
    {status : StateUpdateStatus} (hupdate : store.updateHealth health = .ok (after, status))
    (exchange : Exchange) (symbol : String) :
    HealthWritten (store.lookup exchange symbol) (after.lookup exchange symbol) := by
  unfold updateHealth at hupdate
  dsimp only at hupdate
  split_ifs at hupdate
  · -- the shared window refused the event
    obtain ⟨rfl, -⟩ := Prod.mk.inj (Except.ok.inj hupdate)
    exact .of_eq rfl
  · obtain ⟨rfl, -⟩ := Prod.mk.inj (Except.ok.inj hupdate)
    obtain ⟨channels, hchannels⟩ := lookup_setExchangeHealth
      { store with
        exchangeHealthEvents := Function.update store.exchangeHealthEvents health.exchange
          ((store.exchangeHealthEvents health.exchange).append health.exchangeTimestamp health).1 }
      health.exchange health.channel health.status exchange symbol
    exact ⟨(store.lookup exchange symbol).healthEvents, channels, hchannels⟩
  · obtain ⟨rfl, -⟩ := Prod.mk.inj (Except.ok.inj hupdate)
    exact HealthWritten.put ⟨_, _, rfl⟩ exchange symbol
  · obtain ⟨rfl, -⟩ := Prod.mk.inj (Except.ok.inj hupdate)
    exact HealthWritten.put ⟨_, _, rfl⟩ exchange symbol

theorem healthWritten_updateStreamHealth {store after : MarketStateStore} {key : StreamKey}
    {status : HealthStatus} (hupdate : store.updateStreamHealth key status = .ok after)
    (exchange : Exchange) (symbol : String) :
    HealthWritten (store.lookup exchange symbol) (after.lookup exchange symbol) := by
  unfold updateStreamHealth state at hupdate
  split_ifs at hupdate
  · obtain rfl := Except.ok.inj hupdate
    obtain ⟨channels, hchannels⟩ :=
      lookup_setExchangeHealth store key.exchange key.channel status exchange symbol
    exact ⟨(store.lookup exchange symbol).healthEvents, channels, hchannels⟩
  · obtain rfl : (store.put (store.lookup key.exchange key.symbol)).put
        ((store.lookup key.exchange key.symbol).setHealth key.channel status) = after :=
      Except.ok.inj hupdate
    have hfirst := store.lookup_put_lookup key.exchange exchange key.symbol symbol
    have hwritten : HealthWritten
        ((store.put (store.lookup key.exchange key.symbol)).lookup key.exchange key.symbol)
        ((store.lookup key.exchange key.symbol).setHealth key.channel status) := by
      rw [lookup_put_lookup]
      exact ⟨_, _, rfl⟩
    rw [← hfirst]
    exact hwritten.put exchange symbol

/-- Ingesting a market event changes the state under its key, by `VenueSymbolState.ingest`. -/
theorem ingest_market (store : MarketStateStore) {event : NormalizedMarketEvent}
    (hmarket : ∀ health, event ≠ .exchangeHealth health)
    (hconcrete : event.base.exchange.isConcrete = true) :
    ∃ after result, store.ingest digest event = .ok (after, result) ∧
      result.status = ((store.lookup event.base.exchange event.base.symbol).ingest digest
        store.config event).2.1 ∧
      after.exchangeHealthEvents = store.exchangeHealthEvents ∧
      ∀ exchange symbol, after.lookup exchange symbol =
        if event.base.exchange = exchange ∧ event.base.symbol = symbol then
          ((store.lookup event.base.exchange event.base.symbol).ingest digest store.config event).1
        else store.lookup exchange symbol := by
  have hstate : store.state event.base.exchange event.base.symbol =
      .ok (store.put (store.lookup event.base.exchange event.base.symbol),
        store.lookup event.base.exchange event.base.symbol) := by
    rw [state, hconcrete]
    rfl
  have hkey := VenueSymbolState.sameKey_ingest digest store.config
    (store.lookup event.base.exchange event.base.symbol) event
  obtain ⟨hexchange, hsymbol⟩ := store.lookup_key event.base.exchange event.base.symbol
  refine ⟨(store.put (store.lookup event.base.exchange event.base.symbol)).put
      ((store.lookup event.base.exchange event.base.symbol).ingest digest store.config event).1,
    { status := ((store.lookup event.base.exchange event.base.symbol).ingest digest
        store.config event).2.1
      exchange := event.base.exchange
      symbol := event.base.symbol
      eventType := event.eventType
      reason := ((store.lookup event.base.exchange event.base.symbol).ingest digest
        store.config event).2.2 }, ?_, rfl, rfl, ?_⟩
  · cases event with
    | exchangeHealth health => exact absurd rfl (hmarket health)
    | _ =>
      unfold ingest
      dsimp only
      rw [hstate]
      rfl
  · intro exchange symbol
    rw [lookup_put, hkey.exchange, hkey.symbol, hexchange, hsymbol, lookup_put_lookup]

theorem ingest_market_error {store : MarketStateStore} {event : NormalizedMarketEvent}
    (hmarket : ∀ health, event ≠ .exchangeHealth health)
    (hconcrete : event.base.exchange.isConcrete = false) :
    store.ingest digest event = .error "feature market state requires a concrete exchange" := by
  have hstate : store.state event.base.exchange event.base.symbol =
      .error "feature market state requires a concrete exchange" := by
    rw [state, hconcrete]
    rfl
  cases event with
  | exchangeHealth health => exact absurd rfl (hmarket health)
  | _ =>
    unfold ingest
    dsimp only
    rw [hstate]

theorem perform_ingest_ok {store after : MarketStateStore} {event : NormalizedMarketEvent}
    {result : StateUpdateResult} (hingest : store.ingest digest event = .ok (after, result)) :
    store.perform digest (.ingest event) = after := by
  simp only [perform, hingest]
  rfl

theorem perform_ingest_error {store : MarketStateStore} {event : NormalizedMarketEvent}
    {e : String} (hingest : store.ingest digest event = .error e) :
    store.perform digest (.ingest event) = store := by
  simp only [perform, hingest]
  rfl

/-- What one operation can do to the state under a key: ingest a market event of that key, or write
its health. -/
theorem lookup_perform (store : MarketStateStore) (operation : StoreOperation)
    (exchange : Exchange) (symbol : String) :
    (∃ event, operation = .ingest event ∧ (∀ health, event ≠ .exchangeHealth health) ∧
        event.base.exchange = exchange ∧ event.base.symbol = symbol ∧
        (store.perform digest operation).lookup exchange symbol =
          ((store.lookup exchange symbol).ingest digest store.config event).1) ∨
      HealthWritten (store.lookup exchange symbol)
        ((store.perform digest operation).lookup exchange symbol) := by
  cases operation with
  | ingest event =>
    by_cases hmarket : ∀ health, event ≠ .exchangeHealth health
    · cases hconcrete : event.base.exchange.isConcrete with
      | false =>
        rw [perform_ingest_error digest (ingest_market_error digest hmarket hconcrete)]
        exact .inr (.of_eq rfl)
      | true =>
        obtain ⟨after, result, hingest, -, -, hlookup⟩ :=
          ingest_market digest store hmarket hconcrete
        rw [perform_ingest_ok digest hingest]
        by_cases hkey : event.base.exchange = exchange ∧ event.base.symbol = symbol
        · obtain ⟨rfl, rfl⟩ := hkey
          refine .inl ⟨event, rfl, hmarket, rfl, rfl, ?_⟩
          exact (hlookup _ _).trans (if_pos ⟨rfl, rfl⟩)
        · exact .inr (.of_eq ((hlookup exchange symbol).trans (if_neg hkey)))
    · obtain ⟨health, rfl⟩ : ∃ health, event = .exchangeHealth health := by simpa using hmarket
      right
      cases hupdate : store.updateHealth health with
      | error e =>
        have hingest : store.ingest digest (.exchangeHealth health) = .error e := by
          simp only [ingest, hupdate]
        rw [perform_ingest_error digest hingest]
        exact .of_eq rfl
      | ok updated =>
        have hingest : store.ingest digest (.exchangeHealth health) = .ok (updated.1,
            { status := updated.2, exchange := health.exchange, symbol := health.symbol,
              eventType := .exchangeHealth, reason := none }) := by
          simp only [ingest, hupdate]
          rfl
        rw [perform_ingest_ok digest hingest]
        exact healthWritten_updateHealth hupdate exchange symbol
  | streamHealth key status =>
    right
    simp only [perform]
    cases hupdate : store.updateStreamHealth key status with
    | error e => exact .of_eq rfl
    | ok after => exact healthWritten_updateStreamHealth hupdate exchange symbol
  | state exchange' symbol' =>
    right
    simp only [perform, state]
    split_ifs
    · exact .of_eq rfl
    · exact .of_eq (store.lookup_put_lookup exchange' exchange symbol' symbol)

/-- The store a run of operations reaches. -/
def run (config : FeaturesConfig) (operations : List StoreOperation) : MarketStateStore :=
  operations.foldl (perform digest) (new config)

end MarketStateStore

end Cvf
