/-
# Cvf.Features.HeldSources — which events the windows of a store hold.

An event goes to the windows of its kind, under its exchange and symbol, at its own exchange time, and to
none of another kind (`eachWindow_ingest`).  So whatever a window holds is an ingested event, timed by itself
(`OfEvents`).  The book keeps no events but their summary: the lineage of a book, and of every checkpoint, is
that of ingested book events of its generation, each counted once (`Recounted`).

Both hold in every reachable store: every operation keeps `HoldsEvents`.
-/
import Cvf.Features.HealthFeed
import Cvf.Features.LineageMonoid
import Cvf.Features.Retention

namespace Cvf

open LineageFields

/-- `isinstance(event, (Trade, BestBidAsk, MarkPrice))`. -/
def NormalizedMarketEvent.isPrice : NormalizedMarketEvent → Bool
  | .trade _ | .bestBidAsk _ | .markPrice _ => true
  | _ => false

theorem NormalizedMarketEvent.isBook_of_isPrice {event : NormalizedMarketEvent}
    (h : event.isPrice = true) : event.isBook = false := by
  cases event with
  | trade trade => rfl
  | bestBidAsk quote => rfl
  | markPrice mark => rfl
  | _ => cases h

/-! ## Windows of events -/

/-- A relation between the windows of two states, each window with the events its values are. -/
structure EachWindow
    (R : (α : Type) → (α → NormalizedMarketEvent) → BoundedTimeWindow α → BoundedTimeWindow α → Prop)
    (before after : VenueSymbolState) : Prop where
  trades : R _ .trade before.trades after.trades
  prices : R _ id before.prices after.prices
  openInterest : R _ .openInterest before.openInterest after.openInterest
  fundingRates : R _ .fundingRate before.fundingRates after.fundingRates
  markPrices : R _ .markPrice before.markPrices after.markPrices
  indexPrices : R _ .indexPrice before.indexPrices after.indexPrices
  liquidations : R _ .liquidation before.liquidations after.liquidations

/-- One event's change of a window: none, or it is appended at its own time. -/
def AppendedEvent (event : NormalizedMarketEvent) (α : Type) (source : α → NormalizedMarketEvent)
    (before after : BoundedTimeWindow α) : Prop :=
  after = before ∨
    ∃ value, source value = event ∧ after = (before.append event.base.exchangeTimestamp value).1

/-- The items of a window are events of a list, at their own times. -/
def OfEvents (events : List NormalizedMarketEvent) {α : Type} (source : α → NormalizedMarketEvent)
    (window : BoundedTimeWindow α) : Prop :=
  ∀ item ∈ window.items,
    source item.value ∈ events ∧ item.timestamp = (source item.value).base.exchangeTimestamp

section

variable {events : List NormalizedMarketEvent} {event : NormalizedMarketEvent} {α : Type}
  {source : α → NormalizedMarketEvent} {before after : BoundedTimeWindow α}

theorem OfEvents.empty (bounds : WindowBounds) : OfEvents events source (.empty bounds) := by
  intro item hitem
  exact absurd hitem List.not_mem_nil

theorem OfEvents.mono (h : OfEvents events source before) {more : List NormalizedMarketEvent}
    (hsubset : events ⊆ more) : OfEvents more source before :=
  fun item hitem => ⟨hsubset (h item hitem).1, (h item hitem).2⟩

theorem AppendedEvent.ofEvents (h : AppendedEvent event α source before after)
    (hbefore : OfEvents events source before) : OfEvents (events ++ [event]) source after := by
  rcases h with rfl | ⟨value, rfl, rfl⟩
  · exact hbefore.mono (List.subset_append_left _ _)
  · intro item hitem
    rcases BoundedTimeWindow.append_mem hitem with hold | rfl
    · exact hbefore.mono (List.subset_append_left _ _) item hold
    · exact ⟨List.mem_append_right _ List.mem_cons_self, rfl⟩

end

namespace VenueSymbolState

variable (digest : SourceDigest) (config : FeaturesConfig)

theorem eachWindow_of_same {event : NormalizedMarketEvent} {before after : VenueSymbolState}
    (h : SameWindows before after) : EachWindow (AppendedEvent event) before after :=
  ⟨.inl h.trades, .inl h.prices, .inl h.openInterest, .inl h.fundingRates, .inl h.markPrices,
    .inl h.indexPrices, .inl h.liquidations⟩

theorem eachWindow_appendScalar (state : VenueSymbolState) (event : NormalizedMarketEvent) :
    EachWindow (AppendedEvent event) state (state.appendScalar event).1 := by
  cases event with
  | trade trade =>
    show EachWindow _ state (state.appendTrade trade).1
    unfold appendTrade
    dsimp only
    split
    · exact ⟨.inr ⟨_, rfl, rfl⟩, .inr ⟨_, rfl, rfl⟩, .inl rfl, .inl rfl, .inl rfl, .inl rfl, .inl rfl⟩
    · exact ⟨.inr ⟨_, rfl, rfl⟩, .inl rfl, .inl rfl, .inl rfl, .inl rfl, .inl rfl, .inl rfl⟩
  | markPrice mark =>
    show EachWindow _ state (state.appendMarkPrice mark).1
    unfold appendMarkPrice
    dsimp only
    split
    · exact ⟨.inl rfl, .inr ⟨_, rfl, rfl⟩, .inl rfl, .inl rfl, .inr ⟨_, rfl, rfl⟩, .inl rfl, .inl rfl⟩
    · exact ⟨.inl rfl, .inl rfl, .inl rfl, .inl rfl, .inr ⟨_, rfl, rfl⟩, .inl rfl, .inl rfl⟩
  | bestBidAsk quote =>
    exact ⟨.inl rfl, .inr ⟨_, rfl, rfl⟩, .inl rfl, .inl rfl, .inl rfl, .inl rfl, .inl rfl⟩
  | openInterest interest =>
    exact ⟨.inl rfl, .inl rfl, .inr ⟨_, rfl, rfl⟩, .inl rfl, .inl rfl, .inl rfl, .inl rfl⟩
  | fundingRate rate =>
    exact ⟨.inl rfl, .inl rfl, .inl rfl, .inr ⟨_, rfl, rfl⟩, .inl rfl, .inl rfl, .inl rfl⟩
  | indexPrice index =>
    exact ⟨.inl rfl, .inl rfl, .inl rfl, .inl rfl, .inl rfl, .inr ⟨_, rfl, rfl⟩, .inl rfl⟩
  | liquidation liquidation =>
    exact ⟨.inl rfl, .inl rfl, .inl rfl, .inl rfl, .inl rfl, .inl rfl, .inr ⟨_, rfl, rfl⟩⟩
  | _ => exact eachWindow_of_same (sameWindows_refl state)

theorem eachWindow_settle {event : NormalizedMarketEvent} {before after : VenueSymbolState}
    (h : EachWindow (AppendedEvent event) before after) (settled : NormalizedMarketEvent)
    (status : StateUpdateStatus) :
    EachWindow (AppendedEvent event) before (after.settle settled status).1 := by
  have hsame := sameWindows_settle after settled status
  refine ⟨?_, ?_, ?_, ?_, ?_, ?_, ?_⟩
  · rw [hsame.trades]; exact h.trades
  · rw [hsame.prices]; exact h.prices
  · rw [hsame.openInterest]; exact h.openInterest
  · rw [hsame.fundingRates]; exact h.fundingRates
  · rw [hsame.markPrices]; exact h.markPrices
  · rw [hsame.indexPrices]; exact h.indexPrices
  · rw [hsame.liquidations]; exact h.liquidations

/-- A book event leaves the windows of the scalar events alone. -/
theorem eachWindow_ingestBook (state : VenueSymbolState) (event : NormalizedMarketEvent) :
    EachWindow (AppendedEvent event) state (state.ingestBook digest config event).1 := by
  have happlied : EachWindow (AppendedEvent event) state (state.applyBook digest event).1 :=
    eachWindow_of_same (sameWindows_applyBook digest state event)
  unfold ingestBook
  dsimp only
  split_ifs
  · exact eachWindow_of_same (sameWindows_reject ..)
  · exact ⟨happlied.trades, happlied.prices, happlied.openInterest, happlied.fundingRates,
      happlied.markPrices, happlied.indexPrices, happlied.liquidations⟩
  · exact ⟨happlied.trades, happlied.prices, happlied.openInterest, happlied.fundingRates,
      happlied.markPrices, happlied.indexPrices, happlied.liquidations⟩
  · unfold recordBook
    dsimp only
    apply eachWindow_settle
    exact ⟨happlied.trades, happlied.prices, happlied.openInterest, happlied.fundingRates,
      happlied.markPrices, happlied.indexPrices, happlied.liquidations⟩

/-- An event is appended to windows of its own kind only, at its own time. -/
theorem eachWindow_ingest (state : VenueSymbolState) (event : NormalizedMarketEvent) :
    EachWindow (AppendedEvent event) state (state.ingest digest config event).1 := by
  cases hbook : event.isBook with
  | true =>
    rw [ingest_eq_ingestBook digest config state hbook]
    exact eachWindow_ingestBook digest config state event
  | false =>
    rw [ingest_eq_settle digest config state hbook]
    exact eachWindow_settle (eachWindow_appendScalar state event) ..

/-- Only events with a price reach the price window. -/
theorem prices_ingest (state : VenueSymbolState) {event : NormalizedMarketEvent}
    (hprice : event.isPrice = false) :
    (state.ingest digest config event).1.prices = state.prices := by
  cases hbook : event.isBook with
  | true =>
    rw [ingest_eq_ingestBook digest config state hbook]
    have happlied := (sameWindows_applyBook digest state event).prices
    unfold ingestBook
    dsimp only
    split_ifs
    · rfl
    · exact happlied
    · exact happlied
    · unfold recordBook
      exact (sameWindows_settle ..).prices.trans happlied
  | false =>
    rw [ingest_eq_settle digest config state hbook, (sameWindows_settle ..).prices]
    cases event with
    | trade trade => cases hprice
    | bestBidAsk quote => cases hprice
    | markPrice mark => cases hprice
    | _ => rfl

end VenueSymbolState

/-! ## The book -/

/-- The leaf of an event. -/
def sourceLeaf (digest : SourceDigest) (event : NormalizedMarketEvent) : Int × BitVec 256 :=
  (event.base.exchangeTimestamp, digest event.base.exchangeTimestamp event)

/-- A lineage of book events of one key and generation, each counted once. -/
structure CountsBook (digest : SourceDigest) (exchange : Exchange) (symbol : String)
    (events : List NormalizedMarketEvent) (generation : Nat) (taken : List NormalizedMarketEvent)
    (lineage : SourceLineage) : Prop where
  sublist : taken.Sublist events
  book : ∀ event ∈ taken, event.isBook = true
  key : ∀ event ∈ taken, event.base.exchange = exchange ∧ event.base.symbol = symbol
  generation : ∀ event ∈ taken, event.generation = generation
  lineage : lineage = typedSummary (taken.map (sourceLeaf digest))

/-- The book and its checkpoints count ingested book events. -/
structure RecountedBook (digest : SourceDigest) (exchange : Exchange) (symbol : String)
    (events : List NormalizedMarketEvent) (state : VenueSymbolState) : Prop where
  current : ∃ taken, CountsBook digest exchange symbol events state.orderBook.generation taken
    state.orderBook.lineage
  checkpoints : ∀ item ∈ state.bookHistory.items, ∃ taken,
    CountsBook digest exchange symbol events item.value.view.generation taken item.value.view.lineage

section

variable {digest : SourceDigest} {exchange : Exchange} {symbol : String}
  {events : List NormalizedMarketEvent} {generation : Nat} {taken : List NormalizedMarketEvent}
  {lineage : SourceLineage}

theorem CountsBook.none : CountsBook digest exchange symbol events generation [] {} where
  sublist := List.nil_sublist _
  book := by simp
  key := by simp
  generation := by simp
  lineage := rfl

theorem CountsBook.mono (h : CountsBook digest exchange symbol events generation taken lineage)
    (more : List NormalizedMarketEvent) :
    CountsBook digest exchange symbol (events ++ more) generation taken lineage :=
  { h with sublist := h.sublist.trans (List.sublist_append_left _ _) }

/-- The summary of one source is its leaf. -/
theorem typedSummary_singleton (timestamp : Int) (value : BitVec 256) :
    typedSummary [(timestamp, value)] = .fromDigest timestamp value := by
  have hsum : ([value] : List (BitVec 256)).sum = value := List.sum_singleton
  have hxor : value ^^^ (0 : BitVec 256) = value := BitVec.xor_zero
  show ({ count := 1
          digestSum := ([value] : List (BitVec 256)).sum
          digestXor := value ^^^ (0 : BitVec 256)
          oldestTimestamp := some timestamp
          newestTimestamp := some timestamp } : SourceLineage) = _
  rw [hsum, hxor]
  rfl

/-- One more book event of the generation. -/
theorem CountsBook.record (h : CountsBook digest exchange symbol events generation taken lineage)
    {event : NormalizedMarketEvent} (hbook : event.isBook = true)
    (hkey : event.base.exchange = exchange ∧ event.base.symbol = symbol)
    (hgeneration : event.generation = generation) :
    CountsBook digest exchange symbol (events ++ [event]) generation (taken ++ [event])
      (lineage.combine (.fromSource digest event.base.exchangeTimestamp event)) where
  sublist := h.sublist.append (List.Sublist.refl _)
  book := by
    intro other hother
    rcases List.mem_append.mp hother with hold | hnew
    · exact h.book other hold
    · rw [List.mem_singleton.mp hnew]
      exact hbook
  key := by
    intro other hother
    rcases List.mem_append.mp hother with hold | hnew
    · exact h.key other hold
    · rw [List.mem_singleton.mp hnew]
      exact hkey
  generation := by
    intro other hother
    rcases List.mem_append.mp hother with hold | hnew
    · exact h.generation other hold
    · rw [List.mem_singleton.mp hnew]
      exact hgeneration
  lineage := by
    rw [h.lineage, List.map_append, ← typedSummary_append, List.map_singleton, sourceLeaf,
      typedSummary_singleton]
    rfl

variable {state : VenueSymbolState}

theorem RecountedBook.create (config : FeaturesConfig) :
    RecountedBook digest exchange symbol [] (.create config exchange symbol) where
  current := ⟨[], .none⟩
  checkpoints := fun _ hitem => absurd hitem List.not_mem_nil

theorem RecountedBook.mono (h : RecountedBook digest exchange symbol events state)
    (more : List NormalizedMarketEvent) :
    RecountedBook digest exchange symbol (events ++ more) state where
  current := by
    obtain ⟨taken, htaken⟩ := h.current
    exact ⟨taken, htaken.mono more⟩
  checkpoints := by
    intro item hitem
    obtain ⟨taken, htaken⟩ := h.checkpoints item hitem
    exact ⟨taken, htaken.mono more⟩

theorem RecountedBook.congr (h : RecountedBook digest exchange symbol events state)
    {after : VenueSymbolState} (hbook : after.orderBook = state.orderBook)
    (hhistory : after.bookHistory = state.bookHistory) :
    RecountedBook digest exchange symbol events after where
  current := by
    rw [hbook]
    exact h.current
  checkpoints := by
    rw [hhistory]
    exact h.checkpoints

/-- A book event of the key: refused without a trace, or recorded in its generation's lineage. -/
theorem RecountedBook.ingest (h : RecountedBook digest exchange symbol events state)
    (config : FeaturesConfig) (hordered : BookWindowsOrdered state) {event : NormalizedMarketEvent}
    (hkey : event.base.exchange = exchange ∧ event.base.symbol = symbol) :
    RecountedBook digest exchange symbol (events ++ [event]) (state.ingest digest config event).1 := by
  cases hbook : event.isBook with
  | false =>
    obtain ⟨horderBook, hhistory, -⟩ := VenueSymbolState.ingest_scalar_book digest config state hbook
    exact (h.mono [event]).congr horderBook hhistory
  | true =>
    rw [VenueSymbolState.ingest_eq_ingestBook digest config state hbook]
    rcases VenueSymbolState.ingestBook_cases digest config hordered hbook with
      ⟨status, reason, hreject, -⟩ | htaken
    · rw [hreject]
      exact (h.mono [event]).congr rfl rfl
    · have hrecorded := htaken.recorded
      obtain ⟨checkpoint, hview, hhistory⟩ := htaken.history
      generalize (state.ingestBook digest config event).1 = after at hrecorded hview hhistory ⊢
      -- what the generation's lineage counted before the event
      obtain ⟨taken, hbefore⟩ : ∃ taken, CountsBook digest exchange symbol events event.generation taken
          (state.orderBook.lineageIn event.generation) := by
        unfold FeatureOrderBookState.lineageIn
        split_ifs with hsame
        · rw [hsame]
          exact h.current
        · exact ⟨[], .none⟩
      have hcurrent : CountsBook digest exchange symbol (events ++ [event]) after.orderBook.generation
          (taken ++ [event]) after.orderBook.lineage := by
        rw [hrecorded.lineage, hrecorded.generation]
        exact hbefore.record hbook hkey rfl
      obtain ⟨hgeneration, -, hlineage, -⟩ := after.bookView_fields config
      refine ⟨⟨_, hcurrent⟩, fun item hitem => ?_⟩
      rw [hhistory] at hitem
      rcases BoundedTimeWindow.append_mem hitem with hold | rfl
      · obtain ⟨counted, hcounted⟩ := h.checkpoints item hold
        exact ⟨counted, hcounted.mono [event]⟩
      · refine ⟨taken ++ [event], ?_⟩
        show CountsBook digest exchange symbol _ checkpoint.view.generation _ checkpoint.view.lineage
        rw [hview, hgeneration, hlineage]
        exact hcurrent

end

/-- The view as of a decision counts ingested book events, at whatever time they are. -/
theorem RecountedBook.bookViewAsOf {digest : SourceDigest} {exchange : Exchange} {symbol : String}
    {events : List NormalizedMarketEvent} {state : VenueSymbolState}
    (h : RecountedBook digest exchange symbol events state) (config : FeaturesConfig) (decision : Int) :
    ∃ taken, CountsBook digest exchange symbol events (state.bookViewAsOf config decision).generation taken
      (state.bookViewAsOf config decision).lineage := by
  unfold VenueSymbolState.bookViewAsOf
  cases hlatest : state.bookHistory.latestAtOrBefore decision with
  | none => exact ⟨[], .none⟩
  | some checkpoint =>
    have hmem : checkpoint ∈ state.bookHistory.items := by
      unfold BoundedTimeWindow.latestAtOrBefore at hlatest
      exact List.mem_reverse.mp (List.mem_of_find?_eq_some hlatest)
    exact h.checkpoints checkpoint hmem

/-! ## The store -/

namespace MarketStateStore

/-- A health event goes to one window, that of its exchange or that of its symbol. -/
theorem appendedEvent_updateHealth {store after : MarketStateStore} {health : ExchangeHealth}
    {status : StateUpdateStatus} (hupdate : store.updateHealth health = .ok (after, status)) :
    (∀ exchange, AppendedEvent (.exchangeHealth health) _ .exchangeHealth
        (store.exchangeHealthEvents exchange) (after.exchangeHealthEvents exchange)) ∧
      ∀ exchange symbol, AppendedEvent (.exchangeHealth health) _ .exchangeHealth
        (store.lookup exchange symbol).healthEvents (after.lookup exchange symbol).healthEvents := by
  -- the exchange's own window after an append to it
  have hwide : ∀ exchange, AppendedEvent (.exchangeHealth health) _ .exchangeHealth
      (store.exchangeHealthEvents exchange) (Function.update store.exchangeHealthEvents health.exchange
        ((store.exchangeHealthEvents health.exchange).append health.exchangeTimestamp health).1
          exchange) := by
    intro exchange
    by_cases hsame : exchange = health.exchange
    · subst hsame
      rw [Function.update_self]
      exact .inr ⟨health, rfl, rfl⟩
    · rw [Function.update_of_ne hsame]
      exact .inl rfl
  -- the state of the symbol written back
  have hput : ∀ state : VenueSymbolState, state.exchange = health.exchange →
      state.symbol = health.symbol →
      state.healthEvents = ((store.lookup health.exchange health.symbol).healthEvents.append
        health.exchangeTimestamp health).1 →
      ∀ exchange symbol, AppendedEvent (.exchangeHealth health) _ .exchangeHealth
        (store.lookup exchange symbol).healthEvents
        ((store.put state).lookup exchange symbol).healthEvents := by
    intro state hexchange hsymbol hevents exchange symbol
    rw [lookup_put]
    split_ifs with hkey
    · obtain ⟨rfl, rfl⟩ := hkey
      rw [hevents, hexchange, hsymbol]
      exact .inr ⟨health, rfl, rfl⟩
    · exact .inl rfl
  obtain ⟨hexchange, hsymbol⟩ := store.lookup_key health.exchange health.symbol
  unfold updateHealth at hupdate
  dsimp only at hupdate
  split_ifs at hupdate
  · obtain ⟨rfl, -⟩ := Prod.mk.inj (Except.ok.inj hupdate)
    exact ⟨hwide, fun exchange symbol => .inl rfl⟩
  · obtain ⟨rfl, -⟩ := Prod.mk.inj (Except.ok.inj hupdate)
    refine ⟨hwide, fun exchange symbol => .inl ?_⟩
    obtain ⟨channels, hchannels⟩ := lookup_setExchangeHealth
      { store with
        exchangeHealthEvents := Function.update store.exchangeHealthEvents health.exchange
          ((store.exchangeHealthEvents health.exchange).append health.exchangeTimestamp health).1 }
      health.exchange health.channel health.status exchange symbol
    rw [hchannels]
    rfl
  · obtain ⟨rfl, -⟩ := Prod.mk.inj (Except.ok.inj hupdate)
    exact ⟨fun exchange => .inl rfl, hput _ hexchange hsymbol rfl⟩
  · obtain ⟨rfl, -⟩ := Prod.mk.inj (Except.ok.inj hupdate)
    exact ⟨fun exchange => .inl rfl, hput _ hexchange hsymbol rfl⟩

/-- The event an operation ingests. -/
def StoreOperation.event? : StoreOperation → Option NormalizedMarketEvent
  | .ingest event => some event
  | _ => none

/-- The health windows of two stores, one operation apart. -/
structure HealthWindows
    (R : (α : Type) → (α → NormalizedMarketEvent) → BoundedTimeWindow α → BoundedTimeWindow α → Prop)
    (before after : MarketStateStore) : Prop where
  health : ∀ exchange symbol, R _ .exchangeHealth (before.lookup exchange symbol).healthEvents
    (after.lookup exchange symbol).healthEvents
  exchangeHealth : ∀ exchange, R _ .exchangeHealth (before.exchangeHealthEvents exchange)
    (after.exchangeHealthEvents exchange)

variable (digest : SourceDigest)

theorem healthWindows_perform_ingest (store : MarketStateStore) (event : NormalizedMarketEvent) :
    HealthWindows (AppendedEvent event) store (store.perform digest (.ingest event)) := by
  by_cases hmarket : ∀ health, event ≠ .exchangeHealth health
  · cases hconcrete : event.base.exchange.isConcrete with
    | false =>
      rw [perform_ingest_error digest (ingest_market_error digest hmarket hconcrete)]
      exact ⟨fun exchange symbol => .inl rfl, fun exchange => .inl rfl⟩
    | true =>
      obtain ⟨after, result, hingest, -, hwide, hlookup⟩ := ingest_market digest store hmarket hconcrete
      rw [perform_ingest_ok digest hingest]
      refine ⟨fun exchange symbol => .inl ?_, fun exchange => .inl (congrFun hwide exchange)⟩
      rw [hlookup]
      split_ifs with hkey
      · obtain ⟨rfl, rfl⟩ := hkey
        exact (VenueSymbolState.sameKey_ingest digest store.config _ event).healthEvents
      · rfl
  · obtain ⟨health, rfl⟩ : ∃ health, event = .exchangeHealth health := by simpa using hmarket
    cases hupdate : store.updateHealth health with
    | error e =>
      have hingest : store.ingest digest (.exchangeHealth health) = .error e := by
        simp only [ingest, hupdate]
      rw [perform_ingest_error digest hingest]
      exact ⟨fun exchange symbol => .inl rfl, fun exchange => .inl rfl⟩
    | ok updated =>
      have hingest : store.ingest digest (.exchangeHealth health) = .ok (updated.1,
          { status := updated.2, exchange := health.exchange, symbol := health.symbol,
            eventType := .exchangeHealth, reason := none }) := by
        simp only [ingest, hupdate]
        rfl
      rw [perform_ingest_ok digest hingest]
      obtain ⟨hwide, hown⟩ := appendedEvent_updateHealth hupdate
      exact ⟨hown, hwide⟩

/-- What is no event leaves every health window alone. -/
theorem healthWindows_perform_other (store : MarketStateStore) {operation : StoreOperation}
    (hnone : operation.event? = none) :
    HealthWindows (fun _ _ before after => after = before) store (store.perform digest operation) := by
  cases operation with
  | ingest event => cases hnone
  | streamHealth key status =>
    simp only [perform]
    cases hupdate : store.updateStreamHealth key status with
    | error e => exact ⟨fun _ _ => rfl, fun _ => rfl⟩
    | ok after =>
      unfold updateStreamHealth state at hupdate
      split_ifs at hupdate
      · obtain rfl := Except.ok.inj hupdate
        refine ⟨fun exchange symbol => ?_, fun _ => rfl⟩
        obtain ⟨channels, hchannels⟩ :=
          lookup_setExchangeHealth store key.exchange key.channel status exchange symbol
        show ((store.setExchangeHealth key.exchange key.channel status).lookup exchange symbol).healthEvents = _
        rw [hchannels]
      · obtain rfl : (store.put (store.lookup key.exchange key.symbol)).put
            ((store.lookup key.exchange key.symbol).setHealth key.channel status) = after :=
          Except.ok.inj hupdate
        refine ⟨fun exchange symbol => ?_, fun _ => rfl⟩
        obtain ⟨hexchange, hsymbol⟩ := store.lookup_key key.exchange key.symbol
        show (((store.put (store.lookup key.exchange key.symbol)).put
          ((store.lookup key.exchange key.symbol).setHealth key.channel status)).lookup exchange
            symbol).healthEvents = _
        rw [lookup_put, lookup_put_lookup]
        split_ifs with hkey
        · obtain ⟨hkeyExchange, hkeySymbol⟩ := hkey
          rw [← hkeyExchange, ← hkeySymbol]
          show (store.lookup key.exchange key.symbol).healthEvents =
            (store.lookup (store.lookup key.exchange key.symbol).exchange
              (store.lookup key.exchange key.symbol).symbol).healthEvents
          rw [hexchange, hsymbol]
        · rfl
  | state exchange symbol =>
    simp only [perform, state]
    split_ifs
    · exact ⟨fun _ _ => rfl, fun _ => rfl⟩
    · refine ⟨fun exchange' symbol' => ?_, fun _ => rfl⟩
      exact congrArg VenueSymbolState.healthEvents
        (store.lookup_put_lookup exchange exchange' symbol symbol')

/-- What a store holds is from some events. -/
structure HoldsEvents (digest : SourceDigest) (events : List NormalizedMarketEvent)
    (store : MarketStateStore) : Prop where
  windows : ∀ exchange symbol, EachWindow (fun _ source _ window => OfEvents events source window)
    (store.lookup exchange symbol) (store.lookup exchange symbol)
  book : ∀ exchange symbol, RecountedBook digest exchange symbol events (store.lookup exchange symbol)
  health : HealthWindows (fun _ source _ window => OfEvents events source window) store store
  priced : ∀ exchange symbol, ∀ item ∈ (store.lookup exchange symbol).prices.items,
    item.value.isPrice = true
  ordered : ∀ exchange symbol, BookWindowsOrdered (store.lookup exchange symbol)

variable {digest} {events : List NormalizedMarketEvent} {store : MarketStateStore}

theorem HoldsEvents.new (config : FeaturesConfig) : HoldsEvents digest [] (.new config) where
  windows := fun _ _ =>
    ⟨.empty _, .empty _, .empty _, .empty _, .empty _, .empty _, .empty _⟩
  book := fun _ _ => .create config
  health := ⟨fun _ _ => .empty _, fun _ => .empty _⟩
  priced := fun _ _ _ hitem => absurd hitem List.not_mem_nil
  ordered := bookWindowsOrdered_run digest config []

theorem HoldsEvents.mono (h : HoldsEvents digest events store) (more : List NormalizedMarketEvent) :
    HoldsEvents digest (events ++ more) store where
  windows := by
    intro exchange symbol
    have hstate := h.windows exchange symbol
    have hsubset := List.subset_append_left events more
    exact ⟨hstate.trades.mono hsubset, hstate.prices.mono hsubset, hstate.openInterest.mono hsubset,
      hstate.fundingRates.mono hsubset, hstate.markPrices.mono hsubset, hstate.indexPrices.mono hsubset,
      hstate.liquidations.mono hsubset⟩
  book := fun exchange symbol => (h.book exchange symbol).mono more
  health :=
    { health := fun exchange symbol =>
        (h.health.health exchange symbol).mono (List.subset_append_left events more)
      exchangeHealth := fun exchange =>
        (h.health.exchangeHealth exchange).mono (List.subset_append_left events more) }
  priced := h.priced
  ordered := h.ordered

/-- One operation brings at most its own event in. -/
theorem HoldsEvents.perform (h : HoldsEvents digest events store) (operation : StoreOperation) :
    HoldsEvents digest (events ++ operation.event?.toList) (store.perform digest operation) := by
  have hmono := h.mono operation.event?.toList
  have hordered : ∀ exchange symbol,
      BookWindowsOrdered ((store.perform digest operation).lookup exchange symbol) := by
    intro exchange symbol
    rcases store.lookup_perform digest operation exchange symbol with
      ⟨event, -, -, -, -, hlookup⟩ | ⟨healths, channels, hlookup⟩
    · rw [hlookup]
      exact (h.ordered exchange symbol).ingest digest store.config event
    · rw [hlookup]
      exact ⟨(h.ordered exchange symbol).forward, (h.ordered exchange symbol).behind⟩
  have hpriced : ∀ exchange symbol,
      ∀ item ∈ ((store.perform digest operation).lookup exchange symbol).prices.items,
        item.value.isPrice = true := by
    intro exchange symbol
    have hold := h.priced exchange symbol
    rcases store.lookup_perform digest operation exchange symbol with
      ⟨event, -, -, -, -, hlookup⟩ | ⟨healths, channels, hlookup⟩
    · rw [hlookup]
      cases hprice : event.isPrice with
      | false =>
        rw [VenueSymbolState.prices_ingest digest store.config _ hprice]
        exact hold
      | true =>
        have hstep := VenueSymbolState.eachWindow_ingest digest store.config
          (store.lookup exchange symbol) event
        rcases hstep.prices with hsame | ⟨value, rfl, happended⟩
        · rw [hsame]
          exact hold
        · rw [happended]
          intro item hitem
          rcases BoundedTimeWindow.append_mem hitem with hitem | rfl
          · exact hold item hitem
          · exact hprice
    · rw [hlookup]
      exact hold
  refine ⟨?_, ?_, ?_, hpriced, hordered⟩
  · intro exchange symbol
    rcases store.lookup_perform digest operation exchange symbol with
      ⟨event, rfl, -, -, -, hlookup⟩ | ⟨healths, channels, hlookup⟩
    · have hstep := VenueSymbolState.eachWindow_ingest digest store.config
        (store.lookup exchange symbol) event
      have hstate := h.windows exchange symbol
      rw [hlookup]
      exact ⟨hstep.trades.ofEvents hstate.trades, hstep.prices.ofEvents hstate.prices,
        hstep.openInterest.ofEvents hstate.openInterest, hstep.fundingRates.ofEvents hstate.fundingRates,
        hstep.markPrices.ofEvents hstate.markPrices, hstep.indexPrices.ofEvents hstate.indexPrices,
        hstep.liquidations.ofEvents hstate.liquidations⟩
    · rw [hlookup]
      have hstate := hmono.windows exchange symbol
      exact ⟨hstate.trades, hstate.prices, hstate.openInterest, hstate.fundingRates, hstate.markPrices,
        hstate.indexPrices, hstate.liquidations⟩
  · intro exchange symbol
    rcases store.lookup_perform digest operation exchange symbol with
      ⟨event, rfl, -, hexchange, hsymbol, hlookup⟩ | ⟨healths, channels, hlookup⟩
    · rw [hlookup]
      exact (h.book exchange symbol).ingest store.config (h.ordered exchange symbol) ⟨hexchange, hsymbol⟩
    · rw [hlookup]
      exact (hmono.book exchange symbol).congr rfl rfl
  · cases hevent : operation.event? with
    | none =>
      have hsame := store.healthWindows_perform_other digest hevent
      rw [hevent] at hmono
      refine ⟨fun exchange symbol => ?_, fun exchange => ?_⟩
      · rw [hsame.health exchange symbol]
        exact hmono.health.health exchange symbol
      · rw [hsame.exchangeHealth exchange]
        exact hmono.health.exchangeHealth exchange
    | some event =>
      obtain rfl : operation = .ingest event := by
        cases operation with
        | ingest other => exact congrArg StoreOperation.ingest (Option.some.inj hevent)
        | _ => cases hevent
      have hstep := store.healthWindows_perform_ingest digest event
      exact ⟨fun exchange symbol => (hstep.health exchange symbol).ofEvents (h.health.health exchange symbol),
        fun exchange => (hstep.exchangeHealth exchange).ofEvents (h.health.exchangeHealth exchange)⟩

end MarketStateStore

end Cvf
