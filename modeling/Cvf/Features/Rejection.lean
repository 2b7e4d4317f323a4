/-
# Cvf.Features.Rejection — what a rejected event leaves behind.

`ingest` answers with one status, but a trade or a mark price is written to two windows and a book
event to the book, its window and the checkpoint history, each in turn.  A later refusal does not undo
an earlier write.  The main result says exactly when a rejection is clean: in every reachable store
and for every event, nothing but counters moves if and only if the windows an event goes to agree on
it.
-/
import Cvf.Features.BookStep
import Cvf.Features.State

namespace Cvf

/-! ## What must not move -/

/-- Everything in a window but its counts of dropped items. -/
@[ext]
structure WindowContents (α : Type*) where
  items : List (TimedValue α)
  watermark : Option Int
  ordinal : Nat
  accepted : Nat
  capacityEvictions : Nat

def BoundedTimeWindow.contents {α : Type*} (window : BoundedTimeWindow α) : WindowContents α :=
  { items := window.items
    watermark := window.watermark
    ordinal := window.ordinal
    accepted := window.accepted
    capacityEvictions := window.capacityEvictions }

/-- Everything in a venue's state but its counts of what was dropped or rejected. -/
structure VenueContents where
  trades : WindowContents Trade
  prices : WindowContents NormalizedMarketEvent
  openInterest : WindowContents OpenInterest
  fundingRates : WindowContents FundingRate
  markPrices : WindowContents MarkPrice
  indexPrices : WindowContents IndexPrice
  liquidations : WindowContents LiquidationEvent
  bookUpdates : WindowContents NormalizedMarketEvent
  bookChanges : WindowContents BookChange
  bookHistory : WindowContents FeatureBookCheckpoint
  healthEvents : WindowContents ExchangeHealth
  orderBook : FeatureOrderBookState
  latestByType : EventType → Option NormalizedMarketEvent
  healthByChannel : String → Option HealthStatus
  acceptedEvents : Nat

def VenueSymbolState.contents (state : VenueSymbolState) : VenueContents :=
  { trades := state.trades.contents
    prices := state.prices.contents
    openInterest := state.openInterest.contents
    fundingRates := state.fundingRates.contents
    markPrices := state.markPrices.contents
    indexPrices := state.indexPrices.contents
    liquidations := state.liquidations.contents
    bookUpdates := state.bookUpdates.contents
    bookChanges := state.bookChanges.contents
    bookHistory := state.bookHistory.contents
    healthEvents := state.healthEvents.contents
    orderBook := state.orderBook
    latestByType := state.latestByType
    healthByChannel := state.healthByChannel
    acceptedEvents := state.acceptedEvents }

/-- The states of all venues and symbols, and the health windows the venues share. -/
structure StoreContents where
  states : Exchange → String → VenueContents
  exchangeHealthEvents : Exchange → WindowContents ExchangeHealth

def MarketStateStore.contents (store : MarketStateStore) : StoreContents :=
  { states := fun exchange symbol => (store.lookup exchange symbol).contents
    exchangeHealthEvents := fun exchange => (store.exchangeHealthEvents exchange).contents }

/-- The four rejections. -/
def StateUpdateStatus.isRejection : StateUpdateStatus → Bool
  | .lateDropped | .expiredDropped | .staleGeneration | .staleSequence => true
  | _ => false

/-- If the event is rejected, the store retains what it did. -/
def RejectsCleanly (digest : SourceDigest) (store : MarketStateStore)
    (event : NormalizedMarketEvent) : Prop :=
  ∀ after result, store.ingest digest event = .ok (after, result) →
    result.status.isRejection = true → after.contents = store.contents

/-! ## When the windows agree -/

/-- The windows an event is written to one after the other admit it together: what its first window
admits, the next one admits. -/
def WindowsAgree (digest : SourceDigest) (state : VenueSymbolState) :
    NormalizedMarketEvent → Prop
  | .trade trade =>
    state.trades.admissibility trade.exchangeTimestamp = .accepted →
      state.prices.admissibility trade.exchangeTimestamp = .accepted
  | .markPrice mark =>
    state.markPrices.admissibility mark.exchangeTimestamp = .accepted →
      state.prices.admissibility mark.exchangeTimestamp = .accepted
  | .orderBookSnapshot snapshot =>
    state.bookUpdates.admissibility snapshot.exchangeTimestamp = .accepted →
      (state.orderBook.applySnapshot digest snapshot).2 = .accepted →
        state.bookHistory.admissibility snapshot.exchangeTimestamp = .accepted
  | .orderBookUpdate update =>
    state.bookUpdates.admissibility update.exchangeTimestamp = .accepted →
      (state.orderBook.applyUpdate digest update).2 = .accepted →
        state.bookHistory.admissibility update.exchangeTimestamp = .accepted
  | _ => True

/-! ## The two book windows of every reachable state -/

/-- `book_changes` never gets ahead of `book_updates`, which only moves forward. -/
structure BookWindowsOrdered (state : VenueSymbolState) : Prop where
  forward : state.bookUpdates.bounds.lateEventPolicy = .drop
  behind : ∀ change ∈ state.bookChanges.watermark,
    ∃ mark ∈ state.bookUpdates.watermark, change ≤ mark

namespace BookWindowsOrdered

/-- An instant `book_updates` admits is not before the watermark of `book_changes`. -/
theorem changes_le {state : VenueSymbolState} (h : BookWindowsOrdered state) {eventAt : Int}
    (hforward : state.bookUpdates.watermark.all (· ≤ eventAt) = true) :
    state.bookChanges.watermark.all (· ≤ eventAt) = true := by
  rw [forward_iff]
  intro change hchange
  obtain ⟨mark, hmark, hle⟩ := h.behind change hchange
  exact hle.trans (forward_iff.mp hforward mark hmark)

theorem withBook {state : VenueSymbolState} (h : BookWindowsOrdered state)
    (book : FeatureOrderBookState) : BookWindowsOrdered (state.withBook book) := by
  unfold VenueSymbolState.withBook
  split_ifs
  · exact ⟨h.forward, by simp [BoundedTimeWindow.clear]⟩
  · exact ⟨h.forward, h.behind⟩

end BookWindowsOrdered

/-- What the book branches leave: the book's own answer, with the windows still in order. -/
structure BookApplied (digest : SourceDigest) (state : VenueSymbolState)
    (event : NormalizedMarketEvent) (result : VenueSymbolState × StateUpdateStatus × Option BookChange) :
    Prop where
  answer : result.2.1 = (state.orderBook.apply digest event).2
  orderBook : result.1.orderBook = (state.orderBook.apply digest event).1
  bookHistory : result.1.bookHistory = state.bookHistory
  ordered : BookWindowsOrdered result.1
  /-- A book that did not change leaves the state alone. -/
  untouched : (state.orderBook.apply digest event).2 ≠ .accepted →
    (state.orderBook.apply digest event).1 = state.orderBook → result.1 = state

namespace VenueSymbolState

variable (digest : SourceDigest) (config : FeaturesConfig)

theorem withBook_orderBook (state : VenueSymbolState) (book : FeatureOrderBookState) :
    (state.withBook book).orderBook = book := by
  unfold withBook
  split_ifs <;> rfl

theorem withBook_bookHistory (state : VenueSymbolState) (book : FeatureOrderBookState) :
    (state.withBook book).bookHistory = state.bookHistory := by
  unfold withBook
  split_ifs <;> rfl

theorem withBook_self (state : VenueSymbolState) : state.withBook state.orderBook = state := by
  unfold withBook
  rw [if_neg (not_not.mpr rfl)]

/-- An emptied window, or the one there was, is no further than before. -/
theorem withBook_forward {state : VenueSymbolState} (book : FeatureOrderBookState) {eventAt : Int}
    (hforward : state.bookUpdates.watermark.all (· ≤ eventAt) = true) :
    (state.withBook book).bookUpdates.watermark.all (· ≤ eventAt) = true := by
  unfold withBook
  split_ifs
  · rfl
  · exact hforward

/-- An accepted append moves `book_updates` to the instant and keeps it ahead of `book_changes`. -/
theorem ordered_of_append {state : VenueSymbolState} {window : BoundedTimeWindow NormalizedMarketEvent}
    {eventAt : Int} (event : NormalizedMarketEvent)
    (hdrop : window.bounds.lateEventPolicy = .drop)
    (hforward : window.watermark.all (· ≤ eventAt) = true)
    (hchanges : state.bookChanges.watermark.all (· ≤ eventAt) = true) :
    BookWindowsOrdered { state with bookUpdates := (window.append eventAt event).1 } where
  forward := by simpa using hdrop
  behind := by
    intro change hchange
    obtain ⟨-, -, hmark, -⟩ := BoundedTimeWindow.append_of_accepted event
      (BoundedTimeWindow.admissibility_of_forward hforward)
    rw [BoundedTimeWindow.advanced_of_forward hforward] at hmark
    exact ⟨eventAt, hmark, forward_iff.mp hchanges change hchange⟩

theorem applySnapshot_spec {state : VenueSymbolState} (hordered : BookWindowsOrdered state)
    (snapshot : OrderBookSnapshot)
    (hforward : state.bookUpdates.watermark.all (· ≤ snapshot.exchangeTimestamp) = true) :
    BookApplied digest state (.orderBookSnapshot snapshot) (state.applySnapshot digest snapshot) := by
  have hbook := state.withBook_orderBook (state.orderBook.applySnapshot digest snapshot).1
  have hhistory := state.withBook_bookHistory (state.orderBook.applySnapshot digest snapshot).1
  have hwindows := hordered.withBook (state.orderBook.applySnapshot digest snapshot).1
  have hlate := withBook_forward (state.orderBook.applySnapshot digest snapshot).1 hforward
  unfold applySnapshot
  dsimp only
  split_ifs with haccepted
  -- an accepted snapshot starts the changes of the book anew
  · have hempty : (state.withBook
        (state.orderBook.applySnapshot digest snapshot).1).bookUpdates.clear.watermark.all
          (· ≤ snapshot.exchangeTimestamp) = true := rfl
    exact
      { answer := by
          rw [BoundedTimeWindow.append_snd, BoundedTimeWindow.admissibility_of_forward hempty]
          exact haccepted.symm
        orderBook := hbook
        bookHistory := hhistory
        ordered := ordered_of_append _ hwindows.forward hempty (hwindows.changes_le hlate)
        untouched := fun hrefused => absurd haccepted hrefused }
  · exact
      { answer := rfl
        orderBook := hbook
        bookHistory := hhistory
        ordered := hwindows
        untouched := fun _ hsame => by
          show state.withBook (state.orderBook.applySnapshot digest snapshot).1 = state
          rw [show (state.orderBook.applySnapshot digest snapshot).1 = state.orderBook from hsame,
            withBook_self] }

theorem applyUpdate_spec {state : VenueSymbolState} (hordered : BookWindowsOrdered state)
    (update : OrderBookUpdate)
    (hforward : state.bookUpdates.watermark.all (· ≤ update.exchangeTimestamp) = true) :
    BookApplied digest state (.orderBookUpdate update) (state.applyUpdate digest update) := by
  have hbook := state.withBook_orderBook (state.orderBook.applyUpdate digest update).1
  have hhistory := state.withBook_bookHistory (state.orderBook.applyUpdate digest update).1
  have hwindows := hordered.withBook (state.orderBook.applyUpdate digest update).1
  have hlate := withBook_forward (state.orderBook.applyUpdate digest update).1 hforward
  have hadmitted := BoundedTimeWindow.admissibility_of_forward hlate
  have hchanges := hwindows.changes_le hlate
  have happended := ordered_of_append (.orderBookUpdate update) hwindows.forward hlate
    hchanges
  unfold applyUpdate
  dsimp only
  split
  · rename_i haccepted
    rw [BoundedTimeWindow.append_snd, hadmitted]
    split
    · -- the change of the update is recorded at the same instant
      rename_i change hchange
      obtain ⟨-, -, hmark, -⟩ := BoundedTimeWindow.append_of_accepted change
        (BoundedTimeWindow.admissibility_of_forward hchanges)
      rw [BoundedTimeWindow.advanced_of_forward hchanges] at hmark
      obtain ⟨-, -, hupdated, -⟩ := BoundedTimeWindow.append_of_accepted
        (NormalizedMarketEvent.orderBookUpdate update) hadmitted
      rw [BoundedTimeWindow.advanced_of_forward hlate] at hupdated
      rw [if_pos windowStatus_accepted]
      exact
        { answer := by
            rw [BoundedTimeWindow.append_snd, BoundedTimeWindow.admissibility_of_forward hchanges]
            exact haccepted.symm
          orderBook := hbook
          bookHistory := hhistory
          ordered :=
            { forward := happended.forward
              behind := fun mark hin => ⟨update.exchangeTimestamp, hupdated, by
                rw [Option.mem_def, hmark] at hin
                exact (Option.some.inj hin).ge⟩ }
          untouched := fun hrefused => absurd haccepted hrefused }
    · exact
        { answer := haccepted.symm
          orderBook := hbook
          bookHistory := hhistory
          ordered := happended
          untouched := fun hrefused => absurd haccepted hrefused }
  · exact
      { answer := rfl
        orderBook := hbook
        bookHistory := hhistory
        ordered := hwindows
        untouched := fun _ hsame => by
          show state.withBook (state.orderBook.applyUpdate digest update).1 = state
          rw [show (state.orderBook.applyUpdate digest update).1 = state.orderBook from hsame,
            withBook_self] }

/-- An admissible book event: the book answers, and the windows follow the book. -/
theorem applyBook_spec {state : VenueSymbolState} (hordered : BookWindowsOrdered state)
    {event : NormalizedMarketEvent} (hbook : event.isBook = true)
    (hforward : state.bookUpdates.watermark.all (· ≤ event.base.exchangeTimestamp) = true) :
    BookApplied digest state event (state.applyBook digest event) := by
  cases event with
  | orderBookSnapshot snapshot => exact applySnapshot_spec digest hordered snapshot hforward
  | orderBookUpdate update => exact applyUpdate_spec digest hordered update hforward
  | _ => simp [NormalizedMarketEvent.isBook] at hbook

end VenueSymbolState

/-! ## Ingesting a book event -/

/-- What ingesting a book event leaves when the book took it. -/
structure BookTaken (digest : SourceDigest) (config : FeaturesConfig) (state : VenueSymbolState)
    (event : NormalizedMarketEvent) : Prop where
  admitted : state.bookUpdates.watermark.all (· ≤ event.base.exchangeTimestamp) = true
  recorded : Recorded digest state.orderBook event
    (state.ingestBook digest config event).1.orderBook (state.orderBook.apply digest event).2
  orderBook : (state.ingestBook digest config event).1.orderBook =
    (state.orderBook.apply digest event).1
  answer : (state.ingestBook digest config event).2.1 =
    if (state.orderBook.apply digest event).2 = .accepted then
      windowStatus (state.bookHistory.admissibility event.base.exchangeTimestamp)
    else (state.orderBook.apply digest event).2
  history : ∃ checkpoint : FeatureBookCheckpoint,
    checkpoint.view = (state.ingestBook digest config event).1.bookView config ∧
      (state.ingestBook digest config event).1.bookHistory =
        (state.bookHistory.append event.base.exchangeTimestamp checkpoint).1
  ordered : BookWindowsOrdered (state.ingestBook digest config event).1

namespace VenueSymbolState

variable (digest : SourceDigest) (config : FeaturesConfig)

theorem settle_snd (state : VenueSymbolState) (event : NormalizedMarketEvent)
    (status : StateUpdateStatus) : (state.settle event status).2.1 = status := by
  unfold settle
  split_ifs
  · cases event <;> rfl
  · rfl

/-- The end of `ingest` writes neither the windows nor the book. -/
theorem settle_book (state : VenueSymbolState) (event : NormalizedMarketEvent)
    (status : StateUpdateStatus) :
    (state.settle event status).1.orderBook = state.orderBook ∧
      (state.settle event status).1.bookHistory = state.bookHistory ∧
      (state.settle event status).1.bookUpdates = state.bookUpdates ∧
      (state.settle event status).1.bookChanges = state.bookChanges := by
  unfold settle
  split_ifs
  · cases event <;> exact ⟨rfl, rfl, rfl, rfl⟩
  · exact ⟨rfl, rfl, rfl, rfl⟩

theorem settle_contents {state : VenueSymbolState} {event : NormalizedMarketEvent}
    {status : StateUpdateStatus} (hstatus : status ≠ .accepted) :
    (state.settle event status).1.contents = state.contents := by
  rw [settle, if_neg hstatus]
  rfl

theorem recordBook_spec (state : VenueSymbolState) (event : NormalizedMarketEvent)
    (status : StateUpdateStatus) (change : Option BookChange) :
    (state.recordBook config event status change).2.1 =
        (if status = .accepted then
          windowStatus (state.bookHistory.admissibility event.base.exchangeTimestamp)
        else status) ∧
      (state.recordBook config event status change).1.orderBook = state.orderBook ∧
      (state.recordBook config event status change).1.bookHistory =
        (state.bookHistory.append event.base.exchangeTimestamp
          (state.checkpoint config event status change)).1 ∧
      (state.recordBook config event status change).1.bookUpdates = state.bookUpdates ∧
      (state.recordBook config event status change).1.bookChanges = state.bookChanges := by
  unfold recordBook
  dsimp only
  rw [settle_snd, BoundedTimeWindow.append_snd]
  exact ⟨rfl, settle_book _ event _⟩

/-- A book event is rejected with nothing but a count, or the book takes it. -/
theorem ingestBook_cases {state : VenueSymbolState} (hordered : BookWindowsOrdered state)
    {event : NormalizedMarketEvent} (hbook : event.isBook = true) :
    (∃ status reason, state.ingestBook digest config event = state.reject status reason ∧
        status.isRejection = true ∧
        (state.bookUpdates.admissibility event.base.exchangeTimestamp ≠ .accepted ∨
          (state.orderBook.apply digest event).2.isStale = true)) ∨
      BookTaken digest config state event := by
  by_cases hadmitted : state.bookUpdates.admissibility event.base.exchangeTimestamp = .accepted
  · have hforward := (BoundedTimeWindow.admissibility_drop_iff hordered.forward).mp hadmitted
    have happlied := applyBook_spec digest hordered hbook hforward
    rcases state.orderBook.apply_spec digest event hbook with ⟨hstale, hsame⟩ | hrecorded
    · left
      -- refused by the book, which stays as it was, and so do the windows
      have hself : (state.applyBook digest event).1 = state := by
        apply happlied.untouched _ hsame
        intro haccepted
        rw [haccepted] at hstale
        simp [StateUpdateStatus.isStale] at hstale
      unfold ingestBook
      dsimp only
      rw [hadmitted, if_neg (not_not.mpr windowStatus_accepted), hself, happlied.answer]
      split_ifs with hgeneration hsequence
      · exact ⟨_, _, rfl, by rw [hgeneration]; rfl, .inr hstale⟩
      · exact ⟨_, _, rfl, by rw [hsequence]; rfl, .inr hstale⟩
      · exfalso
        revert hstale hgeneration hsequence
        cases (state.orderBook.apply digest event).2 <;> simp [StateUpdateStatus.isStale]
    · right
      have htaken := hrecorded.taken
      have hingest : state.ingestBook digest config event =
          (state.applyBook digest event).1.recordBook config event
            (state.orderBook.apply digest event).2 (state.applyBook digest event).2.2 := by
        unfold ingestBook
        dsimp only
        rw [hadmitted, if_neg (not_not.mpr windowStatus_accepted), happlied.answer, if_neg,
          if_neg]
        · intro hstale
          rw [hstale] at htaken
          simp [StateUpdateStatus.isTaken] at htaken
        · intro hstale
          rw [hstale] at htaken
          simp [StateUpdateStatus.isTaken] at htaken
      obtain ⟨hanswer, horderBook, hhistory, hupdates, hchanges⟩ :=
        (state.applyBook digest event).1.recordBook_spec config event
          (state.orderBook.apply digest event).2 (state.applyBook digest event).2.2
      rw [← hingest] at hanswer horderBook hhistory hupdates hchanges
      rw [happlied.bookHistory] at hanswer hhistory
      have hfinal := horderBook.trans happlied.orderBook
      exact
        { admitted := hforward
          recorded := by
            rw [hfinal]
            exact hrecorded
          orderBook := hfinal
          answer := hanswer
          history := by
            refine ⟨_, ?_, hhistory⟩
            unfold checkpoint bookView
            dsimp only
            congr 2
            exact horderBook.symm
          ordered :=
            { forward := by rw [hupdates]; exact happlied.ordered.forward
              behind := by rw [hupdates, hchanges]; exact happlied.ordered.behind } }
  · left
    unfold ingestBook
    dsimp only
    rw [if_pos (windowStatus_eq_accepted_iff.not.mpr hadmitted)]
    refine ⟨_, _, rfl, ?_, .inl hadmitted⟩
    revert hadmitted
    cases state.bookUpdates.admissibility event.base.exchangeTimestamp <;>
      simp [windowStatus, StateUpdateStatus.isRejection]

theorem ingest_eq_ingestBook (state : VenueSymbolState) {event : NormalizedMarketEvent}
    (hbook : event.isBook = true) :
    state.ingest digest config event = state.ingestBook digest config event := by
  cases event <;> first | rfl | simp [NormalizedMarketEvent.isBook] at hbook

theorem ingest_eq_settle (state : VenueSymbolState) {event : NormalizedMarketEvent}
    (hscalar : event.isBook = false) :
    state.ingest digest config event =
      (state.appendScalar event).1.settle event (state.appendScalar event).2 := by
  cases event <;> first | rfl | simp [NormalizedMarketEvent.isBook] at hscalar

/-- A scalar event touches neither the book nor its windows. -/
theorem appendScalar_book (state : VenueSymbolState) (event : NormalizedMarketEvent) :
    (state.appendScalar event).1.orderBook = state.orderBook ∧
      (state.appendScalar event).1.bookHistory = state.bookHistory ∧
      (state.appendScalar event).1.bookUpdates = state.bookUpdates ∧
      (state.appendScalar event).1.bookChanges = state.bookChanges := by
  cases event with
  | trade trade =>
    simp only [appendScalar, appendTrade]
    split <;> exact ⟨rfl, rfl, rfl, rfl⟩
  | markPrice mark =>
    simp only [appendScalar, appendMarkPrice]
    split <;> exact ⟨rfl, rfl, rfl, rfl⟩
  | _ => exact ⟨rfl, rfl, rfl, rfl⟩

theorem ingest_scalar_book (state : VenueSymbolState) {event : NormalizedMarketEvent}
    (hscalar : event.isBook = false) :
    (state.ingest digest config event).1.orderBook = state.orderBook ∧
      (state.ingest digest config event).1.bookHistory = state.bookHistory ∧
      (state.ingest digest config event).1.bookUpdates = state.bookUpdates ∧
      (state.ingest digest config event).1.bookChanges = state.bookChanges := by
  rw [ingest_eq_settle digest config state hscalar]
  obtain ⟨hbook, hhistory, hupdates, hchanges⟩ := state.appendScalar_book event
  obtain ⟨hbook', hhistory', hupdates', hchanges'⟩ :=
    (state.appendScalar event).1.settle_book event (state.appendScalar event).2
  exact ⟨hbook'.trans hbook, hhistory'.trans hhistory, hupdates'.trans hupdates,
    hchanges'.trans hchanges⟩

end VenueSymbolState

/-- No event breaks the order of the book windows. -/
theorem BookWindowsOrdered.ingest (digest : SourceDigest) (config : FeaturesConfig)
    {state : VenueSymbolState} (h : BookWindowsOrdered state) (event : NormalizedMarketEvent) :
    BookWindowsOrdered (state.ingest digest config event).1 := by
  cases hbook : event.isBook with
  | false =>
    obtain ⟨-, -, hupdates, hchanges⟩ :=
      VenueSymbolState.ingest_scalar_book digest config state hbook
    exact
      { forward := by rw [hupdates]; exact h.forward
        behind := by rw [hupdates, hchanges]; exact h.behind }
  | true =>
    rw [VenueSymbolState.ingest_eq_ingestBook digest config state hbook]
    rcases VenueSymbolState.ingestBook_cases digest config h hbook with
      ⟨status, reason, hreject, -⟩ | htaken
    · rw [hreject]
      exact ⟨h.forward, h.behind⟩
    · exact htaken.ordered

/-- The windows of every state of every store are in order. -/
theorem bookWindowsOrdered_run (digest : SourceDigest) (config : FeaturesConfig)
    (operations : List MarketStateStore.StoreOperation) (exchange : Exchange) (symbol : String) :
    BookWindowsOrdered
      ((MarketStateStore.run digest config operations).lookup exchange symbol) := by
  unfold MarketStateStore.run
  suffices hstep : ∀ store : MarketStateStore,
      (∀ exchange symbol, BookWindowsOrdered (store.lookup exchange symbol)) →
      ∀ exchange symbol, BookWindowsOrdered
        ((operations.foldl (MarketStateStore.perform digest) store).lookup exchange symbol) by
    refine hstep _ (fun _ _ => ?_) exchange symbol
    exact ⟨rfl, by simp [MarketStateStore.lookup, MarketStateStore.new, VenueSymbolState.create,
      BoundedTimeWindow.empty]⟩
  induction operations with
  | nil => exact fun store h => h
  | cons operation rest ih =>
    intro store hstore
    apply ih
    intro exchange symbol
    rcases store.lookup_perform digest operation exchange symbol with
      ⟨event, -, -, -, -, hlookup⟩ | ⟨events, channels, hlookup⟩
    · rw [hlookup]
      exact (hstore exchange symbol).ingest digest store.config event
    · rw [hlookup]
      exact ⟨(hstore exchange symbol).forward, (hstore exchange symbol).behind⟩

/-! ## Exactly when a rejection is clean -/

namespace BoundedTimeWindow

variable {α : Type*}

/-- A refused append counts the drop and moves nothing else. -/
theorem append_contents_of_refused {window : BoundedTimeWindow α} {timestamp : Int} (value : α)
    (hrefused : window.admissibility timestamp ≠ .accepted) :
    (window.append timestamp value).1.contents = window.contents := by
  unfold append
  split
  · rfl
  · rfl
  · rename_i haccepted
    exact absurd haccepted hrefused

/-- An accepted append takes an ordinal. -/
theorem append_contents_ne {window : BoundedTimeWindow α} {timestamp : Int} (value : α)
    (haccepted : window.admissibility timestamp = .accepted) :
    (window.append timestamp value).1.contents ≠ window.contents := by
  intro heq
  obtain ⟨-, -, -, hordinal, -⟩ := append_of_accepted value haccepted
  exact absurd (hordinal.symm.trans (congrArg WindowContents.ordinal heq)) (Nat.succ_ne_self _)

end BoundedTimeWindow

theorem windowStatus_isRejection {status : AppendStatus} :
    (windowStatus status).isRejection = true ↔ status ≠ .accepted := by
  cases status <;> simp [windowStatus, StateUpdateStatus.isRejection]

namespace VenueSymbolState

variable (digest : SourceDigest) (config : FeaturesConfig)

/-- A rejection by this state that moves nothing but counters. -/
def RejectsCleanly (state : VenueSymbolState) (event : NormalizedMarketEvent) : Prop :=
  (state.ingest digest config event).2.1.isRejection = true →
    (state.ingest digest config event).1.contents = state.contents

/-- Two windows in turn: an answer, and whether both are as they were. -/
theorem rejectsCleanly_pair_iff {α β : Type*} {own : BoundedTimeWindow α}
    {prices : BoundedTimeWindow β} {eventAt : Int} (value : α) (price : β) :
    ((if own.admissibility eventAt = .accepted then windowStatus (prices.admissibility eventAt)
        else windowStatus (own.admissibility eventAt)).isRejection = true →
      (own.append eventAt value).1.contents = own.contents ∧
        (own.admissibility eventAt = .accepted →
          (prices.append eventAt price).1.contents = prices.contents)) ↔
      (own.admissibility eventAt = .accepted → prices.admissibility eventAt = .accepted) := by
  by_cases hown : own.admissibility eventAt = .accepted
  · by_cases hprices : prices.admissibility eventAt = .accepted
    · simp [hown, hprices, StateUpdateStatus.isRejection]
    · have hcontents := BoundedTimeWindow.append_contents_of_refused price hprices
      rw [if_pos hown, windowStatus_isRejection]
      simp [hown, hprices, hcontents, BoundedTimeWindow.append_contents_ne value hown]
  · simp [hown, BoundedTimeWindow.append_contents_of_refused value hown]

/-- A scalar event's windows are all that its rejection could move. -/
theorem rejectsCleanly_scalar_iff (state : VenueSymbolState) {event : NormalizedMarketEvent}
    (hscalar : event.isBook = false) :
    state.RejectsCleanly digest config event ↔
      ((state.appendScalar event).2.isRejection = true →
        (state.appendScalar event).1.contents = state.contents) := by
  unfold RejectsCleanly
  rw [ingest_eq_settle digest config state hscalar, settle_snd]
  refine forall_congr' fun hrejection => ?_
  rw [settle_contents]
  intro haccepted
  rw [haccepted] at hrejection
  simp [StateUpdateStatus.isRejection] at hrejection

theorem rejectsCleanly_trade_iff (state : VenueSymbolState) (trade : Trade) :
    state.RejectsCleanly digest config (.trade trade) ↔
      WindowsAgree digest state (.trade trade) := by
  rw [WindowsAgree, ← rejectsCleanly_pair_iff trade (NormalizedMarketEvent.trade trade),
    rejectsCleanly_scalar_iff digest config state rfl]
  show ((state.appendTrade trade).2.isRejection = true →
    (state.appendTrade trade).1.contents = state.contents) ↔ _
  unfold appendTrade
  dsimp only
  rw [BoundedTimeWindow.append_snd, BoundedTimeWindow.append_snd]
  by_cases htrades : state.trades.admissibility trade.exchangeTimestamp = .accepted
  · by_cases hprices : state.prices.admissibility trade.exchangeTimestamp = .accepted
    · simp [htrades, hprices, StateUpdateStatus.isRejection]
    · have hrefused := windowStatus_eq_accepted_iff.not.mpr hprices
      simp only [htrades, windowStatus_accepted, if_true, if_neg hrefused, contents,
        VenueContents.mk.injEq, and_true, forall_const]
  · have hrefused := windowStatus_eq_accepted_iff.not.mpr htrades
    simp only [htrades, if_false, if_neg hrefused, contents, VenueContents.mk.injEq, and_true,
      false_implies]

theorem rejectsCleanly_markPrice_iff (state : VenueSymbolState) (mark : MarkPrice) :
    state.RejectsCleanly digest config (.markPrice mark) ↔
      WindowsAgree digest state (.markPrice mark) := by
  rw [WindowsAgree, ← rejectsCleanly_pair_iff mark (NormalizedMarketEvent.markPrice mark),
    rejectsCleanly_scalar_iff digest config state rfl]
  show ((state.appendMarkPrice mark).2.isRejection = true →
    (state.appendMarkPrice mark).1.contents = state.contents) ↔ _
  unfold appendMarkPrice
  dsimp only
  rw [BoundedTimeWindow.append_snd, BoundedTimeWindow.append_snd]
  by_cases hmarks : state.markPrices.admissibility mark.exchangeTimestamp = .accepted
  · simp only [hmarks, windowStatus_accepted, if_true, contents, VenueContents.mk.injEq, and_true,
      true_and, forall_const, and_comm]
  · have hrefused := windowStatus_eq_accepted_iff.not.mpr hmarks
    simp only [hmarks, if_false, if_neg hrefused, contents, VenueContents.mk.injEq, and_true,
      true_and, false_implies]

theorem rejectsCleanly_book_iff {state : VenueSymbolState} (hordered : BookWindowsOrdered state)
    {event : NormalizedMarketEvent} (hbook : event.isBook = true) :
    state.RejectsCleanly digest config event ↔
      (state.bookUpdates.admissibility event.base.exchangeTimestamp = .accepted →
        (state.orderBook.apply digest event).2 = .accepted →
          state.bookHistory.admissibility event.base.exchangeTimestamp = .accepted) := by
  unfold RejectsCleanly
  rw [ingest_eq_ingestBook digest config state hbook]
  rcases ingestBook_cases digest config hordered hbook with
    ⟨status, reason, hreject, hrejection, hrefused⟩ | htaken
  · rw [hreject]
    refine ⟨fun _ hadmitted haccepted => ?_, fun _ _ => rfl⟩
    rcases hrefused with hrefused | hstale
    · exact absurd hadmitted hrefused
    · rw [haccepted] at hstale
      simp [StateUpdateStatus.isStale] at hstale
  · have hadmitted := BoundedTimeWindow.admissibility_of_forward htaken.admitted
    rw [htaken.answer]
    by_cases haccepted : (state.orderBook.apply digest event).2 = .accepted
    · rw [if_pos haccepted, windowStatus_isRejection]
      constructor
      · intro hclean _ _
        by_contra hrefused
        -- the book has taken the event, and nothing takes it back
        have hcontents := congrArg VenueContents.orderBook (hclean hrefused)
        exact htaken.recorded.ne hcontents
      · exact fun hagree hrefused => absurd (hagree hadmitted haccepted) hrefused
    · rw [if_neg haccepted]
      refine ⟨fun _ _ h => absurd h haccepted, fun _ hrejection => ?_⟩
      have htook := htaken.recorded.taken
      revert hrejection htook
      cases (state.orderBook.apply digest event).2 <;>
        simp [StateUpdateStatus.isRejection, StateUpdateStatus.isTaken]

/-- An event of one window is written there or nowhere. -/
theorem rejectsCleanly_single (state : VenueSymbolState) {event : NormalizedMarketEvent}
    (hbook : event.isBook = false) (htrade : ∀ trade, event ≠ .trade trade)
    (hmark : ∀ mark, event ≠ .markPrice mark) :
    state.RejectsCleanly digest config event := by
  rw [rejectsCleanly_scalar_iff digest config state hbook]
  intro hrejection
  cases event with
  | trade trade => exact absurd rfl (htrade trade)
  | markPrice mark => exact absurd rfl (hmark mark)
  | orderBookSnapshot snapshot => simp [NormalizedMarketEvent.isBook] at hbook
  | orderBookUpdate update => simp [NormalizedMarketEvent.isBook] at hbook
  | exchangeHealth health => rfl
  | _ =>
    simp only [appendScalar, BoundedTimeWindow.append_snd, windowStatus_isRejection] at hrejection
    simp only [appendScalar, contents, VenueContents.mk.injEq, and_true, true_and]
    exact BoundedTimeWindow.append_contents_of_refused _ hrejection

theorem rejectsCleanly_iff {state : VenueSymbolState} (hordered : BookWindowsOrdered state)
    (event : NormalizedMarketEvent) :
    state.RejectsCleanly digest config event ↔ WindowsAgree digest state event := by
  cases event with
  | trade trade => exact rejectsCleanly_trade_iff digest config state trade
  | markPrice mark => exact rejectsCleanly_markPrice_iff digest config state mark
  | orderBookSnapshot snapshot => exact rejectsCleanly_book_iff digest config hordered rfl
  | orderBookUpdate update => exact rejectsCleanly_book_iff digest config hordered rfl
  | _ =>
    exact iff_of_true (rejectsCleanly_single digest config state rfl (by simp) (by simp)) trivial

end VenueSymbolState

/-- A health event is written to one window. -/
theorem rejectsCleanly_health (digest : SourceDigest) (store : MarketStateStore)
    (health : ExchangeHealth) : RejectsCleanly digest store (.exchangeHealth health) := by
  intro after result hingest hrejection
  unfold MarketStateStore.ingest MarketStateStore.updateHealth at hingest
  dsimp only at hingest
  split_ifs at hingest with hconcrete hall hrefused haccepted
  · -- the shared window of the exchange
    obtain ⟨rfl, rfl⟩ := Prod.mk.inj (Except.ok.inj hingest)
    rw [BoundedTimeWindow.append_snd, ne_eq, windowStatus_eq_accepted_iff] at hrefused
    have hcontents := BoundedTimeWindow.append_contents_of_refused health hrefused
    unfold MarketStateStore.contents
    congr 1
    funext exchange
    rcases eq_or_ne exchange health.exchange with rfl | hne
    · simpa using hcontents
    · simp [hne]
  · obtain ⟨rfl, rfl⟩ := Prod.mk.inj (Except.ok.inj hingest)
    rw [not_not.mp hrefused] at hrejection
    simp [StateUpdateStatus.isRejection] at hrejection
  · obtain ⟨rfl, rfl⟩ := Prod.mk.inj (Except.ok.inj hingest)
    rw [haccepted] at hrejection
    simp [StateUpdateStatus.isRejection] at hrejection
  · obtain ⟨rfl, rfl⟩ := Prod.mk.inj (Except.ok.inj hingest)
    rw [BoundedTimeWindow.append_snd, windowStatus_eq_accepted_iff] at haccepted
    have hcontents := BoundedTimeWindow.append_contents_of_refused health haccepted
    obtain ⟨hexchange, hsymbol⟩ := store.lookup_key health.exchange health.symbol
    unfold MarketStateStore.contents
    congr 1
    funext exchange symbol
    rw [MarketStateStore.lookup_put]
    split_ifs with hkey
    · rw [← hkey.1, ← hkey.2]
      simp only [VenueSymbolState.contents, VenueContents.mk.injEq, hexchange, hsymbol, and_true,
        true_and]
      exact hcontents
    · rfl

/-- Whether a store rejects an event cleanly is decided by the state of its venue and symbol. -/
theorem rejectsCleanly_iff_windowsAgree {digest : SourceDigest} {store : MarketStateStore}
    (hordered : ∀ exchange symbol, BookWindowsOrdered (store.lookup exchange symbol))
    (event : NormalizedMarketEvent) :
    RejectsCleanly digest store event ↔
      (event.base.exchange.isConcrete = true →
        WindowsAgree digest (store.lookup event.base.exchange event.base.symbol) event) := by
  by_cases hmarket : ∀ health, event ≠ .exchangeHealth health
  · cases hconcrete : event.base.exchange.isConcrete with
    | false =>
      refine iff_of_true (fun after result hingest => ?_) (by simp)
      rw [MarketStateStore.ingest_market_error digest hmarket hconcrete] at hingest
      cases hingest
    | true =>
      obtain ⟨after, result, hingest, hstatus, hhealth, hlookup⟩ :=
        MarketStateStore.ingest_market digest store hmarket hconcrete
      -- only the state of the event has moved, so the store is as it was where that state is
      have hcontents : after.contents = store.contents ↔
          ((store.lookup event.base.exchange event.base.symbol).ingest digest store.config
            event).1.contents =
              (store.lookup event.base.exchange event.base.symbol).contents := by
        constructor
        · intro h
          have hstate := congrFun (congrFun (congrArg StoreContents.states h)
            event.base.exchange) event.base.symbol
          simpa [MarketStateStore.contents, hlookup] using hstate
        · intro h
          unfold MarketStateStore.contents
          rw [hhealth]
          congr 1
          funext exchange symbol
          rw [hlookup]
          split_ifs with hkey
          · rw [h, hkey.1, hkey.2]
          · rfl
      rw [forall_prop_of_true rfl, ← VenueSymbolState.rejectsCleanly_iff digest store.config
        (hordered _ _) event, VenueSymbolState.RejectsCleanly, ← hstatus, ← hcontents]
      constructor
      · exact fun h => h after result hingest
      · intro h after' result' hingest'
        obtain ⟨rfl, rfl⟩ := Prod.mk.inj (Except.ok.inj (hingest.symm.trans hingest'))
        exact h
  · obtain ⟨health, rfl⟩ : ∃ health, event = .exchangeHealth health := by simpa using hmarket
    exact iff_of_true (rejectsCleanly_health digest store health) fun _ => trivial

/-- In every reachable store, under either late policy, a rejection of an event moves nothing but
counters exactly when the windows the event goes to agree on it. -/
theorem rejected_events_change_nothing_iff (digest : SourceDigest) (config : FeaturesConfig)
    (operations : List MarketStateStore.StoreOperation) (event : NormalizedMarketEvent) :
    RejectsCleanly digest (MarketStateStore.run digest config operations) event ↔
      (event.base.exchange.isConcrete = true →
        WindowsAgree digest ((MarketStateStore.run digest config operations).lookup
          event.base.exchange event.base.symbol) event) :=
  rejectsCleanly_iff_windowsAgree (bookWindowsOrdered_run digest config operations) event

/-! ### A late trade -/

/-- The default limits, with ten levels of book. -/
def exampleFeatures : FeaturesConfig :=
  { orderBookDepth := 10
    orderBookDepth_pos := by norm_num
    orderBookDepth_le := by norm_num
    stateRetentionSeconds_pos := by norm_num
    maximumEventsPerStream_pos := by norm_num
    bookPendingUpdates_pos := by norm_num }

/-- Metadata of an example event at an exchange instant. -/
def exampleBase (exchangeTimestamp : Int) : EventBase :=
  { exchange := .binance
    symbol := "BTC-USDT-PERP"
    exchangeTimestamp
    localReceiveTimestamp := 20000000
    normalizationTimestamp := 20000000 }

/-- A quote at ten seconds. -/
def exampleQuote : BestBidAsk :=
  { exampleBase 10000000 with bidPrice := 99, bidQuantity := 1, askPrice := 101, askQuantity := 1 }

/-- A trade at five seconds. -/
def exampleTrade : Trade :=
  { exampleBase 5000000 with tradeId := "1", price := 100, quantity := 1, aggressorSide := .buy }

/-- The trade is dropped as late by `prices` and stays in `trades`. -/
theorem late_trade_stays_in_its_window :
    ¬ ∀ (digest : SourceDigest) (config : FeaturesConfig)
        (operations : List MarketStateStore.StoreOperation) (event : NormalizedMarketEvent),
      RejectsCleanly digest (MarketStateStore.run digest config operations) event := by
  intro hclean
  have hagree := (rejectsCleanly_iff_windowsAgree (bookWindowsOrdered_run (fun _ _ => 0)
    exampleFeatures [.ingest (.bestBidAsk exampleQuote)]) (.trade exampleTrade)).mp
      (hclean _ _ _ _) rfl
  unfold WindowsAgree at hagree
  revert hagree
  decide +kernel

end Cvf
