/-
# Cvf.Okx.Connector — from OKX `books` messages to normalized book events.

The part of the OKX connector that both books hang on.  A message carries one or more entries: all of
them go through the local book first, a refused one ends the message without an event, and otherwise
every entry with levels becomes one event in the book's generation.
-/
import Cvf.Exchanges.Emission
import Cvf.Okx.Book

namespace Cvf

namespace OkxNormalizer

/-- `_levels`: contracts become base units. -/
def levels (specification : ContractSpecification) (texts : List OkxBookLevelText) :
    Except NormalizationError (List OrderBookLevel) :=
  match texts.mapM OkxBookLevelText.parse with
  | .error e => .error (.payload e)
  | .ok parsed =>
    .ok (parsed.map fun l => ⟨l.price, specification.contractsToBase l.quantityContracts⟩)

/-- One entry of the `books` branch of `normalize`: an update without levels has no event. -/
def normalizeEntry (specification : ContractSpecification) (symbol : String)
    (action : OkxBookAction) (receipt : Receipt) (data : OkxBookData) :
    Except NormalizationError (Option NormalizedMarketEvent) :=
  match timestampFromMilliseconds data.timestampMs with
  | .error e => .error (.payload e)
  | .ok exchangeTimestamp =>
    let metadata : EventBase :=
      { exchange := .okx
        symbol
        exchangeTimestamp
        localReceiveTimestamp := receipt.receivedAt
        normalizationTimestamp := receipt.normalizedAt
        sequenceId := some (.int data.sequenceId)
        rawPayloadReference := receipt.rawPayloadReference }
    match action with
    | .snapshot =>
      match levels specification data.bids, levels specification data.asks with
      | .error e, _ => .error e
      | _, .error e => .error e
      | .ok bids, .ok asks =>
        let event : OrderBookSnapshot :=
          { toEventBase := metadata
            bids
            asks
            depth := max data.bids.length data.asks.length
            checksum := some (toString data.checksum) }
        match event.validate with
        | .error message => .error (.validation message)
        | .ok () => .ok (some (.orderBookSnapshot event))
    | .update =>
      if data.bids = [] ∧ data.asks = [] then .ok none
      else
        match levels specification data.bids, levels specification data.asks with
        | .error e, _ => .error e
        | _, .error e => .error e
        | .ok bids, .ok asks =>
          let event : OrderBookUpdate :=
            { toEventBase := metadata
              bids
              asks
              previousSequenceId := some (.int data.previousSequenceId)
              checksum := some (toString data.checksum) }
          match event.validate with
          | .error message => .error (.validation message)
          | .ok () => .ok (some (.orderBookUpdate event))

/-- The `books` branch of `normalize`. -/
def normalize (specification : ContractSpecification) (symbol : String) (action : OkxBookAction)
    (receipt : Receipt) : List OkxBookData → Except NormalizationError (List NormalizedMarketEvent)
  | [] => .ok []
  | data :: rest =>
    match normalizeEntry specification symbol action receipt data with
    | .error e => .error e
    | .ok event =>
      match normalize specification symbol action receipt rest with
      | .error e => .error e
      | .ok events => .ok (event.toList ++ events)

end OkxNormalizer

/-- `event.model_copy(update={"generation": generation})` on book events. -/
def NormalizedMarketEvent.withGeneration (generation : Nat) :
    NormalizedMarketEvent → NormalizedMarketEvent
  | .orderBookSnapshot e => .orderBookSnapshot { e with generation }
  | .orderBookUpdate e => .orderBookUpdate { e with generation }
  | event => event

/-- The connector's state for one symbol. -/
structure OkxMarketDataConnector where
  canonicalSymbol : String
  book : OkxLocalOrderBook
  dedupe : BoundedTTLDeduplicator

/-- `ingest_books`: the entries in turn; an entry that raises ends the message. -/
def OkxLocalOrderBook.ingestBooks (book : OkxLocalOrderBook) (action : OkxBookAction) :
    List OkxBookData → OkxLocalOrderBook × Except PayloadError (List BookApplyResult)
  | [] => (book, .ok [])
  | data :: rest =>
    match book.ingest action data with
    | (book, .error e) => (book, .error e)
    | (book, .ok result) =>
      ((ingestBooks book action rest).1, (ingestBooks book action rest).2.map (result :: ·))

/-- The results that end in a `SessionProtocolError`. -/
def BookApplyResult.refused (result : BookApplyResult) : Bool :=
  result.transition = .checksumMismatch || result.transition = .sequenceGap

namespace OkxMarketDataConnector

/-- `_begin_book_resync` on a `CONNECTED` session event. -/
def handleConnected (connector : OkxMarketDataConnector) : OkxMarketDataConnector :=
  { connector with
    book := (connector.book.beginResync "OKX connection generation awaiting snapshot").1 }

/-- `_handle_websocket_message` on a `books` message. -/
def handleBooks (connector : OkxMarketDataConnector) (action : OkxBookAction)
    (entries : List OkxBookData) (receipt : Receipt) :
    OkxMarketDataConnector × List NormalizedMarketEvent :=
  match connector.book.ingestBooks action entries with
  | (book, .error _) => ({ connector with book }, [])
  | (book, .ok results) =>
    if results.any BookApplyResult.refused then ({ connector with book }, [])
    else
      match OkxNormalizer.normalize book.specification connector.canonicalSymbol action receipt
          entries with
      | .error _ => ({ connector with book }, [])
      | .ok events =>
        let events :=
          match results.getLast? with
          | none => events
          | some result => events.map (·.withGeneration result.generation)
        let (dedupe, emitted) := connector.dedupe.emitEvents receipt.monotonicNow events
        ({ connector with book, dedupe }, emitted)

end OkxMarketDataConnector

/-! ### Capacities for the examples -/

theorem exampleDedupeCapacity_pos : 1 ≤ 8 := by decide
theorem exampleTtl_pos : (0 : Int) < 1000 := by decide
theorem examplePendingCapacity_pos : 1 ≤ 4 := by decide

end Cvf
