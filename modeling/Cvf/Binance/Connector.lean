/-
# Cvf.Binance.Connector — from Binance depth payloads to normalized book events.

The part of the Binance connector that both books hang on: what a `CONNECTED` session event, one depth
frame and one REST depth snapshot do to the local book, and the normalized event each of them hands to
the event sink.  A depth frame's event is stamped with the local book's generation; a REST snapshot's
event keeps the model's default generation.
-/
import Cvf.Exchanges.Emission
import Cvf.Binance.Book

namespace Cvf

/-- `value or default` on optional milliseconds: zero counts as missing. -/
def millisecondsOr (value : Option Int) (default : Int) : Int :=
  match value with
  | none => default
  | some v => if v = 0 then default else v

namespace BinanceNormalizer

/-- `_levels`. -/
def levels (texts : List BookLevelText) : Except NormalizationError (List OrderBookLevel) :=
  match texts.mapM BinanceLocalOrderBook.parseLevel with
  | .error e => .error (.payload e)
  | .ok parsed => .ok (parsed.map fun l => ⟨l.1, l.2⟩)

/-- The depth-update branch of `normalize`. -/
def normalizeUpdate (symbol : String) (payload : BinanceDepthUpdatePayload) (receipt : Receipt) :
    Except NormalizationError OrderBookUpdate :=
  match levels payload.bids, levels payload.asks with
  | .error e, _ => .error e
  | _, .error e => .error e
  | .ok bids, .ok asks =>
    let event : OrderBookUpdate :=
      { exchange := .binance
        symbol
        exchangeTimestamp :=
          1000 * millisecondsOr payload.transactionTimeMs payload.eventTimeMs
        localReceiveTimestamp := receipt.receivedAt
        normalizationTimestamp := receipt.normalizedAt
        sequenceId := some (.int payload.finalUpdateId)
        rawPayloadReference := receipt.rawPayloadReference
        bids
        asks
        previousSequenceId := some (.int payload.previousFinalUpdateId) }
    match event.validate with
    | .error message => .error (.validation message)
    | .ok () => .ok event

/-- The depth-snapshot branch of `normalize`. -/
def normalizeSnapshot (symbol : String) (payload : BinanceDepthSnapshotPayload)
    (receipt : Receipt) : Except NormalizationError OrderBookSnapshot :=
  match levels payload.bids, levels payload.asks with
  | .error e, _ => .error e
  | _, .error e => .error e
  | .ok bids, .ok asks =>
    let event : OrderBookSnapshot :=
      { exchange := .binance
        symbol
        exchangeTimestamp :=
          1000 * millisecondsOr payload.transactionTimeMs
            (millisecondsOr payload.eventTimeMs (receipt.receivedAt.tdiv 1000))
        localReceiveTimestamp := receipt.receivedAt
        normalizationTimestamp := receipt.normalizedAt
        sequenceId := some (.int payload.lastUpdateId)
        rawPayloadReference := receipt.rawPayloadReference
        bids
        asks
        depth := max payload.bids.length payload.asks.length }
    match event.validate with
    | .error message => .error (.validation message)
    | .ok () => .ok event

end BinanceNormalizer

/-- The connector's state for one symbol. -/
structure BinanceMarketDataConnector where
  canonicalSymbol : String
  book : BinanceLocalOrderBook
  dedupe : BoundedTTLDeduplicator

namespace BinanceMarketDataConnector

/-- `_emit_events` for one event. -/
def emit (connector : BinanceMarketDataConnector) (event : NormalizedMarketEvent)
    (receipt : Receipt) : BinanceMarketDataConnector × List NormalizedMarketEvent :=
  let (dedupe, events) := connector.dedupe.emitEvents receipt.monotonicNow [event]
  ({ connector with dedupe }, events)

/-- A `CONNECTED` session event: the book starts over. -/
def handleConnected (connector : BinanceMarketDataConnector) : BinanceMarketDataConnector :=
  { connector with
    book := (connector.book.beginResync
      "Binance WebSocket connection requires a fresh REST snapshot").1 }

/-- `_handle_websocket_message` on a depth frame: the event carries the book's generation. -/
def handleDepthUpdate (connector : BinanceMarketDataConnector) (payload : BinanceDepthUpdatePayload)
    (receipt : Receipt) : BinanceMarketDataConnector × List NormalizedMarketEvent :=
  match connector.book.ingest payload with
  | (book, .error _) => ({ connector with book }, [])
  | (book, .ok _) =>
    match BinanceNormalizer.normalizeUpdate connector.canonicalSymbol payload receipt with
    | .error _ => ({ connector with book }, [])
    | .ok event =>
      emit { connector with book } (.orderBookUpdate { event with generation := book.generation })
        receipt

/-- `_refresh_depth_snapshot` from the parsed response on: the event is emitted as normalized. -/
def handleDepthSnapshot (connector : BinanceMarketDataConnector)
    (payload : BinanceDepthSnapshotPayload) (receipt : Receipt) :
    BinanceMarketDataConnector × List NormalizedMarketEvent :=
  match connector.book.installSnapshot payload with
  | (book, .error _) => ({ connector with book }, [])
  | (book, .ok _) =>
    match BinanceNormalizer.normalizeSnapshot connector.canonicalSymbol payload receipt with
    | .error _ => ({ connector with book }, [])
    | .ok event => emit { connector with book } (.orderBookSnapshot event) receipt

end BinanceMarketDataConnector

end Cvf
