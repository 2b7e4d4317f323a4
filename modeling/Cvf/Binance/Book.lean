/-
# Cvf.Binance.Book — the Binance USDⓈ-M local order book.

`BinanceLocalOrderBook` is the bounded-buffer state machine of the documented snapshot/diff
procedure: diffs are buffered until a REST snapshot arrives, the snapshot is bridged by the first
buffered diff that overlaps `lastUpdateId`, and from then on every diff must continue the previous
one (`pu == u`).  Each operation returns the book it leaves behind together with its result or the
error it raises, so that what an operation has already changed when it raises is part of the model.
-/
import Cvf.Orderbook.Base

namespace Cvf

/-- What a book operation raises. -/
inductive BookError where
  | payload (error : PayloadError)
  /-- `ValueError`: the payload belongs to another symbol. -/
  | wrongSymbol (message : String)
  | runtime (message : String)
  deriving DecidableEq, Repr

/-! ## Payloads -/

/-- `tuple[str, str]`: price text and quantity text. -/
abbrev BookLevelText := String × String

structure BinanceDepthUpdatePayload where
  eventTimeMs : Int
  transactionTimeMs : Option Int := none
  venueSymbol : String
  firstUpdateId : Int
  finalUpdateId : Int
  previousFinalUpdateId : Int
  bids : List BookLevelText
  asks : List BookLevelText
  deriving DecidableEq, Repr

structure BinanceDepthSnapshotPayload where
  lastUpdateId : Int
  eventTimeMs : Option Int := none
  transactionTimeMs : Option Int := none
  bids : List BookLevelText
  asks : List BookLevelText
  deriving DecidableEq, Repr

/-! ## The book -/

structure BinanceLocalOrderBook where
  venueSymbol : String
  maxBufferEvents : Nat
  /-- `max_buffer_events must be positive` -/
  maxBufferEvents_pos : 1 ≤ maxBufferEvents
  status : BookStatus := .buffering
  generation : Nat := 0
  sequenceId : Option Int := none
  bids : BookSide := ∅
  asks : BookSide := ∅
  buffer : List BinanceDepthUpdatePayload := []
  pendingSnapshot : Option BinanceDepthSnapshotPayload := none

namespace BinanceLocalOrderBook

/-- `_result`. -/
def result (book : BinanceLocalOrderBook) (transition : BookTransition) (needsSnapshot : Bool)
    (reason : Option String := none) : BookApplyResult :=
  { transition
    status := book.status
    generation := book.generation
    sequenceId := book.sequenceId
    bufferedEvents := book.buffer.length
    needsSnapshot
    reason }

/-- The common part of every loss of the book: next generation, empty sides, no snapshot, and a
buffer holding what the new generation starts from. -/
def invalidate (book : BinanceLocalOrderBook) (buffer : List BinanceDepthUpdatePayload) :
    BinanceLocalOrderBook :=
  { book with
    generation := book.generation + 1
    status := .resyncRequired
    sequenceId := none
    bids := ∅
    asks := ∅
    pendingSnapshot := none
    buffer }

def beginResync (book : BinanceLocalOrderBook) (reason : String) :
    BinanceLocalOrderBook × BookApplyResult :=
  let book := book.invalidate []
  (book, book.result .resyncStarted true (some reason))

/-- `_overflow`. -/
def overflow (book : BinanceLocalOrderBook) (update : BinanceDepthUpdatePayload) :
    BinanceLocalOrderBook × BookApplyResult :=
  let book := book.invalidate [update]
  (book, book.result .bufferOverflow true
    (some s!"buffer exceeded {book.maxBufferEvents} events"))

/-- One level's texts as decimals. -/
def parseLevel (level : BookLevelText) : Except PayloadError (Decimal × Decimal) := do
  let price ← decimalFromText level.1 "price"
  let quantity ← decimalFromText level.2 "quantity"
  return (price, quantity)

/-- `_snapshot_side`: positive quantities only, a later level of one price replacing an earlier. -/
def snapshotSide (levels : List BookLevelText) : Except PayloadError BookSide :=
  levels.foldlM (fun side level => do
    let (price, quantity) ← parseLevel level
    return if 0 < quantity then side.insert price quantity else side) ∅

/-- `_apply_side`: levels change the side in order, so a level that does not parse raises with the
earlier ones already applied. -/
def applySide (side : BookSide) : List BookLevelText → BookSide × Option PayloadError
  | [] => (side, none)
  | level :: rest =>
    match parseLevel level with
    | .error e => (side, some e)
    | .ok (price, quantity) => applySide (side.put price quantity) rest

/-- `_apply_update`. -/
def applyUpdate (book : BinanceLocalOrderBook) (update : BinanceDepthUpdatePayload) :
    BinanceLocalOrderBook × Option PayloadError :=
  match applySide book.bids update.bids with
  | (bids, some e) => ({ book with bids }, some e)
  | (bids, none) =>
    match applySide book.asks update.asks with
    | (asks, some e) => ({ book with bids, asks }, some e)
    | (asks, none) => ({ book with bids, asks, sequenceId := some update.finalUpdateId }, none)

/-- The second loop of `_try_activate_snapshot`: what is buffered behind the bridging diff must
continue it diff by diff.  Each turn has already taken its diff off the buffer. -/
def replayBuffered (book : BinanceLocalOrderBook) :
    List BinanceDepthUpdatePayload → BinanceLocalOrderBook × Except BookError BookApplyResult
  | [] =>
    let book := { book with pendingSnapshot := none, status := .live, buffer := [] }
    (book, .ok (book.result .snapshotApplied false))
  | update :: rest =>
    match book.sequenceId with
    | none =>
      ({ book with buffer := rest }, .error (.runtime "snapshot activation lost its sequence id"))
    | some previous =>
      if update.finalUpdateId ≤ previous then replayBuffered book rest
      else if update.previousFinalUpdateId ≠ previous then
        let book := book.invalidate (update :: rest)
        (book, .ok (book.result .sequenceGap true
          (some (s!"buffered chain expected pu={previous}, received " ++
            s!"pu={update.previousFinalUpdateId}"))))
      else
        match book.applyUpdate update with
        | (book, some e) => ({ book with buffer := rest }, .error (.payload e))
        | (book, none) => replayBuffered book rest

/-- The overlap test of the first loop. -/
def bridges (lastUpdateId : Int) (update : BinanceDepthUpdatePayload) : Bool :=
  update.firstUpdateId ≤ lastUpdateId && lastUpdateId ≤ update.finalUpdateId

/-- The end of `_try_activate_snapshot` when no buffered diff overlaps the snapshot: ask for a newer
snapshot if the oldest diff kept starts behind it, else keep waiting. -/
def unbridged (book : BinanceLocalOrderBook) (snapshot : BinanceDepthSnapshotPayload) :
    BinanceLocalOrderBook × Option BookApplyResult :=
  match book.buffer with
  | [] => (book, none)
  | oldest :: _ =>
    if snapshot.lastUpdateId < oldest.firstUpdateId then
      let book := { book with status := .resyncRequired }
      (book, some (book.result .retrySnapshot true
        (some (s!"snapshot lastUpdateId={snapshot.lastUpdateId} " ++
          s!"precedes buffered U={oldest.firstUpdateId}"))))
    else (book, none)

/-- The end of `_try_activate_snapshot` from the bridging diff on. -/
def activateFrom (book : BinanceLocalOrderBook) (first : BinanceDepthUpdatePayload)
    (rest : List BinanceDepthUpdatePayload) :
    BinanceLocalOrderBook × Except BookError BookApplyResult :=
  match book.applyUpdate first with
  | (book, some e) => ({ book with buffer := rest }, .error (.payload e))
  | (book, none) => replayBuffered book rest

/-- `_try_activate_snapshot`; `none` means "keep waiting". -/
def tryActivateSnapshot (book : BinanceLocalOrderBook) :
    BinanceLocalOrderBook × Except BookError (Option BookApplyResult) :=
  match book.pendingSnapshot with
  | none => (book, .ok none)
  | some snapshot =>
    let book :=
      { book with
        buffer := book.buffer.dropWhile fun u => u.finalUpdateId < snapshot.lastUpdateId }
    match book.buffer.dropWhile fun u => !bridges snapshot.lastUpdateId u with
    | [] => ((book.unbridged snapshot).1, .ok (book.unbridged snapshot).2)
    | first :: rest =>
      ((book.activateFrom first rest).1, (book.activateFrom first rest).2.map some)

/-- `_buffer_update`. -/
def bufferUpdate (book : BinanceLocalOrderBook) (update : BinanceDepthUpdatePayload) :
    BinanceLocalOrderBook × Except BookError BookApplyResult :=
  if book.maxBufferEvents ≤ book.buffer.length then
    match book.overflow update with
    | (book, result) => (book, .ok result)
  else
    match tryActivateSnapshot { book with buffer := book.buffer ++ [update] } with
    | (book, .error e) => (book, .error e)
    | (book, .ok (some activation)) => (book, .ok activation)
    | (book, .ok none) => (book, .ok (book.result .buffered book.pendingSnapshot.isNone))

/-- `ingest`: buffer or apply a diff with exact `pu == previous u` continuity. -/
def ingest (book : BinanceLocalOrderBook) (update : BinanceDepthUpdatePayload) :
    BinanceLocalOrderBook × Except BookError BookApplyResult :=
  if update.venueSymbol.toUpper ≠ book.venueSymbol then
    (book, .error (.wrongSymbol s!"book {book.venueSymbol} cannot ingest {update.venueSymbol}"))
  else if book.status ≠ .live then book.bufferUpdate update
  else
    match book.sequenceId with
    | none => (book, .error (.runtime "LIVE Binance book is missing its sequence id"))
    | some previous =>
      if update.finalUpdateId ≤ previous then (book, .ok (book.result .staleIgnored false))
      else if update.previousFinalUpdateId ≠ previous then
        let book := book.invalidate [update]
        (book, .ok (book.result .sequenceGap true
          (some s!"expected pu={previous}, received pu={update.previousFinalUpdateId}")))
      else
        match book.applyUpdate update with
        | (book, some e) => (book, .error (.payload e))
        | (book, none) => (book, .ok (book.result .updateApplied false))

/-- `install_snapshot`: install a REST snapshot and bridge it to the buffered diff stream. -/
def installSnapshot (book : BinanceLocalOrderBook) (snapshot : BinanceDepthSnapshotPayload) :
    BinanceLocalOrderBook × Except BookError BookApplyResult :=
  let book :=
    { book with
      pendingSnapshot := some snapshot
      sequenceId := some snapshot.lastUpdateId }
  match snapshotSide snapshot.bids with
  | .error e => (book, .error (.payload e))
  | .ok bids =>
    let book := { book with bids }
    match snapshotSide snapshot.asks with
    | .error e => (book, .error (.payload e))
    | .ok asks =>
      match tryActivateSnapshot { book with asks, status := .buffering } with
      | (book, .error e) => (book, .error e)
      | (book, .ok (some activation)) => (book, .ok activation)
      | (book, .ok none) =>
        (book, .ok (book.result .buffered false
          (some "waiting for a diff event that overlaps lastUpdateId")))

end BinanceLocalOrderBook

end Cvf
