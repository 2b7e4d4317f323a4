/-
# Cvf.Features.Book — the feature-side order book.

`FeatureOrderBookState` rebuilds a book from normalized snapshots and updates: absolute levels, a
bounded list of updates waiting for a snapshot, and a generation that only moves forward.  Its rules
for stale, gap and reset differ from those of the venue books, which is why the agreement of the two
is a theorem and not a definition.
-/
import Cvf.Features.Lineage
import Cvf.Library.Rounding

namespace Cvf

open Cvf.Library

inductive StateUpdateStatus where
  | accepted
  | lateDropped
  | expiredDropped
  | staleGeneration
  | staleSequence
  | bufferedForSnapshot
  | bookInvalidated
  deriving DecidableEq, Repr

structure BookChange where
  bidQuantityDelta : Decimal
  askQuantityDelta : Decimal
  addedBidQuantity : Decimal
  addedAskQuantity : Decimal
  removedBidQuantity : Decimal
  removedAskQuantity : Decimal
  orderFlowImbalance : Decimal
  deriving DecidableEq, Repr

structure FeatureBookView where
  generation : Nat
  epoch : Nat
  sequenceId : Option Int
  synchronized : Bool
  synchronizedSince : Option Int
  bids : List OrderBookLevel
  asks : List OrderBookLevel
  pendingUpdates : Nat
  lastError : Option String
  lineage : SourceLineage
  deriving DecidableEq, Repr

/-- `_sequence`: an integer, or a text that `int` accepts. -/
def sequenceNumber : Option SequenceId → Option Int
  | none => none
  | some (.int value) => some value
  | some (.text value) => pyInt value

/-- `value or default`: zero counts as missing. -/
def orDefault (value default : Option Int) : Option Int :=
  match value with
  | none => default
  | some v => if v = 0 then default else some v

/-- The result of a `Decimal` operation in the default context: 28 significant digits, ties to even.
The limits of its exponent, a million digits away, are left out. -/
def contextRound (x : Decimal) : Decimal := roundTo 10 28 x

/-- `sum(values, Decimal(0))`. -/
def contextSum (values : List Decimal) : Decimal :=
  values.foldl (fun total value => contextRound (total + value)) 0

structure FeatureOrderBookState where
  pendingCapacity : Nat
  /-- `pending_capacity must be positive` -/
  pendingCapacity_pos : 1 ≤ pendingCapacity
  pending : List OrderBookUpdate := []
  bids : BookSide := ∅
  asks : BookSide := ∅
  generation : Nat := 0
  epoch : Nat := 0
  sequenceId : Option Int := none
  synchronized : Bool := false
  synchronizedSince : Option Int := none
  lastError : Option String := none
  lastChange : Option BookChange := none
  lineage : SourceLineage := {}

namespace FeatureOrderBookState

variable (digest : SourceDigest)

/-- `_reset`. -/
def reset (book : FeatureOrderBookState) (generation : Nat) (reason : Option String)
    (advanceEpoch : Bool) : FeatureOrderBookState :=
  { book with
    bids := ∅
    asks := ∅
    pending := []
    generation
    epoch := if advanceEpoch then book.epoch + 1 else book.epoch
    sequenceId := none
    synchronized := false
    synchronizedSince := none
    lastError := reason
    lastChange := none
    lineage := {} }

/-- `_record_lineage`. -/
def recordLineage (book : FeatureOrderBookState) (event : NormalizedMarketEvent) :
    FeatureOrderBookState :=
  { book with
    lineage := book.lineage.combine
      (SourceLineage.fromSource digest event.base.exchangeTimestamp event) }

/-- `_apply_side`. -/
def applySide (side : BookSide) (levels : List OrderBookLevel) : BookSide :=
  levels.foldl (fun side level => side.put level.price level.quantity) side

/-- Both failures of `_apply_levels`. -/
def desynchronize (book : FeatureOrderBookState) (reason : String) : FeatureOrderBookState :=
  { book with synchronized := false, synchronizedSince := none, lastError := some reason }

/-- `_apply_levels`, with the value it returns. -/
def applyLevels (book : FeatureOrderBookState) (bids asks : List OrderBookLevel) :
    FeatureOrderBookState × Bool :=
  let book := { book with bids := applySide book.bids bids, asks := applySide book.asks asks }
  if book.bids = ∅ ∨ book.asks = ∅ then (book.desynchronize "order book side became empty", false)
  else if BookSide.crossed book.bids book.asks then
    (book.desynchronize "order book became crossed or locked", false)
  else (book, true)

/-- The deltas of one side's levels against the quantities it holds. -/
def quantityDeltas (side : BookSide) (levels : List OrderBookLevel) : List Decimal :=
  levels.map fun level => contextRound (level.quantity - (side.lookup level.price).getD 0)

/-- `_measure_change`. -/
def measureChange (book : FeatureOrderBookState) (update : OrderBookUpdate) : BookChange :=
  let bidDeltas := quantityDeltas book.bids update.bids
  let askDeltas := quantityDeltas book.asks update.asks
  let bidDelta := contextSum bidDeltas
  let askDelta := contextSum askDeltas
  { bidQuantityDelta := bidDelta
    askQuantityDelta := askDelta
    addedBidQuantity := contextSum (bidDeltas.filter (0 < ·))
    addedAskQuantity := contextSum (askDeltas.filter (0 < ·))
    removedBidQuantity := contextSum ((bidDeltas.filter (· < 0)).map fun delta => contextRound (-delta))
    removedAskQuantity := contextSum ((askDeltas.filter (· < 0)).map fun delta => contextRound (-delta))
    orderFlowImbalance := contextRound (bidDelta - askDelta) }

/-- `_buffer`. -/
def buffer (book : FeatureOrderBookState) (update : OrderBookUpdate) :
    FeatureOrderBookState × StateUpdateStatus :=
  if book.pendingCapacity ≤ book.pending.length then
    let emptied := book.reset update.generation
      (some "pending order-book update capacity exceeded") true
    ({ emptied with lineage := book.lineage }.recordLineage digest (.orderBookUpdate update),
      .bookInvalidated)
  else
    ({ book with pending := book.pending ++ [update] }.recordLineage digest
      (.orderBookUpdate update), .bufferedForSnapshot)

/-- One pending update replayed onto a fresh snapshot: skipped, applied, or the end of the replay. -/
def replayOne (book : FeatureOrderBookState) (update : OrderBookUpdate) :
    FeatureOrderBookState × Bool :=
  let sequence := sequenceNumber update.sequenceId
  let previous := sequenceNumber update.previousSequenceId
  let apply (_ : Unit) : FeatureOrderBookState × Bool :=
    let change := book.measureChange update
    match book.applyLevels update.bids update.asks with
    | (book, false) => (book, false)
    | (book, true) =>
      ({ book with lastChange := some change, sequenceId := orDefault sequence book.sequenceId },
        true)
  match sequence, book.sequenceId with
  | some s, some current =>
    if s ≤ current then (book, true)
    else if previous.any (current < ·) then
      (book.desynchronize "pending update has a sequence gap", false)
    else apply ()
  | _, _ => apply ()

/-- The replay loop of `apply_snapshot`. -/
def replayPending (book : FeatureOrderBookState) :
    List OrderBookUpdate → FeatureOrderBookState × StateUpdateStatus
  | [] => (book, if book.synchronized then .accepted else .bookInvalidated)
  | update :: rest =>
    match book.replayOne update with
    | (book, false) => (book, .bookInvalidated)
    | (book, true) => replayPending book rest

/-- The sort key of the replay: `_sequence(event.sequence_id) or -1`. -/
def replayKey (update : OrderBookUpdate) : Int :=
  (orDefault (sequenceNumber update.sequenceId) (some (-1))).getD (-1)

/-- A side as the dictionary of a snapshot's levels. -/
def snapshotSide (levels : List OrderBookLevel) : BookSide :=
  levels.foldl (fun side level => side.insert level.price level.quantity) ∅

/-- The state `apply_snapshot` has installed before it replays what was pending. -/
def installed (book : FeatureOrderBookState) (snapshot : OrderBookSnapshot) :
    FeatureOrderBookState :=
  let sameGeneration := decide (snapshot.generation = book.generation)
  let continuing := sameGeneration && book.synchronized
  let emptied := book.reset snapshot.generation none (!continuing)
  let emptied := if sameGeneration then { emptied with lineage := book.lineage } else emptied
  let recorded := emptied.recordLineage digest (.orderBookSnapshot snapshot)
  let bids := snapshotSide snapshot.bids
  let asks := snapshotSide snapshot.asks
  let synchronized := decide (bids ≠ ∅) && decide (asks ≠ ∅)
  { recorded with
    bids
    asks
    sequenceId := sequenceNumber snapshot.sequenceId
    synchronized
    synchronizedSince :=
      if synchronized then
        (if continuing then book.synchronizedSince else some snapshot.exchangeTimestamp)
      else none }

/-- The test that a snapshot does not advance a synchronized book. -/
def isStale (book : FeatureOrderBookState) (snapshot : OrderBookSnapshot) : Bool :=
  decide (snapshot.generation = book.generation) && book.synchronized &&
    match sequenceNumber snapshot.sequenceId, book.sequenceId with
    | some s, some current => decide (s ≤ current)
    | _, _ => false

/-- `apply_snapshot`. -/
def applySnapshot (book : FeatureOrderBookState) (snapshot : OrderBookSnapshot) :
    FeatureOrderBookState × StateUpdateStatus :=
  if snapshot.generation < book.generation then (book, .staleGeneration)
  else if book.isStale snapshot then (book, .staleSequence)
  else
    let pending := if snapshot.generation = book.generation then book.pending else []
    let installed := book.installed digest snapshot
    if installed.synchronized && BookSide.crossed installed.bids installed.asks then
      (installed.desynchronize "snapshot is crossed or locked", .bookInvalidated)
    else
      installed.replayPending (pending.insertionSort fun u v => replayKey u ≤ replayKey v)

/-- The end of `apply_update`, for an update that continues the book. -/
def applyNext (book : FeatureOrderBookState) (update : OrderBookUpdate) :
    FeatureOrderBookState × StateUpdateStatus :=
  let change := book.measureChange update
  let recorded := book.recordLineage digest (.orderBookUpdate update)
  match recorded.applyLevels update.bids update.asks with
  | (book, false) => (book, .bookInvalidated)
  | (book, true) =>
    ({ book with
        lastChange := some change
        sequenceId := orDefault (sequenceNumber update.sequenceId) book.sequenceId }, .accepted)

/-- `apply_update`. -/
def applyUpdate (book : FeatureOrderBookState) (update : OrderBookUpdate) :
    FeatureOrderBookState × StateUpdateStatus :=
  if update.generation < book.generation then (book, .staleGeneration)
  else if book.generation < update.generation then
    (book.reset update.generation (some "book generation changed before snapshot") true).buffer
      digest update
  else if !book.synchronized then book.buffer digest update
  else
    match sequenceNumber update.sequenceId, book.sequenceId with
    | some s, some current =>
      if s ≤ current then (book, .staleSequence)
      else if (sequenceNumber update.previousSequenceId).any (· ≠ current) then
        { book.desynchronize "order-book update sequence gap" with pending := [] }.buffer
          digest update
      else book.applyNext digest update
    | _, _ => book.applyNext digest update

/-- A book event applied to the feature book. -/
def consume (book : FeatureOrderBookState) : NormalizedMarketEvent → FeatureOrderBookState
  | .orderBookSnapshot snapshot => (book.applySnapshot digest snapshot).1
  | .orderBookUpdate update => (book.applyUpdate digest update).1
  | _ => book

/-- `view`; `none` is `ValueError("depth must be positive")`. -/
def view (book : FeatureOrderBookState) (depth : Nat) : Option FeatureBookView :=
  if depth < 1 then none
  else
    some
      { generation := book.generation
        epoch := book.epoch
        sequenceId := book.sequenceId
        synchronized := book.synchronized
        synchronizedSince := book.synchronizedSince
        bids := ((book.bids.keys.sort (· ≥ ·)).take depth).map
          fun price => ⟨price, (book.bids.lookup price).getD 0⟩
        asks := ((book.asks.keys.sort (· ≤ ·)).take depth).map
          fun price => ⟨price, (book.asks.lookup price).getD 0⟩
        pendingUpdates := book.pending.length
        lastError := book.lastError
        lineage := book.lineage }

end FeatureOrderBookState

end Cvf
