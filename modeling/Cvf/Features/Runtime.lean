/-
# Cvf.Features.Runtime — the feature runtime.

`FeatureRuntime` owns a store of market state, the two feature engines, the deques of single-venue snapshots
and the writer.  An event goes into the store, and a new generation of a book clears the deques of its
symbol.  A feature tick calculates every state and window, appends the snapshots to the deques, pairs the two
venues for every symbol and window, and hands everything to the writer in that order; a signal tick is only
counted.  A call that raises ends the run, as it fails the timeline that drives the runtime.

The writer is the list of what it took, and what it raises is a parameter.  The latencies of the calculation
and of the hand-over are wall clock times and left out; so is the count of violations, which is raised only
with the error that ends the run.
-/
import Cvf.Clock.Scheduler
import Cvf.Features.CrossVenueFields
import Cvf.Features.RuntimeHistory
import Cvf.Storage.FeatureRows

namespace Cvf

open Cvf.Library

/-! ## The pipeline in front of the store -/

/-- `FeatureStatePipeline`, without its store; `status_counts` has no entry where the count is zero. -/
structure FeatureStatePipeline where
  statusCounts : StateUpdateStatus → Nat := fun _ => 0
  acceptedEvents : Nat := 0
  rejectedEvents : Nat := 0

/-- `_record` -/
def FeatureStatePipeline.record (pipeline : FeatureStatePipeline) (result : StateUpdateResult) :
    FeatureStatePipeline :=
  { statusCounts :=
      Function.update pipeline.statusCounts result.status (pipeline.statusCounts result.status + 1)
    acceptedEvents :=
      if result.status = .accepted then pipeline.acceptedEvents + 1 else pipeline.acceptedEvents
    rejectedEvents :=
      if result.status = .accepted then pipeline.rejectedEvents else pipeline.rejectedEvents + 1 }

/-! ## Counters -/

/-- `_LatencyAccumulator` -/
structure LatencyAccumulator (F : Type) where
  samples : Nat
  total : F
  minimum : Option F
  maximum : Option F

section

variable {F : Type} [Field F] [LinearOrder F]

def LatencyAccumulator.new : LatencyAccumulator F :=
  { samples := 0, total := 0, minimum := none, maximum := none }

def LatencyAccumulator.add (latency : LatencyAccumulator F) (value : F) : LatencyAccumulator F :=
  { samples := latency.samples + 1
    total := latency.total + value
    minimum := some (latency.minimum.elim value (min · value))
    maximum := some (latency.maximum.elim value (max · value)) }

end

/-- The counters that `_record_snapshot` writes; `outputEventTypes` counts the one type there is. -/
structure OutputCounts where
  outputEventTypes : Nat := 0
  unavailableSnapshots : Nat := 0
  unavailableReasons : String → Nat := fun _ => 0
  openInterestStaleSnapshots : Nat := 0
  nonAlignedCrossSnapshots : Nat := 0

namespace PersistableFeatureSnapshot

variable {F : Type}

/-- `FeatureUnavailableCode.OPEN_INTEREST_STALE in reasons` -/
def hasStaleOpenInterest (output : PersistableFeatureSnapshot F) : Bool :=
  output.unavailableReasons.any (·.code = .openInterestStale)

/-- `isinstance(…, CrossVenueFeatureSnapshot) and … is not AlignmentStatus.ALIGNED` -/
def isNonAligned : PersistableFeatureSnapshot F → Bool
  | .singleVenue _ => false
  | .crossVenue s => decide (s.alignment.status ≠ .aligned)

/-- `_source_is_in_the_future` -/
def sourceIsInTheFuture (output : PersistableFeatureSnapshot F) : Bool :=
  output.newestSourceTimestamp.any (output.decisionTimestamp < ·) ||
    match output with
    | .singleVenue _ => false
    | .crossVenue s =>
      [s.alignment.binanceSourceTimestamp, s.alignment.okxSourceTimestamp].any fun source =>
        source.any (s.decisionTimestamp < ·)

end PersistableFeatureSnapshot

/-- `_record_snapshot` -/
def OutputCounts.record {F : Type} (counts : OutputCounts) (output : PersistableFeatureSnapshot F) :
    Except String OutputCounts :=
  let codes := output.reasonCodes
  if output.sourceIsInTheFuture then
    .error ("future source detected in feature snapshot " ++ output.featureSnapshotId.str)
  else
    .ok
      { outputEventTypes := counts.outputEventTypes + 1
        unavailableSnapshots :=
          if codes.isEmpty then counts.unavailableSnapshots else counts.unavailableSnapshots + 1
        unavailableReasons := fun code => counts.unavailableReasons code + codes.count code
        openInterestStaleSnapshots :=
          if output.hasStaleOpenInterest then counts.openInterestStaleSnapshots + 1
          else counts.openInterestStaleSnapshots
        nonAlignedCrossSnapshots :=
          if output.isNonAligned then counts.nonAlignedCrossSnapshots + 1
          else counts.nonAlignedCrossSnapshots }

/-! ## The runtime -/

/-- The engines and the writer of one `Settings`, with what the settings check. -/
structure RuntimeEngines (F : Type) where
  single : SingleVenueFeatureEngine F
  cross : CrossVenueFeatureEngine F
  /-- `settings.timing.feature_update_seconds`, in microseconds -/
  featureUpdateMicros : Int
  /-- What `writer.write` raises for an output, behind those it took. -/
  writeError : List (PersistableFeatureSnapshot F) → PersistableFeatureSnapshot F → Option String
  windows_eq : cross.settings.featureWindowsSeconds = single.settings.featureWindowsSeconds
  lookback_eq : cross.settings.zscoreLookbackSeconds = single.settings.zscoreLookbackSeconds
  symbols_canonical : ∀ symbol ∈ cross.settings.canonicalSymbols, checkedSymbol symbol = .ok symbol
  symbols_nodup : cross.settings.canonicalSymbols.Nodup
  symbols_nonempty : cross.settings.canonicalSymbols ≠ []
  windows_nonempty : single.settings.featureWindowsSeconds ≠ []
  featureUpdateMicros_pos : 0 < featureUpdateMicros

namespace RuntimeEngines

variable {F : Type} (engines : RuntimeEngines F)

/-- `settings.markets.canonical_symbols` -/
def symbols : List String := engines.cross.settings.canonicalSymbols

/-- `settings.timing.feature_windows_seconds` -/
def windows : List Int := engines.single.settings.featureWindowsSeconds

/-- `_universe`, in the order in which its states are created. -/
def featureUniverse : List (Exchange × String) :=
  [Exchange.binance, .okx].flatMap fun exchange => engines.symbols.map (exchange, ·)

/-- `_history_items` -/
def historyItems : Nat :=
  RuntimeHistory.historyItems engines.single.settings.zscoreLookbackSeconds engines.featureUpdateMicros

end RuntimeEngines

structure FeatureRuntime (F : Type) where
  started : Bool
  /-- `_closed`, or a `_close_task` that is under way. -/
  closed : Bool
  /-- `state`, and what `_single_engine` remembers. -/
  timeline : EngineTimeline F
  /-- The keys of each `health_by_channel`, in the order they were first written. -/
  healthChannels : Exchange × String → List String
  pipeline : FeatureStatePipeline
  /-- `_history` and `_book_generations` -/
  history : RuntimeHistory F
  normalizedEvents : Nat
  featureTicks : Nat
  signalBoundaries : Nat
  singleSnapshots : Nat
  crossSnapshots : Nat
  bookGenerationRebuilds : Nat
  counts : OutputCounts
  receiveLatency : LatencyAccumulator F
  /-- What `writer.write` took. -/
  written : List (PersistableFeatureSnapshot F)

/-- The calls that reach a runtime. -/
inductive RuntimeCall where
  | start
  | close
  | consumeEvent (event : NormalizedMarketEvent)
  | consumeTick (tick : DecisionTick)

namespace SingleVenueFeatureEngine

variable {F : Type} [Field F] [LinearOrder F] (engine : SingleVenueFeatureEngine F)

/-- The calculations of `calculate_all`, one after another. -/
def calculateEach (store : MarketStateStore) (channels : Exchange × String → List String)
    (decision : Int) : List (VenueSymbolState × Int) → SingleVenueMemory F →
      Except String (List (FeatureSnapshot F) × SingleVenueMemory F)
  | [], memory => .ok ([], memory)
  | (state, windowSeconds) :: later, memory => do
    let calculated ← engine.calculate memory state (store.exchangeHealthEvents state.exchange)
      (channels (state.exchange, state.symbol)) decision windowSeconds
    let rest ← calculateEach store channels decision later calculated.2
    .ok (calculated.1 :: rest.1, rest.2)

/-- `calculate_all` over the states of a store. -/
def calculateAll (store : MarketStateStore) (channels : Exchange × String → List String)
    (memory : SingleVenueMemory F) (decision : Int) :
    Except String (List (FeatureSnapshot F) × SingleVenueMemory F) :=
  engine.calculateEach store channels decision
    (store.states.flatMap fun state => engine.settings.featureWindowsSeconds.map (state, ·)) memory

end SingleVenueFeatureEngine

namespace FeatureRuntime

variable {F : Type} [Field F] [LinearOrder F] (engines : RuntimeEngines F)

/-- `FeatureRuntime(settings, …)`: every state of the universe is created. -/
def new : FeatureRuntime F :=
  { started := false
    closed := false
    timeline :=
      { (EngineTimeline.new engines.single : EngineTimeline F) with
        store := engines.featureUniverse.foldl
          (fun store key => store.perform engines.single.digest (.state key.1 key.2))
          (.new engines.single.settings.features) }
    healthChannels := fun _ => []
    pipeline := {}
    history := .start
    normalizedEvents := 0
    featureTicks := 0
    signalBoundaries := 0
    singleSnapshots := 0
    crossSnapshots := 0
    bookGenerationRebuilds := 0
    counts := {}
    receiveLatency := .new
    written := [] }

/-- The checks of `consume_event` on the event. -/
def eventRefusal (event : NormalizedMarketEvent) : Option String :=
  if !event.base.exchange.isConcrete then
    some "feature runtime requires a concrete market-data exchange"
  else if event.base.symbol = "*" then
    if event.eventType = .exchangeHealth then none
    else some "only exchange-health events may use wildcard symbols"
  else if (event.base.exchange, event.base.symbol) ∈ engines.featureUniverse then none
  else
    some ("normalized event is outside the configured feature universe: " ++
      event.base.exchange.value ++ ":" ++ event.base.symbol)

/-- The keys of `health_by_channel` behind an event. -/
def noteChannel (runtime : FeatureRuntime F) (event : NormalizedMarketEvent) (store : MarketStateStore)
    (key : Exchange × String) : List String :=
  let channels := runtime.healthChannels key
  match event with
  | .exchangeHealth health =>
    if ((store.lookup key.1 key.2).healthByChannel health.channel).isSome ∧ health.channel ∉ channels then
      channels ++ [health.channel]
    else channels
  | _ => channels

/-- What a book event does to `_history`, `_book_generations` and the count of rebuilds. -/
def noteBook (runtime : FeatureRuntime F) (event : NormalizedMarketEvent) : FeatureRuntime F :=
  if event.isBook then
    let key := (event.base.exchange, event.base.symbol)
    let current := (runtime.timeline.store.lookup key.1 key.2).orderBook.generation
    { runtime with
      bookGenerationRebuilds :=
        if (runtime.history.bookGenerations key).any (· ≠ current) then
          runtime.bookGenerationRebuilds + 1
        else runtime.bookGenerationRebuilds
      history := runtime.history.consumeBookEvent key.1 key.2 current }
  else runtime

/-- `consume_event` -/
def consumeEvent (runtime : FeatureRuntime F) (event : NormalizedMarketEvent) :
    Except String (FeatureRuntime F) :=
  if !runtime.started || runtime.closed then .error "feature runtime is not active"
  else
    match eventRefusal engines event with
    | some text => .error text
    | none =>
      match runtime.timeline.store.ingest engines.single.digest event with
      | .error text => .error text
      | .ok (store, result) =>
        .ok (noteBook
          { runtime with
            timeline := { runtime.timeline with store }
            healthChannels := runtime.noteChannel event store
            pipeline := runtime.pipeline.record result
            normalizedEvents := runtime.normalizedEvents + 1
            receiveLatency := runtime.receiveLatency.add (engines.single.math.milliseconds
              (event.base.localReceiveTimestamp - event.base.exchangeTimestamp)) } event)

/-- `_record_snapshot` and `writer.write`, for one output behind those that were written. -/
def emit (emitted : OutputCounts × List (PersistableFeatureSnapshot F))
    (output : PersistableFeatureSnapshot F) :
    Except String (OutputCounts × List (PersistableFeatureSnapshot F)) := do
  let counts ← emitted.1.record output
  match engines.writeError emitted.2 output with
  | some text => .error text
  | none => .ok (counts, emitted.2 ++ [output])

/-- `consume_tick`, with deques of a given length. -/
def consumeTickWith (maxlen : Option Nat) (runtime : FeatureRuntime F) (tick : DecisionTick) :
    Except String (FeatureRuntime F) :=
  if !runtime.started || runtime.closed then .error "feature runtime is not active"
  else
    match tick.kind with
    | .signal => .ok { runtime with signalBoundaries := runtime.signalBoundaries + 1 }
    | .feature => do
      let (singles, memory) ← engines.single.calculateAll runtime.timeline.store runtime.healthChannels
        runtime.timeline.memory tick.timestamp
      let history := singles.foldl (RuntimeHistory.append maxlen) runtime.history
      let crosses ← (history.crosses engines.cross tick.timestamp).mapM id
      let outputs := singles.map .singleVenue ++ crosses.map .crossVenue
      let (counts, written) ← outputs.foldlM (emit engines) (runtime.counts, runtime.written)
      .ok
        { runtime with
          timeline := { runtime.timeline with memory }
          history
          featureTicks := runtime.featureTicks + 1
          singleSnapshots := runtime.singleSnapshots + singles.length
          crossSnapshots := runtime.crossSnapshots + crosses.length
          counts
          written }

/-- `consume_tick` -/
def consumeTick (runtime : FeatureRuntime F) (tick : DecisionTick) : Except String (FeatureRuntime F) :=
  runtime.consumeTickWith engines (some engines.historyItems) tick

def perform (runtime : FeatureRuntime F) : RuntimeCall → Except String (FeatureRuntime F)
  | .start =>
    if runtime.closed then .error "cannot restart a closed feature runtime"
    else .ok { runtime with started := true }
  | .close => .ok { runtime with closed := true }
  | .consumeEvent event => runtime.consumeEvent engines event
  | .consumeTick tick => runtime.consumeTick engines tick

def run (calls : List RuntimeCall) : Except String (FeatureRuntime F) :=
  calls.foldlM (perform engines) (new engines)

end FeatureRuntime

end Cvf
