/-
# Cvf.Features.Driver — the receive-time feature driver.

`ReceiveTimeFeatureDriver` orders one normalized timeline for live collection and for replay: events
wait in a bounded heap keyed by receive time and stable metadata, and whenever the committed watermark
moves, everything at or before it is handed downstream with the decision ticks in between.  The heap
is kept as the list of its items in key order; `heappush` inserts, `heappop` takes the head.

What goes downstream is recorded in `handed`, call by call.  A transition that raises leaves the
driver it had reached and marks it failed, as `_run_transition` does.
-/
import Cvf.Features.Lineage
import Cvf.Clock.Scheduler

namespace Cvf

open Cvf.Library

/-- The settings the driver reads.  The tick intervals come from fractional seconds, so they may round
to zero microseconds; the scheduler refuses that. -/
structure DriverSettings where
  /-- `features.receive_time_reorder_ms` -/
  lateness : Int
  /-- `pipeline.consumer_queue_capacity` -/
  capacity : Nat
  featureInterval : Int
  signalInterval : Int
  lateness_pos : 0 < lateness
  capacity_pos : 0 < capacity

/-- The canonical payload text of an event and the digest over it (`model_payload_json`,
`sha256_text`). -/
structure PayloadIdentity where
  modelPayloadJson : NormalizedMarketEvent → String
  sha256Text : String → String

/-- `_QueuedFeatureEvent`. -/
structure QueuedFeatureEvent where
  receiveTimestamp : Int
  exchange : String
  symbol : String
  eventType : String
  sequenceId : String
  rawPayloadReference : String
  contentIdentity : String
  ordinal : Nat
  event : NormalizedMarketEvent
  deriving DecidableEq, Repr

/-- The comparison fields before the arrival ordinal. -/
abbrev ContentKey := Int ×ₗ String ×ₗ String ×ₗ String ×ₗ String ×ₗ String ×ₗ String

namespace QueuedFeatureEvent

def contentKey (q : QueuedFeatureEvent) : ContentKey :=
  toLex (q.receiveTimestamp, toLex (q.exchange, toLex (q.symbol, toLex (q.eventType,
    toLex (q.sequenceId, toLex (q.rawPayloadReference, q.contentIdentity))))))

/-- The dataclass ordering: field by field, the event itself not compared. -/
def key (q : QueuedFeatureEvent) : ContentKey ×ₗ Nat := toLex (q.contentKey, q.ordinal)

theorem contentKey_le_of_key_le {q r : QueuedFeatureEvent} (h : q.key ≤ r.key) :
    q.contentKey ≤ r.contentKey := by
  rcases Prod.Lex.toLex_le_toLex.mp h with h | h
  · exact h.le
  · exact h.1.le

theorem receiveTimestamp_le_of_key_le {q r : QueuedFeatureEvent} (h : q.key ≤ r.key) :
    q.receiveTimestamp ≤ r.receiveTimestamp := by
  rcases Prod.Lex.toLex_le_toLex.mp (contentKey_le_of_key_le h) with h | h
  · exact h.le
  · exact h.1.le

end QueuedFeatureEvent

/-- One call the driver makes downstream. -/
inductive Action where
  | publish (event : NormalizedMarketEvent)
  | drain
  | consumeTick (tick : DecisionTick)
  deriving DecidableEq, Repr

inductive DriverError where
  /-- `feature timeline previously failed` -/
  | previouslyFailed
  /-- `cannot publish after feature timeline finish` -/
  | publishAfterFinish
  /-- `normalized event arrived behind the receive-time watermark` -/
  | behindWatermark
  /-- `feature timeline reorder buffer is full` -/
  | bufferFull
  /-- `scheduler intervals must be positive` -/
  | intervalsNotPositive
  /-- `decision scheduler cannot move backwards` -/
  | schedulerMovedBackwards
  deriving DecidableEq, Repr

structure ReceiveTimeFeatureDriver where
  settings : DriverSettings
  scheduler : Option DecisionScheduler := none
  events : List QueuedFeatureEvent := []
  ordinal : Nat := 0
  watermark : Option Int := none
  maximumSeen : Option Int := none
  isSealed : Bool := false
  failure : Option DriverError := none
  handed : List Action := []

namespace ReceiveTimeFeatureDriver

/-- `_queue_item`, for an already advanced ordinal. -/
def queueItem (identity : PayloadIdentity) (event : NormalizedMarketEvent) (timestamp : Int)
    (ordinal : Nat) : QueuedFeatureEvent :=
  { receiveTimestamp := timestamp
    exchange := event.base.exchange.value
    symbol := event.base.symbol
    eventType := event.eventType.value
    sequenceId := (event.base.sequenceId.map SequenceId.str).getD ""
    rawPayloadReference := event.base.rawPayloadReference.getD ""
    contentIdentity := identity.sha256Text (identity.modelPayloadJson event)
    ordinal
    event }

/-- `heappush`. -/
def push (events : List QueuedFeatureEvent) (item : QueuedFeatureEvent) : List QueuedFeatureEvent :=
  events.orderedInsert (fun q r => q.key ≤ r.key) item

/-- `_emit_ticks_through`. -/
def emitTicksThrough (d : ReceiveTimeFeatureDriver) (target : Int) :
    ReceiveTimeFeatureDriver × Option DriverError :=
  match d.scheduler with
  | none => (d, none)
  | some scheduler =>
    if target < scheduler.cursor then (d, none)
    else
      match scheduler.hasDueTick target with
      | none => (d, some .schedulerMovedBackwards)
      | some false => (d, none)
      | some true =>
        let d := { d with handed := d.handed ++ [.drain] }
        match scheduler.advanceTo target with
        | none => (d, some .schedulerMovedBackwards)
        | some (scheduler, ticks) =>
          ({ d with
              scheduler := some scheduler
              handed := d.handed ++ ticks.map .consumeTick }, none)

/-- The inner loop of `_advance_locked`: pop and publish every head with the group's timestamp. -/
def publishGroup (timestamp : Int) : List QueuedFeatureEvent → List Action × List QueuedFeatureEvent
  | [] => ([], [])
  | q :: rest =>
    if q.receiveTimestamp = timestamp then
      (.publish q.event :: (publishGroup timestamp rest).1, (publishGroup timestamp rest).2)
    else ([], q :: rest)

/-- The scheduler the outer loop continues with: created at the first event ever delivered. -/
def schedulerFor (d : ReceiveTimeFeatureDriver) (timestamp : Int) : Option DecisionScheduler :=
  d.scheduler.or
    (DecisionScheduler.start timestamp d.settings.featureInterval d.settings.signalInterval)

/-- The outer loop of `_advance_locked`; every turn pops at least one event. -/
def deliverDue (target : Int) :
    Nat → ReceiveTimeFeatureDriver → ReceiveTimeFeatureDriver × Option DriverError
  | 0, d => (d, none)
  | fuel + 1, d =>
    match d.events with
    | [] => (d, none)
    | head :: _ =>
      if head.receiveTimestamp ≤ target then
        match d.schedulerFor head.receiveTimestamp with
        | none => (d, some .intervalsNotPositive)
        | some scheduler =>
          let d := { d with scheduler := some scheduler }
          match d.emitTicksThrough (head.receiveTimestamp - 1) with
          | (d, some e) => (d, some e)
          | (d, none) =>
            let group := publishGroup head.receiveTimestamp d.events
            deliverDue target fuel
              { d with handed := d.handed ++ group.1, events := group.2 }
      else (d, none)

/-- `_advance_locked`. -/
def advanceLocked (d : ReceiveTimeFeatureDriver) (target : Int) :
    ReceiveTimeFeatureDriver × Option DriverError :=
  if d.watermark.any (target ≤ ·) then (d, none)
  else
    match deliverDue target d.events.length d with
    | (d, some e) => (d, some e)
    | (d, none) =>
      match d.emitTicksThrough target with
      | (d, some e) => (d, some e)
      | (d, none) => ({ d with watermark := some target }, none)

/-- `_publish_locked`. -/
def publishLocked (identity : PayloadIdentity) (d : ReceiveTimeFeatureDriver)
    (event : NormalizedMarketEvent) (timestamp : Int) :
    ReceiveTimeFeatureDriver × Option DriverError :=
  match d.advanceLocked (timestamp - d.settings.lateness) with
  | (d, some e) => (d, some e)
  | (d, none) =>
    if d.settings.capacity ≤ d.events.length then (d, some .bufferFull)
    else
      ({ d with
          ordinal := d.ordinal + 1
          events := push d.events (queueItem identity event timestamp (d.ordinal + 1))
          maximumSeen := maxOption d.maximumSeen (some timestamp) }, none)

/-- `_run_transition`: what a transition raises is remembered. -/
def runTransition : ReceiveTimeFeatureDriver × Option DriverError →
    ReceiveTimeFeatureDriver × Option DriverError
  | (d, none) => (d, none)
  | (d, some e) => ({ d with failure := some e }, some e)

def publish (identity : PayloadIdentity) (d : ReceiveTimeFeatureDriver)
    (event : NormalizedMarketEvent) : ReceiveTimeFeatureDriver × Option DriverError :=
  if d.failure.isSome then (d, some .previouslyFailed)
  else if d.isSealed then (d, some .publishAfterFinish)
  else if d.watermark.any (event.base.localReceiveTimestamp ≤ ·) then (d, some .behindWatermark)
  else runTransition (d.publishLocked identity event event.base.localReceiveTimestamp)

def advanceTo (d : ReceiveTimeFeatureDriver) (timestamp : Int) :
    ReceiveTimeFeatureDriver × Option DriverError :=
  if d.failure.isSome then (d, some .previouslyFailed)
  else if d.isSealed then (d, none)
  else runTransition (d.advanceLocked timestamp)

/-- The body of `finish`. -/
def finishLocked (d : ReceiveTimeFeatureDriver) (throughTimestamp : Option Int) :
    ReceiveTimeFeatureDriver × Option DriverError :=
  let advanced :=
    match maxOption d.maximumSeen throughTimestamp with
    | none => (d, none)
    | some target => d.advanceLocked target
  match advanced with
  | (d, some e) => (d, some e)
  | (d, none) => ({ d with handed := d.handed ++ [.drain], isSealed := true }, none)

def finish (d : ReceiveTimeFeatureDriver) (throughTimestamp : Option Int) :
    ReceiveTimeFeatureDriver × Option DriverError :=
  if d.failure.isSome then (d, some .previouslyFailed)
  else if d.isSealed then (d, none)
  else runTransition (d.finishLocked throughTimestamp)

/-! ## Runs -/

/-- A call on the driver. -/
inductive Call where
  | publish (event : NormalizedMarketEvent)
  | advanceTo (timestamp : Int)
  | finish (throughTimestamp : Option Int)
  deriving DecidableEq, Repr

/-- The event a call publishes. -/
def Call.event? : Call → Option NormalizedMarketEvent
  | .publish event => some event
  | _ => none

/-- The events a run publishes, in order. -/
def published (calls : List Call) : List NormalizedMarketEvent := calls.filterMap Call.event?

/-- One call, with what it raises. -/
def call (identity : PayloadIdentity) (d : ReceiveTimeFeatureDriver) :
    Call → ReceiveTimeFeatureDriver × Option DriverError
  | .publish event => d.publish identity event
  | .advanceTo timestamp => d.advanceTo timestamp
  | .finish throughTimestamp => d.finish throughTimestamp

/-- One call of an error-free run. -/
def perform (identity : PayloadIdentity) (d : ReceiveTimeFeatureDriver) (c : Call) :
    Except DriverError ReceiveTimeFeatureDriver :=
  match d.call identity c with
  | (d, none) => .ok d
  | (_, some e) => .error e

/-- A run that stops at the first call that raises. -/
def run (identity : PayloadIdentity) (d : ReceiveTimeFeatureDriver) (calls : List Call) :
    Except DriverError ReceiveTimeFeatureDriver :=
  calls.foldlM (perform identity) d

/-- A fresh driver. -/
def new (settings : DriverSettings) : ReceiveTimeFeatureDriver := { settings }

/-- The events and ticks handed downstream, in order. -/
def outputs (actions : List Action) : List (NormalizedMarketEvent ⊕ DecisionTick) :=
  actions.filterMap fun
    | .publish event => some (.inl event)
    | .consumeTick tick => some (.inr tick)
    | .drain => none

/-- `handed` seen as one timeline. -/
def timeline (d : ReceiveTimeFeatureDriver) : List (NormalizedMarketEvent ⊕ DecisionTick) :=
  outputs d.handed

end ReceiveTimeFeatureDriver

end Cvf
