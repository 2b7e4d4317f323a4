/-
# Cvf.Monitoring.Health — per-channel health accounting and what it reports.

`StreamHealthRegistry` keeps one mutable record per exchange, symbol and channel; the connectors' socket
handlers, REST tasks and pollers each set the flags they know about.  `exchange_health` derives the
status from the flags and builds an `ExchangeHealth`, whose validator admits `resyncing` only together
with the status `RESYNCING`, hence only on a connected channel.

`mark_disconnected` clears `resyncing`, and nothing in `mark_resyncing` looks at the connection.  The
main result says exactly what that costs: reporting succeeds in every state of a run if and only if
every operation that starts a resync meets a connected channel.
-/
import Cvf.Symbol
import Cvf.Models
import Cvf.Library.Run

namespace Cvf

open Cvf.Library

/-! ## Keys and states -/

/-- A stream, with the two checks of `__post_init__`. -/
structure StreamKey where
  exchange : Exchange
  symbol : String
  channel : String
  symbol_canonical : validateCanonicalSymbol symbol true = .ok symbol
  channel_not_blank : isBlank channel = false
  deriving DecidableEq

/-- `StreamKey(exchange, symbol, channel)`. -/
def StreamKey.new (exchange : Exchange) (symbol channel : String) : Except String StreamKey :=
  match h : validateCanonicalSymbol symbol true with
  | .error e => .error e
  | .ok canonical =>
    if hc : isBlank channel = false then
      .ok
        { exchange, symbol := canonical, channel
          symbol_canonical := validateCanonicalSymbol_idem h
          channel_not_blank := hc }
    else .error "channel cannot be empty"

/-- `_StreamState`.  Latencies are exact milliseconds. -/
structure StreamState where
  isConnected : Bool := false
  connectedAt : Option Int := none
  lastEventTimestamp : Option Int := none
  lastReceiveTimestamp : Option Int := none
  lastLatencyMs : Option Rat := none
  latencySumMs : Rat := 0
  maximumLatencyMs : Option Rat := none
  lastNormalizationLatencyMs : Option Rat := none
  clockSkewMs : Option Rat := none
  messageCount : Nat := 0
  duplicateCount : Nat := 0
  sequenceGapCount : Nat := 0
  checksumFailureCount : Nat := 0
  reconnectCount : Nat := 0
  resubscribeCount : Nat := 0
  parseErrorCount : Nat := 0
  droppedEventCount : Nat := 0
  backpressureCount : Nat := 0
  sequenceGapDetected : Bool := false
  resyncing : Bool := false
  bookGeneration : Nat := 0
  restHealthy : Bool := true
  lastOpenInterestReceiveTimestamp : Option Int := none
  lastError : Option String := none
  deriving DecidableEq, Repr

structure StreamHealthRegistry where
  staleAfterMs : Int
  maximumCoreLatencyMs : Int
  clockSkewWarningMs : Int
  openInterestStaleAfterMs : Int
  channelStaleAfterMs : List (String × Option Int)
  states : Finmap fun _ : StreamKey => StreamState

/-- `timedelta.total_seconds() * 1000.0`. -/
def milliseconds (delta : Int) : Rat := delta / 1000

/-- The `ExchangeHealth` constructor: the field validators of the symbol and the channel, then
`state_fields_are_consistent`.  Counters are natural numbers and instants are UTC by type. -/
def ExchangeHealth.construct (health : ExchangeHealth) : Except String ExchangeHealth :=
  match validateCanonicalSymbol health.symbol true with
  | .error e => .error e
  | .ok symbol =>
    if isBlank health.channel then .error "channel cannot be empty"
    else
      match health.validate with
      | .error e => .error e
      | .ok () => .ok { health with toEventBase := { health.toEventBase with symbol } }

/-- What `record_message` assigns once the instants are in order. -/
def StreamState.observe (s : StreamState) (exchangeAt receivedAt normalizedAt : Int)
    (clockSkewMs : Option Rat) (isOpenInterest : Bool) : StreamState :=
  let adjustedLatency := milliseconds (receivedAt - exchangeAt) - clockSkewMs.getD 0
  { s with
    clockSkewMs := clockSkewMs.or s.clockSkewMs
    lastEventTimestamp := some exchangeAt
    lastReceiveTimestamp := some receivedAt
    lastLatencyMs := some adjustedLatency
    latencySumMs := s.latencySumMs + adjustedLatency
    maximumLatencyMs := some (s.maximumLatencyMs.elim adjustedLatency (max · adjustedLatency))
    lastNormalizationLatencyMs := some (milliseconds (normalizedAt - receivedAt))
    messageCount := s.messageCount + 1
    lastOpenInterestReceiveTimestamp :=
      if isOpenInterest then some receivedAt else s.lastOpenInterestReceiveTimestamp }

namespace StreamHealthRegistry

/-- `__post_init__`. -/
def new (staleAfterMs maximumCoreLatencyMs clockSkewWarningMs : Int)
    (openInterestStaleAfterMs : Option Int) (channelStaleAfterMs : List (String × Option Int)) :
    Except String StreamHealthRegistry :=
  if staleAfterMs ≤ 0 then .error "stale_after_ms must be positive"
  else if maximumCoreLatencyMs ≤ 0 then .error "maximum_core_latency_ms must be positive"
  else if clockSkewWarningMs ≤ 0 then .error "clock_skew_warning_ms must be positive"
  else if openInterestStaleAfterMs.any (· ≤ 0) then
    .error "open_interest_stale_after_ms must be positive"
  else if channelStaleAfterMs.any fun entry => isBlank entry.1 then
    .error "health channel names cannot be empty"
  else if channelStaleAfterMs.any fun entry => entry.2.any (· ≤ 0) then
    .error "channel stale thresholds must be positive or null"
  else
    .ok
      { staleAfterMs, maximumCoreLatencyMs, clockSkewWarningMs
        openInterestStaleAfterMs := openInterestStaleAfterMs.getD staleAfterMs
        channelStaleAfterMs
        states := ∅ }

/-- The record of a key; a key without one is given the default record. -/
def state (registry : StreamHealthRegistry) (key : StreamKey) : StreamState :=
  (registry.states.lookup key).getD {}

/-- `_state(key)` followed by assignments to the record it returns. -/
def update (registry : StreamHealthRegistry) (key : StreamKey) (f : StreamState → StreamState) :
    StreamHealthRegistry :=
  { registry with states := registry.states.insert key (f (registry.state key)) }

@[simp]
theorem state_update (registry : StreamHealthRegistry) (key key' : StreamKey)
    (f : StreamState → StreamState) :
    (registry.update key f).state key' =
      if key' = key then f (registry.state key) else registry.state key' := by
  unfold update state
  by_cases h : key' = key
  · subst h
    simp
  · simp [h, Finmap.lookup_insert_of_ne _ h]

@[simp]
theorem mem_states_update (registry : StreamHealthRegistry) (key key' : StreamKey)
    (f : StreamState → StreamState) :
    key' ∈ (registry.update key f).states ↔ key' = key ∨ key' ∈ registry.states := by
  simp [update, Finmap.mem_insert]

/-! ## Operations

Each returns the registry it leaves behind and whether it raised. -/

def markConnected (registry : StreamHealthRegistry) (key : StreamKey) (connectedAt : Int) :
    StreamHealthRegistry × Except String Unit :=
  (registry.update key fun s =>
    { s with isConnected := true, connectedAt := some connectedAt, lastError := none }, .ok ())

def markDisconnected (registry : StreamHealthRegistry) (key : StreamKey) (error : Option String) :
    StreamHealthRegistry × Except String Unit :=
  (registry.update key fun s =>
    { s with isConnected := false, resyncing := false, lastError := error }, .ok ())

def recordReconnect (registry : StreamHealthRegistry) (key : StreamKey) (error : Option String) :
    StreamHealthRegistry × Except String Unit :=
  (registry.update key fun s =>
    { s with reconnectCount := s.reconnectCount + 1, lastError := error }, .ok ())

def recordResubscribe (registry : StreamHealthRegistry) (key : StreamKey) :
    StreamHealthRegistry × Except String Unit :=
  (registry.update key fun s => { s with resubscribeCount := s.resubscribeCount + 1 }, .ok ())

def recordMessage (registry : StreamHealthRegistry) (key : StreamKey)
    (exchangeTimestamp receiveTimestamp normalizationTimestamp : Int) (clockSkewMs : Option Rat)
    (isOpenInterest : Bool) : StreamHealthRegistry × Except String Unit :=
  if normalizationTimestamp < receiveTimestamp then
    -- the record has been created by then
    (registry.update key id, .error "normalization timestamp cannot precede receipt")
  else
    (registry.update key fun s =>
      s.observe exchangeTimestamp receiveTimestamp normalizationTimestamp clockSkewMs isOpenInterest,
      .ok ())

def recordDuplicate (registry : StreamHealthRegistry) (key : StreamKey) :
    StreamHealthRegistry × Except String Unit :=
  (registry.update key fun s => { s with duplicateCount := s.duplicateCount + 1 }, .ok ())

def markResyncing (registry : StreamHealthRegistry) (key : StreamKey) (bookGeneration : Int)
    (reason : String) : StreamHealthRegistry × Except String Unit :=
  if bookGeneration < 0 then (registry, .error "book_generation cannot be negative")
  else
    (registry.update key fun s =>
      { s with
        resyncing := true
        bookGeneration := bookGeneration.toNat
        lastError := some reason }, .ok ())

def recordSequenceGap (registry : StreamHealthRegistry) (key : StreamKey) (bookGeneration : Int) :
    StreamHealthRegistry × Except String Unit :=
  (registry.update key fun s =>
    { s with sequenceGapCount := s.sequenceGapCount + 1, sequenceGapDetected := true }).markResyncing
      key bookGeneration "order-book sequence gap"

def recordChecksumFailure (registry : StreamHealthRegistry) (key : StreamKey)
    (bookGeneration : Int) : StreamHealthRegistry × Except String Unit :=
  (registry.update key fun s =>
    { s with checksumFailureCount := s.checksumFailureCount + 1 }).markResyncing
      key bookGeneration "order-book checksum mismatch"

def markBookLive (registry : StreamHealthRegistry) (key : StreamKey) (bookGeneration : Int) :
    StreamHealthRegistry × Except String Unit :=
  if bookGeneration < 0 then (registry, .error "book_generation cannot be negative")
  else
    (registry.update key fun s =>
      { s with
        resyncing := false
        sequenceGapDetected := false
        bookGeneration := bookGeneration.toNat
        lastError := none }, .ok ())

def recordParseError (registry : StreamHealthRegistry) (key : StreamKey) (error : String) :
    StreamHealthRegistry × Except String Unit :=
  (registry.update key fun s =>
    { s with parseErrorCount := s.parseErrorCount + 1, lastError := some error }, .ok ())

def recordDrop (registry : StreamHealthRegistry) (key : StreamKey) (backpressure : Bool) :
    StreamHealthRegistry × Except String Unit :=
  (registry.update key fun s =>
    { s with
      droppedEventCount := s.droppedEventCount + 1
      backpressureCount := if backpressure then s.backpressureCount + 1 else s.backpressureCount
      lastError := some
        (if backpressure then "event dropped by backpressure" else "event dropped") }, .ok ())

def recordRestResult (registry : StreamHealthRegistry) (key : StreamKey) (healthy : Bool)
    (error : Option String) : StreamHealthRegistry × Except String Unit :=
  (registry.update key fun s =>
    { s with
      restHealthy := healthy
      lastError :=
        if !healthy then
          -- `error or "REST health check failed"`
          some ((error.filter (· ≠ "")).getD "REST health check failed")
        else if s.lastError = some "REST health check failed" then none
        else s.lastError }, .ok ())

/-! ## Reports -/

/-- Is the instant older than the threshold. -/
def olderThan (now instant : Int) (thresholdMs : Int) : Bool :=
  thresholdMs < milliseconds (now - instant)

def isOpenInterestChannel (key : StreamKey) : Bool :=
  key.channel = "open_interest" || key.channel = "open-interest"

/-- `stream_stale_threshold`: the channel's own entry, which may be null, before the defaults. -/
def streamStaleThreshold (registry : StreamHealthRegistry) (key : StreamKey) : Option Int :=
  match registry.channelStaleAfterMs.lookup key.channel with
  | some threshold => threshold
  | none =>
    some (if isOpenInterestChannel key then registry.openInterestStaleAfterMs
      else registry.staleAfterMs)

def isStale (registry : StreamHealthRegistry) (key : StreamKey) (s : StreamState) (now : Int) : Bool :=
  s.isConnected &&
    match s.lastReceiveTimestamp.or s.connectedAt, registry.streamStaleThreshold key with
    | some reference, some threshold => olderThan now reference threshold
    | _, _ => false

def openInterestStale (registry : StreamHealthRegistry) (key : StreamKey) (s : StreamState)
    (now : Int) : Bool :=
  isOpenInterestChannel key &&
    match s.lastOpenInterestReceiveTimestamp with
    | none => true
    | some received => olderThan now received registry.openInterestStaleAfterMs

def latencyDegraded (registry : StreamHealthRegistry) (s : StreamState) : Bool :=
  s.lastLatencyMs.any fun latency => (registry.maximumCoreLatencyMs : Rat) < latency

def skewDegraded (registry : StreamHealthRegistry) (s : StreamState) : Bool :=
  s.clockSkewMs.any fun skew => (registry.clockSkewWarningMs : Rat) < |skew|

/-- The status `snapshot` derives: the connection decides before the resync flag does. -/
def status (registry : StreamHealthRegistry) (key : StreamKey) (s : StreamState) (now : Int) :
    HealthStatus :=
  if !s.isConnected then .disconnected
  else if s.resyncing then .resyncing
  else if registry.isStale key s now || registry.openInterestStale key s now then .stale
  else if registry.latencyDegraded s || registry.skewDegraded s || !s.restHealthy then .degraded
  else .connected

/-- The arguments `exchange_health` passes to the `ExchangeHealth` constructor, taken from the
snapshot of the record at `now`. -/
def healthArguments (registry : StreamHealthRegistry) (key : StreamKey) (now normalizedAt : Int)
    (rawPayloadReference : Option String) : ExchangeHealth :=
  let s := registry.state key
  { exchange := key.exchange
    symbol := key.symbol
    exchangeTimestamp := s.lastEventTimestamp.getD now
    localReceiveTimestamp := now
    normalizationTimestamp := normalizedAt
    sequenceId := none
    rawPayloadReference
    channel := key.channel
    status := registry.status key s now
    isConnected := s.isConnected
    lastEventTimestamp := s.lastEventTimestamp
    lastLatencyMs := s.lastLatencyMs
    averageLatencyMs := if s.messageCount = 0 then none else some (s.latencySumMs / s.messageCount)
    maximumLatencyMs := s.maximumLatencyMs
    lastNormalizationLatencyMs := s.lastNormalizationLatencyMs
    clockSkewMs := s.clockSkewMs
    messagesReceived := s.messageCount
    duplicateEvents := s.duplicateCount
    sequenceGaps := s.sequenceGapCount
    checksumFailures := s.checksumFailureCount
    reconnects := s.reconnectCount
    resubscriptions := s.resubscribeCount
    parseErrors := s.parseErrorCount
    droppedEvents := s.droppedEventCount
    backpressureEvents := s.backpressureCount
    sequenceGapDetected := s.sequenceGapDetected
    resyncing := s.resyncing
    bookGeneration := s.bookGeneration
    restHealthy := s.restHealthy
    openInterestStale := registry.openInterestStale key s now
    lastError := s.lastError }

/-- `exchange_health`; `normalizedAt` is the wall clock the constructor reads for the default
normalization timestamp.  Looking a key up registers it. -/
def exchangeHealth (registry : StreamHealthRegistry) (key : StreamKey) (now normalizedAt : Int)
    (rawPayloadReference : Option String) : StreamHealthRegistry × Except String ExchangeHealth :=
  (registry.update key id,
    (registry.healthArguments key now normalizedAt rawPayloadReference).construct)

/-! ## Runs of operations -/

end StreamHealthRegistry

/-- A call on the registry. -/
inductive HealthOperation where
  | markConnected (key : StreamKey) (connectedAt : Int)
  | markDisconnected (key : StreamKey) (error : Option String)
  | recordReconnect (key : StreamKey) (error : Option String)
  | recordResubscribe (key : StreamKey)
  | recordMessage (key : StreamKey)
      (exchangeTimestamp receiveTimestamp normalizationTimestamp : Int)
      (clockSkewMs : Option Rat) (isOpenInterest : Bool)
  | recordDuplicate (key : StreamKey)
  | markResyncing (key : StreamKey) (bookGeneration : Int) (reason : String)
  | recordSequenceGap (key : StreamKey) (bookGeneration : Int)
  | recordChecksumFailure (key : StreamKey) (bookGeneration : Int)
  | markBookLive (key : StreamKey) (bookGeneration : Int)
  | recordParseError (key : StreamKey) (error : String)
  | recordDrop (key : StreamKey) (backpressure : Bool)
  | recordRestResult (key : StreamKey) (healthy : Bool) (error : Option String)
  | exchangeHealth (key : StreamKey) (now normalizedAt : Int) (rawPayloadReference : Option String)

namespace StreamHealthRegistry

/-- The registry a call leaves behind, and whether the call raised. -/
def call (registry : StreamHealthRegistry) :
    HealthOperation → StreamHealthRegistry × Except String Unit
  | .markConnected key connectedAt => registry.markConnected key connectedAt
  | .markDisconnected key error => registry.markDisconnected key error
  | .recordReconnect key error => registry.recordReconnect key error
  | .recordResubscribe key => registry.recordResubscribe key
  | .recordMessage key exchangeAt receivedAt normalizedAt skew isOpenInterest =>
    registry.recordMessage key exchangeAt receivedAt normalizedAt skew isOpenInterest
  | .recordDuplicate key => registry.recordDuplicate key
  | .markResyncing key bookGeneration reason => registry.markResyncing key bookGeneration reason
  | .recordSequenceGap key bookGeneration => registry.recordSequenceGap key bookGeneration
  | .recordChecksumFailure key bookGeneration => registry.recordChecksumFailure key bookGeneration
  | .markBookLive key bookGeneration => registry.markBookLive key bookGeneration
  | .recordParseError key error => registry.recordParseError key error
  | .recordDrop key backpressure => registry.recordDrop key backpressure
  | .recordRestResult key healthy error => registry.recordRestResult key healthy error
  | .exchangeHealth key now normalizedAt rawPayloadReference =>
    let reported := registry.exchangeHealth key now normalizedAt rawPayloadReference
    (reported.1, reported.2.map fun _ => ())

def perform (registry : StreamHealthRegistry) (op : HealthOperation) : StreamHealthRegistry :=
  (registry.call op).1

end StreamHealthRegistry

/-- The channel a call puts into resync: the resync itself, and the two failures that start one. -/
def HealthOperation.startsResync : HealthOperation → Option StreamKey
  | .markResyncing key bookGeneration _ => if 0 ≤ bookGeneration then some key else none
  | .recordSequenceGap key bookGeneration => if 0 ≤ bookGeneration then some key else none
  | .recordChecksumFailure key bookGeneration => if 0 ≤ bookGeneration then some key else none
  | _ => none

namespace StreamHealthRegistry

/-- A call that starts a resync meets a connected channel. -/
def ResyncsConnected (registry : StreamHealthRegistry) (op : HealthOperation) : Prop :=
  ∀ key ∈ op.startsResync, (registry.state key).isConnected = true

instance (registry : StreamHealthRegistry) (op : HealthOperation) :
    Decidable (registry.ResyncsConnected op) :=
  inferInstanceAs (Decidable (∀ key ∈ op.startsResync, (registry.state key).isConnected = true))

/-- Whether each call of a run raised. -/
def outcomes : StreamHealthRegistry → List HealthOperation → List (Except String Unit)
  | _, [] => []
  | registry, op :: ops => (registry.call op).2 :: outcomes (registry.perform op) ops

end StreamHealthRegistry

/-- The flags a report can be built from: a channel resyncs only while it is connected. -/
def StreamState.Consistent (s : StreamState) : Prop := s.resyncing = true → s.isConnected = true

namespace StreamHealthRegistry

/-- A report of a key is built, and is the one the validators admit. -/
def Reports (registry : StreamHealthRegistry) (key : StreamKey) : Prop :=
  ∀ now normalizedAt rawPayloadReference, ∃ health,
    (registry.exchangeHealth key now normalizedAt rawPayloadReference).2 = .ok health ∧
      health.construct = .ok health ∧
      health.exchange = key.exchange ∧ health.symbol = key.symbol ∧ health.channel = key.channel

theorem status_of_disconnected {registry : StreamHealthRegistry} {key : StreamKey} {s : StreamState}
    (h : s.isConnected = false) (now : Int) : registry.status key s now = .disconnected := by
  simp [status, h]

theorem status_of_resyncing {registry : StreamHealthRegistry} {key : StreamKey} {s : StreamState}
    (h : s.isConnected = true) (hresyncing : s.resyncing = true) (now : Int) :
    registry.status key s now = .resyncing := by
  simp [status, h, hresyncing]

theorem status_of_settled {registry : StreamHealthRegistry} {key : StreamKey} {s : StreamState}
    (h : s.isConnected = true) (hresyncing : s.resyncing = false) (now : Int) :
    registry.status key s now ≠ .disconnected ∧ registry.status key s now ≠ .resyncing := by
  simp only [status, h, hresyncing, Bool.not_true, Bool.false_eq_true, ↓reduceIte]
  split_ifs <;> simp

/-- `state_fields_are_consistent` admits a report exactly when its flags agree with its status. -/
theorem validate_eq_ok_iff (health : ExchangeHealth) :
    health.validate = .ok () ↔
      (health.status = .disconnected ↔ health.isConnected = false) ∧
        (health.resyncing = true ↔ health.status = .resyncing) := by
  unfold ExchangeHealth.validate
  cases health.status <;> cases health.isConnected <;> cases health.resyncing <;> simp

theorem validate_healthArguments_iff (registry : StreamHealthRegistry) (key : StreamKey)
    (now normalizedAt : Int) (rawPayloadReference : Option String) :
    (registry.healthArguments key now normalizedAt rawPayloadReference).validate = .ok () ↔
      (registry.state key).Consistent := by
  rw [validate_eq_ok_iff]
  show (registry.status key (registry.state key) now = .disconnected ↔
      (registry.state key).isConnected = false) ∧
    ((registry.state key).resyncing = true ↔
      registry.status key (registry.state key) now = .resyncing) ↔ _
  unfold StreamState.Consistent
  cases hconnected : (registry.state key).isConnected with
  | false =>
      rw [status_of_disconnected hconnected]
      simp
  | true =>
      cases hresyncing : (registry.state key).resyncing with
      | true =>
          rw [status_of_resyncing hconnected hresyncing]
          simp
      | false =>
          have hsettled := @status_of_settled registry key (registry.state key) hconnected
            hresyncing now
          simp [hsettled]

/-- The constructor changes nothing about the arguments taken from a validated key. -/
theorem construct_healthArguments (registry : StreamHealthRegistry) (key : StreamKey)
    (now normalizedAt : Int) (rawPayloadReference : Option String) :
    (registry.healthArguments key now normalizedAt rawPayloadReference).construct =
      (registry.healthArguments key now normalizedAt rawPayloadReference).validate.map
        fun _ => registry.healthArguments key now normalizedAt rawPayloadReference := by
  have hsymbol : (registry.healthArguments key now normalizedAt rawPayloadReference).symbol =
      key.symbol := rfl
  have hchannel : (registry.healthArguments key now normalizedAt rawPayloadReference).channel =
      key.channel := rfl
  unfold ExchangeHealth.construct
  rw [hsymbol, key.symbol_canonical, hchannel, key.channel_not_blank]
  cases (registry.healthArguments key now normalizedAt rawPayloadReference).validate with
  | error e => rfl
  | ok _ => rfl

/-- Reporting a key works exactly on consistent flags. -/
theorem reports_iff {registry : StreamHealthRegistry} {key : StreamKey} :
    registry.Reports key ↔ (registry.state key).Consistent := by
  have hconstruct := construct_healthArguments registry key
  constructor
  · intro hreports
    obtain ⟨health, hok, -⟩ := hreports 0 0 none
    rw [exchangeHealth, hconstruct] at hok
    apply (validate_healthArguments_iff registry key 0 0 none).mp
    cases hvalidate : (registry.healthArguments key 0 0 none).validate with
    | error e =>
        rw [hvalidate] at hok
        cases hok
    | ok _ => rfl
  · intro hconsistent now normalizedAt rawPayloadReference
    have hok := hconstruct now normalizedAt rawPayloadReference
    rw [(validate_healthArguments_iff registry key now normalizedAt rawPayloadReference).mpr
      hconsistent] at hok
    exact ⟨_, hok, hok, rfl, rfl, rfl⟩

/-! ## Every operation keeps the flags consistent -/

theorem consistent_update {registry : StreamHealthRegistry} {key : StreamKey}
    {f : StreamState → StreamState} (h : ∀ k, (registry.state k).Consistent)
    (hf : (registry.state key).Consistent → (f (registry.state key)).Consistent) (k : StreamKey) :
    ((registry.update key f).state k).Consistent := by
  rw [state_update]
  split_ifs
  · exact hf (h key)
  · exact h k

theorem consistent_markResyncing {registry : StreamHealthRegistry} {key : StreamKey}
    {bookGeneration : Int} {reason : String} (h : ∀ k, (registry.state k).Consistent)
    (hconnected : 0 ≤ bookGeneration → (registry.state key).isConnected = true) (k : StreamKey) :
    ((registry.markResyncing key bookGeneration reason).1.state k).Consistent := by
  unfold markResyncing
  split_ifs with hneg
  · exact h k
  · apply consistent_update h
    intro _ _
    exact hconnected (not_lt.mp hneg)

/-- The step lemma: a call that starts no resync on an unconnected channel keeps every channel's
flags consistent. -/
theorem consistent_perform {registry : StreamHealthRegistry} {op : HealthOperation}
    (h : ∀ k, (registry.state k).Consistent) (hop : registry.ResyncsConnected op) (k : StreamKey) :
    ((registry.perform op).state k).Consistent := by
  unfold ResyncsConnected at hop
  cases op with
  | markConnected key connectedAt => exact consistent_update h (fun _ _ => rfl) k
  | markDisconnected key error =>
      apply consistent_update h
      intro _ hresyncing
      cases hresyncing
  | recordReconnect key error => exact consistent_update h id k
  | recordResubscribe key => exact consistent_update h id k
  | recordMessage key exchangeAt receivedAt normalizedAt skew isOpenInterest =>
      unfold perform call recordMessage
      dsimp only
      split_ifs
      · exact consistent_update h id k
      · exact consistent_update h id k
  | recordDuplicate key => exact consistent_update h id k
  | markResyncing key bookGeneration reason =>
      apply consistent_markResyncing h
      intro hgeneration
      exact hop key (by simp [HealthOperation.startsResync, hgeneration])
  | recordSequenceGap key bookGeneration =>
      -- the counters are written before the generation is checked
      apply consistent_markResyncing (consistent_update h id)
      intro hgeneration
      rw [state_update, if_pos rfl]
      exact hop key (by simp [HealthOperation.startsResync, hgeneration])
  | recordChecksumFailure key bookGeneration =>
      apply consistent_markResyncing (consistent_update h id)
      intro hgeneration
      rw [state_update, if_pos rfl]
      exact hop key (by simp [HealthOperation.startsResync, hgeneration])
  | markBookLive key bookGeneration =>
      unfold perform call markBookLive
      dsimp only
      split_ifs
      · exact h k
      · apply consistent_update h
        intro _ hresyncing
        cases hresyncing
  | recordParseError key error => exact consistent_update h id k
  | recordDrop key backpressure => exact consistent_update h id k
  | recordRestResult key healthy error => exact consistent_update h id k
  | exchangeHealth key now normalizedAt rawPayloadReference => exact consistent_update h id k

/-- A resync started on an unconnected channel leaves it registered and unreportable. -/
theorem not_reports_of_startsResync {registry : StreamHealthRegistry} {op : HealthOperation}
    {key : StreamKey} (hop : op.startsResync = some key)
    (hconnected : (registry.state key).isConnected = false) :
    key ∈ (registry.perform op).states ∧ ¬ (registry.perform op).Reports key := by
  rw [reports_iff]
  unfold StreamState.Consistent
  cases op with
  | markResyncing key' bookGeneration reason =>
      simp only [HealthOperation.startsResync, Option.ite_none_right_eq_some,
        Option.some.injEq] at hop
      obtain ⟨hgeneration, rfl⟩ := hop
      simp [perform, call, markResyncing, not_lt.mpr hgeneration, hconnected]
  | recordSequenceGap key' bookGeneration =>
      simp only [HealthOperation.startsResync, Option.ite_none_right_eq_some,
        Option.some.injEq] at hop
      obtain ⟨hgeneration, rfl⟩ := hop
      simp [perform, call, recordSequenceGap, markResyncing, not_lt.mpr hgeneration, hconnected]
  | recordChecksumFailure key' bookGeneration =>
      simp only [HealthOperation.startsResync, Option.ite_none_right_eq_some,
        Option.some.injEq] at hop
      obtain ⟨hgeneration, rfl⟩ := hop
      simp [perform, call, recordChecksumFailure, markResyncing, not_lt.mpr hgeneration, hconnected]
  | _ => cases hop

theorem state_new {staleAfterMs maximumCoreLatencyMs clockSkewWarningMs : Int}
    {openInterestStaleAfterMs : Option Int} {channelStaleAfterMs : List (String × Option Int)}
    {registry : StreamHealthRegistry}
    (hnew : new staleAfterMs maximumCoreLatencyMs clockSkewWarningMs openInterestStaleAfterMs
      channelStaleAfterMs = .ok registry) (key : StreamKey) : registry.state key = {} := by
  unfold new at hnew
  split_ifs at hnew
  obtain rfl := Except.ok.inj hnew
  simp [state]

/-- Along a run of calls on a new registry, every registered channel can be reported in every state
reached if and only if every call that starts a resync meets a connected channel. -/
theorem health_reporting_never_fails_iff
    {staleAfterMs maximumCoreLatencyMs clockSkewWarningMs : Int}
    {openInterestStaleAfterMs : Option Int} {channelStaleAfterMs : List (String × Option Int)}
    {registry : StreamHealthRegistry}
    (hnew : new staleAfterMs maximumCoreLatencyMs clockSkewWarningMs openInterestStaleAfterMs
      channelStaleAfterMs = .ok registry) (ops : List HealthOperation) :
    (∀ done, done <+: ops → ∀ key ∈ (done.foldl perform registry).states,
        (done.foldl perform registry).Reports key) ↔
      Admitted perform ResyncsConnected registry ops := by
  constructor
  · intro hreports
    clear hnew
    induction ops generalizing registry with
    | nil => trivial
    | cons op ops ih =>
        refine ⟨?_, ih fun done hdone =>
          hreports (op :: done) (List.cons_prefix_cons.mpr ⟨rfl, hdone⟩)⟩
        intro key hkey
        by_contra hconnected
        obtain ⟨hmem, hnot⟩ := not_reports_of_startsResync hkey (by simpa using hconnected)
        exact hnot (hreports [op] (by simp) key hmem)
  · intro hadmitted done hdone key _
    obtain ⟨rest, rfl⟩ := hdone
    have hfresh : ∀ k, (registry.state k).Consistent := by
      intro k hresyncing
      rw [state_new hnew] at hresyncing
      cases hresyncing
    have hconsistent := @invariant_of_admitted _ _ perform ResyncsConnected
      (fun r => ∀ k, (r.state k).Consistent) (fun _ _ => consistent_perform) registry hfresh done
      (admitted_append.mp hadmitted).1
    exact reports_iff.mpr (hconsistent key)

/-! ## The snapshot task that outlives its connection -/

theorem depthChannel_not_blank : isBlank "depth@100ms" = false := by
  decide +kernel

def exampleKey : StreamKey :=
  { exchange := .binance, symbol := "BTC-USDT-PERP", channel := "depth@100ms"
    symbol_canonical := validateCanonicalSymbol_bitcoin
    channel_not_blank := depthChannel_not_blank }

def exampleRegistry : StreamHealthRegistry :=
  { staleAfterMs := 5000, maximumCoreLatencyMs := 500, clockSkewWarningMs := 250
    openInterestStaleAfterMs := 5000, channelStaleAfterMs := [], states := ∅ }

/-- The socket closes while a depth snapshot is in flight; the snapshot then asks for a retry. -/
def lateSnapshotRun : List HealthOperation :=
  [.markConnected exampleKey 0, .markDisconnected exampleKey (some "ConnectionClosedError"),
    .markResyncing exampleKey 2 "Binance depth snapshot retry required"]

/-- No call raises, and the status loop's report of the channel does. -/
theorem late_snapshot_breaks_report :
    new 5000 500 250 none [] = .ok exampleRegistry ∧
      exampleRegistry.outcomes lateSnapshotRun = [.ok (), .ok (), .ok ()] ∧
      exampleKey ∈ (lateSnapshotRun.foldl perform exampleRegistry).states ∧
      ((lateSnapshotRun.foldl perform exampleRegistry).exchangeHealth exampleKey 3000000 3000000
        none).2 = .error "resyncing must be true exactly when status is RESYNCING" := by
  refine ⟨rfl, ?_, ?_, ?_⟩
  · decide +kernel
  · decide +kernel
  · decide +kernel

/-- A session that resyncs after a gap, goes live and closes. -/
def sessionRun : List HealthOperation :=
  [.markConnected exampleKey 0, .recordMessage exampleKey 1000 2000 2500 (some 1) false,
    .recordSequenceGap exampleKey 1, .markBookLive exampleKey 1, .recordRestResult exampleKey true none,
    .markDisconnected exampleKey none]

theorem health_reporting_never_fails_session :
    new 5000 500 250 none [] = .ok exampleRegistry ∧
      ∀ done, done <+: sessionRun → ∀ key ∈ (done.foldl perform exampleRegistry).states,
        (done.foldl perform exampleRegistry).Reports key := by
  refine ⟨rfl, ?_⟩
  apply (@health_reporting_never_fails_iff 5000 500 250 none [] exampleRegistry rfl sessionRun).mpr
  decide +kernel

end StreamHealthRegistry

end Cvf
