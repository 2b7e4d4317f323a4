/-
# Cvf.Storage.FeatureRows — feature snapshots as rows of the feature tree.

The writer's envelope carries a snapshot's canonical JSON and the digest of it; a row repeats some thirty
columns of the snapshot beside the payload.  Reading a row decodes the payload and checks every column
against it, the codes and hashes, and the directory the file lies in.

What the models accept and print, and SHA-256, are the parameter `FeatureCodec`; integer columns are
written only when the values fit.
-/
import Cvf.Features.FeatureModels
import Cvf.Library.Parsed
import Cvf.Library.SortByKey
import Cvf.Storage.Tree

namespace Cvf

open Cvf.Library

/-! ## Persistable snapshots -/

/-- `PersistableFeatureSnapshot` -/
inductive PersistableFeatureSnapshot (F : Type) where
  | singleVenue (snapshot : FeatureSnapshot F)
  | crossVenue (snapshot : CrossVenueFeatureSnapshot F)
  deriving DecidableEq

def FeatureUnavailableCode.value : FeatureUnavailableCode → String
  | .notWarm => "NOT_WARM"
  | .noTrades => "NO_TRADES"
  | .bookUnsynchronized => "BOOK_UNSYNCHRONIZED"
  | .bookGenerationWarmup => "BOOK_GENERATION_WARMUP"
  | .openInterestMissing => "OPEN_INTEREST_MISSING"
  | .openInterestStale => "OPEN_INTEREST_STALE"
  | .healthBlocked => "HEALTH_BLOCKED"
  | .pipelineBacklog => "PIPELINE_BACKLOG"
  | .eventGap => "EVENT_GAP"
  | .timeAlignment => "TIME_ALIGNMENT"
  | .missingBinanceSnapshot => "MISSING_BINANCE_SNAPSHOT"
  | .missingOkxSnapshot => "MISSING_OKX_SNAPSHOT"
  | .futureBinanceSnapshot => "FUTURE_BINANCE_SNAPSHOT"
  | .futureOkxSnapshot => "FUTURE_OKX_SNAPSHOT"
  | .staleBinanceSnapshot => "STALE_BINANCE_SNAPSHOT"
  | .staleOkxSnapshot => "STALE_OKX_SNAPSHOT"
  | .binanceUnhealthy => "BINANCE_UNHEALTHY"
  | .okxUnhealthy => "OKX_UNHEALTHY"
  | .binanceNotWarm => "BINANCE_NOT_WARM"
  | .okxNotWarm => "OKX_NOT_WARM"
  | .featureInputMissing => "FEATURE_INPUT_MISSING"
  | .zeroDenominator => "ZERO_DENOMINATOR"
  | .insufficientHistory => "INSUFFICIENT_HISTORY"
  | .leadLagInsufficient => "LEAD_LAG_INSUFFICIENT"

namespace PersistableFeatureSnapshot

variable {F : Type}

def exchange : PersistableFeatureSnapshot F → Exchange
  | .singleVenue s => s.exchange
  | .crossVenue _ => .crossVenue

def symbol : PersistableFeatureSnapshot F → String
  | .singleVenue s => s.symbol
  | .crossVenue s => s.symbol

def featureSnapshotId : PersistableFeatureSnapshot F → Uuid
  | .singleVenue s => s.featureSnapshotId
  | .crossVenue s => s.featureSnapshotId

def schemaVersion : PersistableFeatureSnapshot F → Nat
  | .singleVenue s => s.schemaVersion
  | .crossVenue s => s.schemaVersion

def windowSeconds : PersistableFeatureSnapshot F → Int
  | .singleVenue s => s.windowSeconds
  | .crossVenue s => s.windowSeconds

def decisionTimestamp : PersistableFeatureSnapshot F → Int
  | .singleVenue s => s.decisionTimestamp
  | .crossVenue s => s.decisionTimestamp

def calculationTimestamp : PersistableFeatureSnapshot F → Int
  | .singleVenue s => s.calculationTimestamp
  | .crossVenue s => s.calculationTimestamp

def exchangeTimestamp : PersistableFeatureSnapshot F → Int
  | .singleVenue s => s.exchangeTimestamp
  | .crossVenue s => s.exchangeTimestamp

def localReceiveTimestamp : PersistableFeatureSnapshot F → Int
  | .singleVenue s => s.localReceiveTimestamp
  | .crossVenue s => s.localReceiveTimestamp

def normalizationTimestamp : PersistableFeatureSnapshot F → Int
  | .singleVenue s => s.normalizationTimestamp
  | .crossVenue s => s.normalizationTimestamp

def strategyVersion : PersistableFeatureSnapshot F → String
  | .singleVenue s => s.strategyVersion
  | .crossVenue s => s.strategyVersion

def sequenceId : PersistableFeatureSnapshot F → Option SequenceId
  | .singleVenue s => s.sequenceId
  | .crossVenue s => s.sequenceId

def rawPayloadReference : PersistableFeatureSnapshot F → Option String
  | .singleVenue s => s.rawPayloadReference
  | .crossVenue s => s.rawPayloadReference

/-- `_source_snapshot_ids` -/
def sourceSnapshotIds : PersistableFeatureSnapshot F → List String
  | .singleVenue _ => []
  | .crossVenue s => s.sourceSnapshotIds.map Uuid.str

/-- Only a snapshot of one venue has a source sequence id. -/
def sourceSequenceId : PersistableFeatureSnapshot F → Option String
  | .singleVenue s => s.sourceSequenceId.map SequenceId.str
  | .crossVenue _ => none

def sourceEventCount : PersistableFeatureSnapshot F → Nat
  | .singleVenue s => s.sourceEventCount
  | .crossVenue s => s.sourceEventCount

def oldestSourceTimestamp : PersistableFeatureSnapshot F → Option Int
  | .singleVenue s => s.oldestSourceTimestamp
  | .crossVenue s => s.oldestSourceTimestamp

def newestSourceTimestamp : PersistableFeatureSnapshot F → Option Int
  | .singleVenue s => s.newestSourceTimestamp
  | .crossVenue s => s.newestSourceTimestamp

def dataAgeMs : PersistableFeatureSnapshot F → Option F
  | .singleVenue s => s.dataAgeMs
  | .crossVenue s => s.dataAgeMs

def isWarm : PersistableFeatureSnapshot F → Bool
  | .singleVenue s => s.isWarm
  | .crossVenue s => s.isWarm

def isHealthy : PersistableFeatureSnapshot F → Bool
  | .singleVenue s => s.isHealthy
  | .crossVenue s => s.isHealthy

def unavailableReasons : PersistableFeatureSnapshot F → List FeatureUnavailableReason
  | .singleVenue s => s.unavailableReasons
  | .crossVenue s => s.unavailableReasons

/-- `_reason_codes` -/
def reasonCodes (snapshot : PersistableFeatureSnapshot F) : List String :=
  snapshot.unavailableReasons.map (·.code.value)

def bookGeneration : PersistableFeatureSnapshot F → Option Nat
  | .singleVenue s => some s.bookGeneration
  | .crossVenue _ => none

def binanceBookGeneration : PersistableFeatureSnapshot F → Option Nat
  | .singleVenue _ => none
  | .crossVenue s => s.binanceBookGeneration

def okxBookGeneration : PersistableFeatureSnapshot F → Option Nat
  | .singleVenue _ => none
  | .crossVenue s => s.okxBookGeneration

end PersistableFeatureSnapshot

/-! ## Partitions -/

structure FeaturePartition where
  date : String
  symbol : String
  scope : String
  deriving DecidableEq, Repr

/-- `_partition` -/
def featurePartition {F : Type} (snapshot : PersistableFeatureSnapshot F) : FeaturePartition :=
  { date := isoDate snapshot.decisionTimestamp
    symbol := snapshot.symbol
    scope := snapshot.exchange.value }

/-- `_partition_directory`, relative to the schema root. -/
def featurePartitionDirectory (partition : FeaturePartition) : List String :=
  ["date=" ++ quote partition.date, "symbol=" ++ quote partition.symbol,
    "scope=" ++ quote partition.scope]

/-- A file of the tree, below the schema root. -/
structure FeaturePath where
  parent : List String
  name : String
  deriving DecidableEq, Repr

def FeaturePath.text (path : FeaturePath) : String := "/".intercalate (path.parent ++ [path.name])

/-! ## Envelopes -/

/-- What the snapshot models and SHA-256 compute.  `accepted` says that a snapshot is an instance of its
model; such a one reads back from its canonical JSON, which names its exchange. -/
structure FeatureCodec (F : Type) where
  /-- `model_payload_json` -/
  modelPayloadJson : PersistableFeatureSnapshot F → String
  /-- `FeatureSnapshot.model_validate_json` -/
  validateSingleVenue : String → Except String (FeatureSnapshot F)
  /-- `CrossVenueFeatureSnapshot.model_validate_json` -/
  validateCrossVenue : String → Except String (CrossVenueFeatureSnapshot F)
  sha256Text : String → String
  accepted : PersistableFeatureSnapshot F → Prop
  validateSingleVenue_payload : ∀ s, accepted (.singleVenue s) →
    validateSingleVenue (modelPayloadJson (.singleVenue s)) = .ok s
  validateCrossVenue_payload : ∀ s, accepted (.crossVenue s) →
    validateCrossVenue (modelPayloadJson (.crossVenue s)) = .ok s
  accepted_singleVenue : ∀ text s, validateSingleVenue text = .ok s → accepted (.singleVenue s)
  accepted_crossVenue : ∀ text s, validateCrossVenue text = .ok s → accepted (.crossVenue s)
  payload_exchange : ∀ s t, accepted s → accepted t → modelPayloadJson s = modelPayloadJson t →
    s.exchange = t.exchange

/-- `len(text) == 64` and every character one of `0123456789abcdef`. -/
def isSha256Text (text : String) : Bool :=
  text.toList.length = 64 && text.toList.all fun c => "0123456789abcdef".toList.contains c

/-- The versions a writer stamps on its rows: `__version__`, which is not empty, the fingerprint of the
settings, which is a digest, and the strategy version of the settings. -/
structure WriterVersions where
  codeVersion : String
  configHash : String
  strategyVersion : String
  codeVersion_ne : codeVersion ≠ ""
  configHash_sha256 : isSha256Text configHash = true

/-- `_FeatureEnvelope` -/
structure FeatureEnvelope (F : Type) where
  snapshot : PersistableFeatureSnapshot F
  codeVersion : String
  configHash : String
  payloadJson : String
  payloadSha256 : String
  deriving DecidableEq

/-- `content_identity` -/
def FeatureEnvelope.contentIdentity {F : Type} (envelope : FeatureEnvelope F) :
    String × String × String :=
  (envelope.payloadSha256, envelope.codeVersion, envelope.configHash)

section

variable {F : Type} (codec : FeatureCodec F) (versions : WriterVersions)

/-- The check of `_envelope` on the scope and the versions of a snapshot. -/
def envelopeRefusal : PersistableFeatureSnapshot F → Option String
  | .crossVenue s =>
    if s.codeVersion ≠ versions.codeVersion then
      some "cross-venue code version differs from the writer"
    else if s.configHash ≠ versions.configHash then
      some "cross-venue config hash differs from the writer"
    else none
  | .singleVenue s =>
    if s.exchange = .binance ∨ s.exchange = .okx then none
    else some "single-venue feature scope must be Binance or OKX"

/-- `_envelope`.  The event type is the constructor, and the exchange of a paired snapshot its type. -/
def envelope (snapshot : PersistableFeatureSnapshot F) : Except String (FeatureEnvelope F) :=
  match envelopeRefusal versions snapshot with
  | some text => .error text
  | none =>
    if snapshot.strategyVersion ≠ versions.strategyVersion then
      .error "snapshot strategy version differs from the writer"
    else
      .ok
        { snapshot
          codeVersion := versions.codeVersion
          configHash := versions.configHash
          payloadJson := codec.modelPayloadJson snapshot
          payloadSha256 := codec.sha256Text (codec.modelPayloadJson snapshot) }

end

/-! ## Rows -/

/-- One row under `FEATURE_PARQUET_SCHEMA`. -/
structure FeatureRow (F : Type) where
  featureSchemaVersion : Int
  featureSnapshotId : String
  scope : String
  symbol : String
  windowSeconds : Int
  decisionTimestamp : Int
  calculationTimestamp : Int
  exchangeTimestamp : Int
  localReceiveTimestamp : Int
  normalizationTimestamp : Int
  strategyVersion : String
  codeVersion : String
  configHash : String
  sequenceId : Option String
  rawPayloadReference : Option String
  sourceSnapshotIds : List String
  sourceSequenceId : Option String
  sourceEventCount : Int
  oldestSourceTimestamp : Option Int
  newestSourceTimestamp : Option Int
  dataAgeMs : Option F
  isWarm : Bool
  isHealthy : Bool
  unavailableReasonCodes : List String
  bookGeneration : Option Int
  binanceBookGeneration : Option Int
  okxBookGeneration : Option Int
  payloadSha256 : String
  payloadJson : String
  deriving DecidableEq

section Rows

variable {F : Type}

/-- `_row` -/
def featureRow (envelope : FeatureEnvelope F) : FeatureRow F :=
  let snapshot := envelope.snapshot
  { featureSchemaVersion := 1
    featureSnapshotId := snapshot.featureSnapshotId.str
    scope := snapshot.exchange.value
    symbol := snapshot.symbol
    windowSeconds := snapshot.windowSeconds
    decisionTimestamp := snapshot.decisionTimestamp
    calculationTimestamp := snapshot.calculationTimestamp
    exchangeTimestamp := snapshot.exchangeTimestamp
    localReceiveTimestamp := snapshot.localReceiveTimestamp
    normalizationTimestamp := snapshot.normalizationTimestamp
    strategyVersion := snapshot.strategyVersion
    codeVersion := envelope.codeVersion
    configHash := envelope.configHash
    sequenceId := snapshot.sequenceId.map SequenceId.str
    rawPayloadReference := snapshot.rawPayloadReference
    sourceSnapshotIds := snapshot.sourceSnapshotIds
    sourceSequenceId := snapshot.sourceSequenceId
    sourceEventCount := snapshot.sourceEventCount
    oldestSourceTimestamp := snapshot.oldestSourceTimestamp
    newestSourceTimestamp := snapshot.newestSourceTimestamp
    dataAgeMs := snapshot.dataAgeMs
    isWarm := snapshot.isWarm
    isHealthy := snapshot.isHealthy
    unavailableReasonCodes := snapshot.reasonCodes
    bookGeneration := snapshot.bookGeneration.map Nat.cast
    binanceBookGeneration := snapshot.binanceBookGeneration.map Nat.cast
    okxBookGeneration := snapshot.okxBookGeneration.map Nat.cast
    payloadSha256 := envelope.payloadSha256
    payloadJson := envelope.payloadJson }

/-- The value is one of a signed integer column of so many bits. -/
def fitsBits (bits : Nat) (value : Int) : Bool := -2 ^ (bits - 1) ≤ value && value < 2 ^ (bits - 1)

/-- The values the integer columns hold: `int16`, `int32` and `int64`. -/
def FeatureRow.fitsSchema (row : FeatureRow F) : Bool :=
  fitsBits 16 row.featureSchemaVersion && fitsBits 32 row.windowSeconds &&
    fitsBits 64 row.sourceEventCount && row.bookGeneration.all (fitsBits 64) &&
      row.binanceBookGeneration.all (fitsBits 64) && row.okxBookGeneration.all (fitsBits 64)

/-- `pa.Table.from_pylist(rows, schema=FEATURE_PARQUET_SCHEMA)`. -/
def featureTableFromRows (rows : List (FeatureRow F)) : Except String (List (FeatureRow F)) :=
  if rows.all FeatureRow.fitsSchema then .ok rows
  else .error "Value too large to fit in C integer type"

/-! ## Reading a row -/

/-- `PersistedFeatureRecord` -/
structure PersistedFeatureRecord (F : Type) where
  snapshot : PersistableFeatureSnapshot F
  codeVersion : String
  configHash : String
  payloadSha256 : String
  sourceFile : FeaturePath
  deriving DecidableEq

/-- `_model_from_payload` -/
def modelFromPayload (codec : FeatureCodec F) (payloadJson : String) (scope : Exchange) :
    Except String (PersistableFeatureSnapshot F) :=
  match scope with
  | .crossVenue => (codec.validateCrossVenue payloadJson).map .crossVenue
  | .binance => (codec.validateSingleVenue payloadJson).map .singleVenue
  | .okx => (codec.validateSingleVenue payloadJson).map .singleVenue
  | .simulated => .error ("unsupported persisted feature scope: " ++ scope.value)

/-- The lineage a paired snapshot carries itself, against the columns. -/
def crossVenueLineage (path : FeaturePath) (codeVersion configHash : String) :
    PersistableFeatureSnapshot F → Except String Unit
  | .singleVenue _ => .ok ()
  | .crossVenue s =>
    if s.codeVersion ≠ codeVersion then
      .error ("cross-venue code-version lineage mismatch: " ++ path.text)
    else if s.configHash ≠ configHash then
      .error ("cross-venue config lineage mismatch: " ++ path.text)
    else .ok ()

/-- `checks` -/
def rowChecks [DecidableEq F] (row : FeatureRow F) (scope : Exchange)
    (snapshot : PersistableFeatureSnapshot F) : List Bool :=
  [row.featureSnapshotId = snapshot.featureSnapshotId.str,
    scope = snapshot.exchange,
    row.symbol = snapshot.symbol,
    row.windowSeconds = snapshot.windowSeconds,
    row.decisionTimestamp = snapshot.decisionTimestamp,
    row.calculationTimestamp = snapshot.calculationTimestamp,
    row.exchangeTimestamp = snapshot.exchangeTimestamp,
    row.localReceiveTimestamp = snapshot.localReceiveTimestamp,
    row.normalizationTimestamp = snapshot.normalizationTimestamp,
    row.strategyVersion = snapshot.strategyVersion,
    row.sequenceId = snapshot.sequenceId.map SequenceId.str,
    row.rawPayloadReference = snapshot.rawPayloadReference,
    row.sourceSnapshotIds = snapshot.sourceSnapshotIds,
    row.sourceSequenceId = snapshot.sourceSequenceId,
    row.sourceEventCount = snapshot.sourceEventCount,
    row.oldestSourceTimestamp = snapshot.oldestSourceTimestamp,
    row.newestSourceTimestamp = snapshot.newestSourceTimestamp,
    row.dataAgeMs = snapshot.dataAgeMs,
    row.isWarm = snapshot.isWarm,
    row.isHealthy = snapshot.isHealthy,
    row.unavailableReasonCodes = snapshot.reasonCodes,
    row.bookGeneration = snapshot.bookGeneration.map Nat.cast,
    row.binanceBookGeneration = snapshot.binanceBookGeneration.map Nat.cast,
    row.okxBookGeneration = snapshot.okxBookGeneration.map Nat.cast]

/-- `if not condition: raise ValueError(text)`. -/
def require (condition : Prop) [Decidable condition] (text : String) : Except String Unit :=
  if condition then .ok () else .error text

theorem require_eq_ok_iff {condition : Prop} [Decidable condition] {text : String} {u : Unit} :
    require condition text = .ok u ↔ condition := by
  unfold require
  split_ifs with h
  · exact iff_of_true rfl h
  · exact iff_of_false (fun heq => by cases heq) h

/-- `_record_from_row` -/
def featureRecordFromRow [DecidableEq F] (codec : FeatureCodec F) (row : FeatureRow F)
    (path : FeaturePath) : Except String (PersistedFeatureRecord F) := do
  require (row.featureSchemaVersion = 1) ("unsupported feature schema version in " ++ path.text)
  require (codec.sha256Text row.payloadJson = row.payloadSha256)
    ("feature payload digest mismatch: " ++ path.text)
  let scope ← Exchange.ofValue row.scope
  let snapshot ← modelFromPayload codec row.payloadJson scope
  require (codec.modelPayloadJson snapshot = row.payloadJson)
    ("feature payload is not canonical: " ++ path.text)
  require (row.codeVersion ≠ "") ("empty feature code version: " ++ path.text)
  require (isSha256Text row.configHash = true) ("invalid feature config hash: " ++ path.text)
  crossVenueLineage path row.codeVersion row.configHash snapshot
  require (path.parent = featurePartitionDirectory (featurePartition snapshot))
    ("feature row/partition mismatch: " ++ path.text)
  require ((rowChecks row scope snapshot).all id = true)
    ("feature metadata/payload lineage mismatch: " ++ path.text)
  return { snapshot
           codeVersion := row.codeVersion
           configHash := row.configHash
           payloadSha256 := row.payloadSha256
           sourceFile := path }

/-- The record an envelope's row reads back as. -/
def FeatureEnvelope.record (envelope : FeatureEnvelope F) (path : FeaturePath) :
    PersistedFeatureRecord F :=
  { snapshot := envelope.snapshot
    codeVersion := envelope.codeVersion
    configHash := envelope.configHash
    payloadSha256 := envelope.payloadSha256
    sourceFile := path }

end Rows

/-! ## The round trip of a row -/

section RoundTrip

variable {F : Type} {codec : FeatureCodec F} {versions : WriterVersions}
  {snapshot : PersistableFeatureSnapshot F} {e : FeatureEnvelope F}

/-- What an accepted envelope says about the snapshot and the writer. -/
theorem envelope_spec (h : envelope codec versions snapshot = .ok e) :
    envelopeRefusal versions snapshot = none ∧
      e.snapshot = snapshot ∧ e.codeVersion = versions.codeVersion ∧
      e.configHash = versions.configHash ∧ e.payloadJson = codec.modelPayloadJson snapshot ∧
      e.payloadSha256 = codec.sha256Text (codec.modelPayloadJson snapshot) := by
  unfold envelope at h
  cases hrefusal : envelopeRefusal versions snapshot with
  | some text =>
    rw [hrefusal] at h
    cases h
  | none =>
    rw [hrefusal] at h
    dsimp only at h
    split_ifs at h
    cases h
    exact ⟨rfl, rfl, rfl, rfl, rfl, rfl⟩

/-- The scope column names the model that reads the payload back. -/
theorem modelFromPayload_payload (haccepted : codec.accepted snapshot)
    (hrefusal : envelopeRefusal versions snapshot = none) :
    modelFromPayload codec (codec.modelPayloadJson snapshot) snapshot.exchange = .ok snapshot := by
  cases snapshot with
  | crossVenue s =>
    show (codec.validateCrossVenue _).map _ = _
    rw [codec.validateCrossVenue_payload s haccepted]
    rfl
  | singleVenue s =>
    unfold envelopeRefusal at hrefusal
    dsimp only at hrefusal
    split_ifs at hrefusal with hvenue
    show modelFromPayload codec _ s.exchange = _
    rcases hvenue with hvenue | hvenue
    · rw [hvenue]
      show (codec.validateSingleVenue _).map _ = _
      rw [codec.validateSingleVenue_payload s haccepted]
      rfl
    · rw [hvenue]
      show (codec.validateSingleVenue _).map _ = _
      rw [codec.validateSingleVenue_payload s haccepted]
      rfl

/-- The versions inside a paired snapshot are the writer's. -/
theorem crossVenueLineage_ok (hrefusal : envelopeRefusal versions snapshot = none)
    (path : FeaturePath) :
    crossVenueLineage path versions.codeVersion versions.configHash snapshot = .ok () := by
  cases snapshot with
  | singleVenue s => rfl
  | crossVenue s =>
    unfold envelopeRefusal at hrefusal
    unfold crossVenueLineage
    dsimp only at hrefusal ⊢
    split_ifs at hrefusal with hcode hconfig
    rw [if_neg hcode, if_neg hconfig]

theorem rowChecks_featureRow [DecidableEq F] (e : FeatureEnvelope F) :
    (rowChecks (featureRow e) e.snapshot.exchange e.snapshot).all id = true := by
  simp [rowChecks, featureRow]

/-- A row reads back as the record of its envelope, in the directory of its partition. -/
theorem featureRecordFromRow_featureRow [DecidableEq F] (haccepted : codec.accepted snapshot)
    (h : envelope codec versions snapshot = .ok e) {path : FeaturePath}
    (hpath : path.parent = featurePartitionDirectory (featurePartition snapshot)) :
    featureRecordFromRow codec (featureRow e) path = .ok (e.record path) := by
  obtain ⟨hrefusal, hsnapshot, hcode, hconfig, hjson, hsha⟩ := envelope_spec h
  have hchecks := rowChecks_featureRow e
  rw [hsnapshot] at hchecks
  have hscope : Exchange.ofValue (featureRow e).scope = .ok snapshot.exchange := by
    rw [← hsnapshot]
    exact Exchange.ofValue_value e.snapshot.exchange
  have hmodel : modelFromPayload codec (featureRow e).payloadJson snapshot.exchange = .ok snapshot := by
    show modelFromPayload codec e.payloadJson snapshot.exchange = .ok snapshot
    rw [hjson]
    exact modelFromPayload_payload haccepted hrefusal
  have hlineage : crossVenueLineage path (featureRow e).codeVersion (featureRow e).configHash snapshot =
      .ok () := by
    show crossVenueLineage path e.codeVersion e.configHash snapshot = .ok ()
    rw [hcode, hconfig]
    exact crossVenueLineage_ok hrefusal path
  have hdigest : codec.sha256Text (featureRow e).payloadJson = (featureRow e).payloadSha256 := by
    show codec.sha256Text e.payloadJson = e.payloadSha256
    rw [hjson, hsha]
  have hcanonical : codec.modelPayloadJson snapshot = (featureRow e).payloadJson := hjson.symm
  have hcodeVersion : (featureRow e).codeVersion ≠ "" := by
    show e.codeVersion ≠ ""
    rw [hcode]
    exact versions.codeVersion_ne
  have hconfigHash : isSha256Text (featureRow e).configHash = true := by
    show isSha256Text e.configHash = true
    rw [hconfig]
    exact versions.configHash_sha256
  unfold featureRecordFromRow
  apply bind_eq_ok_iff.mpr ⟨(), require_eq_ok_iff.mpr rfl, ?_⟩
  apply bind_eq_ok_iff.mpr ⟨(), require_eq_ok_iff.mpr hdigest, ?_⟩
  apply bind_eq_ok_iff.mpr ⟨_, hscope, ?_⟩
  apply bind_eq_ok_iff.mpr ⟨_, hmodel, ?_⟩
  apply bind_eq_ok_iff.mpr ⟨(), require_eq_ok_iff.mpr hcanonical, ?_⟩
  apply bind_eq_ok_iff.mpr ⟨(), require_eq_ok_iff.mpr hcodeVersion, ?_⟩
  apply bind_eq_ok_iff.mpr ⟨(), require_eq_ok_iff.mpr hconfigHash, ?_⟩
  apply bind_eq_ok_iff.mpr ⟨(), hlineage, ?_⟩
  apply bind_eq_ok_iff.mpr ⟨(), require_eq_ok_iff.mpr hpath, ?_⟩
  apply bind_eq_ok_iff.mpr ⟨(), require_eq_ok_iff.mpr hchecks, ?_⟩
  rw [← hsnapshot]
  rfl

/-! ## Records -/

/-- What reading a row guarantees: the snapshot is one of its model, found by its own exchange, and the
digest is that of its payload. -/
structure PersistedFeatureRecord.WellFormed (codec : FeatureCodec F) (record : PersistedFeatureRecord F) :
    Prop where
  accepted : codec.accepted record.snapshot
  found : modelFromPayload codec (codec.modelPayloadJson record.snapshot) record.snapshot.exchange =
    .ok record.snapshot
  digest : record.payloadSha256 = codec.sha256Text (codec.modelPayloadJson record.snapshot)

theorem accepted_of_modelFromPayload {text : String} {scope : Exchange}
    (h : modelFromPayload codec text scope = .ok snapshot) : codec.accepted snapshot := by
  have hsingle : (codec.validateSingleVenue text).map PersistableFeatureSnapshot.singleVenue =
      .ok snapshot → codec.accepted snapshot := by
    intro h
    cases hread : codec.validateSingleVenue text with
    | error e =>
      rw [hread] at h
      cases h
    | ok s =>
      rw [hread] at h
      exact Except.ok.inj h ▸ codec.accepted_singleVenue text s hread
  cases scope with
  | binance => exact hsingle h
  | okx => exact hsingle h
  | simulated => cases h
  | crossVenue =>
    unfold modelFromPayload at h
    dsimp only at h
    cases hread : codec.validateCrossVenue text with
    | error e =>
      rw [hread] at h
      cases h
    | ok s =>
      rw [hread] at h
      exact Except.ok.inj h ▸ codec.accepted_crossVenue text s hread

theorem wellFormed_of_featureRecordFromRow [DecidableEq F] {row : FeatureRow F} {path : FeaturePath}
    {record : PersistedFeatureRecord F} (h : featureRecordFromRow codec row path = .ok record) :
    record.WellFormed codec := by
  obtain ⟨-, -, h⟩ := bind_eq_ok_iff.mp h
  obtain ⟨_, hdigest, h⟩ := bind_eq_ok_iff.mp h
  obtain ⟨scope, -, h⟩ := bind_eq_ok_iff.mp h
  obtain ⟨snapshot, hfound, h⟩ := bind_eq_ok_iff.mp h
  obtain ⟨_, hcanonical, h⟩ := bind_eq_ok_iff.mp h
  obtain ⟨-, -, h⟩ := bind_eq_ok_iff.mp h
  obtain ⟨-, -, h⟩ := bind_eq_ok_iff.mp h
  obtain ⟨-, -, h⟩ := bind_eq_ok_iff.mp h
  obtain ⟨-, -, h⟩ := bind_eq_ok_iff.mp h
  obtain ⟨_, hchecks, h⟩ := bind_eq_ok_iff.mp h
  rw [require_eq_ok_iff] at hdigest hcanonical hchecks
  obtain rfl := Except.ok.inj h
  have hscope : scope = snapshot.exchange := by
    have := List.all_eq_true.mp hchecks (decide (scope = snapshot.exchange)) (by simp [rowChecks])
    exact of_decide_eq_true this
  refine ⟨accepted_of_modelFromPayload hfound, ?_, ?_⟩
  · rw [hcanonical, ← hscope]
    exact hfound
  · rw [hcanonical]
    exact hdigest.symm

/-- Records with one payload hold one snapshot. -/
theorem PersistedFeatureRecord.WellFormed.snapshot_eq {record other : PersistedFeatureRecord F}
    (h : record.WellFormed codec) (hother : other.WellFormed codec)
    (hpayload : codec.modelPayloadJson record.snapshot = codec.modelPayloadJson other.snapshot) :
    record.snapshot = other.snapshot := by
  have hexchange := codec.payload_exchange _ _ h.accepted hother.accepted hpayload
  have hfound := h.found
  rw [hpayload, hexchange, hother.found] at hfound
  exact (Except.ok.inj hfound).symm

end RoundTrip

end Cvf
