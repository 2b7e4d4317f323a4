/-
# Cvf.Storage.FeatureReader — the files of a feature tree, written and read.

A partition file holds the rows of its envelopes by decision, window and id.  The reader decodes a file
batch by batch, checks that its records come by the stable key, and merges the files lazily into one
stream, in which a second record of one id raises.

Whether a file is accepted does not depend on the batches (`fileRecords_eq_ok_iff`); every file the writer
writes is (`featureRows_roundTrip`).
-/
import Cvf.Library.KwayMerge
import Cvf.Library.Parsed
import Cvf.Storage.FeatureRows

namespace Cvf

open Cvf.Library

variable {F : Type}

/-! ## Writing a partition -/

/-- A Parquet file of the tree. -/
structure FeatureFile (F : Type) where
  path : FeaturePath
  /-- `schema_arrow == FEATURE_PARQUET_SCHEMA` -/
  schemaMatches : Bool := true
  rows : List (FeatureRow F)

/-- The order of the rows of one partition; ids of one width compare as their numbers do. -/
def partitionKey (e : FeatureEnvelope F) : Int ×ₗ Int ×ₗ Nat :=
  toLex (e.snapshot.decisionTimestamp, toLex (e.snapshot.windowSeconds, e.snapshot.featureSnapshotId.int))

/-- `_write_partition_file`; `fileName` makes the name from the ordered envelopes. -/
def writePartitionFile (fileName : List (FeatureEnvelope F) → String) (partition : FeaturePartition)
    (envelopes : List (FeatureEnvelope F)) : Except String (FeatureFile F) :=
  let ordered := sortByKey partitionKey envelopes
  if ordered = [] then .error "list index out of range"
  else
    (featureTableFromRows (ordered.map featureRow)).map fun rows =>
      { path := { parent := featurePartitionDirectory partition, name := fileName ordered }
        rows }

/-! ## Filters -/

/-- `FeatureScanFilter`; an absent condition lets everything pass. -/
structure FeatureScanFilter where
  start : Option Int := none
  «end» : Option Int := none
  scopes : Option (List Exchange) := none
  symbols : Option (List String) := none
  windows : Option (List Int) := none
  schemaVersions : Option (List Nat) := none
  snapshotIds : Option (List Uuid) := none
  unavailableCodes : Option (List FeatureUnavailableCode) := none
  isWarm : Option Bool := none
  isHealthy : Option Bool := none

/-- `_matches` -/
def FeatureScanFilter.matches (filters : FeatureScanFilter) (record : PersistedFeatureRecord F) : Bool :=
  let snapshot := record.snapshot
  filters.start.all (fun start => decide (start ≤ snapshot.decisionTimestamp)) &&
    filters.end.all (fun last => decide (snapshot.decisionTimestamp ≤ last)) &&
      filters.scopes.all (·.contains snapshot.exchange) &&
        filters.symbols.all (·.contains snapshot.symbol) &&
          filters.windows.all (·.contains snapshot.windowSeconds) &&
            filters.schemaVersions.all (·.contains snapshot.schemaVersion) &&
              filters.snapshotIds.all (·.contains snapshot.featureSnapshotId) &&
                filters.unavailableCodes.all
                    (fun codes => snapshot.unavailableReasons.any fun reason => codes.contains reason.code) &&
                  filters.isWarm.all (· == snapshot.isWarm) &&
                    filters.isHealthy.all (· == snapshot.isHealthy)

/-! ## Reading a file -/

/-- `_stable_key` -/
def stableKey (record : PersistedFeatureRecord F) : Int ×ₗ String ×ₗ Int ×ₗ String ×ₗ Nat :=
  let snapshot := record.snapshot
  toLex (snapshot.decisionTimestamp,
    toLex (snapshot.symbol,
      toLex (snapshot.windowSeconds,
        toLex (snapshot.exchange.value, snapshot.featureSnapshotId.int))))

/-- The records of a batch, each key checked against the one before. -/
def checkMonotonic (path : FeaturePath) (previous : Option (PersistedFeatureRecord F)) :
    List (PersistedFeatureRecord F) → Except String (Option (PersistedFeatureRecord F))
  | [] => .ok previous
  | record :: records =>
    if previous.any (fun last => decide (stableKey record < stableKey last)) then
      .error ("feature Parquet file is not monotonically ordered: " ++ path.text)
    else checkMonotonic path (some record) records

/-- `FeatureParquetReader`: what it decodes with, and how `iter_batches` cuts a file's rows. -/
structure FeatureParquetReader (F : Type) where
  codec : FeatureCodec F
  iterBatches : List (FeatureRow F) → List (List (FeatureRow F))
  flatten_iterBatches : ∀ rows, (iterBatches rows).flatten = rows

section Reader

variable [DecidableEq F] (reader : FeatureParquetReader F)

/-- The loop over the batches of a file. -/
def readBatches (codec : FeatureCodec F) (path : FeaturePath)
    (previous : Option (PersistedFeatureRecord F)) :
    List (List (FeatureRow F)) → Except String (List (PersistedFeatureRecord F))
  | [] => .ok []
  | batch :: batches => do
    let records ← batch.mapM (featureRecordFromRow codec · path)
    let previous ← checkMonotonic path previous records
    let rest ← readBatches codec path previous batches
    return records ++ rest

/-- `_file_records`, run to its end. -/
def FeatureParquetReader.fileRecords (file : FeatureFile F) (filters : FeatureScanFilter) :
    Except String (List (PersistedFeatureRecord F)) :=
  if file.schemaMatches then
    (readBatches reader.codec file.path none (reader.iterBatches file.rows)).map
      (·.filter filters.matches)
  else .error ("feature Parquet schema mismatch: " ++ file.path.text)

/-- The records of a file that the reader accepts. -/
structure FileHolds (codec : FeatureCodec F) (file : FeatureFile F)
    (records : List (PersistedFeatureRecord F)) : Prop where
  schemaMatches : file.schemaMatches = true
  decoded : file.rows.mapM (featureRecordFromRow codec · file.path) = .ok records
  monotonic : records.Pairwise fun a b => stableKey a ≤ stableKey b

omit [DecidableEq F] in
/-- The check lets a batch pass that continues what came before in order. -/
theorem checkMonotonic_eq_ok_iff {path : FeaturePath} {previous last : Option (PersistedFeatureRecord F)}
    {records : List (PersistedFeatureRecord F)} :
    checkMonotonic path previous records = .ok last ↔
      (previous.toList ++ records).Pairwise (fun a b => stableKey a ≤ stableKey b) ∧
        last = (previous.toList ++ records).getLast? := by
  induction records generalizing previous with
  | nil =>
    rw [checkMonotonic, Except.ok.injEq]
    cases previous with
    | none => simp [eq_comm]
    | some record => simp [eq_comm]
  | cons record records ih =>
    rw [checkMonotonic]
    cases previous with
    | none =>
      rw [if_neg (by simp)]
      exact ih
    | some before =>
      show (if decide (stableKey record < stableKey before) = true then _ else _) = _ ↔
        (before :: record :: records).Pairwise _ ∧ last = (before :: record :: records).getLast?
      rw [List.getLast?_cons_cons]
      split_ifs with hlt
      · refine iff_of_false (fun h => by cases h) ?_
        rintro ⟨hsorted, -⟩
        have hle := (List.pairwise_cons.mp hsorted).1 record List.mem_cons_self
        exact absurd (of_decide_eq_true hlt) (not_lt.mpr hle)
      · have hle : stableKey before ≤ stableKey record := by simpa using hlt
        rw [ih]
        apply and_congr_left'
        show (record :: records).Pairwise _ ↔ _
        constructor
        · intro hsorted
          refine List.pairwise_cons.mpr ⟨?_, hsorted⟩
          intro other hother
          rcases List.mem_cons.mp hother with rfl | hother
          · exact hle
          · exact hle.trans ((List.pairwise_cons.mp hsorted).1 other hother)
        · exact fun hsorted => (List.pairwise_cons.mp hsorted).2

theorem readBatches_eq_ok_iff {codec : FeatureCodec F} {path : FeaturePath}
    {previous : Option (PersistedFeatureRecord F)} {batches : List (List (FeatureRow F))}
    {records : List (PersistedFeatureRecord F)} :
    readBatches codec path previous batches = .ok records ↔
      batches.flatten.mapM (featureRecordFromRow codec · path) = .ok records ∧
        (previous.toList ++ records).Pairwise fun a b => stableKey a ≤ stableKey b := by
  induction batches generalizing previous records with
  | nil =>
    rw [readBatches, List.flatten_nil, mapM_nil_eq_ok, Except.ok.injEq]
    constructor
    · rintro rfl
      cases previous <;> simp
    · exact fun h => h.1.symm
  | cons batch batches ih =>
    rw [readBatches, List.flatten_cons, mapM_append_eq_ok, bind_eq_ok_iff]
    constructor
    · rintro ⟨front, hfront, h⟩
      obtain ⟨last, hlast, h⟩ := bind_eq_ok_iff.mp h
      obtain ⟨rest, hrest, h⟩ := bind_eq_ok_iff.mp h
      obtain rfl : front ++ rest = records := Except.ok.inj h
      obtain ⟨hsorted, rfl⟩ := checkMonotonic_eq_ok_iff.mp hlast
      obtain ⟨hrest, hbehind⟩ := ih.mp hrest
      refine ⟨⟨front, rest, hfront, hrest, rfl⟩, ?_⟩
      rw [← List.append_assoc]
      exact pairwise_append_getLast?.mpr ⟨hsorted, hbehind⟩
    · rintro ⟨⟨front, rest, hfront, hrest, rfl⟩, hsorted⟩
      rw [← List.append_assoc] at hsorted
      obtain ⟨hsorted, hbehind⟩ := pairwise_append_getLast?.mp hsorted
      refine ⟨front, hfront, bind_eq_ok_iff.mpr ⟨_, checkMonotonic_eq_ok_iff.mpr ⟨hsorted, rfl⟩, ?_⟩⟩
      exact bind_eq_ok_iff.mpr ⟨rest, ih.mpr ⟨hrest, hbehind⟩, rfl⟩

variable {reader}

/-- Which files are read, and to which records, does not depend on the batches. -/
theorem fileRecords_eq_ok_iff {file : FeatureFile F} {filters : FeatureScanFilter}
    {records : List (PersistedFeatureRecord F)} :
    reader.fileRecords file filters = .ok records ↔
      ∃ all, FileHolds reader.codec file all ∧ records = all.filter filters.matches := by
  unfold FeatureParquetReader.fileRecords
  split_ifs with hschema
  · constructor
    · intro h
      cases hread : readBatches reader.codec file.path none (reader.iterBatches file.rows) with
      | error text =>
        rw [hread] at h
        cases h
      | ok all =>
        rw [hread] at h
        obtain ⟨hdecoded, hsorted⟩ := readBatches_eq_ok_iff.mp hread
        rw [reader.flatten_iterBatches] at hdecoded
        exact ⟨all, ⟨hschema, hdecoded, hsorted⟩, (Except.ok.inj h).symm⟩
    · rintro ⟨all, hholds, rfl⟩
      have hread : readBatches reader.codec file.path none (reader.iterBatches file.rows) = .ok all := by
        apply readBatches_eq_ok_iff.mpr
        rw [reader.flatten_iterBatches]
        exact ⟨hholds.decoded, hholds.monotonic⟩
      rw [hread]
      rfl
  · refine iff_of_false (fun h => by cases h) ?_
    rintro ⟨all, hholds, -⟩
    exact hschema hholds.schemaMatches

/-! ## The round trip of a file -/

omit [DecidableEq F] in
/-- In one partition the order of the rows is that of the stable key. -/
theorem stableKey_le_of_partitionKey_le {e e' : FeatureEnvelope F} {path path' : FeaturePath}
    (hsymbol : e.snapshot.symbol = e'.snapshot.symbol)
    (hscope : e.snapshot.exchange.value = e'.snapshot.exchange.value)
    (h : partitionKey e ≤ partitionKey e') : stableKey (e.record path) ≤ stableKey (e'.record path') := by
  show toLex (e.snapshot.decisionTimestamp, toLex (e.snapshot.symbol, toLex (e.snapshot.windowSeconds,
      toLex (e.snapshot.exchange.value, e.snapshot.featureSnapshotId.int)))) ≤
    toLex (e'.snapshot.decisionTimestamp, toLex (e'.snapshot.symbol, toLex (e'.snapshot.windowSeconds,
      toLex (e'.snapshot.exchange.value, e'.snapshot.featureSnapshotId.int))))
  rw [hsymbol, hscope]
  rcases Prod.Lex.toLex_le_toLex.mp h with hlt | ⟨hdecision, h⟩
  · exact Prod.Lex.toLex_le_toLex.mpr (.inl hlt)
  refine Prod.Lex.toLex_le_toLex.mpr (.inr ⟨hdecision, Prod.Lex.toLex_le_toLex.mpr (.inr ⟨rfl, ?_⟩)⟩)
  rcases Prod.Lex.toLex_le_toLex.mp h with hlt | ⟨hwindow, hid⟩
  · exact Prod.Lex.toLex_le_toLex.mpr (.inl hlt)
  · exact Prod.Lex.toLex_le_toLex.mpr
      (.inr ⟨hwindow, Prod.Lex.toLex_le_toLex.mpr (.inr ⟨rfl, hid⟩)⟩)

/-- An envelope the writer made of an accepted snapshot of a partition. -/
def EnvelopeOf (codec : FeatureCodec F) (versions : WriterVersions) (partition : FeaturePartition)
    (e : FeatureEnvelope F) : Prop :=
  ∃ snapshot, codec.accepted snapshot ∧ envelope codec versions snapshot = .ok e ∧
    featurePartition snapshot = partition

omit [DecidableEq F] in
/-- A partition is written when it has envelopes and their integers fit the columns. -/
theorem writePartitionFile_eq_ok_iff {fileName : List (FeatureEnvelope F) → String}
    {partition : FeaturePartition} {envelopes : List (FeatureEnvelope F)} {file : FeatureFile F} :
    writePartitionFile fileName partition envelopes = .ok file ↔
      envelopes ≠ [] ∧ (∀ e ∈ envelopes, (featureRow e).fitsSchema = true) ∧
        file =
          { path :=
              { parent := featurePartitionDirectory partition
                name := fileName (sortByKey partitionKey envelopes) }
            rows := (sortByKey partitionKey envelopes).map featureRow } := by
  have hperm := sortByKey_perm partitionKey envelopes
  have hempty : sortByKey partitionKey envelopes = [] ↔ envelopes = [] := by
    constructor
    · intro h
      exact (h ▸ hperm).nil_eq.symm
    · rintro rfl
      exact hperm.eq_nil
  have hfits : ((sortByKey partitionKey envelopes).map featureRow).all FeatureRow.fitsSchema = true ↔
      ∀ e ∈ envelopes, (featureRow e).fitsSchema = true := by
    rw [List.all_map, List.all_eq_true]
    exact forall_congr' fun e => imp_congr_left hperm.mem_iff
  unfold writePartitionFile featureTableFromRows
  dsimp only
  split_ifs with hnone hall
  · refine iff_of_false (fun h => by cases h) ?_
    exact fun h => h.1 (hempty.mp hnone)
  · constructor
    · intro h
      exact ⟨mt hempty.mpr hnone, hfits.mp hall, (Except.ok.inj h).symm⟩
    · rintro ⟨-, -, rfl⟩
      rfl
  · refine iff_of_false (fun h => by cases h) ?_
    exact fun h => hall (hfits.mpr h.2.1)

/-- A written file holds the records of its envelopes. -/
theorem fileHolds_of_write {codec : FeatureCodec F} {versions : WriterVersions}
    {fileName : List (FeatureEnvelope F) → String} {partition : FeaturePartition}
    {envelopes : List (FeatureEnvelope F)} (hof : ∀ e ∈ envelopes, EnvelopeOf codec versions partition e)
    {file : FeatureFile F} (h : writePartitionFile fileName partition envelopes = .ok file) :
    FileHolds codec file ((sortByKey partitionKey envelopes).map (·.record file.path)) := by
  obtain ⟨-, -, rfl⟩ := writePartitionFile_eq_ok_iff.mp h
  have hof : ∀ e ∈ sortByKey partitionKey envelopes, EnvelopeOf codec versions partition e :=
    fun e he => hof e ((sortByKey_perm _ _).mem_iff.mp he)
  refine ⟨rfl, mapM_map_eq_ok ?_, ?_⟩
  · intro e he
    obtain ⟨snapshot, haccepted, henvelope, hpartition⟩ := hof e he
    exact featureRecordFromRow_featureRow haccepted henvelope (by rw [hpartition])
  · rw [List.pairwise_map]
    refine (pairwise_sortByKey partitionKey envelopes).imp_of_mem ?_
    intro e e' he he' hle
    obtain ⟨snapshot, -, henvelope, hpartition⟩ := hof e he
    obtain ⟨snapshot', -, henvelope', hpartition'⟩ := hof e' he'
    have hsame : featurePartition e.snapshot = featurePartition e'.snapshot := by
      rw [(envelope_spec henvelope).2.1, (envelope_spec henvelope').2.1, hpartition, hpartition']
    exact stableKey_le_of_partitionKey_le (congrArg FeaturePartition.symbol hsame)
      (congrArg FeaturePartition.scope hsame) hle

/-- Every row reads back as its snapshot and versions, and every file that is written passes the reader's
checks and yields its records. -/
theorem featureRows_roundTrip (codec : FeatureCodec F) (versions : WriterVersions) :
    (∀ snapshot, codec.accepted snapshot → ∀ e, envelope codec versions snapshot = .ok e →
      ∀ path : FeaturePath, path.parent = featurePartitionDirectory (featurePartition snapshot) →
        featureRecordFromRow codec (featureRow e) path =
          .ok { snapshot
                codeVersion := e.codeVersion
                configHash := e.configHash
                payloadSha256 := e.payloadSha256
                sourceFile := path }) ∧
    (∀ (fileName : List (FeatureEnvelope F) → String) (partition : FeaturePartition)
      (envelopes : List (FeatureEnvelope F)), envelopes ≠ [] →
      (∀ e ∈ envelopes, EnvelopeOf codec versions partition e) →
      ∀ file, writePartitionFile fileName partition envelopes = .ok file →
        file.path.parent = featurePartitionDirectory partition ∧
        ∀ reader : FeatureParquetReader F, reader.codec = codec → ∀ filters : FeatureScanFilter,
          reader.fileRecords file filters =
            .ok (((sortByKey partitionKey envelopes).map (·.record file.path)).filter
              filters.matches)) := by
  constructor
  · intro snapshot haccepted e henvelope path hpath
    rw [featureRecordFromRow_featureRow haccepted henvelope hpath]
    unfold FeatureEnvelope.record
    rw [(envelope_spec henvelope).2.1]
  · intro fileName partition envelopes _ hof file hfile
    have hholds := fileHolds_of_write hof hfile
    constructor
    · obtain ⟨-, -, rfl⟩ := writePartitionFile_eq_ok_iff.mp hfile
      rfl
    · rintro reader rfl filters
      exact fileRecords_eq_ok_iff.mpr ⟨_, hholds, rfl⟩

end Reader

/-! ### Two snapshots of one partition -/

/-- A snapshot with observations of every group, whose statistics are not warm. -/
def exampleFeatureSnapshot : FeatureSnapshot ℚ :=
  { exchange := .binance
    symbol := "BTC-USDT-PERP"
    exchangeTimestamp := 1000000
    localReceiveTimestamp := 1000000
    normalizationTimestamp := 1000000
    sequenceId := some (.int 42)
    featureSnapshotId := ⟨1, Uuid.one_lt_limit⟩
    strategyVersion := "CVF-01"
    calculationTimestamp := 1000000
    decisionTimestamp := 1000000
    windowSeconds := 5
    bookGeneration := 3
    sourceSequenceId := some (.int 42)
    sourceEventCount := 6
    oldestSourceTimestamp := some 250000
    newestSourceTimestamp := some 750000
    dataAgeMs := some 250
    isWarm := false
    isHealthy := true
    unavailableReasons := [{ code := .notWarm, detail := "statistical history is not warm" }]
    tradeFlow := some
      { aggressiveBuyNotional := some 300
        aggressiveSellNotional := some 100
        takerImbalance := some (1 / 2)
        averageTradeNotional := some 200
        largeTradeShare := some (3 / 4) }
    orderBook := some
      { weightedBidDepth := some 2
        weightedAskDepth := some 1
        depthImbalance := some (1 / 4)
        spread := some 2
        midPrice := some 100
        microprice := some (201 / 2)
        orderFlowImbalance := some (-1 / 2) }
    price := some
      { returnValue := some (1 / 8)
        trailingHigh := some 101
        trailingLow := some 99
        abnormalJump := some false }
    openInterest := some
      { change := some 10
        percentageChange := some (1 / 16)
        dataAgeMs := some 500
        priceOiState := some .priceUpOiUp }
    crowding := some
      { fundingRate := some (1 / 10000)
        markIndexPremium := some (1 / 2)
        takerBias := some (1 / 2)
        jointState := some .crowdedLong }
    liquidation := some
      { publicSampleLongNotional := some 50
        publicSampleShortNotional := some 0
        activityWithOiDecline := some false } }

theorem exampleLaterId_lt : 2 < 2 ^ 128 := by norm_num

/-- A second later, without observations. -/
def exampleLaterSnapshot : FeatureSnapshot ℚ :=
  { exchange := .binance
    symbol := "BTC-USDT-PERP"
    exchangeTimestamp := 2000000
    localReceiveTimestamp := 2000000
    normalizationTimestamp := 2000000
    featureSnapshotId := ⟨2, exampleLaterId_lt⟩
    strategyVersion := "CVF-01"
    calculationTimestamp := 2000000
    decisionTimestamp := 2000000
    windowSeconds := 5
    bookGeneration := 0
    sourceEventCount := 0
    isWarm := false
    isHealthy := true
    unavailableReasons := [{ code := .noTrades, detail := "no accepted trades are available" }] }

/-- The later snapshot over another book generation. -/
def revisedFeatureSnapshot : FeatureSnapshot ℚ := { exampleLaterSnapshot with bookGeneration := 1 }

/-- The JSON of `exampleFeatureSnapshot`, as `canonical_json` writes it. -/
def exampleFeatureJson : String :=
  "\x7b\"book_generation\":3,\"calculation_timestamp\":\"1970-01-01T00:00:01Z\"," ++
    "\"crowding\":\x7b\"funding_rate\":\"0.0001\",\"funding_zscore\":null," ++
    "\"joint_state\":\"CROWDED_LONG\",\"mark_index_premium\":0.5,\"premium_zscore\":null," ++
    "\"taker_bias\":0.5\x7d,\"data_age_ms\":250.0,\"decision_timestamp\":\"1970-01-01T00:00:01Z\"," ++
    "\"event_type\":\"MARKET_FEATURE\",\"exchange\":\"BINANCE\"," ++
    "\"exchange_timestamp\":\"1970-01-01T00:00:01Z\"," ++
    "\"feature_snapshot_id\":\"00000000-0000-0000-0000-000000000001\",\"is_healthy\":true," ++
    "\"is_warm\":false,\"liquidation\":\x7b\"activity_with_oi_decline\":false," ++
    "\"public_sample_activity_zscore\":null,\"public_sample_long_notional\":\"50\"," ++
    "\"public_sample_short_notional\":\"0\"\x7d," ++
    "\"local_receive_timestamp\":\"1970-01-01T00:00:01Z\"," ++
    "\"newest_source_timestamp\":\"1970-01-01T00:00:00.750000Z\"," ++
    "\"normalization_timestamp\":\"1970-01-01T00:00:01Z\"," ++
    "\"oldest_source_timestamp\":\"1970-01-01T00:00:00.250000Z\"," ++
    "\"open_interest\":\x7b\"change\":\"10\",\"data_age_ms\":500.0,\"percentage_change\":0.0625," ++
    "\"price_oi_state\":\"PRICE_UP_OI_UP\",\"zscore\":null\x7d," ++
    "\"order_book\":\x7b\"added_liquidity_quantity\":null,\"ask_liquidity_change\":null," ++
    "\"bid_liquidity_change\":null,\"buy_slippage_bps\":null,\"depth_imbalance\":0.25," ++
    "\"liquidity_recovery_quantity_per_second\":null,\"microprice\":\"100.5\",\"mid_price\":\"100\"," ++
    "\"order_flow_imbalance\":-0.5,\"order_flow_imbalance_zscore\":null,\"relative_spread\":null," ++
    "\"removed_liquidity_quantity\":null,\"sell_slippage_bps\":null,\"spread\":\"2\"," ++
    "\"weighted_ask_depth\":\"1\",\"weighted_bid_depth\":\"2\"\x7d," ++
    "\"price\":\x7b\"abnormal_jump\":false,\"atr_1m\":null,\"impulse_zscore\":null," ++
    "\"realized_volatility\":null,\"recent_move_atr\":null,\"return_value\":0.125," ++
    "\"trailing_high\":\"101\",\"trailing_low\":\"99\"\x7d,\"raw_payload_reference\":null," ++
    "\"schema_version\":1,\"sequence_id\":42,\"source_event_count\":6,\"source_sequence_id\":42," ++
    "\"strategy_version\":\"CVF-01\",\"symbol\":\"BTC-USDT-PERP\"," ++
    "\"trade_flow\":\x7b\"aggressive_buy_notional\":\"300\",\"aggressive_sell_notional\":\"100\"," ++
    "\"average_trade_notional\":\"200\",\"large_trade_share\":0.75,\"taker_imbalance\":0.5," ++
    "\"taker_imbalance_zscore\":null,\"trade_count_impulse\":null," ++
    "\"trade_notional_impulse\":null\x7d,\"unavailable_reasons\":[\x7b\"channel\":null," ++
    "\"code\":\"NOT_WARM\",\"detail\":\"statistical history is not warm\"\x7d]," ++
    "\"window_seconds\":5\x7d"

/-- The JSON of the later snapshot over a book generation of one digit. -/
def exampleLaterText (bookGeneration : String) : String :=
  "\x7b\"book_generation\":" ++ bookGeneration ++
    ",\"calculation_timestamp\":\"1970-01-01T00:00:02Z\",\"crowding\":null,\"data_age_ms\":null," ++
    "\"decision_timestamp\":\"1970-01-01T00:00:02Z\",\"event_type\":\"MARKET_FEATURE\"," ++
    "\"exchange\":\"BINANCE\",\"exchange_timestamp\":\"1970-01-01T00:00:02Z\"," ++
    "\"feature_snapshot_id\":\"00000000-0000-0000-0000-000000000002\",\"is_healthy\":true," ++
    "\"is_warm\":false,\"liquidation\":null,\"local_receive_timestamp\":\"1970-01-01T00:00:02Z\"," ++
    "\"newest_source_timestamp\":null,\"normalization_timestamp\":\"1970-01-01T00:00:02Z\"," ++
    "\"oldest_source_timestamp\":null,\"open_interest\":null,\"order_book\":null,\"price\":null," ++
    "\"raw_payload_reference\":null,\"schema_version\":1,\"sequence_id\":null," ++
    "\"source_event_count\":0,\"source_sequence_id\":null,\"strategy_version\":\"CVF-01\"," ++
    "\"symbol\":\"BTC-USDT-PERP\",\"trade_flow\":null,\"unavailable_reasons\":[\x7b\"channel\":null," ++
    "\"code\":\"NO_TRADES\",\"detail\":\"no accepted trades are available\"\x7d]," ++
    "\"window_seconds\":5\x7d"

def exampleLaterJson : String := exampleLaterText "0"

def revisedFeatureJson : String := exampleLaterText "1"

def exampleModelPayload (s : PersistableFeatureSnapshot ℚ) : String :=
  if s.bookGeneration = some 3 then exampleFeatureJson
  else if s.bookGeneration = some 0 then exampleLaterJson
  else revisedFeatureJson

def exampleValidateJson (text : String) : Except String (FeatureSnapshot ℚ) :=
  if text = exampleFeatureJson then .ok exampleFeatureSnapshot
  else if text = exampleLaterJson then .ok exampleLaterSnapshot
  else if text = revisedFeatureJson then .ok revisedFeatureSnapshot
  else .error "Invalid JSON"

def textByte (index : Nat) (text : String) : Option UInt8 := text.toByteArray.data.toList[index]?

/-- The digests of the three texts, which differ in the digit of the book generation. -/
def exampleFeatureSha256 (text : String) : String :=
  if textByte 19 text = some 51 then
    "120dca785fac6349a071ddb9082d82b8acb49e670c35a5dbb13ae404943be294"
  else if textByte 19 text = some 48 then
    "4ec9946b7140f7c938fa53f77a8e187c5a8827b2d5710ddb414cdd8012aa5167"
  else "51e4b5a8b84c516acdf4cd28aaa6786f07d647f32eb2b0bc0f728df3dc696fce"

def exampleModels : List (PersistableFeatureSnapshot ℚ) :=
  [.singleVenue exampleFeatureSnapshot, .singleVenue exampleLaterSnapshot,
    .singleVenue revisedFeatureSnapshot]

theorem textByte_feature : textByte 19 exampleFeatureJson = some 51 := by decide +kernel

theorem textByte_later : textByte 19 exampleLaterJson = some 48 := by decide +kernel

theorem textByte_revised : textByte 19 revisedFeatureJson = some 49 := by decide +kernel

theorem exampleLaterJson_ne : exampleLaterJson ≠ exampleFeatureJson := by
  intro h
  have hdigit := congrArg (textByte 19) h
  rw [textByte_later, textByte_feature] at hdigit
  exact absurd hdigit (by decide)

theorem revisedFeatureJson_ne :
    revisedFeatureJson ≠ exampleFeatureJson ∧ revisedFeatureJson ≠ exampleLaterJson := by
  constructor <;> intro h <;> have hdigit := congrArg (textByte 19) h
  · rw [textByte_revised, textByte_feature] at hdigit
    exact absurd hdigit (by decide)
  · rw [textByte_revised, textByte_later] at hdigit
    exact absurd hdigit (by decide)

theorem mem_exampleModels {s : FeatureSnapshot ℚ} : .singleVenue s ∈ exampleModels ↔
    s = exampleFeatureSnapshot ∨ s = exampleLaterSnapshot ∨ s = revisedFeatureSnapshot := by
  simp [exampleModels]

theorem exampleModels_single (s : CrossVenueFeatureSnapshot ℚ) : .crossVenue s ∉ exampleModels := by
  simp [exampleModels]

theorem exampleModels_read (s : FeatureSnapshot ℚ) (h : .singleVenue s ∈ exampleModels) :
    exampleValidateJson (exampleModelPayload (.singleVenue s)) = .ok s := by
  rcases mem_exampleModels.mp h with rfl | rfl | rfl
  · exact if_pos rfl
  · show exampleValidateJson exampleLaterJson = _
    unfold exampleValidateJson
    rw [if_neg exampleLaterJson_ne, if_pos rfl]
  · show exampleValidateJson revisedFeatureJson = _
    unfold exampleValidateJson
    rw [if_neg revisedFeatureJson_ne.1, if_neg revisedFeatureJson_ne.2, if_pos rfl]

theorem exampleModels_accepted (text : String) (s : FeatureSnapshot ℚ)
    (h : exampleValidateJson text = .ok s) : .singleVenue s ∈ exampleModels := by
  unfold exampleValidateJson at h
  rw [mem_exampleModels]
  split_ifs at h
  · exact .inl (Except.ok.inj h).symm
  · exact .inr (.inl (Except.ok.inj h).symm)
  · exact .inr (.inr (Except.ok.inj h).symm)

theorem exampleModels_unpaired (s : CrossVenueFeatureSnapshot ℚ) (h : .crossVenue s ∈ exampleModels) :
    (Except.error "Invalid JSON" : Except String (CrossVenueFeatureSnapshot ℚ)) = .ok s :=
  absurd h (exampleModels_single s)

theorem exampleModels_unread (_ : String) (s : CrossVenueFeatureSnapshot ℚ)
    (h : (Except.error "Invalid JSON" : Except String (CrossVenueFeatureSnapshot ℚ)) = .ok s) :
    .crossVenue s ∈ exampleModels := by
  cases h

theorem exampleModels_exchange (s t : PersistableFeatureSnapshot ℚ) (hs : s ∈ exampleModels)
    (ht : t ∈ exampleModels) (_ : exampleModelPayload s = exampleModelPayload t) :
    s.exchange = t.exchange := by
  have hbinance : ∀ x ∈ exampleModels, x.exchange = .binance := by decide
  rw [hbinance s hs, hbinance t ht]

/-- The models on these snapshots, with their JSON and its digests. -/
def exampleFeatureCodec : FeatureCodec ℚ where
  modelPayloadJson := exampleModelPayload
  validateSingleVenue := exampleValidateJson
  validateCrossVenue := fun _ => .error "Invalid JSON"
  sha256Text := exampleFeatureSha256
  accepted := (· ∈ exampleModels)
  validateSingleVenue_payload := exampleModels_read
  validateCrossVenue_payload := exampleModels_unpaired
  accepted_singleVenue := exampleModels_accepted
  accepted_crossVenue := exampleModels_unread
  payload_exchange := exampleModels_exchange

theorem exampleCodeVersion_ne : "0.3.1" ≠ "" := by decide

theorem exampleConfigHash_sha256 :
    isSha256Text "cde0fb0dec1400c54a0f7e7eafa73624c53e4da258bbd34b3380a0defeba95c1" = true := by decide +kernel

def exampleWriterVersions : WriterVersions where
  codeVersion := "0.3.1"
  configHash := "cde0fb0dec1400c54a0f7e7eafa73624c53e4da258bbd34b3380a0defeba95c1"
  strategyVersion := "CVF-01"
  codeVersion_ne := exampleCodeVersion_ne
  configHash_sha256 := exampleConfigHash_sha256

def exampleFeatureEnvelope : FeatureEnvelope ℚ :=
  { snapshot := .singleVenue exampleFeatureSnapshot
    codeVersion := "0.3.1"
    configHash := exampleWriterVersions.configHash
    payloadJson := exampleFeatureJson
    payloadSha256 := "120dca785fac6349a071ddb9082d82b8acb49e670c35a5dbb13ae404943be294" }

def exampleLaterEnvelope : FeatureEnvelope ℚ :=
  { snapshot := .singleVenue exampleLaterSnapshot
    codeVersion := "0.3.1"
    configHash := exampleWriterVersions.configHash
    payloadJson := exampleLaterJson
    payloadSha256 := "4ec9946b7140f7c938fa53f77a8e187c5a8827b2d5710ddb414cdd8012aa5167" }

def exampleFeaturePath : FeaturePath :=
  { parent := featurePartitionDirectory (featurePartition (.singleVenue exampleFeatureSnapshot))
    name := "part-19700101T000001.000000Z-19700101T000002.000000Z-0000000000000000.parquet" }

/-- The envelopes of the example, with the digests of their payloads. -/
theorem envelope_example :
    envelope exampleFeatureCodec exampleWriterVersions (.singleVenue exampleFeatureSnapshot) =
        .ok exampleFeatureEnvelope ∧
      envelope exampleFeatureCodec exampleWriterVersions (.singleVenue exampleLaterSnapshot) =
        .ok exampleLaterEnvelope := by
  have hfeature : exampleFeatureSha256 exampleFeatureJson = exampleFeatureEnvelope.payloadSha256 :=
    if_pos textByte_feature
  have hlater : exampleFeatureSha256 exampleLaterJson = exampleLaterEnvelope.payloadSha256 := by
    unfold exampleFeatureSha256
    rw [textByte_later]
    rfl
  constructor
  · show Except.ok { exampleFeatureEnvelope with payloadSha256 := exampleFeatureSha256 exampleFeatureJson } = _
    rw [hfeature]
  · show Except.ok { exampleLaterEnvelope with payloadSha256 := exampleFeatureSha256 exampleLaterJson } = _
    rw [hlater]

theorem exampleLater_partition : featurePartition (.singleVenue exampleLaterSnapshot) =
    featurePartition (.singleVenue exampleFeatureSnapshot) := by decide +kernel

theorem exampleIterBatches_flatten :
    ∀ rows : List (FeatureRow ℚ), (rows.map fun row => [row]).flatten = rows := by
  intro rows
  induction rows with
  | nil => rfl
  | cons row rows ih => exact congrArg (row :: ·) ih

/-- A reader with batches of one row. -/
def exampleFeatureReader : FeatureParquetReader ℚ where
  codec := exampleFeatureCodec
  iterBatches := fun rows => rows.map fun row => [row]
  flatten_iterBatches := exampleIterBatches_flatten

/-- A file of both is written in the order of the decisions, and read back so. -/
theorem featureRows_roundTrip_two :
    featureRecordFromRow exampleFeatureCodec (featureRow exampleFeatureEnvelope) exampleFeaturePath =
        .ok (exampleFeatureEnvelope.record exampleFeaturePath) ∧
      ∃ file, writePartitionFile (fun _ => exampleFeaturePath.name)
          (featurePartition (.singleVenue exampleFeatureSnapshot))
            [exampleLaterEnvelope, exampleFeatureEnvelope] = .ok file ∧
        exampleFeatureReader.fileRecords file {} =
          .ok [exampleFeatureEnvelope.record exampleFeaturePath,
            exampleLaterEnvelope.record exampleFeaturePath] := by
  obtain ⟨hrow, hfile⟩ := featureRows_roundTrip exampleFeatureCodec exampleWriterVersions
  constructor
  · exact hrow (.singleVenue exampleFeatureSnapshot) List.mem_cons_self _ envelope_example.1
      exampleFeaturePath rfl
  · have hordered : sortByKey partitionKey [exampleLaterEnvelope, exampleFeatureEnvelope] =
        [exampleFeatureEnvelope, exampleLaterEnvelope] := rfl
    have hof : ∀ e ∈ [exampleLaterEnvelope, exampleFeatureEnvelope], EnvelopeOf exampleFeatureCodec
        exampleWriterVersions (featurePartition (.singleVenue exampleFeatureSnapshot)) e := by
      intro e he
      rcases List.mem_pair.mp he with rfl | rfl
      · exact ⟨_, List.mem_cons_of_mem _ List.mem_cons_self, envelope_example.2, exampleLater_partition⟩
      · exact ⟨_, List.mem_cons_self, envelope_example.1, rfl⟩
    have hwritten : writePartitionFile (fun _ => exampleFeaturePath.name)
        (featurePartition (.singleVenue exampleFeatureSnapshot))
          [exampleLaterEnvelope, exampleFeatureEnvelope] = .ok _ :=
      writePartitionFile_eq_ok_iff.mpr ⟨List.cons_ne_nil _ _, by decide +kernel, rfl⟩
    refine ⟨_, hwritten, ?_⟩
    have hread := (hfile _ _ _ (List.cons_ne_nil _ _) hof _ hwritten).2 exampleFeatureReader rfl {}
    rw [hread, hordered]
    rfl

end Cvf
