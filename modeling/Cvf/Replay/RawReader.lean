/-
# Cvf.Replay.RawReader — the filtered, externally sorted scan of a raw tree.

The reader decodes every row, keeps the records that match the filter, and inserts one sort row each
into an SQLite table: ten key columns, then what is needed to rebuild the record.  `ORDER BY` compares
integers as numbers and text by its UTF-8 bytes; the records come back out of the key columns.

`iterRecords_ok` says that none of this shows: the scan of any tree that holds the rows of some records
yields those records that match, sorted by `stable_record_key`, with sequence ids as text.  The key of
the table refines the record key because UTF-8 keeps the order of code points.
-/
import Cvf.Library.Parsed
import Cvf.Library.SortByKey
import Cvf.Replay.Ordering
import Cvf.Storage.Compact

namespace Cvf

open Cvf.Library

/-! ## Filters -/

/-- `RawScanFilter`, with the checks of `__post_init__`. -/
structure RawScanFilter where
  start : Option Int := none
  stop : Option Int := none
  exchanges : Option (Finset Exchange) := none
  symbols : Option (Finset String) := none
  channels : Option (Finset String) := none
  excludedChannels : Finset String := ∅
  ordered : ∀ a ∈ start, ∀ b ∈ stop, a ≤ b
  disjoint : ∀ cs ∈ channels, Disjoint cs excludedChannels

/-- `_matches` -/
def RawScanFilter.matches (filters : RawScanFilter) (r : RawMarketRecord) : Bool :=
  let timestamp := r.localReceiveTimestamp
  if filters.start.any (timestamp < ·) then false
  else if filters.stop.any (· < timestamp) then false
  else if filters.exchanges.any fun exchanges => r.exchange ∉ exchanges then false
  else if filters.symbols.any fun symbols => r.symbol ∉ symbols then false
  else if r.channel ∈ filters.excludedChannels then false
  else filters.channels.all fun channels => r.channel ∈ channels

/-! ## Microseconds -/

/-- `_microseconds`: a timedelta since the epoch has floored days and nonnegative seconds. -/
def microseconds (value : Int) : Int :=
  let days := value / 86400000000
  let seconds := value % 86400000000 / 1000000
  days * 86400000000 + seconds * 1000000 + value % 1000000

/-- `_datetime` -/
def datetimeOfMicroseconds (value : Option Int) : Option Int := value.map fun v => 0 + v

/-- Before the epoch as after it. -/
@[simp]
theorem microseconds_eq (value : Int) : microseconds value = value := by
  unfold microseconds
  dsimp only
  omega

@[simp]
theorem datetimeOfMicroseconds_eq (value : Option Int) : datetimeOfMicroseconds value = value := by
  cases value <;> simp [datetimeOfMicroseconds]

/-! ## The sort table -/

/-- A row of `replay_records`. -/
structure SortRow where
  recordPriority : Int
  replayTimestampUs : Int
  localReceiveTimestampUs : Int
  connectionGeneration : Int
  exchangeKey : String
  symbolKey : String
  channelKey : String
  sequenceKey : String
  recordId : String
  sourceOrdinal : Nat
  messageKind : String
  transport : String
  exchangeTimestampUs : Option Int
  normalizationTimestampUs : Option Int
  sequenceId : Option String
  rawPayload : ByteArray

/-- `_sort_row` -/
def sortRow (order : ReplayOrder) (r : RawMarketRecord) (ordinal : Nat) : SortRow :=
  { recordPriority := Cvf.recordPriority r
    replayTimestampUs := microseconds (replayTimestamp r order)
    localReceiveTimestampUs := microseconds r.localReceiveTimestamp
    connectionGeneration := r.connectionGeneration
    exchangeKey := r.exchange.value
    symbolKey := r.symbol
    channelKey := r.channel
    sequenceKey := Cvf.sequenceKey r
    recordId := r.recordId.str
    sourceOrdinal := ordinal
    messageKind := r.messageKind
    transport := r.transport.value
    exchangeTimestampUs := r.exchangeTimestamp.map microseconds
    normalizationTimestampUs := r.normalizationTimestamp.map microseconds
    sequenceId := r.sequenceId.map SequenceId.str
    rawPayload := r.rawPayload }

/-- What SQLite compares of a text: its UTF-8 bytes. -/
def collate (text : String) : List Nat := (utf8Bytes text).map UInt8.toNat

/-- The `ORDER BY` columns as SQLite compares them. -/
def SortRow.key (row : SortRow) :
    Int ×ₗ Int ×ₗ Int ×ₗ Int ×ₗ List Nat ×ₗ List Nat ×ₗ List Nat ×ₗ List Nat ×ₗ List Nat ×ₗ Nat :=
  toLex (row.recordPriority, toLex (row.replayTimestampUs, toLex (row.localReceiveTimestampUs,
    toLex (row.connectionGeneration, toLex (collate row.exchangeKey, toLex (collate row.symbolKey,
      toLex (collate row.channelKey, toLex (collate row.sequenceKey,
        toLex (collate row.recordId, row.sourceOrdinal)))))))))

/-- The record built from a row of the `SELECT`. -/
def recordFromSortRow (row : SortRow) : Except String RawMarketRecord := do
  let recordId ← Uuid.parse row.recordId
  let exchange ← Exchange.ofValue row.exchangeKey
  RawMarketRecord.construct recordId exchange row.symbolKey row.channelKey row.messageKind row.transport
    (datetimeOfMicroseconds row.exchangeTimestampUs)
    ((datetimeOfMicroseconds (some row.localReceiveTimestampUs)).getD 0)
    (datetimeOfMicroseconds row.normalizationTimestampUs)
    (row.sequenceId.map SequenceId.text) row.connectionGeneration row.rawPayload

/-! ## The scan -/

structure ScanState where
  ordinal : Nat := 0
  /-- `replay_records`; the ordinal is part of the primary key, so no insert conflicts. -/
  table : List SortRow := []

namespace ScanState

def scanRow (tree : RawTree) (filters : RawScanFilter) (order : ReplayOrder) (file : RawFile)
    (s : ScanState) (row : RawRow) : Except String ScanState :=
  if row.schemaVersion ≠ 1 then
    .error s!"unsupported raw Parquet schema version {row.schemaVersion}: {tree.pathText file}"
  else do
    let record ← recordFromRow row
    if filters.matches record then
      return { ordinal := s.ordinal + 1, table := s.table ++ [sortRow order record (s.ordinal + 1)] }
    else return s

def scanFile (reader : BatchReader) (batchSize : Nat) (tree : RawTree) (filters : RawScanFilter)
    (order : ReplayOrder) (s : ScanState) (file : RawFile) : Except String ScanState :=
  if file.schemaMatches = false then .error s!"raw Parquet schema mismatch: {tree.pathText file}"
  else
    (reader.iterBatches batchSize file.rows).foldlM
      (fun s batch => batch.foldlM (scanRow tree filters order file) s) s

end ScanState

/-- `RawParquetReader`; `reader` is how the Parquet library cuts a file into batches. -/
structure RawParquetReader where
  tree : RawTree
  batchSize : Nat := 4096
  reader : BatchReader
  batchSize_pos : 1 ≤ batchSize

/-- `iter_records` -/
def RawParquetReader.iterRecords (r : RawParquetReader) (filters : RawScanFilter)
    (order : ReplayOrder) : Except String (List RawMarketRecord) := do
  let s ← r.tree.sortedFiles.foldlM (ScanState.scanFile r.reader r.batchSize r.tree filters order) {}
  (sortByKey SortRow.key s.table).mapM recordFromSortRow

/-! ### Encoding keeps records and order -/

theorem collate_lt_iff {s t : String} : collate s < collate t ↔ s < t := by
  have hmono : ∀ {s t : String}, s < t → collate s < collate t := fun h =>
    List.map_lt (fun x y hxy => UInt8.lt_iff_toNat_lt.mp hxy) (utf8Bytes_lt_iff.mpr h)
  constructor
  · intro h
    rcases lt_trichotomy s t with hlt | rfl | hgt
    · exact hlt
    · exact absurd h (lt_irrefl _)
    · exact absurd h (lt_asymm (hmono hgt))
  · exact hmono

theorem collate_inj {s t : String} (h : collate s = collate t) : s = t :=
  utf8Bytes_inj.mp (List.map_injective_iff.mpr (fun _ _ => UInt8.toNat_inj.mp) h)

/-- A record comes back out of its sort row. -/
theorem recordFromSortRow_sortRow (order : ReplayOrder) (r : RawMarketRecord) (ordinal : Nat) :
    recordFromSortRow (sortRow order r ordinal) = .ok r.withTextSequence := by
  have hmap : ∀ value : Option Int, value.map microseconds = value := by
    intro value
    cases value <;> simp
  unfold recordFromSortRow sortRow
  simp only [Uuid.parse_str, Exchange.ofValue_value, bind, Except.bind, hmap, microseconds_eq,
    datetimeOfMicroseconds_eq, Option.getD_some]
  rw [RawMarketRecord.construct_self]
  unfold RawMarketRecord.withTextSequence
  rw [Option.map_map]
  rfl

/-- The order of the table refines the order of the records. -/
theorem stableRecordKey_le_of_key_le {order : ReplayOrder} {r s : RawMarketRecord} {i j : Nat}
    (h : (sortRow order r i).key ≤ (sortRow order s j).key) :
    stableRecordKey order r ≤ stableRecordKey order s := by
  have hcast : ∀ {m n : Nat}, (m : Int) < n → m < n := fun h => by exact_mod_cast h
  have hcastInj : ∀ {m n : Nat}, (m : Int) = n → m = n := fun h => by exact_mod_cast h
  have hus : ∀ {m n : Int}, microseconds m < microseconds n → m < n := fun h => by simpa using h
  have husInj : ∀ {m n : Int}, microseconds m = microseconds n → m = n := fun h => by simpa using h
  have htext : ∀ {s t : String}, collate s < collate t → s < t := collate_lt_iff.mp
  revert h
  refine toLex_le_of_encoded hcast hcastInj ?_
  refine toLex_le_of_encoded hus husInj ?_
  refine toLex_le_of_encoded hus husInj ?_
  refine toLex_le_of_encoded hcast hcastInj ?_
  refine toLex_le_of_encoded htext collate_inj ?_
  refine toLex_le_of_encoded htext collate_inj ?_
  refine toLex_le_of_encoded htext collate_inj ?_
  refine toLex_le_of_encoded htext collate_inj ?_
  exact le_of_encoded htext collate_inj

/-! ### What a scan yields -/

theorem matches_withTextSequence (filters : RawScanFilter) (r : RawMarketRecord) :
    filters.matches r.withTextSequence = filters.matches r := rfl

/-- The records that match, as they are stored. -/
def matchingRecords (filters : RawScanFilter) (records : List RawMarketRecord) :
    List RawMarketRecord :=
  (records.map RawMarketRecord.withTextSequence).filter filters.matches

namespace ScanState

variable {tree : RawTree} {filters : RawScanFilter} {order : ReplayOrder} {s : ScanState}

/-- Sort rows numbered from an ordinal on. -/
def numbered (order : ReplayOrder) (ordinal : Nat) (records : List RawMarketRecord) : List SortRow :=
  (records.zipIdx (ordinal + 1)).map fun p => sortRow order p.1 p.2

/-- The state after the rows of some records. -/
def scanned (filters : RawScanFilter) (order : ReplayOrder) (s : ScanState)
    (records : List RawMarketRecord) : ScanState :=
  { ordinal := s.ordinal + (matchingRecords filters records).length
    table := s.table ++ numbered order s.ordinal (matchingRecords filters records) }

theorem scanned_append (records records' : List RawMarketRecord) :
    (s.scanned filters order records).scanned filters order records' =
      s.scanned filters order (records ++ records') := by
  unfold scanned matchingRecords numbered
  simp only [List.map_append, List.filter_append, List.length_append, List.zipIdx_append,
    List.append_assoc, ScanState.mk.injEq]
  refine ⟨by omega, ?_⟩
  rw [Nat.add_right_comm]

theorem scanRow_row (file : RawFile) (r : RawMarketRecord) :
    scanRow tree filters order file s (row r) = .ok (s.scanned filters order [r]) := by
  have hversion : ¬ (row r).schemaVersion ≠ 1 := not_not.mpr rfl
  unfold scanRow
  rw [if_neg hversion, recordFromRow_row]
  simp only [bind, Except.bind, pure, Except.pure]
  unfold scanned matchingRecords numbered
  split_ifs with hmatch
  · simp [hmatch]
  · simp [hmatch]

theorem foldlM_scanRow (file : RawFile) (records : List RawMarketRecord) :
    (records.map row).foldlM (scanRow tree filters order file) s =
      .ok (s.scanned filters order records) := by
  induction records generalizing s with
  | nil => simp [scanned, matchingRecords, numbered, pure, Except.pure]
  | cons r records ih =>
      rw [List.map_cons, List.foldlM_cons, scanRow_row]
      show (records.map row).foldlM (scanRow tree filters order file) _ = _
      rw [ih, scanned_append, List.singleton_append]

/-- Neither the batch size nor how the reader cuts a file shows. -/
theorem scanFile_eq {reader : BatchReader} {batchSize : Nat} {file : RawFile}
    {records : List RawMarketRecord} (hschema : file.schemaMatches = true)
    (hrows : file.rows = records.map row) :
    scanFile reader batchSize tree filters order s file = .ok (s.scanned filters order records) := by
  have hcut : ∀ (batches : List (List RawRow)) (s : ScanState),
      batches.foldlM (fun s batch => batch.foldlM (scanRow tree filters order file) s) s =
        batches.flatten.foldlM (scanRow tree filters order file) s := by
    intro batches
    induction batches with
    | nil => intro s; rfl
    | cons batch batches ih =>
        intro s
        rw [List.foldlM_cons, List.flatten_cons, List.foldlM_append]
        exact congrArg _ (funext ih)
  unfold scanFile
  rw [if_neg (by simp [hschema]), hcut, reader.flatten_iterBatches, hrows, foldlM_scanRow]

theorem foldlM_scanFile {reader : BatchReader} {batchSize : Nat} {files : List RawFile}
    {records : List RawMarketRecord} (hschema : ∀ file ∈ files, file.schemaMatches = true)
    (hrows : files.flatMap RawFile.rows = records.map row) :
    files.foldlM (scanFile reader batchSize tree filters order) s =
      .ok (s.scanned filters order records) := by
  induction files generalizing s records with
  | nil =>
      obtain rfl : records = [] := by simpa using hrows.symm
      simp [scanned, matchingRecords, numbered, pure, Except.pure]
  | cons file files ih =>
      rw [List.flatMap_cons] at hrows
      obtain ⟨first, rest, rfl, hfirst, hrest⟩ := List.map_eq_append_iff.mp hrows.symm
      rw [List.foldlM_cons, scanFile_eq (hschema file List.mem_cons_self) hfirst.symm]
      show files.foldlM (scanFile reader batchSize tree filters order) _ = _
      rw [ih (fun f hf => hschema f (List.mem_cons_of_mem _ hf)) hrest.symm, scanned_append]

end ScanState

/-- The sorted table yields the records in the order of their keys. -/
theorem mapM_sorted_table {order : ReplayOrder} {records : List RawMarketRecord}
    (htext : ∀ r ∈ records, r.withTextSequence = r)
    (hunique : (records.map RawMarketRecord.recordId).Nodup) :
    (sortByKey SortRow.key (ScanState.numbered order 0 records)).mapM recordFromSortRow =
      .ok (sortByKey (stableRecordKey order) records) := by
  obtain ⟨pairs, hpairs, hsorted⟩ :=
    exists_perm_map (sortByKey_perm SortRow.key (ScanState.numbered order 0 records))
  have hfst : (pairs.map Prod.fst).Perm records := by
    have hmap := hpairs.map Prod.fst
    rwa [List.zipIdx_map_fst] at hmap
  have hread : (pairs.map fun p => sortRow order p.1 p.2).mapM recordFromSortRow =
      .ok (pairs.map Prod.fst) := by
    apply mapM_map_eq_ok
    intro p hp
    rw [recordFromSortRow_sortRow, htext p.1 (hfst.mem_iff.mp (List.mem_map_of_mem hp))]
  have hpairwise : (pairs.map Prod.fst).Pairwise fun r s =>
      stableRecordKey order r ≤ stableRecordKey order s := by
    have hkeys := pairwise_sortByKey SortRow.key (ScanState.numbered order 0 records)
    rw [hsorted] at hkeys
    rw [List.pairwise_map] at hkeys ⊢
    exact hkeys.imp stableRecordKey_le_of_key_le
  have hkey : ∀ r ∈ records, ∀ s ∈ records,
      stableRecordKey order r = stableRecordKey order s → r = s := fun r hr s hs heq =>
    List.inj_on_of_nodup_map hunique hr hs (recordId_eq_of_stableRecordKey_eq heq)
  rw [hsorted, hread, eq_sortByKey hfst hpairwise hkey]

/-- The files of the tree hold the rows of the records, in any distribution and order. -/
def RawTree.Holds (tree : RawTree) (records : List RawMarketRecord) : Prop :=
  (∀ file ∈ tree.files, file.schemaMatches = true) ∧ tree.rows.Perm (records.map row)

theorem recordIds_matchingRecords (filters : RawScanFilter) (records : List RawMarketRecord) :
    ((matchingRecords filters records).map RawMarketRecord.recordId).Sublist
      (records.map RawMarketRecord.recordId) := by
  have hsublist := (List.filter_sublist (p := filters.matches)
    (l := records.map RawMarketRecord.withTextSequence)).map RawMarketRecord.recordId
  rw [List.map_map] at hsublist
  exact hsublist

theorem withTextSequence_of_mem_matchingRecords {filters : RawScanFilter}
    {records : List RawMarketRecord} {r : RawMarketRecord} (h : r ∈ matchingRecords filters records) :
    r.withTextSequence = r := by
  obtain ⟨s, -, rfl⟩ := List.mem_map.mp (List.mem_of_mem_filter h)
  exact s.withTextSequence_idem

/-- A scan yields the matching records, sorted. -/
theorem iterRecords_ok {reader : RawParquetReader} {records : List RawMarketRecord}
    (hunique : (records.map RawMarketRecord.recordId).Nodup) (hholds : reader.tree.Holds records)
    (filters : RawScanFilter) (order : ReplayOrder) :
    reader.iterRecords filters order =
      .ok (sortByKey (stableRecordKey order) (matchingRecords filters records)) := by
  obtain ⟨hschema, hrows⟩ := hholds
  obtain ⟨read, hread, hflat⟩ := exists_perm_map (reader.tree.rows_sortedFiles.trans hrows)
  have hsorted : ∀ file ∈ reader.tree.sortedFiles, file.schemaMatches = true := fun file hfile =>
    hschema file (reader.tree.sortedFiles_perm.mem_iff.mp hfile)
  have hids : ((matchingRecords filters records).map RawMarketRecord.recordId).Nodup :=
    (recordIds_matchingRecords filters records).nodup hunique
  have hmatching : (matchingRecords filters read).Perm (matchingRecords filters records) :=
    (hread.map _).filter _
  have hkey : ∀ r ∈ matchingRecords filters records, ∀ s ∈ matchingRecords filters records,
      stableRecordKey order r = stableRecordKey order s → r = s := fun r hr s hs heq =>
    List.inj_on_of_nodup_map hids hr hs (recordId_eq_of_stableRecordKey_eq heq)
  have hidsRead : ((matchingRecords filters read).map RawMarketRecord.recordId).Nodup :=
    ((hmatching.map _).nodup_iff).mpr hids
  unfold RawParquetReader.iterRecords
  rw [ScanState.foldlM_scanFile hsorted hflat]
  show (sortByKey SortRow.key (ScanState.numbered order 0 (matchingRecords filters read))).mapM
    recordFromSortRow = _
  rw [mapM_sorted_table (fun r hr => withTextSequence_of_mem_matchingRecords hr) hidsRead,
    sortByKey_perm_eq hmatching hkey]

theorem compactedTree_holds {reader : BatchReader} {uuidHex : Nat → String} {source : RawTree}
    {output : String} {targetRows : Nat} (h : 1 ≤ targetRows) {records : List RawMarketRecord}
    (hholds : source.Holds records) :
    (compactedTree reader uuidHex source output targetRows).Holds records := by
  refine ⟨fun file hfile => (compactedTree_files h file hfile).1, ?_⟩
  rw [compactedTree_rows h]
  exact source.rows_sortedFiles.trans hholds.2

/-- Replay does not depend on the layout.  Every tree that holds the records, read with any batch size,
yields the matching ones sorted by their keys, sequence ids as text; so a tree and its compaction replay
the same sequence. -/
theorem replay_independent_of_layout (records : List RawMarketRecord)
    (hunique : (records.map RawMarketRecord.recordId).Nodup) (filters : RawScanFilter)
    (order : ReplayOrder) :
    (∀ reader : RawParquetReader, reader.tree.Holds records →
      reader.iterRecords filters order =
        .ok (sortByKey (stableRecordKey order) (matchingRecords filters records))) ∧
    (∀ reader compacted : RawParquetReader, reader.tree.Holds records →
      ∀ (batches : BatchReader) (uuidHex : Nat → String) (output : String) (targetRows : Nat),
        1 ≤ targetRows →
        compacted.tree = compactedTree batches uuidHex reader.tree output targetRows →
        compacted.iterRecords filters order = reader.iterRecords filters order) := by
  refine ⟨fun reader hholds => iterRecords_ok hunique hholds filters order, ?_⟩
  intro reader compacted hholds batches uuidHex output targetRows htarget htree
  have hcompacted : compacted.tree.Holds records := htree ▸ compactedTree_holds htarget hholds
  rw [iterRecords_ok hunique hholds, iterRecords_ok hunique hcompacted]

theorem tradesChannel_not_blank : isBlank "trades" = false := by
  decide +kernel

theorem marketData_not_blank : isBlank "market_data" = false := by
  decide +kernel

/-- A trade of an integer sequence id. -/
def numberedTrade : RawMarketRecord :=
  { recordId := { int := 1, lt := Uuid.one_lt_limit }
    exchange := .binance
    symbol := "BTC-USDT-PERP"
    channel := "trades"
    messageKind := "market_data"
    transport := .websocket
    exchangeTimestamp := some (-5)
    localReceiveTimestamp := -3
    normalizationTimestamp := none
    sequenceId := some (.int 7)
    connectionGeneration := 0
    rawPayload := ⟨#[123, 125]⟩
    symbol_canonical := validateCanonicalSymbol_bitcoin
    channel_not_blank := tradesChannel_not_blank
    messageKind_not_blank := marketData_not_blank }

/-- The default batch size. -/
theorem one_le_batchSize : 1 ≤ 4096 := by
  norm_num

/-- The next trade, of a textual sequence id and without an exchange time. -/
def laterTrade : RawMarketRecord :=
  { numberedTrade with
    recordId := { int := 2, lt := Uuid.two_lt_limit }
    exchangeTimestamp := none
    localReceiveTimestamp := -1
    sequenceId := some (.text "8") }

def exampleTrades : List RawMarketRecord := [numberedTrade, laterTrade]

/-- A file for each trade, the later one first. -/
def exampleTradesReader : RawParquetReader :=
  { tree :=
      { root := "raw"
        files := [
          { directory := partitionDirectory (rowPartition (row laterTrade))
            name := "part-a.parquet"
            rows := [row laterTrade] },
          { directory := partitionDirectory (rowPartition (row numberedTrade))
            name := "part-b.parquet"
            rows := [row numberedTrade] }] }
    reader := BatchReader.oneGroup
    batchSize_pos := one_le_batchSize }

theorem exampleTradesReader_holds : exampleTradesReader.tree.Holds exampleTrades := by
  refine ⟨?_, List.Perm.swap ..⟩
  intro file hfile
  rcases List.mem_pair.mp hfile with rfl | rfl <;> rfl

theorem nodup_exampleTrades : (exampleTrades.map RawMarketRecord.recordId).Nodup := by
  show [(⟨1, Uuid.one_lt_limit⟩ : Uuid), ⟨2, Uuid.two_lt_limit⟩].Nodup
  decide

/-- Names that differ in length. -/
def exampleHex (n : Nat) : String := String.ofList (List.replicate n '0')

theorem exampleHex_injective : Function.Injective exampleHex := by
  intro m n heq
  have hlength := congrArg (fun text => text.toList.length) heq
  simpa [exampleHex] using hlength

/-- The two files compacted into one. -/
def compactedTradesReader : RawParquetReader :=
  { tree := compactedTree BatchReader.oneGroup exampleHex exampleTradesReader.tree "compacted" 2
    reader := BatchReader.oneGroup
    batchSize_pos := one_le_batchSize }

/-- `RawScanFilter()` -/
def RawScanFilter.all : RawScanFilter := { ordered := by simp, disjoint := by simp }

/-- Two files and the one they are compacted into replay the same two trades. -/
theorem replay_independent_of_layout_two_files :
    compactedTradesReader.tree.files.map RawFile.rows = [[row laterTrade, row numberedTrade]] ∧
      exampleTradesReader.iterRecords RawScanFilter.all .eventTime =
        .ok (sortByKey (stableRecordKey .eventTime)
          (matchingRecords RawScanFilter.all exampleTrades)) ∧
      compactedTradesReader.iterRecords RawScanFilter.all .eventTime =
        exampleTradesReader.iterRecords RawScanFilter.all .eventTime := by
  obtain ⟨hread, hcompacted⟩ := replay_independent_of_layout exampleTrades nodup_exampleTrades
    RawScanFilter.all .eventTime
  refine ⟨by decide +kernel, hread exampleTradesReader exampleTradesReader_holds, ?_⟩
  exact hcompacted exampleTradesReader compactedTradesReader exampleTradesReader_holds
    BatchReader.oneGroup exampleHex "compacted" 2 (by norm_num) rfl

/-- The record that comes back has a textual sequence id, so it is not the record that was stored. -/
theorem integer_sequence_comes_back_as_text :
    ¬ ∀ (records : List RawMarketRecord) (reader : RawParquetReader),
      (records.map RawMarketRecord.recordId).Nodup → reader.tree.Holds records →
        reader.iterRecords RawScanFilter.all .eventTime =
          .ok (sortByKey (stableRecordKey .eventTime)
            (records.filter RawScanFilter.all.matches)) := by
  intro h
  have hclaim := h exampleTrades exampleTradesReader nodup_exampleTrades exampleTradesReader_holds
  have hscan := iterRecords_ok nodup_exampleTrades exampleTradesReader_holds RawScanFilter.all .eventTime
  rw [hscan] at hclaim
  have hids := congrArg (fun records => records.map RawMarketRecord.sequenceId)
    (Except.ok.inj hclaim)
  revert hids
  decide +kernel

end Cvf
