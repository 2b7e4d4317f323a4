/-
# Cvf.Storage.CollectionManifest — the manifest of a collection, and what makes its tree clean.

A collection claims an empty directory with an `IN_PROGRESS` manifest and, once its writer is closed and
its tree audited, replaces it by a `CLEAN_END` manifest that repeats the audit.  `validateCleanCollection`
asks for that manifest, for the audit it repeats and for a journal that ends in one terminal marker.

A directory is a `FileTree` whose files are text or Parquet.  The JSON of the manifests, like that of
the events, the hash of a row, and how Parquet files are read in batches, come from outside the
repository (`CollectionCodecs`).
-/
import Cvf.Library.FileTree
import Cvf.Replay.Normalizer

namespace Cvf

open Cvf.Library

/-! ## Directories -/

inductive FileContent where
  | text (text : String)
  | parquet (schemaMatches : Bool) (rows : List RawRow)

/-- The rows of a readable Parquet file. -/
def FileContent.rows : FileContent → List RawRow
  | .text _ => []
  | .parquet _ rows => rows

abbrev CollectionTree := FileTree FileContent

/-- A name matches `*suffix`. -/
def nameEndsWith (suffix : String) (path : List String) : Bool :=
  path.getLast?.any fun name => suffix.toList.isSuffixOf name.toList

namespace CollectionTree

/-- `rglob("*suffix")`: files and directories. -/
def rglob (tree : CollectionTree) (suffix : String) : List (List String) :=
  (tree.directories ++ tree.files.map Prod.fst).filter (nameEndsWith suffix)

/-- A Parquet file as the library opens it. -/
def openParquet (tree : CollectionTree) (file : List String × FileContent) : Except String RawFile :=
  match file.2 with
  | .text _ => .error s!"Could not open Parquet input source: {tree.pathText file.1}"
  | .parquet schemaMatches rows =>
    .ok { directory := file.1.dropLast, name := file.1.getLast?.getD "", schemaMatches, rows }

/-- The Parquet files below the root; where one of them cannot be opened, no reader gets through. -/
def rawTree (tree : CollectionTree) : Except String RawTree :=
  match tree.directories.find? (nameEndsWith ".parquet") with
  | some directory => .error s!"Cannot open for reading: path '{tree.pathText directory}' is a directory"
  | none => do
    let files ← (tree.selected (nameEndsWith ".parquet")).mapM tree.openParquet
    return { root := tree.root, files }

/-- The rows of the readable Parquet files. -/
def rows (tree : CollectionTree) : List RawRow :=
  (tree.selected (nameEndsWith ".parquet")).flatMap fun file => file.2.rows

end CollectionTree

/-! ## Manifests -/

def collectionManifestFilename : String := "_collection_manifest.json"

def compactionInProgressFilename : String := "_compaction_in_progress"

inductive CollectionTerminal where
  | inProgress
  | cleanEnd
  deriving DecidableEq, Repr

/-- The fields of an audit that compaction leaves as they are. -/
structure RawLogicalAudit where
  rows : Nat
  uniqueRecordIds : Nat
  contentDigest : String
  payloadBytes : Nat
  partitions : Nat
  deriving DecidableEq, Repr

def RawLogicalAudit.fromRawAudit (audit : RawAudit) : RawLogicalAudit :=
  { rows := audit.rows
    uniqueRecordIds := audit.uniqueRecordIds
    contentDigest := audit.contentDigest
    payloadBytes := audit.payloadBytes
    partitions := audit.partitions }

structure CollectionManifest where
  runId : Uuid
  startedAt : Int
  terminal : CollectionTerminal
  terminalAt : Option Int := none
  featureTimelineEndAt : Option Int := none
  codeVersion : String
  codeSha256 : String
  strategyVersion : String
  settingsSha256 : String
  normalizedEventCount : Option Nat := none
  rawAudit : Option RawLogicalAudit := none
  deriving DecidableEq

/-- `versions_are_not_empty` and `lifecycle_fields_match_terminal`. -/
def CollectionManifest.validate (manifest : CollectionManifest) : Except String Unit :=
  if isBlank manifest.codeVersion || isBlank manifest.strategyVersion then
    .error "collection manifest versions cannot be empty"
  else
    match manifest.terminal, manifest.terminalAt, manifest.featureTimelineEndAt,
        manifest.normalizedEventCount, manifest.rawAudit with
    | .inProgress, none, none, none, none => .ok ()
    | .inProgress, _, _, _, _ =>
      .error "IN_PROGRESS collection manifest cannot contain terminal evidence"
    | .cleanEnd, some terminalAt, some featureTimelineEndAt, some _, some _ =>
      if terminalAt < manifest.startedAt then .error "collection terminal precedes collection start"
      else if featureTimelineEndAt < manifest.startedAt then
        .error "feature timeline end precedes collection start"
      else if terminalAt < featureTimelineEndAt then
        .error "feature timeline end follows collection terminal"
      else .ok ()
    | .cleanEnd, _, _, _, _ => .error "CLEAN_END collection manifest requires complete terminal evidence"

/-- `model_payload_json` and `model_validate_json` of the manifest. -/
structure ManifestCodec where
  payloadJson : CollectionManifest → String
  validateJson : String → Except String CollectionManifest

/-- What the storage code calls outside the repository. -/
structure CollectionCodecs where
  events : EventCodec
  manifests : ManifestCodec
  /-- The venue normalizer, which no journal row reaches. -/
  venue : RawMarketRecord → Except String (List NormalizedMarketEvent)
  rowHash : RawRow → Nat
  batches : BatchReader

/-- What a manifest file contains. -/
def ManifestCodec.payload (codec : ManifestCodec) (manifest : CollectionManifest) : String :=
  codec.payloadJson manifest ++ "\n"

/-! ## Evidence -/

structure CollectionEvidence where
  journal : Bool
  manifest : Bool
  incomplete : Bool := false
  deriving DecidableEq, Repr

def CollectionEvidence.any (evidence : CollectionEvidence) : Bool :=
  evidence.journal || evidence.manifest || evidence.incomplete

/-- `_MANIFEST_TEMP_GLOB` -/
def isManifestTemporary (path : List String) : Bool :=
  let start := s!".{collectionManifestFilename}."
  match path with
  | [name] =>
    start.toList.isPrefixOf name.toList && ".tmp".toList.isSuffixOf (name.toList.drop start.length)
  | _ => false

/-- `has_channel` -/
def CollectionTree.hasChannel (tree : CollectionTree) (channel : String) : Bool :=
  tree.directories.any fun directory => directory.getLast? = some ("channel=" ++ quote channel)

def inspectCollectionEvidence (tree : CollectionTree) : CollectionEvidence :=
  if !tree.present then { journal := false, manifest := false, incomplete := false }
  else
    { journal := tree.hasChannel normalizedEventJournalChannel
      manifest := tree.contains [collectionManifestFilename] ||
        (tree.directories ++ tree.files.map Prod.fst).any isManifestTemporary
      incomplete := tree.contains [compactionInProgressFilename] }

def readCollectionManifest (codec : ManifestCodec) (tree : CollectionTree) :
    Except String CollectionManifest :=
  let path := [collectionManifestFilename]
  if tree.contains [compactionInProgressFilename] then
    let sentinel := [compactionInProgressFilename]
    .error s!"raw compaction did not reach audited completion: {tree.pathText sentinel}"
  else
    match tree.lookup path with
    | none => .error s!"collection manifest is missing: {tree.pathText path}"
    | some (.parquet _ _) => .error s!"collection manifest is corrupt: {tree.pathText path}"
    | some (.text text) =>
      match codec.validateJson text with
      | .error _ => .error s!"collection manifest is corrupt: {tree.pathText path}"
      | .ok manifest => .ok manifest

/-! ## The journal -/

structure NormalizedJournalAudit where
  normalizedEventCount : Nat
  terminalMarkerCount : Nat
  terminalMarkerAt : Int
  deriving DecidableEq, Repr

/-- The locals of the loop of `audit_normalized_journal`. -/
structure JournalAuditState where
  normalizedEventCount : Nat := 0
  terminalMarkerCount : Nat := 0
  terminalMarkerAt : Option Int := none
  latestEventReceiveAt : Option Int := none
  deriving DecidableEq, Repr

theorem journalFilter_ordered : ∀ a ∈ (none : Option Int), ∀ b ∈ (none : Option Int), a ≤ b := by simp

theorem journalFilter_disjoint : ∀ cs ∈ some ({normalizedEventJournalChannel} : Finset String),
    Disjoint cs ∅ := by simp

/-- The rows of the journal. -/
def journalFilter : RawScanFilter :=
  { channels := some {normalizedEventJournalChannel}
    ordered := journalFilter_ordered
    disjoint := journalFilter_disjoint }

variable (codecs : CollectionCodecs)

def auditJournalRecord (s : JournalAuditState) (r : RawMarketRecord) :
    Except String JournalAuditState :=
  if r.messageKind = featureTimelineEndMessageKind then
    if 1 < s.terminalMarkerCount + 1 then
      .error "normalized journal requires exactly one terminal marker"
    else
      match featureTimelineEndTimestamp codecs.events r with
      | .error e => .error e
      | .ok terminalMarkerAt =>
        .ok { s with terminalMarkerCount := s.terminalMarkerCount + 1, terminalMarkerAt }
  else if s.terminalMarkerCount ≠ 0 then
    .error "normalized journal contains a record after its terminal marker"
  else
    match normalize codecs.events codecs.venue r with
    | .error _ => .error "normalized journal contains an invalid event record"
    | .ok [event] =>
      let receivedAt := event.base.localReceiveTimestamp
      .ok
        { s with
          latestEventReceiveAt := some (s.latestEventReceiveAt.elim receivedAt (max · receivedAt))
          normalizedEventCount := s.normalizedEventCount + 1 }
    | .ok _ => .error "each normalized journal row must contain exactly one event"

/-- What is checked behind the loop. -/
def JournalAuditState.finish (s : JournalAuditState) (requireNormalizedEvents : Bool) :
    Except String NormalizedJournalAudit :=
  if requireNormalizedEvents && s.normalizedEventCount = 0 then .error "normalized journal is empty"
  else
    match s.terminalMarkerAt with
    | none => .error "normalized journal requires exactly one terminal marker"
    | some terminalMarkerAt =>
      if s.terminalMarkerCount ≠ 1 then
        .error "normalized journal requires exactly one terminal marker"
      else if s.latestEventReceiveAt.any (terminalMarkerAt < ·) then
        .error "normalized journal event exceeds its terminal watermark"
      else
        .ok
          { normalizedEventCount := s.normalizedEventCount
            terminalMarkerCount := s.terminalMarkerCount
            terminalMarkerAt }

/-- `iter_records` over the journal, in receive order. -/
def journalRecords (tree : CollectionTree) : Except String (List RawMarketRecord) := do
  let raw ← tree.rawTree
  RawParquetReader.iterRecords
    { tree := raw, reader := codecs.batches, batchSize_pos := one_le_batchSize } journalFilter .receiveTime

def auditNormalizedJournal (tree : CollectionTree) (requireNormalizedEvents : Bool) :
    Except String NormalizedJournalAudit :=
  if !tree.hasChannel normalizedEventJournalChannel then
    .error "collection manifest exists but normalized journal is missing"
  else do
    let records ← journalRecords codecs tree
    let s ← records.foldlM (auditJournalRecord codecs) {}
    s.finish requireNormalizedEvents

/-- `audit_raw_tree` of a directory. -/
def auditTree (tree : CollectionTree) : Except String RawAudit := do
  let raw ← tree.rawTree
  auditRawTree codecs.rowHash codecs.batches raw

/-! ## Clean collections -/

structure CleanCollectionValidation where
  manifest : CollectionManifest
  rawAudit : RawAudit
  normalizedEventCount : Nat
  terminalMarkerCount : Nat

/-- `validate_clean_collection`; a caller that has audited the tree hands the audit over. -/
def validateCleanCollection (tree : CollectionTree) (rawAudit : Option RawAudit) :
    Except String CleanCollectionValidation :=
  match sortByKey id (tree.rglob ".tmp") with
  | unfinished :: _ =>
    .error s!"collection contains unfinished temporary files: {tree.pathText unfinished}"
  | [] => do
    let manifest ← readCollectionManifest codecs.manifests tree
    if manifest.terminal ≠ .cleanEnd then .error "collection manifest has no CLEAN_END terminal"
    else
      let audited ← rawAudit.elim (auditTree codecs tree) .ok
      if manifest.rawAudit ≠ some (.fromRawAudit audited) then
        .error "collection manifest raw logical audit mismatch"
      else
        let journal ← auditNormalizedJournal codecs tree true
        if manifest.normalizedEventCount ≠ some journal.normalizedEventCount then
          .error "collection manifest normalized journal count mismatch"
        else if manifest.featureTimelineEndAt ≠ some journal.terminalMarkerAt then
          .error "collection manifest terminal marker timestamp mismatch"
        else
          return {
            manifest
            rawAudit := audited
            normalizedEventCount := journal.normalizedEventCount
            terminalMarkerCount := journal.terminalMarkerCount }

/-! ## The steps that write a manifest -/

/-- A new text file in the root. -/
def newTextFile (name text : String) : List (FileStep FileContent) :=
  [.mkdir [], .create [name] (.text ""), .write [name] (.text text)]

/-- `_atomic_write_manifest`; `uuidHex` names the temporary file. -/
def atomicWriteManifest (codec : ManifestCodec) (uuidHex : String) (manifest : CollectionManifest) :
    List (FileStep FileContent) :=
  .mkdir [] :: FileTree.replaceSteps [s!".{collectionManifestFilename}.{uuidHex}.tmp"]
    [collectionManifestFilename] (.text "") (.text (codec.payload manifest))

/-- `_claim_collection_manifest` -/
def claimCollectionManifest (codec : ManifestCodec) (tree : CollectionTree)
    (manifest : CollectionManifest) : List (FileStep FileContent) × Except String Unit :=
  if tree.directories ≠ [] ∨ tree.files.map Prod.fst ≠ [] then
    ([.mkdir []], .error s!"collection output is not empty: {tree.pathText []}")
  else
    (newTextFile collectionManifestFilename (codec.payload manifest), .ok ())

/-- `complete_collection_manifest` up to the write. -/
def completedManifest (codec : ManifestCodec) (tree : CollectionTree) (expectedRunId : Uuid)
    (terminalAt featureTimelineEndAt : Int) (normalizedEventCount : Nat) (rawAudit : RawAudit) :
    Except String CollectionManifest := do
  let current ← readCollectionManifest codec tree
  if current.runId ≠ expectedRunId then .error "collection manifest run_id changed during capture"
  else if current.terminal ≠ .inProgress then
    .error "collection manifest is not in the IN_PROGRESS state"
  else
    let clean :=
      { current with
        terminal := .cleanEnd
        terminalAt := some terminalAt
        featureTimelineEndAt := some featureTimelineEndAt
        normalizedEventCount := some normalizedEventCount
        rawAudit := some (.fromRawAudit rawAudit) }
    let _ ← clean.validate
    return clean

/-- `preserve_clean_collection_manifest` up to the write. -/
def preservedManifest (manifest : CollectionManifest) (rawAudit : RawAudit) :
    Except String CollectionManifest :=
  if manifest.terminal ≠ .cleanEnd then .error "only a CLEAN_END manifest can be preserved"
  else if manifest.rawAudit ≠ some (.fromRawAudit rawAudit) then
    .error "compacted raw logical audit does not match the clean manifest"
  else .ok manifest

end Cvf
