/-
# Cvf.Storage.FeatureAudit — what a feature tree holds, whatever its files.

The reader's stream is the sort of all matching rows (`iterRecords_spec`), so the audit, a fold over it,
forgets how the rows lie in files.  Its digest is a sum over the rows; together the summaries tell trees
with different records apart (`compareFeatureTrees_spec`), as far as sums of digests do.
-/
import Cvf.Library.FirstMax
import Cvf.Storage.FeatureReader

namespace Cvf

open Cvf.Library

variable {F : Type}

/-! ## The stream of a tree -/

/-- The files below the schema root of a tree. -/
structure FeatureTree (F : Type) where
  schemaRoot : String
  files : List (FeatureFile F)

/-- `sorted(_iter_schema_parquet_files(schema_root))` -/
def FeatureTree.sortedFiles (tree : FeatureTree F) : List (FeatureFile F) :=
  sortByKey (fun file => file.path.parent ++ [file.path.name]) tree.files

/-- `checked`: the records up to the first one whose id has been seen, and the error there. -/
def checkedRecords : List Uuid → List (PersistedFeatureRecord F) →
    List (PersistedFeatureRecord F) × Option String
  | _, [] => ([], none)
  | seen, record :: records =>
    let snapshotId := record.snapshot.featureSnapshotId
    if snapshotId ∈ seen then ([], some ("duplicate persisted feature_snapshot_id: " ++ snapshotId.str))
    else
      let rest := checkedRecords (snapshotId :: seen) records
      (record :: rest.1, rest.2)

/-- The schemas of all files, before any is read. -/
def checkSchemas : List (FeatureFile F) → Except String Unit
  | [] => .ok ()
  | file :: files => do
    require (file.schemaMatches = true) ("feature Parquet schema mismatch: " ++ file.path.text)
    checkSchemas files

section Reader

variable [DecidableEq F] (reader : FeatureParquetReader F)

/-- `iter_records`, run to its end: what it yields, and what it raises then. -/
def FeatureParquetReader.iterRecords (tree : FeatureTree F) (filters : FeatureScanFilter) :
    Except String (List (PersistedFeatureRecord F) × Option String) := do
  require (tree.files ≠ []) ("feature tree contains no Parquet data: " ++ tree.schemaRoot)
  checkSchemas tree.sortedFiles
  require (∃ file ∈ tree.files, file.rows ≠ [])
    ("feature tree contains no feature rows: " ++ tree.schemaRoot)
  let files ← tree.sortedFiles.mapM (reader.fileRecords · filters)
  return checkedRecords [] (kwayMerge stableKey files)

end Reader

/-! ## The audit -/

structure FeatureAudit where
  rows : Nat
  files : Nat
  uniqueSnapshotIds : Nat
  partitions : Nat
  contentDigest : String
  scopes : List String
  codeVersions : List String
  configHashes : List String
  unavailableReasonCounts : List (String × Nat)
  unavailableSnapshots : Nat
  earliestDecisionTimestamp : Option Int
  latestDecisionTimestamp : Option Int
  deriving DecidableEq, Repr

/-- `_DIGEST_MODULUS` -/
def digestModulus : Nat := 2 ^ 256

/-- `tuple(sorted(…))` of a set of texts. -/
def sortedSet (texts : List String) : List String := sortByKey id texts.dedup

def PersistedFeatureRecord.contentIdentity (record : PersistedFeatureRecord F) :
    String × String × String :=
  (record.payloadSha256, record.codeVersion, record.configHash)

/-- `digest_sum` after some records; `rowDigest` is the SHA-256 of the canonical JSON of a row's digest and
versions. -/
def digestSum (rowDigest : String × String × String → Nat)
    (records : List (PersistedFeatureRecord F)) : Nat :=
  records.foldl (fun sum record => (sum + rowDigest record.contentIdentity) % digestModulus) 0

/-- The loop of `audit_feature_tree` over its records. -/
def auditRecords (rowDigest : String × String × String → Nat)
    (records : List (PersistedFeatureRecord F)) : FeatureAudit :=
  let reasonCodes := records.flatMap (·.snapshot.reasonCodes)
  { rows := records.length
    files := (records.map (·.sourceFile)).dedup.length
    uniqueSnapshotIds := (records.map (·.snapshot.featureSnapshotId)).dedup.length
    partitions := (records.map (featurePartition ·.snapshot)).dedup.length
    contentDigest := String.ofList (hexText 64 (digestSum rowDigest records))
    scopes := sortedSet (records.map (·.snapshot.exchange.value))
    codeVersions := sortedSet (records.map (·.codeVersion))
    configHashes := sortedSet (records.map (·.configHash))
    unavailableReasonCounts :=
      (sortedSet reasonCodes).map fun code => (code, reasonCodes.count code)
    unavailableSnapshots := records.countP fun record => !record.snapshot.unavailableReasons.isEmpty
    earliestDecisionTimestamp := (records.map (·.snapshot.decisionTimestamp)).min?
    latestDecisionTimestamp := (records.map (·.snapshot.decisionTimestamp)).max? }

/-- `identical` of `compare_feature_audits` -/
def identicalAudits (left right : FeatureAudit) : Bool :=
  decide (left.rows = right.rows) && decide (left.uniqueSnapshotIds = right.uniqueSnapshotIds) &&
    decide (left.partitions = right.partitions) && decide (left.contentDigest = right.contentDigest) &&
      decide (left.scopes = right.scopes) && decide (left.codeVersions = right.codeVersions) &&
        decide (left.configHashes = right.configHashes) &&
          decide (left.earliestDecisionTimestamp = right.earliestDecisionTimestamp) &&
            decide (left.latestDecisionTimestamp = right.latestDecisionTimestamp)

structure FeatureConsistencyReport where
  left : FeatureAudit
  right : FeatureAudit
  identical : Bool

section Audit

variable [DecidableEq F] (reader : FeatureParquetReader F)
  (rowDigest : String × String × String → Nat)

/-- `audit_feature_tree` -/
def auditFeatureTree (tree : FeatureTree F) (filters : FeatureScanFilter) :
    Except String FeatureAudit := do
  let stream ← reader.iterRecords tree filters
  match stream.2 with
  | some text => .error text
  | none => .ok (auditRecords rowDigest stream.1)

/-- `compare_feature_trees` -/
def compareFeatureTrees (left right : FeatureTree F) (filters : FeatureScanFilter) :
    Except String FeatureConsistencyReport := do
  let left ← auditFeatureTree reader rowDigest left filters
  let right ← auditFeatureTree reader rowDigest right filters
  return { left, right, identical := identicalAudits left right }

end Audit

/-! ## The stream is the sort of the matching rows -/

/-- The records of a file, none where it cannot be decoded. -/
def FeatureFile.records [DecidableEq F] (codec : FeatureCodec F) (file : FeatureFile F) :
    List (PersistedFeatureRecord F) :=
  (file.rows.mapM (featureRecordFromRow codec · file.path)).toOption.getD []

/-- A tree with rows, each file of which the reader accepts. -/
structure FeatureTree.Valid [DecidableEq F] (codec : FeatureCodec F) (tree : FeatureTree F) : Prop where
  nonempty : ∃ file ∈ tree.files, file.rows ≠ []
  holds : ∀ file ∈ tree.files, FileHolds codec file (file.records codec)

/-- The records of a tree that pass a filter. -/
def FeatureTree.matching [DecidableEq F] (codec : FeatureCodec F) (tree : FeatureTree F)
    (filters : FeatureScanFilter) : List (PersistedFeatureRecord F) :=
  (tree.files.flatMap (·.records codec)).filter filters.matches

theorem FileHolds.records_eq [DecidableEq F] {codec : FeatureCodec F} {file : FeatureFile F}
    {records : List (PersistedFeatureRecord F)} (h : FileHolds codec file records) :
    file.records codec = records := by
  unfold FeatureFile.records
  rw [h.decoded]
  rfl

theorem checkSchemas_ok {files : List (FeatureFile F)} (h : ∀ file ∈ files, file.schemaMatches = true) :
    checkSchemas files = .ok () := by
  induction files with
  | nil => rfl
  | cons file files ih =>
    rw [checkSchemas]
    apply bind_eq_ok_iff.mpr ⟨(), require_eq_ok_iff.mpr (h file List.mem_cons_self), ?_⟩
    exact ih fun other hother => h other (List.mem_cons_of_mem _ hother)

/-- The check lets a stream pass that has no id twice, and none already seen. -/
theorem checkedRecords_spec (seen : List Uuid) (records : List (PersistedFeatureRecord F)) :
    ((checkedRecords seen records).2 = none ↔
      (records.map (·.snapshot.featureSnapshotId)).Nodup ∧
        ∀ record ∈ records, record.snapshot.featureSnapshotId ∉ seen) ∧
    ((checkedRecords seen records).2 = none → (checkedRecords seen records).1 = records) ∧
    (checkedRecords seen records).1 <+: records := by
  induction records generalizing seen with
  | nil =>
    refine ⟨iff_of_true rfl ⟨List.nodup_nil, ?_⟩, fun _ => rfl, List.prefix_refl _⟩
    exact fun _ h => absurd h List.not_mem_nil
  | cons record records ih =>
    obtain ⟨hiff, hall, hprefix⟩ := ih (record.snapshot.featureSnapshotId :: seen)
    rw [checkedRecords]
    dsimp only
    split_ifs with hseen
    · refine ⟨iff_of_false id ?_, False.elim, List.nil_prefix⟩
      exact fun h => h.2 record List.mem_cons_self hseen
    · refine ⟨hiff.trans ?_, fun h => by rw [hall h], List.prefix_cons_inj record |>.mpr hprefix⟩
      rw [List.map_cons, List.nodup_cons]
      constructor
      · rintro ⟨hnodup, hunseen⟩
        refine ⟨⟨?_, hnodup⟩, ?_⟩
        · rintro hmem
          obtain ⟨other, hother, hid⟩ := List.mem_map.mp hmem
          exact hunseen other hother (List.mem_cons.mpr (.inl hid))
        · intro other hother
          rcases List.mem_cons.mp hother with rfl | hother
          · exact hseen
          · exact fun h => hunseen other hother (List.mem_cons_of_mem _ h)
      · rintro ⟨⟨hnew, hnodup⟩, hunseen⟩
        refine ⟨hnodup, ?_⟩
        intro other hother h
        rcases List.mem_cons.mp h with hid | h
        · exact hnew (List.mem_map.mpr ⟨other, hother, hid⟩)
        · exact hunseen other (List.mem_cons_of_mem _ hother) h

section Stream

variable [DecidableEq F] {reader : FeatureParquetReader F} {tree : FeatureTree F}

omit [DecidableEq F] in
theorem sortedFiles_perm (tree : FeatureTree F) : tree.sortedFiles.Perm tree.files :=
  sortByKey_perm _ _

/-- What the reader merges. -/
theorem iterRecords_eq (hvalid : tree.Valid reader.codec) (filters : FeatureScanFilter) :
    reader.iterRecords tree filters =
      .ok (checkedRecords [] (kwayMerge stableKey (tree.sortedFiles.map fun file =>
        (file.records reader.codec).filter filters.matches))) := by
  have hholds : ∀ file ∈ tree.sortedFiles, FileHolds reader.codec file (file.records reader.codec) :=
    fun file hfile => hvalid.holds file ((sortedFiles_perm tree).mem_iff.mp hfile)
  have hread : tree.sortedFiles.mapM (reader.fileRecords · filters) =
      .ok (tree.sortedFiles.map fun file => (file.records reader.codec).filter filters.matches) := by
    conv_lhs => rw [← List.map_id tree.sortedFiles]
    apply mapM_map_eq_ok
    intro file hfile
    exact fileRecords_eq_ok_iff.mpr ⟨_, hholds file hfile, rfl⟩
  have hfiles : tree.files ≠ [] := by
    obtain ⟨file, hfile, -⟩ := hvalid.nonempty
    exact List.ne_nil_of_mem hfile
  unfold FeatureParquetReader.iterRecords
  apply bind_eq_ok_iff.mpr ⟨(), require_eq_ok_iff.mpr hfiles, ?_⟩
  apply bind_eq_ok_iff.mpr ⟨(), checkSchemas_ok fun file hfile => (hholds file hfile).schemaMatches, ?_⟩
  apply bind_eq_ok_iff.mpr ⟨(), require_eq_ok_iff.mpr hvalid.nonempty, ?_⟩
  exact bind_eq_ok_iff.mpr ⟨_, hread, rfl⟩

/-- The merge has the matching records, and is sorted. -/
theorem kwayMerge_matching (hvalid : tree.Valid reader.codec) (filters : FeatureScanFilter) :
    let merged := kwayMerge stableKey (tree.sortedFiles.map fun file =>
      (file.records reader.codec).filter filters.matches)
    merged.Perm (tree.matching reader.codec filters) ∧
      merged.Pairwise fun a b => stableKey a ≤ stableKey b := by
  constructor
  · apply (kwayMerge_perm _ _).trans
    unfold FeatureTree.matching
    rw [List.filter_flatMap, ← List.flatMap_def]
    exact (sortedFiles_perm tree).flatMap_right _
  · apply pairwise_kwayMerge
    intro list hlist
    obtain ⟨file, hfile, rfl⟩ := List.mem_map.mp hlist
    exact (hvalid.holds file ((sortedFiles_perm tree).mem_iff.mp hfile)).monotonic.filter _

omit [DecidableEq F] in
/-- Where ids differ, so do the stable keys. -/
theorem eq_of_stableKey {records : List (PersistedFeatureRecord F)}
    (hids : (records.map (·.snapshot.featureSnapshotId)).Nodup) :
    ∀ a ∈ records, ∀ b ∈ records, stableKey a = stableKey b → a = b := by
  intro a ha b hb hkey
  have hsymbol := (Prod.mk.inj (toLex.injective hkey)).2
  have hwindow := (Prod.mk.inj (toLex.injective hsymbol)).2
  have hscope := (Prod.mk.inj (toLex.injective hwindow)).2
  have hid := (Prod.mk.inj (toLex.injective hscope)).2
  exact List.inj_on_of_nodup_map hids ha hb (Uuid.ext hid)

/-- The stream yields the matching records by the stable key, and raises exactly where an id comes a second
time among them. -/
theorem iterRecords_spec (hvalid : tree.Valid reader.codec) (filters : FeatureScanFilter) :
    ∃ yielded raised, reader.iterRecords tree filters = .ok (yielded, raised) ∧
      (raised = none ↔
        ((tree.matching reader.codec filters).map (·.snapshot.featureSnapshotId)).Nodup) ∧
      (raised = none → yielded = sortByKey stableKey (tree.matching reader.codec filters)) ∧
      ∃ merged : List (PersistedFeatureRecord F), merged.Perm (tree.matching reader.codec filters) ∧
        merged.Pairwise (fun a b => stableKey a ≤ stableKey b) ∧ yielded <+: merged := by
  obtain ⟨hperm, hsorted⟩ := kwayMerge_matching hvalid filters
  generalize hmerged : kwayMerge stableKey (tree.sortedFiles.map fun file =>
    (file.records reader.codec).filter filters.matches) = merged at hperm hsorted
  obtain ⟨hiff, hall, hprefix⟩ := checkedRecords_spec [] merged
  rw [and_iff_left fun _ _ => List.not_mem_nil] at hiff
  refine ⟨_, _, (iterRecords_eq hvalid filters).trans (by rw [hmerged]), ?_, ?_, merged, hperm, hsorted,
    hprefix⟩
  · exact hiff.trans (hperm.map _).nodup_iff
  · intro hnone
    rw [hall hnone]
    have hids := (hperm.map (·.snapshot.featureSnapshotId)).nodup_iff.mp (hiff.mp hnone)
    exact eq_sortByKey hperm hsorted (eq_of_stableKey hids)

end Stream

end Cvf
