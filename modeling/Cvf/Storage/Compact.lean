/-
# Cvf.Storage.Compact — the audit of a raw tree and its compaction.

`auditRawTree` checks every row and sums what identifies the rows as a multiset; the order of files and
rows does not enter (`auditRawTree_eq_ok_iff`, `auditRows_perm`).

`compactRawTree` streams the rows of a tree through one buffer that is written out when the partition
changes, when it is full, and at the end.  The invariant of the loop is that the rows written so far,
followed by the buffer, are the rows read so far (`CompactState.Sound`).  So what is written is the list
of rows that was read, cut into pieces of one partition and at most `target_rows` rows; its audit is the
audit of the input.
-/
import Cvf.Library.Parsed
import Cvf.Storage.Tree

namespace Cvf

open Cvf.Library

/-! ## The audit -/

structure RawAudit where
  rows : Nat
  files : Nat
  uniqueRecordIds : Nat
  contentDigest : String
  payloadBytes : Nat
  partitions : Nat
  deriving DecidableEq, Repr

/-- The running values of `audit_raw_tree`, with the ids of its index. -/
structure AuditState where
  recordIds : List String := []
  rows : Nat := 0
  payloadBytes : Nat := 0
  digestSum : Nat := 0
  partitions : Finset Partition := ∅

-- `_row_hash`: the SHA-256 of the canonical JSON of a row, as a number
variable (rowHash : RawRow → Nat)

namespace AuditState

/-- The values after one more row. -/
def add (s : AuditState) (row : RawRow) : AuditState :=
  { s with
    partitions := insert (rowPartition row) s.partitions
    payloadBytes := s.payloadBytes + row.rawPayload.size
    rows := s.rows + 1
    digestSum := (s.digestSum + rowHash row) % 2 ^ 256 }

/-- The checks of one row, and its sums. -/
def auditRow (tree : RawTree) (file : RawFile) (s : AuditState) (row : RawRow) :
    Except String AuditState :=
  if row.schemaVersion ≠ 1 then
    .error s!"unsupported raw schema version in {tree.pathText file}"
  else if row.rawPayloadReference ≠ s!"raw://{row.recordId}" then
    .error s!"raw payload lineage mismatch: {row.recordId}"
  else if row.rawPayload.size = 0 then .error s!"empty raw payload: {row.recordId}"
  else if file.directory ≠ partitionDirectory (rowPartition row) then
    .error s!"row/partition mismatch: {tree.pathText file}"
  else .ok (s.add rowHash row)

/-- `INSERT OR IGNORE` of one record id. -/
def insertOrIgnore (recordIds : List String) (recordId : String) : List String :=
  if recordId ∈ recordIds then recordIds else recordId :: recordIds

def auditBatch (tree : RawTree) (file : RawFile) (s : AuditState) (batch : List RawRow) :
    Except String AuditState := do
  let summed ← batch.foldlM (auditRow rowHash tree file) s
  let recordIds := (batch.map RawRow.recordId).foldl insertOrIgnore s.recordIds
  if recordIds.length - s.recordIds.length ≠ batch.length then .error "duplicate raw record_id"
  else .ok { summed with recordIds }

def auditFile (reader : BatchReader) (tree : RawTree) (s : AuditState) (file : RawFile) :
    Except String AuditState :=
  if file.schemaMatches = false then .error s!"raw Parquet schema mismatch: {tree.pathText file}"
  else (reader.iterBatches 65536 file.rows).foldlM (auditBatch rowHash tree file) s

end AuditState

open AuditState in
/-- `audit_raw_tree` -/
def auditRawTree (reader : BatchReader) (tree : RawTree) : Except String RawAudit := do
  let s ← tree.sortedFiles.foldlM (auditFile rowHash reader tree) {}
  return {
    rows := s.rows
    files := tree.files.length
    uniqueRecordIds := s.rows
    contentDigest := String.ofList (hexText 64 s.digestSum)
    payloadBytes := s.payloadBytes
    partitions := s.partitions.card }

/-! ### What an audit accepts, and what it reports -/

/-- A row that passes the audit in a directory. -/
def ValidRow (directory : List String) (row : RawRow) : Prop :=
  row.schemaVersion = 1 ∧ row.rawPayloadReference = s!"raw://{row.recordId}" ∧
    row.rawPayload.size ≠ 0 ∧ directory = partitionDirectory (rowPartition row)

instance (directory : List String) (row : RawRow) : Decidable (ValidRow directory row) := by
  unfold ValidRow
  infer_instance

/-- A file whose rows pass the audit. -/
def ValidFile (file : RawFile) : Prop :=
  file.schemaMatches = true ∧ ∀ row ∈ file.rows, ValidRow file.directory row

instance (file : RawFile) : Decidable (ValidFile file) := by
  unfold ValidFile
  infer_instance

namespace AuditState

variable {rowHash} {s s' : AuditState}

/-- The record ids of the rows are new, and differ among themselves. -/
def Fresh (s : AuditState) (rows : List RawRow) : Prop :=
  (rows.map RawRow.recordId).Nodup ∧ ∀ row ∈ rows, row.recordId ∉ s.recordIds

def withRecordIds (s : AuditState) (recordIds : List String) : AuditState := { s with recordIds }

/-- The values after the rows of a batch, index included. -/
def addAll (rowHash : RawRow → Nat) (s : AuditState) (rows : List RawRow) : AuditState :=
  (rows.foldl (add rowHash) s).withRecordIds ((rows.map RawRow.recordId).reverse ++ s.recordIds)

theorem auditRow_eq_ok_iff {tree : RawTree} {file : RawFile} {row : RawRow} :
    auditRow rowHash tree file s row = .ok s' ↔
      ValidRow file.directory row ∧ s' = s.add rowHash row := by
  unfold auditRow ValidRow
  split_ifs with h1 h2 h3 h4
  · simp [h1]
  · simp [h2]
  · simp [h3]
  · simp [h4]
  · simp only [ne_eq, not_not] at h1 h2 h4
    simp [h1, h2, h3, h4, eq_comm]

theorem foldlM_auditRow_eq_ok_iff {tree : RawTree} {file : RawFile} {rows : List RawRow} :
    rows.foldlM (auditRow rowHash tree file) s = .ok s' ↔
      (∀ row ∈ rows, ValidRow file.directory row) ∧ s' = rows.foldl (add rowHash) s := by
  induction rows generalizing s with
  | nil => simp [pure, Except.pure, eq_comm]
  | cons row rows ih =>
      rw [List.foldlM_cons, List.foldl_cons, List.forall_mem_cons]
      constructor
      · intro h
        obtain ⟨mid, hmid, hrest⟩ := bind_eq_ok_iff.mp h
        obtain ⟨hvalid, rfl⟩ := auditRow_eq_ok_iff.mp hmid
        obtain ⟨hvalid', hs'⟩ := ih.mp hrest
        exact ⟨⟨hvalid, hvalid'⟩, hs'⟩
      · rintro ⟨⟨hvalid, hvalid'⟩, hs'⟩
        rw [auditRow_eq_ok_iff.mpr ⟨hvalid, rfl⟩]
        exact ih.mpr ⟨hvalid', hs'⟩

theorem length_insertOrIgnore (known : List String) (ids : List String) :
    known.length ≤ (ids.foldl insertOrIgnore known).length ∧
      (ids.foldl insertOrIgnore known).length ≤ known.length + ids.length := by
  induction ids generalizing known with
  | nil => simp
  | cons id ids ih =>
      have hrest := ih (insertOrIgnore known id)
      have hone : known.length ≤ (insertOrIgnore known id).length ∧
          (insertOrIgnore known id).length ≤ known.length + 1 := by
        unfold insertOrIgnore
        split_ifs <;> simp
      rw [List.foldl_cons, List.length_cons]
      omega

/-- As many rows are inserted as were given, exactly when no id is a duplicate. -/
theorem inserted_eq_length_iff (known ids : List String) :
    (ids.foldl insertOrIgnore known).length - known.length = ids.length ↔
      ids.Nodup ∧ ∀ id ∈ ids, id ∉ known := by
  induction ids generalizing known with
  | nil => simp
  | cons id ids ih =>
      rw [List.foldl_cons, List.length_cons, List.nodup_cons]
      have hbound := length_insertOrIgnore (insertOrIgnore known id) ids
      by_cases hid : id ∈ known
      · -- a duplicate inserts nothing, and the rest cannot make up for it
        have hsame : insertOrIgnore known id = known := if_pos hid
        rw [hsame] at hbound ⊢
        constructor
        · intro hlength
          omega
        · exact fun h => absurd hid (h.2 id List.mem_cons_self)
      · have hnew : insertOrIgnore known id = id :: known := if_neg hid
        rw [hnew] at hbound ⊢
        have hrest := ih (id :: known)
        have hlength : ((ids.foldl insertOrIgnore (id :: known)).length - known.length =
            ids.length + 1) ↔
            (ids.foldl insertOrIgnore (id :: known)).length - (id :: known).length = ids.length := by
          rw [List.length_cons] at hbound ⊢
          omega
        rw [hlength, hrest]
        constructor
        · rintro ⟨hnodup, hnotMem⟩
          refine ⟨⟨fun hmem => hnotMem id hmem List.mem_cons_self, hnodup⟩, ?_⟩
          intro x hx
          rcases List.mem_cons.mp hx with rfl | hx
          · exact hid
          · exact fun hknown => hnotMem x hx (List.mem_cons_of_mem _ hknown)
        · rintro ⟨⟨hnot, hnodup⟩, hnotMem⟩
          refine ⟨hnodup, ?_⟩
          intro x hx hmem
          rcases List.mem_cons.mp hmem with rfl | hmem
          · exact hnot hx
          · exact hnotMem x (List.mem_cons_of_mem _ hx) hmem

theorem foldl_insertOrIgnore {known ids : List String} (hnodup : ids.Nodup)
    (hnew : ∀ id ∈ ids, id ∉ known) :
    ids.foldl insertOrIgnore known = ids.reverse ++ known := by
  induction ids generalizing known with
  | nil => rfl
  | cons id ids ih =>
      obtain ⟨hnot, hnodup⟩ := List.nodup_cons.mp hnodup
      have hone : insertOrIgnore known id = id :: known := if_neg (hnew id List.mem_cons_self)
      rw [List.foldl_cons, hone, ih hnodup, List.reverse_cons, List.append_assoc]
      · rfl
      · intro x hx hmem
        rcases List.mem_cons.mp hmem with rfl | hmem
        · exact hnot hx
        · exact hnew x (List.mem_cons_of_mem _ hx) hmem

/-- The state after a batch, seen from the rows: the index grows by the ids of the batch. -/
theorem auditBatch_eq_ok_iff {tree : RawTree} {file : RawFile} {batch : List RawRow} :
    auditBatch rowHash tree file s batch = .ok s' ↔
      (∀ row ∈ batch, ValidRow file.directory row) ∧ s.Fresh batch ∧
        s' = s.addAll rowHash batch := by
  have hfresh : ((batch.map RawRow.recordId).foldl insertOrIgnore s.recordIds).length -
      s.recordIds.length = batch.length ↔ s.Fresh batch := by
    have hinserted := inserted_eq_length_iff s.recordIds (batch.map RawRow.recordId)
    rw [List.length_map] at hinserted
    rw [hinserted, Fresh, List.forall_mem_map]
  unfold auditBatch
  rw [bind_eq_ok_iff]
  constructor
  · rintro ⟨summed, hsummed, hrest⟩
    obtain ⟨hvalid, rfl⟩ := foldlM_auditRow_eq_ok_iff.mp hsummed
    dsimp only at hrest
    split_ifs at hrest with hduplicate
    have hnew := hfresh.mp (not_not.mp hduplicate)
    refine ⟨hvalid, hnew, ?_⟩
    obtain rfl := Except.ok.inj hrest
    rw [addAll, foldl_insertOrIgnore hnew.1 (List.forall_mem_map.mpr hnew.2)]
    rfl
  · rintro ⟨hvalid, hnew, rfl⟩
    refine ⟨_, foldlM_auditRow_eq_ok_iff.mpr ⟨hvalid, rfl⟩, ?_⟩
    dsimp only
    rw [if_neg (not_not.mpr (hfresh.mpr hnew)),
      foldl_insertOrIgnore hnew.1 (List.forall_mem_map.mpr hnew.2)]
    rfl

/-- The sums do not look at the index. -/
theorem foldl_add_withRecordIds (rows : List RawRow) (ids : List String) :
    rows.foldl (add rowHash) (s.withRecordIds ids) =
      (rows.foldl (add rowHash) s).withRecordIds ids := by
  induction rows generalizing s with
  | nil => rfl
  | cons row rows ih =>
      show rows.foldl (add rowHash) ((s.add rowHash row).withRecordIds ids) = _
      rw [ih, List.foldl_cons]

theorem addAll_nil : s.addAll rowHash [] = s := rfl

theorem addAll_append (rows rows' : List RawRow) :
    s.addAll rowHash (rows ++ rows') = (s.addAll rowHash rows).addAll rowHash rows' := by
  unfold addAll
  rw [List.foldl_append, List.map_append, List.reverse_append, List.append_assoc,
    foldl_add_withRecordIds]
  rfl

theorem fresh_append_iff {rows rows' : List RawRow} :
    s.Fresh (rows ++ rows') ↔ s.Fresh rows ∧ (s.addAll rowHash rows).Fresh rows' := by
  have hids : ∀ id, id ∈ (s.addAll rowHash rows).recordIds ↔
      id ∈ rows.map RawRow.recordId ∨ id ∈ s.recordIds := by
    intro id
    show id ∈ (rows.map RawRow.recordId).reverse ++ s.recordIds ↔ _
    rw [List.mem_append, List.mem_reverse]
  unfold Fresh
  rw [List.map_append, List.nodup_append]
  simp only [List.forall_mem_append]
  constructor
  · rintro ⟨⟨hnodup, hnodup', hne⟩, hnew, hnew'⟩
    refine ⟨⟨hnodup, hnew⟩, hnodup', ?_⟩
    intro row hrow hmem
    rcases (hids _).mp hmem with hmem | hmem
    · exact hne _ hmem _ (List.mem_map_of_mem hrow) rfl
    · exact hnew' row hrow hmem
  · rintro ⟨⟨hnodup, hnew⟩, hnodup', hnew'⟩
    refine ⟨⟨hnodup, hnodup', ?_⟩, hnew, ?_⟩
    · rintro id hid id' hid' rfl
      obtain ⟨row, hrow, rfl⟩ := List.mem_map.mp hid'
      exact hnew' row hrow ((hids _).mpr (Or.inl hid))
    · exact fun row hrow hmem => hnew' row hrow ((hids _).mpr (Or.inr hmem))

/-- Reading chunk after chunk, each adding its own rows, adds the rows of all. -/
theorem foldlM_chunks_eq_ok_iff {κ : Type*} {step : AuditState → κ → Except String AuditState}
    (rowsOf : κ → List RawRow) (Valid : κ → Prop)
    (hstep : ∀ s s' k, step s k = .ok s' ↔
      Valid k ∧ s.Fresh (rowsOf k) ∧ s' = s.addAll rowHash (rowsOf k)) {chunks : List κ} :
    chunks.foldlM step s = .ok s' ↔
      (∀ k ∈ chunks, Valid k) ∧ s.Fresh (chunks.flatMap rowsOf) ∧
        s' = s.addAll rowHash (chunks.flatMap rowsOf) := by
  induction chunks generalizing s with
  | nil => simp [pure, Except.pure, Fresh, addAll_nil, eq_comm]
  | cons k chunks ih =>
      rw [List.foldlM_cons, bind_eq_ok_iff, List.flatMap_cons, addAll_append,
        @fresh_append_iff rowHash, List.forall_mem_cons]
      constructor
      · rintro ⟨mid, hmid, hrest⟩
        obtain ⟨hvalid, hnew, rfl⟩ := (hstep _ _ _).mp hmid
        obtain ⟨hvalid', hnew', hs'⟩ := ih.mp hrest
        exact ⟨⟨hvalid, hvalid'⟩, ⟨hnew, hnew'⟩, hs'⟩
      · rintro ⟨⟨hvalid, hvalid'⟩, ⟨hnew, hnew'⟩, hs'⟩
        exact ⟨_, (hstep _ _ _).mpr ⟨hvalid, hnew, rfl⟩, ih.mpr ⟨hvalid', hnew', hs'⟩⟩

/-- How the reader cuts a file into batches does not matter. -/
theorem auditFile_eq_ok_iff {reader : BatchReader} {tree : RawTree} {file : RawFile} :
    auditFile rowHash reader tree s file = .ok s' ↔
      ValidFile file ∧ s.Fresh file.rows ∧ s' = s.addAll rowHash file.rows := by
  have hbatches := @foldlM_chunks_eq_ok_iff rowHash s s' _ (auditBatch rowHash tree file) id
    (fun batch => ∀ row ∈ batch, ValidRow file.directory row)
    (fun _ _ _ => auditBatch_eq_ok_iff) (reader.iterBatches 65536 file.rows)
  have hrows : (reader.iterBatches 65536 file.rows).flatMap id = file.rows := by
    rw [List.flatMap_id, reader.flatten_iterBatches]
  have hforall : (∀ batch ∈ reader.iterBatches 65536 file.rows, ∀ row ∈ batch,
      ValidRow file.directory row) ↔ ∀ row ∈ file.rows, ValidRow file.directory row := by
    rw [← List.forall_mem_flatten, reader.flatten_iterBatches]
  rw [hrows, hforall] at hbatches
  unfold auditFile ValidFile
  split_ifs with hschema
  · simp [hschema]
  · rw [Bool.not_eq_false] at hschema
    rw [hbatches]
    simp [hschema]

/-- Adding rows in another order sums to the same. -/
theorem foldl_add_perm {rows rows' : List RawRow} (h : rows.Perm rows') :
    rows.foldl (add rowHash) s = rows'.foldl (add rowHash) s := by
  apply h.foldl_eq'
  intro a _ b _ s
  unfold add
  simp only [AuditState.mk.injEq, true_and]
  refine ⟨?_, ?_, ?_⟩
  · omega
  · rw [Nat.mod_add_mod, Nat.mod_add_mod, Nat.add_right_comm]
  · exact Finset.insert_comm _ _ _

end AuditState

/-- The report on a list of rows. -/
def auditRows (files : Nat) (rows : List RawRow) : RawAudit :=
  let s := rows.foldl (AuditState.add rowHash) {}
  { rows := s.rows
    files
    uniqueRecordIds := s.rows
    contentDigest := String.ofList (hexText 64 s.digestSum)
    payloadBytes := s.payloadBytes
    partitions := s.partitions.card }

theorem auditRows_perm {rowHash : RawRow → Nat} {files : Nat} {rows rows' : List RawRow}
    (h : rows.Perm rows') : auditRows rowHash files rows = auditRows rowHash files rows' := by
  unfold auditRows
  rw [AuditState.foldl_add_perm h]

/-- An audit accepts a tree of valid files in which no record id occurs twice, and reports on its rows
in any order. -/
theorem auditRawTree_eq_ok_iff {rowHash : RawRow → Nat} {reader : BatchReader} {tree : RawTree}
    {audit : RawAudit} :
    auditRawTree rowHash reader tree = .ok audit ↔
      (∀ file ∈ tree.files, ValidFile file) ∧ (tree.rows.map RawRow.recordId).Nodup ∧
        audit = auditRows rowHash tree.files.length tree.rows := by
  have hfiles : ∀ s, tree.sortedFiles.foldlM (AuditState.auditFile rowHash reader tree) {} = .ok s ↔
      (∀ file ∈ tree.sortedFiles, ValidFile file) ∧
        AuditState.Fresh {} (tree.sortedFiles.flatMap RawFile.rows) ∧
          s = AuditState.addAll rowHash {} (tree.sortedFiles.flatMap RawFile.rows) := fun s =>
    AuditState.foldlM_chunks_eq_ok_iff RawFile.rows ValidFile
      (fun _ _ _ => AuditState.auditFile_eq_ok_iff)
  have hvalid : (∀ file ∈ tree.sortedFiles, ValidFile file) ↔ ∀ file ∈ tree.files, ValidFile file :=
    forall_congr' fun file => by rw [tree.sortedFiles_perm.mem_iff]
  have hfresh : AuditState.Fresh {} (tree.sortedFiles.flatMap RawFile.rows) ↔
      (tree.rows.map RawRow.recordId).Nodup := by
    rw [AuditState.Fresh, (tree.rows_sortedFiles.map RawRow.recordId).nodup_iff]
    simp
  have hreport : auditRows rowHash tree.files.length tree.rows =
      auditRows rowHash tree.files.length (tree.sortedFiles.flatMap RawFile.rows) :=
    auditRows_perm tree.rows_sortedFiles.symm
  unfold auditRawTree
  rw [bind_eq_ok_iff, hreport, ← hvalid, ← hfresh]
  constructor
  · rintro ⟨s, hs, haudit⟩
    obtain ⟨hfilesValid, hnew, rfl⟩ := (hfiles s).mp hs
    exact ⟨hfilesValid, hnew, (Except.ok.inj haudit).symm⟩
  · rintro ⟨hfilesValid, hnew, rfl⟩
    exact ⟨_, (hfiles _).mpr ⟨hfilesValid, hnew, rfl⟩, rfl⟩

/-! ## The loop -/

/-- The locals of `compact_raw_tree`, and the `_write_rows` calls so far. -/
structure CompactState where
  written : List (Partition × List RawRow) := []
  currentPartition : Option Partition := none
  buffer : List RawRow := []

namespace CompactState

/-- `_write_rows(output, partition, buffer); buffer.clear()` -/
def writeBuffer (s : CompactState) (partition : Partition) : CompactState :=
  { s with written := s.written ++ [(partition, s.buffer)], buffer := [] }

/-- The rows of another partition are written before its first row is read. -/
def leavePartition (s : CompactState) (partition : Partition) : CompactState :=
  match s.currentPartition with
  | none => s
  | some current => if partition ≠ current ∧ s.buffer ≠ [] then s.writeBuffer current else s

/-- The body of the loop. -/
def compactRow (targetRows : Nat) (s : CompactState) (row : RawRow) : CompactState :=
  let partition := rowPartition row
  let s := s.leavePartition partition
  let s := { s with currentPartition := some partition, buffer := s.buffer ++ [row] }
  if targetRows ≤ s.buffer.length then s.writeBuffer partition else s

/-- The write after the loop. -/
def finish (s : CompactState) : CompactState :=
  match s.currentPartition with
  | none => s
  | some current => if s.buffer ≠ [] then s.writeBuffer current else s

end CompactState

/-- The `_write_rows` calls for a source tree. -/
def compactRows (reader : BatchReader) (source : RawTree) (targetRows : Nat) :
    List (Partition × List RawRow) :=
  let afterFile (s : CompactState) (file : RawFile) : CompactState :=
    (reader.iterBatches targetRows file.rows).foldl
      (fun s batch => batch.foldl (CompactState.compactRow targetRows) s) s
  (source.sortedFiles.foldl afterFile {}).finish.written

/-- `_write_rows`: one file in the directory of the partition, under a fresh name. -/
def writeRows (uuidHex : String) (partition : Partition) (rows : List RawRow) : RawFile :=
  { directory := partitionDirectory partition
    name := s!"part-compact-{uuidHex}.parquet"
    rows }

/-- The output tree; `uuidHex n` is the name drawn for its `n`-th file. -/
def compactedTree (reader : BatchReader) (uuidHex : Nat → String) (source : RawTree) (output : String)
    (targetRows : Nat) : RawTree :=
  { root := output
    files := (compactRows reader source targetRows).mapIdx fun n call =>
      writeRows (uuidHex n) call.1 call.2 }

/-- `before` and `after` agree on everything but the number of files. -/
def auditMatches (before after : RawAudit) : Prop :=
  before.rows = after.rows ∧ before.uniqueRecordIds = after.uniqueRecordIds ∧
    before.contentDigest = after.contentDigest ∧ before.payloadBytes = after.payloadBytes ∧
    before.partitions = after.partitions

instance (before after : RawAudit) : Decidable (auditMatches before after) := by
  unfold auditMatches
  infer_instance

structure CompactionReport where
  inputPath : String
  outputPath : String
  before : RawAudit
  after : RawAudit
  deriving DecidableEq, Repr

/-- `compact_raw_tree` from its loop to the comparison of the audits; `before` is the audit of the
source. -/
def compactRawTree (reader : BatchReader) (uuidHex : Nat → String) (source : RawTree)
    (output : String) (targetRows : Nat) (before : RawAudit) : Except String CompactionReport := do
  let after ← auditRawTree rowHash reader (compactedTree reader uuidHex source output targetRows)
  if ¬ auditMatches before after then .error "raw compaction audit mismatch"
  else .ok { inputPath := source.root, outputPath := output, before, after }

/-! ### The loop invariant -/

namespace CompactState

variable {targetRows : Nat} {s : CompactState}

/-- A `_write_rows` call of one partition, with at least one row and at most `target_rows`. -/
def GoodCall (targetRows : Nat) (call : Partition × List RawRow) : Prop :=
  1 ≤ call.2.length ∧ call.2.length ≤ targetRows ∧ ∀ row ∈ call.2, rowPartition row = call.1

/-- What the loop keeps after reading `rows`. -/
structure Sound (targetRows : Nat) (rows : List RawRow) (s : CompactState) : Prop where
  consumed : s.written.flatMap Prod.snd ++ s.buffer = rows
  calls : ∀ call ∈ s.written, GoodCall targetRows call
  short : s.buffer.length < targetRows
  current : ∀ row ∈ s.buffer, s.currentPartition = some (rowPartition row)

variable {rows : List RawRow}

theorem Sound.new (h : 1 ≤ targetRows) : Sound targetRows [] {} :=
  ⟨rfl, nofun, h, nofun⟩

/-- Writing the buffer of the current partition. -/
theorem Sound.writeBuffer (h : Sound targetRows rows s) {partition : Partition}
    (hcurrent : s.currentPartition = some partition) (hbuffer : s.buffer ≠ []) :
    Sound targetRows rows (s.writeBuffer partition) := by
  have hpositive : 0 < s.buffer.length := List.length_pos_iff.mpr hbuffer
  refine ⟨?_, ?_, lt_of_le_of_lt (Nat.zero_le _) h.short, nofun⟩
  · have hconsumed := h.consumed
    simp only [CompactState.writeBuffer, List.flatMap_append, List.flatMap_singleton,
      List.append_nil]
    exact hconsumed
  · intro call hcall
    rcases List.mem_append.mp hcall with hcall | hcall
    · exact h.calls call hcall
    · obtain rfl : call = (partition, s.buffer) := by simpa using hcall
      refine ⟨hpositive, h.short.le, ?_⟩
      intro row hrow
      have hrowCurrent := h.current row hrow
      rw [hcurrent] at hrowCurrent
      exact (Option.some.inj hrowCurrent).symm

/-- Before a row is appended, the buffer is empty or of the partition of the row. -/
theorem Sound.leavePartition (h : Sound targetRows rows s) (partition : Partition) :
    Sound targetRows rows (s.leavePartition partition) ∧
      ∀ row ∈ (s.leavePartition partition).buffer, rowPartition row = partition := by
  unfold CompactState.leavePartition
  split
  · rename_i hcurrent
    refine ⟨h, fun row hrow => ?_⟩
    have hrowCurrent := h.current row hrow
    rw [hcurrent] at hrowCurrent
    cases hrowCurrent
  · rename_i current hcurrent
    split_ifs with hleave
    · exact ⟨h.writeBuffer hcurrent hleave.2, nofun⟩
    · refine ⟨h, fun row hrow => ?_⟩
      have hne : s.buffer ≠ [] := List.ne_nil_of_mem hrow
      have hsame : partition = current := by
        by_contra hother
        exact hleave ⟨hother, hne⟩
      have hrowCurrent := h.current row hrow
      rw [hcurrent] at hrowCurrent
      rw [hsame]
      exact (Option.some.inj hrowCurrent).symm

/-- A row joins a buffer of its own partition, and a full buffer is written. -/
theorem Sound.append (h : Sound targetRows rows s) (row : RawRow)
    (hbuffer : ∀ r ∈ s.buffer, rowPartition r = rowPartition row) :
    Sound targetRows (rows ++ [row])
      (if targetRows ≤ (s.buffer ++ [row]).length then
        { s with
          written := s.written ++ [(rowPartition row, s.buffer ++ [row])]
          currentPartition := some (rowPartition row)
          buffer := [] }
      else
        { s with
          currentPartition := some (rowPartition row)
          buffer := s.buffer ++ [row] }) := by
  have hconsumed : s.written.flatMap Prod.snd ++ (s.buffer ++ [row]) = rows ++ [row] := by
    rw [← List.append_assoc, h.consumed]
  have hone : ∀ r ∈ s.buffer ++ [row], rowPartition r = rowPartition row := by
    intro r hr
    rcases List.mem_append.mp hr with hr | hr
    · exact hbuffer r hr
    · obtain rfl : r = row := by simpa using hr
      rfl
  have hlength : (s.buffer ++ [row]).length = s.buffer.length + 1 := by simp
  have hshort := h.short
  split_ifs with hfull
  · -- the row fills the buffer, so the buffer has exactly `target_rows` rows
    refine ⟨by simpa using hconsumed, ?_, lt_of_le_of_lt (Nat.zero_le _) hshort, nofun⟩
    intro call hcall
    rcases List.mem_append.mp hcall with hcall | hcall
    · exact h.calls call hcall
    · obtain rfl : call = (rowPartition row, s.buffer ++ [row]) := by simpa using hcall
      exact ⟨by rw [hlength]; omega, by rw [hlength]; omega, hone⟩
  · refine ⟨hconsumed, h.calls, not_le.mp hfull, ?_⟩
    intro r hr
    rw [hone r hr]

theorem Sound.compactRow (h : Sound targetRows rows s) (row : RawRow) :
    Sound targetRows (rows ++ [row]) (s.compactRow targetRows row) := by
  obtain ⟨hleft, hbuffer⟩ := h.leavePartition (rowPartition row)
  exact hleft.append row hbuffer

theorem Sound.foldl_compactRow (h : Sound targetRows rows s) (batch : List RawRow) :
    Sound targetRows (rows ++ batch) (batch.foldl (CompactState.compactRow targetRows) s) := by
  induction batch generalizing rows s with
  | nil => simpa using h
  | cons row batch ih =>
      have hnext := ih (h.compactRow row)
      rwa [List.append_assoc] at hnext

/-- The write after the loop empties the buffer. -/
theorem Sound.finish (h : Sound targetRows rows s) :
    s.finish.written.flatMap Prod.snd = rows ∧ ∀ call ∈ s.finish.written, GoodCall targetRows call := by
  have hempty : s.buffer = [] → s.written.flatMap Prod.snd = rows := by
    intro hbuffer
    have hconsumed := h.consumed
    rwa [hbuffer, List.append_nil] at hconsumed
  unfold CompactState.finish
  split
  · rename_i hcurrent
    refine ⟨hempty ?_, h.calls⟩
    by_contra hne
    obtain ⟨row, hrow⟩ := List.exists_mem_of_ne_nil _ hne
    have hrowCurrent := h.current row hrow
    rw [hcurrent] at hrowCurrent
    cases hrowCurrent
  · rename_i current hcurrent
    split_ifs with hbuffer
    · have hwritten := h.writeBuffer hcurrent hbuffer
      refine ⟨?_, hwritten.calls⟩
      have hconsumed := hwritten.consumed
      rwa [show (s.writeBuffer current).buffer = [] from rfl, List.append_nil] at hconsumed
    · exact ⟨hempty (not_not.mp hbuffer), h.calls⟩

end CompactState

/-- The calls write the rows of the source in the order read, cut into good calls. -/
theorem compactRows_spec {reader : BatchReader} {source : RawTree} {targetRows : Nat}
    (h : 1 ≤ targetRows) :
    (compactRows reader source targetRows).flatMap Prod.snd =
        source.sortedFiles.flatMap RawFile.rows ∧
      ∀ call ∈ compactRows reader source targetRows, CompactState.GoodCall targetRows call := by
  have hfile : ∀ (s : CompactState) (file : RawFile),
      (reader.iterBatches targetRows file.rows).foldl
        (fun s batch => batch.foldl (CompactState.compactRow targetRows) s) s =
      file.rows.foldl (CompactState.compactRow targetRows) s := by
    intro s file
    rw [← List.foldl_flatten, reader.flatten_iterBatches]
  unfold compactRows
  simp only [hfile]
  rw [← List.foldl_flatMap]
  exact ((CompactState.Sound.new h).foldl_compactRow _).finish

/-! ## What compaction writes -/

/-- A file of one partition, under its directory, with at least one row and at most `target_rows`. -/
def GoodFile (targetRows : Nat) (file : RawFile) : Prop :=
  1 ≤ file.rows.length ∧ file.rows.length ≤ targetRows ∧
    ∃ p, file.directory = partitionDirectory p ∧ ∀ row ∈ file.rows, rowPartition row = p

section

variable {reader : BatchReader} {uuidHex : Nat → String} {source : RawTree} {output : String}
  {targetRows : Nat}

theorem compactedTree_files (h : 1 ≤ targetRows) :
    ∀ file ∈ (compactedTree reader uuidHex source output targetRows).files,
      file.schemaMatches = true ∧ GoodFile targetRows file := by
  intro file hfile
  obtain ⟨n, hn, rfl⟩ := List.mem_mapIdx.mp hfile
  have hcall := (@compactRows_spec reader source targetRows h).2 _ (List.getElem_mem hn)
  exact ⟨rfl, hcall.1, hcall.2.1, _, rfl, hcall.2.2⟩

/-- The compacted tree holds the rows of the source, in the order they were read. -/
theorem compactedTree_rows (h : 1 ≤ targetRows) :
    (compactedTree reader uuidHex source output targetRows).rows =
      source.sortedFiles.flatMap RawFile.rows := by
  have hmap : ∀ calls : List (Partition × List RawRow), ∀ name : Nat → String,
      (calls.mapIdx fun n call => writeRows (name n) call.1 call.2).flatMap RawFile.rows =
        calls.flatMap Prod.snd := by
    intro calls
    induction calls with
    | nil => intro name; rfl
    | cons call calls ih =>
        intro name
        rw [List.mapIdx_cons, List.flatMap_cons, List.flatMap_cons, ih fun n => name (n + 1)]
        rfl
  exact (hmap _ uuidHex).trans (compactRows_spec h).1

/-- In files of one partition each, the rows under a directory are the rows of its partition. -/
theorem rows_under_directory {files : List RawFile} (h : ∀ file ∈ files, GoodFile targetRows file)
    (p : Partition) :
    (files.filter fun file => file.directory = partitionDirectory p).flatMap RawFile.rows =
      (files.flatMap RawFile.rows).filter fun row => rowPartition row = p := by
  induction files with
  | nil => rfl
  | cons file files ih =>
      obtain ⟨-, -, q, hdirectory, hrows⟩ := h file List.mem_cons_self
      have hrest := ih fun f hf => h f (List.mem_cons_of_mem _ hf)
      rw [List.flatMap_cons, List.filter_append, ← hrest, List.filter_cons]
      by_cases hq : q = p
      · have hkeep : file.rows.filter (fun row => rowPartition row = p) = file.rows :=
          List.filter_eq_self.mpr fun row hrow => by simp [hrows row hrow, hq]
        rw [if_pos (by simp [hdirectory, hq]), hkeep, List.flatMap_cons]
      · have hdrop : file.rows.filter (fun row => rowPartition row = p) = [] :=
          List.filter_eq_nil_iff.mpr fun row hrow => by simp [hrows row hrow, hq]
        have hother : ¬ file.directory = partitionDirectory p := by
          rw [hdirectory]
          exact fun heq => hq (partitionDirectory_injective heq)
        rw [if_neg (by simpa using hother), hdrop, List.nil_append]

/-- A row that passed the audit in its file passes it in the directory of its partition. -/
theorem validRow_moved {directory : List String} {row : RawRow} (h : ValidRow directory row) :
    ValidRow (partitionDirectory (rowPartition row)) row :=
  ⟨h.1, h.2.1, h.2.2.1, rfl⟩

/-- An audited tree compacts to a tree whose audit agrees. -/
theorem compactRawTree_ok {rowHash : RawRow → Nat} {before : RawAudit} (h : 1 ≤ targetRows)
    (haudit : auditRawTree rowHash reader source = .ok before) :
    ∃ after, auditMatches before after ∧
      auditRawTree rowHash reader (compactedTree reader uuidHex source output targetRows) = .ok after ∧
      compactRawTree rowHash reader uuidHex source output targetRows before =
        .ok { inputPath := source.root, outputPath := output, before, after } := by
  obtain ⟨hvalid, hnodup, rfl⟩ := auditRawTree_eq_ok_iff.mp haudit
  let tree := compactedTree reader uuidHex source output targetRows
  have hrows : tree.rows.Perm source.rows :=
    (compactedTree_rows h).symm ▸ source.rows_sortedFiles
  have hfiles : ∀ file ∈ tree.files, ValidFile file := by
    intro file hfile
    obtain ⟨hschema, -, -, p, hdirectory, hpartition⟩ := compactedTree_files h file hfile
    refine ⟨hschema, fun row hrow => ?_⟩
    have hsource : row ∈ source.rows :=
      hrows.mem_iff.mp (List.mem_flatMap.mpr ⟨file, hfile, hrow⟩)
    obtain ⟨sourceFile, hsourceFile, hsourceRow⟩ := List.mem_flatMap.mp hsource
    have hmoved := validRow_moved ((hvalid sourceFile hsourceFile).2 row hsourceRow)
    rwa [hpartition row hrow, ← hdirectory] at hmoved
  have hafter : auditRawTree rowHash reader tree =
      .ok (auditRows rowHash tree.files.length tree.rows) :=
    auditRawTree_eq_ok_iff.mpr
      ⟨hfiles, ((hrows.map RawRow.recordId).nodup_iff).mpr hnodup, rfl⟩
  have hmatches : auditMatches (auditRows rowHash source.files.length source.rows)
      (auditRows rowHash tree.files.length tree.rows) := by
    rw [auditRows_perm hrows]
    exact ⟨rfl, rfl, rfl, rfl, rfl⟩
  refine ⟨_, hmatches, hafter, ?_⟩
  unfold compactRawTree
  rw [hafter]
  exact if_neg (not_not.mpr hmatches)

end

/-- For every audited source and every `target_rows`: the files under the directory of a partition hold
the rows of that partition, every file holds one partition and between one and `target_rows` rows, and
the comparison of the audits succeeds. -/
theorem compaction_preserves_rows (rowHash : RawRow → Nat) (reader : BatchReader)
    (uuidHex : Nat → String) (source : RawTree) (output : String) (targetRows : Nat)
    (before : RawAudit) (htarget : 1 ≤ targetRows)
    (haudit : auditRawTree rowHash reader source = .ok before) :
    (∀ p : Partition,
      (((compactedTree reader uuidHex source output targetRows).files.filter
          fun file => file.directory = partitionDirectory p).flatMap RawFile.rows).Perm
        (source.rows.filter fun row => rowPartition row = p)) ∧
    (∀ file ∈ (compactedTree reader uuidHex source output targetRows).files,
      GoodFile targetRows file) ∧
    ∃ after, compactRawTree rowHash reader uuidHex source output targetRows before =
      .ok { inputPath := source.root, outputPath := output, before, after } := by
  have hfiles := @compactedTree_files reader uuidHex source output targetRows htarget
  refine ⟨fun p => ?_, fun file hfile => (hfiles file hfile).2, ?_⟩
  · rw [rows_under_directory (fun file hfile => (hfiles file hfile).2) p]
    show ((compactedTree reader uuidHex source output targetRows).rows.filter _).Perm _
    rw [compactedTree_rows htarget]
    exact source.rows_sortedFiles.filter _
  · obtain ⟨after, -, -, hreport⟩ := compactRawTree_ok htarget haudit
    exact ⟨after, hreport⟩

/-- Three rows of two channels in two files. -/
def twoChannels : RawTree :=
  let row (id channel : String) : RawRow :=
    { schemaVersion := 1, recordId := id, rawPayloadReference := s!"raw://{id}", exchange := "OKX"
      symbol := "BTC-USDT-PERP", channel, messageKind := "market_data", transport := "websocket"
      exchangeTimestamp := none, localReceiveTimestamp := 5, normalizationTimestamp := none
      sequenceId := none, connectionGeneration := 0, rawPayload := ⟨#[123, 125]⟩ }
  let file (name : String) (rows : List RawRow) : RawFile :=
    { directory := (rows.head?.map fun r => partitionDirectory (rowPartition r)).getD [], name, rows }
  { root := "raw"
    files := [file "part-b.parquet" [row "b1" "trades", row "b2" "trades"],
      file "part-a.parquet" [row "a1" "books"]] }

theorem compaction_preserves_rows_twoChannels :
    ∃ before, auditRawTree (fun row => row.recordId.length) BatchReader.oneGroup twoChannels =
        .ok before ∧
      ∃ after, compactRawTree (fun row => row.recordId.length) BatchReader.oneGroup toString
        twoChannels "compacted" 1 before =
          .ok { inputPath := twoChannels.root, outputPath := "compacted", before, after } := by
  have haudit := (@auditRawTree_eq_ok_iff (fun row => row.recordId.length) BatchReader.oneGroup
    twoChannels _).mpr ⟨by decide +kernel, by decide +kernel, rfl⟩
  exact ⟨_, haudit, (compaction_preserves_rows (fun row => row.recordId.length) BatchReader.oneGroup
    toString twoChannels "compacted" 1 _ Nat.one_pos haudit).2.2⟩

end Cvf
