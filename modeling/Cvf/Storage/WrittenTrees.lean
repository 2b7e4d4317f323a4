/-
# Cvf.Storage.WrittenTrees — what a written tree reads as.

Whatever the schedule of a writer, its crashes and its restarts, its tree reads at every moment as the rows
on disk, each once and in the order of the stable key (`written_tree_reads_back`).  Which writes are taken
follows from the writes before them (`calls_eq_of_envelopes`), so two writers that were handed the same
snapshots leave trees that compare as identical, however they cut the snapshots into files
(`written_trees_agree`), and a writer that is handed them once more adds nothing
(`rewriting_changes_nothing`).
-/
import Cvf.Storage.FeatureTreeWriter

namespace Cvf

open Cvf.Library

variable {F : Type}

/-! ## The records of a tree are the rows on disk -/

/-- What an envelope says, wherever it is written. -/
def FeatureEnvelope.logical (e : FeatureEnvelope F) : PersistableFeatureSnapshot F × String × String :=
  (e.snapshot, e.codeVersion, e.configHash)

/-- A filter looks at the snapshot only, so it can be asked before the file has a path. -/
def FeatureScanFilter.passes (filters : FeatureScanFilter) (e : FeatureEnvelope F) : Bool :=
  filters.matches (e.record { parent := [], name := "" })

theorem passes_all (e : FeatureEnvelope F) : ({} : FeatureScanFilter).passes e = true := rfl

/-- Files of different paths stay side by side. -/
theorem foldl_publishFile {files : List (FeatureFile F)} (h : (files.map (·.path)).Nodup) :
    files.foldl publishFile [] = files := by
  induction files using List.reverseRecOn with
  | nil => rfl
  | append_singleton files file ih =>
    rw [List.map_append, List.nodup_append] at h
    obtain ⟨hfiles, -, hnew⟩ := h
    rw [List.foldl_append, ih hfiles]
    show files.filter (fun other => decide (other.path ≠ file.path)) ++ [file] = files ++ [file]
    rw [List.filter_eq_self.mpr]
    intro other hother
    exact decide_eq_true (hnew _ (List.mem_map_of_mem hother) _ List.mem_cons_self)

namespace FeatureTreeWriter

variable {codec : FeatureCodec F} {versions : WriterVersions}
  {fileName : List (FeatureEnvelope F) → String} {s s' : FeatureTreeWriter F}
  {group : FeaturePartition × List (FeatureEnvelope F)}

/-- No file was written over another: the names of the batches of one partition differ. -/
def Unreplaced (fileName : List (FeatureEnvelope F) → String) (s : FeatureTreeWriter F) : Prop :=
  ((s.published.map (batchFile fileName)).map (·.path)).Nodup

theorem Filed.files_eq (h : Filed codec versions fileName s) (hnames : Unreplaced fileName s) :
    s.files = s.published.map (batchFile fileName) :=
  h.files.trans (foldl_publishFile hnames)

/-- Every row on disk is one of a file. -/
theorem Filed.mem_file (h : Filed codec versions fileName s) (hnames : Unreplaced fileName s)
    {row : FeatureEnvelope F} (hrow : row ∈ s.writer.disk) :
    ∃ file ∈ s.files, featureRow row ∈ file.rows := by
  rw [h.disk] at hrow
  obtain ⟨group, hgroup, hin⟩ := List.mem_flatMap.mp hrow
  refine ⟨batchFile fileName group, ?_, ?_⟩
  · rw [h.files_eq hnames]
    exact List.mem_map_of_mem hgroup
  · exact List.mem_map_of_mem ((sortByKey_perm partitionKey group.2).mem_iff.mpr hin)

section Reading

variable [DecidableEq F]

theorem Batch.holds (h : Batch codec versions fileName group) :
    FileHolds codec (batchFile fileName group)
      ((sortByKey partitionKey group.2).map (·.record (batchFile fileName group).path)) :=
  fileHolds_of_write h.of h.file

theorem Filed.valid (h : Filed codec versions fileName s) (hnames : Unreplaced fileName s)
    (hrows : s.writer.disk ≠ []) (schemaRoot : String) : (s.tree schemaRoot).Valid codec where
  nonempty := by
    obtain ⟨e, he⟩ := List.exists_mem_of_ne_nil _ hrows
    obtain ⟨file, hfile, hrow⟩ := h.mem_file hnames he
    exact ⟨file, hfile, List.ne_nil_of_mem hrow⟩
  holds := by
    intro file hfile
    change file ∈ s.files at hfile
    rw [h.files_eq hnames] at hfile
    obtain ⟨group, hgroup, rfl⟩ := List.mem_map.mp hfile
    have hholds := (h.published group hgroup).holds
    rw [hholds.records_eq]
    exact hholds

/-- The records that match say what the rows that pass say. -/
theorem Filed.matching_perm (h : Filed codec versions fileName s) (hnames : Unreplaced fileName s)
    (schemaRoot : String) (filters : FeatureScanFilter) :
    (((s.tree schemaRoot).matching codec filters).map (·.logical)).Perm
      ((s.writer.disk.filter filters.passes).map FeatureEnvelope.logical) := by
  have hrecords : ((s.tree schemaRoot).files.flatMap (·.records codec)) =
      s.published.flatMap fun group =>
        (sortByKey partitionKey group.2).map (·.record (batchFile fileName group).path) := by
    show s.files.flatMap _ = _
    rw [h.files_eq hnames, List.flatMap_map]
    apply List.flatMap_congr
    exact fun group hgroup => (h.published group hgroup).holds.records_eq
  unfold FeatureTree.matching
  rw [hrecords, List.filter_flatMap, List.map_flatMap, h.disk, List.filter_flatMap, List.map_flatMap]
  apply List.Perm.flatMap_left
  intro group _
  rw [List.filter_map, List.map_map]
  exact ((sortByKey_perm partitionKey group.2).filter _).map _

theorem Filed.matching_ids (h : Filed codec versions fileName s) (hnames : Unreplaced fileName s)
    (schemaRoot : String) (filters : FeatureScanFilter) :
    (((s.tree schemaRoot).matching codec filters).map (·.snapshot.featureSnapshotId)).Nodup := by
  have hperm := (h.matching_perm hnames schemaRoot filters).map (·.1.featureSnapshotId)
  rw [List.map_map, List.map_map] at hperm
  apply hperm.nodup_iff.mpr
  exact h.orderly.distinct.sublist (List.filter_sublist.map _)

/-- A tree with rows is read to its end: the rows that pass, by the stable key. -/
theorem Filed.reads {reader : FeatureParquetReader F} (h : Filed reader.codec versions fileName s)
    (hnames : Unreplaced fileName s) (hrows : s.writer.disk ≠ []) (schemaRoot : String)
    (filters : FeatureScanFilter) :
    ∃ yielded, reader.iterRecords (s.tree schemaRoot) filters = .ok (yielded, none) ∧
      yielded.Pairwise (fun a b => stableKey a ≤ stableKey b) ∧
      (yielded.map (·.logical)).Perm
        ((s.writer.disk.filter filters.passes).map FeatureEnvelope.logical) := by
  obtain ⟨yielded, raised, hread, hraised, hyielded, -⟩ :=
    iterRecords_spec (h.valid hnames hrows schemaRoot) filters
  obtain rfl : raised = none := hraised.mpr (h.matching_ids hnames schemaRoot filters)
  obtain rfl := hyielded rfl
  refine ⟨_, hread, pairwise_sortByKey _ _, ?_⟩
  exact ((sortByKey_perm _ _).map _).trans (h.matching_perm hnames schemaRoot filters)

/-- A tree with rows is audited, and the audit counts each row once. -/
theorem Filed.audited {reader : FeatureParquetReader F} (h : Filed reader.codec versions fileName s)
    (hnames : Unreplaced fileName s) (hrows : s.writer.disk ≠ [])
    (rowDigest : String × String × String → Nat) (schemaRoot : String) :
    ∃ audit, auditFeatureTree reader rowDigest (s.tree schemaRoot) {} = .ok audit ∧
      audit.rows = s.writer.disk.length ∧ audit.uniqueSnapshotIds = s.writer.disk.length := by
  have hids := h.matching_ids hnames schemaRoot {}
  have hsorted := sortByKey_perm stableKey ((s.tree schemaRoot).matching reader.codec {})
  have hlength : ((s.tree schemaRoot).matching reader.codec {}).length = s.writer.disk.length := by
    have := (h.matching_perm hnames schemaRoot {}).length_eq
    rwa [List.length_map, List.length_map, List.filter_eq_self.mpr fun e _ => passes_all e] at this
  refine ⟨_, (auditFeatureTree_eq_ok_iff (h.valid hnames hrows schemaRoot)).mpr ⟨hids, rfl⟩, ?_, ?_⟩
  · exact hsorted.length_eq.trans hlength
  · show ((sortByKey stableKey _).map (·.snapshot.featureSnapshotId)).dedup.length = _
    rw [((hsorted.map _).nodup_iff.mpr hids).dedup, List.length_map]
    exact hsorted.length_eq.trans hlength

end Reading

end FeatureTreeWriter

open FeatureTreeWriter in
/-- On an empty root, in every schedule with crashes and restarts that writes snapshots of their models and
replaces no file: at every moment with rows on disk the tree reads without an error, and what it yields are
the rows that pass, by the stable key; behind a close that returned the rows are those the writer found and
the contents its calls put on the queue, each accepted content among them. -/
theorem written_tree_reads_back [DecidableEq F] (reader : FeatureParquetReader F)
    (versions : WriterVersions) (fileName : List (FeatureEnvelope F) → String)
    (batchRows queueCapacity : Nat) (queueCapacity_pos : 0 < queueCapacity) (capacity : Nat)
    (inputs : List (FeatureWriterInput F))
    (haccepted : ∀ snapshot callback, .write snapshot callback ∈ inputs → reader.codec.accepted snapshot)
    (filters : FeatureScanFilter) (schemaRoot : String) :
    let s := (new batchRows queueCapacity queueCapacity_pos capacity).run reader.codec versions fileName
      inputs
    Unreplaced fileName s →
      (s.writer.disk ≠ [] → ∃ yielded, reader.iterRecords (s.tree schemaRoot) filters =
          .ok (yielded, none) ∧
        yielded.Pairwise (fun a b => stableKey a ≤ stableKey b) ∧
        (yielded.map (·.logical)).Perm
          ((s.writer.disk.filter filters.passes).map FeatureEnvelope.logical)) ∧
      (s.writer.close = .returned →
        s.writer.disk.Perm (s.writer.found ++ s.writer.calls.filterMap FeatureWriteCall.content?) ∧
        ∀ e enqueued, .ended e .accepted enqueued ∈ s.writer.calls → e ∈ s.writer.disk) := by
  intro s hnames
  have hfiled : Filed reader.codec versions fileName s :=
    (filed_new batchRows queueCapacity queueCapacity_pos capacity).run haccepted
  constructor
  · exact fun hrows => hfiled.reads hnames hrows schemaRoot filters
  · intro hreturned
    have hperm := hfiled.orderly.disk_of_returned hfiled.sound hreturned
    refine ⟨hperm, fun e enqueued hcall => hperm.mem_iff.mpr (List.mem_append_right _ ?_)⟩
    have htrue := hfiled.sound.enqueued_of_accepted hcall
    exact List.mem_filterMap.mpr ⟨_, htrue ▸ hcall, rfl⟩

/-! ## Two writers that were handed the same snapshots -/

/-- A call that did not raise and was not cancelled. -/
def FeatureWriteCall.Answered : FeatureWriteCall F → Prop
  | .refused _ => False
  | .ended _ outcome _ => outcome = .accepted ∨ outcome = .deduplicated

instance (call : FeatureWriteCall F) : Decidable call.Answered :=
  match call with
  | .refused _ => inferInstanceAs (Decidable False)
  | .ended _ outcome _ => inferInstanceAs (Decidable (outcome = .accepted ∨ outcome = .deduplicated))

theorem FeatureWriteCall.Answered.ended {call : FeatureWriteCall F} (h : call.Answered) :
    ∃ e outcome enqueued, call = .ended e outcome enqueued := by
  cases call with
  | refused error => exact h.elim
  | ended e outcome enqueued => exact ⟨e, outcome, enqueued, rfl⟩

/-- An answered call was told what the first content of its id says. -/
theorem FeatureWriteCall.Answered.told {e : FeatureEnvelope F} {outcome : FeatureWriteOutcome}
    {enqueued : Bool} (h : (FeatureWriteCall.ended e outcome enqueued).Answered)
    {first : Option (String × String × String)} (hexplains : Explains first e outcome enqueued) :
    outcome = firstOutcome first e.contentIdentity ∧ (enqueued = true ↔ first = none) := by
  refine hexplains.resolve_right ?_
  rintro ⟨-, hnaccepted, hndeduplicated, -⟩
  exact h.elim hnaccepted hndeduplicated

/-- Of two lists of answered calls over the same envelopes each call was told the same: the answer and what
entered the queue follow from the calls before. -/
theorem calls_eq_of_envelopes {found : List (FeatureEnvelope F)}
    {calls calls' : List (FeatureWriteCall F)} (h : Explained found calls) (h' : Explained found calls')
    (hanswered : ∀ call ∈ calls, call.Answered) (hanswered' : ∀ call ∈ calls', call.Answered)
    (hsame : calls.filterMap FeatureWriteCall.envelope? = calls'.filterMap FeatureWriteCall.envelope?) :
    calls = calls' := by
  have hfront : ∀ {front last : List (FeatureWriteCall F)}, Explained found (front ++ last) →
      Explained found front := by
    intro front last hall before e outcome enqueued after heq
    exact hall before e outcome enqueued (after ++ last) (by rw [heq, List.append_assoc]; rfl)
  -- from the last call back: what it was told follows from the calls before it, which agree
  induction calls using List.reverseRecOn generalizing calls' with
  | nil =>
    cases calls' with
    | nil => rfl
    | cons call rest =>
      obtain ⟨e, outcome, enqueued, rfl⟩ := (hanswered' call List.mem_cons_self).ended
      cases hsame
  | append_singleton front call ih =>
    have hcall := hanswered call (List.mem_append_right _ List.mem_cons_self)
    obtain ⟨e, outcome, enqueued, rfl⟩ := hcall.ended
    rw [List.filterMap_append] at hsame
    change front.filterMap FeatureWriteCall.envelope? ++ [e] = _ at hsame
    rcases List.eq_nil_or_concat calls' with rfl | ⟨front', call', rfl⟩
    · exact absurd hsame (List.append_ne_nil_of_right_ne_nil _ (List.cons_ne_nil _ _))
    rw [List.concat_eq_append] at h' hanswered' hsame ⊢
    have hcall' := hanswered' call' (List.mem_append_right _ List.mem_cons_self)
    obtain ⟨e', outcome', enqueued', rfl⟩ := hcall'.ended
    rw [List.filterMap_append] at hsame
    change _ = front'.filterMap FeatureWriteCall.envelope? ++ [e'] at hsame
    obtain ⟨hfronts, hlast⟩ := List.append_inj' hsame rfl
    obtain rfl : e = e' := List.singleton_inj.mp hlast
    obtain rfl : front = front' := ih (hfront h) (hfront h')
      (fun other hother => hanswered other (List.mem_append_left _ hother))
      (fun other hother => hanswered' other (List.mem_append_left _ hother)) hfronts
    obtain ⟨houtcome, henqueued⟩ := hcall.told (h front e outcome enqueued [] rfl)
    obtain ⟨houtcome', henqueued'⟩ := hcall'.told (h' front e outcome' enqueued' [] rfl)
    rw [houtcome, houtcome', Bool.eq_iff_iff.mpr (henqueued.trans henqueued'.symm)]

namespace FeatureTreeWriter

variable {codec : FeatureCodec F} {versions : WriterVersions}
  {fileName : List (FeatureEnvelope F) → String} {s s' : FeatureTreeWriter F}
  {outputs : List (PersistableFeatureSnapshot F)}

/-- A writer on an empty root, after some schedule that writes only these outputs. -/
def Scheduled (codec : FeatureCodec F) (versions : WriterVersions)
    (fileName : List (FeatureEnvelope F) → String) (outputs : List (PersistableFeatureSnapshot F))
    (s : FeatureTreeWriter F) : Prop :=
  ∃ batchRows queueCapacity queueCapacity_pos capacity inputs,
    (∀ snapshot callback, .write snapshot callback ∈ inputs → snapshot ∈ outputs) ∧
      (new batchRows queueCapacity queueCapacity_pos capacity).run codec versions fileName inputs = s

theorem Scheduled.filed (h : Scheduled codec versions fileName outputs s)
    (hmodels : ∀ output ∈ outputs, codec.accepted output) : Filed codec versions fileName s := by
  obtain ⟨_, _, _, _, inputs, hwrites, rfl⟩ := h
  exact (filed_new _ _ _ _).run fun snapshot callback hin => hmodels _ (hwrites snapshot callback hin)

/-- What a writer is left with by a task that awaits a write of each output and then the close, none of
which raises. -/
structure Handed (codec : FeatureCodec F) (versions : WriterVersions)
    (outputs : List (PersistableFeatureSnapshot F)) (s : FeatureTreeWriter F) : Prop where
  /-- the root had no rows -/
  found : s.writer.found = []
  answered : ∀ call ∈ s.writer.calls, call.Answered
  envelopes : outputs.mapM (envelope codec versions) =
    .ok (s.writer.calls.filterMap FeatureWriteCall.envelope?)
  returned : s.writer.close = .returned

/-- Where only the outputs are accepted and their ids differ, the ids of the calls tell their envelopes. -/
theorem Filed.envelopes (h : Filed codec versions fileName s)
    (hmodels : ∀ snapshot, codec.accepted snapshot → snapshot ∈ outputs)
    (hdistinct : (outputs.map (·.featureSnapshotId)).Nodup)
    (hids : (s.writer.calls.filterMap FeatureWriteCall.envelope?).map (·.featureSnapshotId) =
      outputs.map (·.featureSnapshotId)) :
    outputs.mapM (envelope codec versions) =
      .ok (s.writer.calls.filterMap FeatureWriteCall.envelope?) := by
  have hpairs : List.Forall₂ (fun e output => e.featureSnapshotId = output.featureSnapshotId)
      (s.writer.calls.filterMap FeatureWriteCall.envelope?) outputs := by
    have heq := List.forall₂_eq_eq_eq ▸ hids
    rwa [List.forall₂_map_left_iff, List.forall₂_map_right_iff] at heq
  have hmade : ∀ e ∈ s.writer.calls.filterMap FeatureWriteCall.envelope?,
      e.snapshot ∈ outputs ∧ envelope codec versions e.snapshot = .ok e := by
    intro e he
    obtain ⟨snapshot, haccepted, henvelope, -⟩ :=
      h.made e (List.mem_append_right _ (List.mem_append_left _ he))
    rw [(envelope_spec henvelope).2.1]
    exact ⟨hmodels snapshot haccepted, henvelope⟩
  have hleft := ((List.forall₂_and_left _ _).mpr ⟨hmade, hpairs⟩).flip
  rw [mapM_eq_ok_iff_forall₂]
  refine ((List.forall₂_and_left _ _).mpr ⟨fun output houtput => houtput, hleft⟩).imp ?_
  rintro output e ⟨houtput, ⟨hin, henvelope⟩, hid⟩
  rwa [List.inj_on_of_nodup_map hdistinct hin houtput hid] at henvelope

theorem Handed.disk_perm (h : Handed codec versions outputs s) (hfiled : Filed codec versions fileName s) :
    s.writer.disk.Perm (s.writer.calls.filterMap FeatureWriteCall.content?) := by
  have hperm := hfiled.orderly.disk_of_returned hfiled.sound h.returned
  rwa [h.found, List.nil_append] at hperm

/-- The first output is always taken, so some row is on disk. -/
theorem Handed.disk_ne (h : Handed codec versions outputs s) (hfiled : Filed codec versions fileName s)
    (houtputs : outputs ≠ []) : s.writer.disk ≠ [] := by
  have hcalls : s.writer.calls ≠ [] := by
    intro hnone
    have henvelopes := h.envelopes
    rw [hnone] at henvelopes
    exact houtputs (List.length_eq_zero_iff.mp (length_of_mapM_eq_ok henvelopes).symm)
  obtain ⟨call, rest, hcons⟩ := List.exists_cons_of_ne_nil hcalls
  have hanswered := h.answered call (by rw [hcons]; exact List.mem_cons_self)
  obtain ⟨e, outcome, enqueued, rfl⟩ := hanswered.ended
  have hexplains := hfiled.sound.explained [] e outcome enqueued rest hcons
  rw [h.found] at hexplains
  have henqueued : enqueued = true := (hanswered.told hexplains).2.mpr rfl
  have hin : e ∈ s.writer.calls.filterMap FeatureWriteCall.content? := by
    rw [hcons, henqueued]
    exact List.mem_cons_self
  exact List.ne_nil_of_mem ((h.disk_perm hfiled).mem_iff.mpr hin)

/-- The counter of written rows is the number of rows. -/
theorem Handed.written (h : Handed codec versions outputs s) (hfiled : Filed codec versions fileName s) :
    s.written = s.writer.disk.length := by
  have hcount := hfiled.written fun error hfailed => by
    rcases hfiled.orderly.returned h.returned with hworker | hworker <;> rw [hfailed] at hworker <;>
      cases hworker
  rwa [h.found] at hcount

/-- Two writers that were handed the same outputs have the same rows. -/
theorem Handed.same_rows (h : Handed codec versions outputs s) (h' : Handed codec versions outputs s')
    (hfiled : Filed codec versions fileName s) (hfiled' : Filed codec versions fileName s') :
    s.writer.disk.Perm s'.writer.disk := by
  have hexplained := hfiled.sound.explained
  have hexplained' := hfiled'.sound.explained
  rw [h.found] at hexplained
  rw [h'.found] at hexplained'
  have hcalls : s.writer.calls = s'.writer.calls :=
    calls_eq_of_envelopes hexplained hexplained' h.answered h'.answered
      (Except.ok.inj (h.envelopes.symm.trans h'.envelopes))
  exact (h.disk_perm hfiled).trans (hcalls ▸ (h'.disk_perm hfiled').symm)

/-- The trees of two writers that were handed the same outputs compare as identical. -/
theorem Handed.agree [DecidableEq F] {reader : FeatureParquetReader F}
    (h : Handed reader.codec versions outputs s) (h' : Handed reader.codec versions outputs s')
    (hfiled : Filed reader.codec versions fileName s) (hfiled' : Filed reader.codec versions fileName s')
    (houtputs : outputs ≠ []) (hnames : Unreplaced fileName s) (hnames' : Unreplaced fileName s')
    (rowDigest : String × String × String → Nat) (schemaRoot : String) :
    ∃ report, compareFeatureTrees reader rowDigest (s.tree schemaRoot) (s'.tree schemaRoot) {} =
        .ok report ∧
      report.identical = true ∧ report.left.rows = report.right.rows ∧
      (report.left.rows = report.left.uniqueSnapshotIds ∧ report.left.rows = s.written) ∧
      report.right.rows = report.right.uniqueSnapshotIds ∧ report.right.rows = s'.written := by
  have hrows := h.disk_ne hfiled houtputs
  have hrows' := h'.disk_ne hfiled' houtputs
  have hperm := h.same_rows h' hfiled hfiled'
  obtain ⟨left, hleft, hleftRows, hleftIds⟩ := hfiled.audited hnames hrows rowDigest schemaRoot
  obtain ⟨right, hright, hrightRows, hrightIds⟩ := hfiled'.audited hnames' hrows' rowDigest schemaRoot
  have hvalid := hfiled.valid hnames hrows schemaRoot
  have hvalid' := hfiled'.valid hnames' hrows' schemaRoot
  refine ⟨{ left, right, identical := identicalAudits left right }, ?_, ?_, ?_, ⟨?_, ?_⟩, ?_, ?_⟩
  · exact bind_eq_ok_iff.mpr ⟨left, hleft, bind_eq_ok_iff.mpr ⟨right, hright, rfl⟩⟩
  · obtain ⟨hids, rfl⟩ := (auditFeatureTree_eq_ok_iff hvalid).mp hleft
    obtain ⟨hids', rfl⟩ := (auditFeatureTree_eq_ok_iff hvalid').mp hright
    refine (identicalAudits_iff hvalid hvalid' hids hids').1 fun logical => ?_
    have hlogical := (hfiled.matching_perm hnames schemaRoot {}).trans
      (((hperm.filter _).map _).trans (hfiled'.matching_perm hnames' schemaRoot {}).symm)
    exact hlogical.mem_iff
  · show left.rows = right.rows
    rw [hleftRows, hrightRows, hperm.length_eq]
  · exact hleftRows.trans hleftIds.symm
  · exact hleftRows.trans (h.written hfiled).symm
  · exact hrightRows.trans hrightIds.symm
  · exact hrightRows.trans (h'.written hfiled').symm

end FeatureTreeWriter

open FeatureTreeWriter in
/-- Two writers on empty roots that were handed the same outputs, of any batch sizes, capacities, flush times
and schedules, leave trees that compare as identical; in the audit of each every row is counted once, with
an id of its own, and is one of the rows the writer says it has written. -/
theorem written_trees_agree [DecidableEq F] (reader : FeatureParquetReader F)
    (rowDigest : String × String × String → Nat) (versions : WriterVersions)
    (fileName : List (FeatureEnvelope F) → String) (outputs : List (PersistableFeatureSnapshot F))
    (houtputs : outputs ≠ []) (hmodels : ∀ output ∈ outputs, reader.codec.accepted output)
    {s s' : FeatureTreeWriter F} (hrun : Scheduled reader.codec versions fileName outputs s)
    (hrun' : Scheduled reader.codec versions fileName outputs s')
    (hhanded : Handed reader.codec versions outputs s) (hhanded' : Handed reader.codec versions outputs s')
    (hnames : Unreplaced fileName s) (hnames' : Unreplaced fileName s') (schemaRoot : String) :
    ∃ report, compareFeatureTrees reader rowDigest (s.tree schemaRoot) (s'.tree schemaRoot) {} =
        .ok report ∧
      report.identical = true ∧ report.left.rows = report.right.rows ∧
      (report.left.rows = report.left.uniqueSnapshotIds ∧ report.left.rows = s.written) ∧
      report.right.rows = report.right.uniqueSnapshotIds ∧ report.right.rows = s'.written := by
  exact hhanded.agree hhanded' (hrun.filed hmodels) (hrun'.filed hmodels) houtputs hnames hnames' rowDigest
    schemaRoot

/-! ## Writing the same outputs again -/

/-- The content of an envelope is a row already. -/
def HasRow (disk : List (FeatureEnvelope F)) (e : FeatureEnvelope F) : Prop :=
  ∃ row ∈ disk, row.featureSnapshotId = e.featureSnapshotId ∧ row.contentIdentity = e.contentIdentity

namespace FeatureTreeWriter

variable {codec : FeatureCodec F} {versions : WriterVersions}
  {fileName : List (FeatureEnvelope F) → String} {base s : FeatureTreeWriter F}
  {outputs : List (PersistableFeatureSnapshot F)}

/-- Behind the close, the content of every output is a row: its own, or that of an earlier output. -/
theorem Handed.hasRow (h : Handed codec versions outputs s) (hfiled : Filed codec versions fileName s)
    {output : PersistableFeatureSnapshot F} (houtput : output ∈ outputs) {e : FeatureEnvelope F}
    (henvelope : envelope codec versions output = .ok e) : HasRow s.writer.disk e := by
  have hperm := h.disk_perm hfiled
  obtain ⟨e', he', hsame⟩ :=
    exists_of_mem_forall₂_left (mapM_eq_ok_iff_forall₂.mp h.envelopes) houtput
  obtain rfl : e = e' := Except.ok.inj (henvelope.symm.trans hsame)
  obtain ⟨call, hcall, hnamed⟩ := List.mem_filterMap.mp he'
  have hanswered := h.answered call hcall
  obtain ⟨named, outcome, enqueued, rfl⟩ := hanswered.ended
  obtain rfl : named = e := Option.some.inj hnamed
  obtain ⟨before, after, hcalls⟩ := List.append_of_mem hcall
  have hexplains := hfiled.sound.explained before named outcome enqueued after hcalls
  rw [h.found] at hexplains
  obtain ⟨houtcome, hiff⟩ := hanswered.told hexplains
  cases hfirst : firstContent [] before named.featureSnapshotId with
  | none =>
    -- the first of its id: it went onto the queue, and from there to disk
    have htrue := hiff.mpr hfirst
    have hin : named ∈ s.writer.disk :=
      hperm.mem_iff.mpr (List.mem_filterMap.mpr ⟨_, htrue ▸ hcall, rfl⟩)
    exact ⟨named, hin, rfl, rfl⟩
  | some identity =>
    have hidentity : identity = named.contentIdentity := by
      rw [hfirst] at houtcome
      by_contra hother
      rw [houtcome, firstOutcome_other hother] at hanswered
      exact hanswered.elim (fun heq => by cases heq) (fun heq => by cases heq)
    obtain ⟨row, hfound, hrow⟩ := Option.map_eq_some_iff.mp hfirst
    have hin : row ∈ before.filterMap FeatureWriteCall.content? := List.mem_of_find?_eq_some hfound
    refine ⟨row, hperm.mem_iff.mpr ?_, by simpa using List.find?_some hfound, hrow.trans hidentity⟩
    rw [hcalls, List.filterMap_append]
    exact List.mem_append_left _ hin

/-- What is read back behind the close are outputs, one for each id. -/
theorem Handed.reads [DecidableEq F] {reader : FeatureParquetReader F}
    (h : Handed reader.codec versions outputs s) (hfiled : Filed reader.codec versions fileName s)
    (houtputs : outputs ≠ []) (hnames : Unreplaced fileName s) (schemaRoot : String) :
    ∃ yielded, reader.iterRecords (s.tree schemaRoot) {} = .ok (yielded, none) ∧
      (yielded.map (·.snapshot.featureSnapshotId)).Nodup ∧ (∀ r ∈ yielded, r.snapshot ∈ outputs) ∧
      ∀ output ∈ outputs, ∃ r ∈ yielded, r.snapshot.featureSnapshotId = output.featureSnapshotId := by
  have henvelopes := mapM_eq_ok_iff_forall₂.mp h.envelopes
  obtain ⟨yielded, hread, -, hperm⟩ :=
    hfiled.reads hnames (h.disk_ne hfiled houtputs) schemaRoot {}
  rw [List.filter_eq_self.mpr fun e _ => passes_all e] at hperm
  refine ⟨yielded, hread, ?_, ?_, ?_⟩
  · have hids := hperm.map (·.1.featureSnapshotId)
    rw [List.map_map, List.map_map] at hids
    exact hids.nodup_iff.mpr hfiled.orderly.distinct
  · intro r hr
    obtain ⟨e, he, hlogical⟩ := List.mem_map.mp (hperm.mem_iff.mp (List.mem_map_of_mem hr))
    obtain ⟨call, hcall, hcontent⟩ := List.mem_filterMap.mp ((h.disk_perm hfiled).mem_iff.mp he)
    have hnamed : e ∈ s.writer.calls.filterMap FeatureWriteCall.envelope? :=
      List.mem_filterMap.mpr ⟨call, hcall, FeatureWriteCall.envelope?_of_content? hcontent⟩
    obtain ⟨output, houtput, henvelope⟩ := exists_of_mem_forall₂_right henvelopes hnamed
    have hsnapshot : r.snapshot = output :=
      (congrArg Prod.fst hlogical).symm.trans (envelope_spec henvelope).2.1
    exact hsnapshot ▸ houtput
  · intro output houtput
    obtain ⟨e, -, henvelope⟩ := exists_of_mem_forall₂_left henvelopes houtput
    obtain ⟨row, hrow, hid, -⟩ := h.hasRow hfiled houtput henvelope
    obtain ⟨r, hr, hlogical⟩ := List.mem_map.mp (hperm.mem_iff.mpr (List.mem_map_of_mem hrow))
    refine ⟨r, hr, ?_⟩
    calc r.snapshot.featureSnapshotId = row.featureSnapshotId :=
          congrArg (·.1.featureSnapshotId) hlogical
      _ = e.featureSnapshotId := hid
      _ = output.featureSnapshotId := congrArg (·.featureSnapshotId) (envelope_spec henvelope).2.1

/-- A writer on a root with rows, for which there is nothing to do. -/
structure Settled (codec : FeatureCodec F) (versions : WriterVersions)
    (fileName : List (FeatureEnvelope F) → String) (base s : FeatureTreeWriter F) : Prop where
  filed : Filed codec versions fileName s
  found : s.writer.found = base.writer.disk
  published : s.published = base.published
  named : ∀ e ∈ s.writer.named, HasRow base.writer.disk e
  written : s.written = 0

/-- No content enters the queue: the rows found have its id. -/
theorem Settled.contents_eq (h : Settled codec versions fileName base s) :
    s.writer.contents = [] := by
  by_cases hworker : s.writer.worker = .absent
  · exact (h.filed.sound.unstarted hworker).2.1
  apply List.eq_nil_iff_forall_not_mem.mpr
  intro e he
  obtain ⟨row, hrow, hid, -⟩ := h.named e (AsyncFeatureParquetWriter.mem_named_of_mem_contents he)
  have hids := h.filed.sound.ids hworker
  rw [List.map_append, List.map_append, h.found] at hids
  have hapart := (List.nodup_append.mp (List.nodup_append.mp hids).1).2.2
  exact hapart _ (List.mem_map_of_mem hrow) _ (List.mem_map_of_mem he) hid

theorem Settled.disk_eq (h : Settled codec versions fileName base s)
    (hbase : Filed codec versions fileName base) : s.writer.disk = base.writer.disk := by
  rw [h.filed.disk, h.published, hbase.disk]

theorem Settled.files_eq (h : Settled codec versions fileName base s)
    (hbase : Filed codec versions fileName base) : s.files = base.files := by
  rw [h.filed.files, h.published, hbase.files]

theorem Settled.pending_eq (h : Settled codec versions fileName base s)
    (hbase : Filed codec versions fileName base) : s.writer.pending = [] := by
  have hlength := h.filed.sound.kept.length_le
  rw [h.contents_eq, h.found, h.disk_eq hbase, List.length_append, List.append_nil] at hlength
  apply List.length_eq_zero_iff.mp
  omega

/-- So a flush has no file that could be written. -/
theorem Settled.not_written (h : Settled codec versions fileName base s)
    (hbase : Filed codec versions fileName base)
    {group : FeaturePartition × List (FeatureEnvelope F)}
    {groups : List (FeaturePartition × List (FeatureEnvelope F))} {stopping : Bool}
    (hworker : s.writer.worker = .flushing (group :: groups) stopping) (file : FeatureFile F) :
    writePartitionFile fileName group.1 group.2 ≠ .ok file := by
  intro hfile
  obtain ⟨hne, -⟩ := writePartitionFile_eq_ok_iff.mp hfile
  have hpending := h.pending_eq hbase
  unfold AsyncFeatureParquetWriter.pending at hpending
  rw [hworker, List.append_assoc] at hpending
  exact hne (List.append_eq_nil_iff.mp (List.append_eq_nil_iff.mp hpending).1).1

/-- The next writer on the root, where no file was about to be published. -/
theorem Filed.settled (hbase : Filed codec versions fileName base) (hfiled : Filed codec versions fileName s)
    (hpublished : s.published = base.published)
    (hnone : ∀ {group groups stopping}, s.writer.worker = .flushing (group :: groups) stopping →
      ∀ file, writePartitionFile fileName group.1 group.2 ≠ .ok file) (published : Bool) :
    Settled codec versions fileName base (s.restart fileName published) := by
  have hnext := hfiled.restart published
  rcases restart_cases fileName s published with hkept | ⟨group, groups, stopping, file, hworker, hfile, -⟩
  · rw [hkept] at hnext ⊢
    refine ⟨hnext, ?_, hpublished, fun _ he => absurd he List.not_mem_nil, rfl⟩
    -- what it finds is what is on disk
    exact hnext.disk.trans ((congrArg (List.flatMap Prod.snd) hpublished).trans hbase.disk.symm)
  · exact absurd hfile (hnone hworker file)

/-- A root whose writer has closed. -/
theorem Filed.settled_restart (hbase : Filed codec versions fileName base)
    (hreturned : base.writer.close = .returned) (published : Bool) :
    Settled codec versions fileName base (base.restart fileName published) := by
  refine hbase.settled hbase rfl (fun hworker => ?_) published
  rcases hbase.orderly.returned hreturned with hended | hended <;> rw [hended] at hworker <;> cases hworker

theorem Settled.restart (h : Settled codec versions fileName base s)
    (hbase : Filed codec versions fileName base) (published : Bool) :
    Settled codec versions fileName base (s.restart fileName published) :=
  hbase.settled h.filed h.published (h.not_written hbase) published

theorem Settled.step (h : Settled codec versions fileName base s)
    (hbase : Filed codec versions fileName base) {input : FeatureWriterInput F}
    (haccepted : ∀ snapshot callback, input = .write snapshot callback → codec.accepted snapshot)
    (hrows : ∀ snapshot callback, input = .write snapshot callback →
      ∀ e, envelope codec versions snapshot = .ok e → HasRow base.writer.disk e) :
    Settled codec versions fileName base (s.step codec versions fileName input) := by
  have hfiled := h.filed.step haccepted
  -- only a written file and a restart touch more than the writer
  by_cases hfile : input = .fileWritten
  · subst hfile
    unfold FeatureTreeWriter.step at hfiled ⊢
    dsimp only at hfiled ⊢
    split at hfiled
    · rename_i group groups stopping hworker
      unfold FeatureTreeWriter.endFile at hfiled ⊢
      cases hfile : writePartitionFile fileName group.1 group.2 with
      | error text =>
        rw [hfile] at hfiled
        exact ⟨hfiled, h.found, h.published, h.named, h.written⟩
      -- every row due has its file already, so the group the worker holds is empty
      | ok file => exact absurd hfile (h.not_written hbase hworker file)
    · exact h
  by_cases hrestart : ∃ published, input = .restart published
  · obtain ⟨published, rfl⟩ := hrestart
    exact h.restart hbase published
  have hquiet : s.step codec versions fileName input =
      { s with writer := s.writer.step codec versions input } := by
    cases input with
    | fileWritten => exact absurd rfl hfile
    | restart published => exact absurd ⟨published, rfl⟩ hrestart
    | _ => rfl
  rw [hquiet] at hfiled ⊢
  have hstep := AsyncFeatureParquetWriter.unpublished_step s.writer codec versions input hfile
    fun published heq => hrestart ⟨published, heq⟩
  refine ⟨hfiled, hstep.found.trans h.found, h.published, ?_, h.written⟩
  intro e he
  rcases hstep.named e he with he | he
  · exact h.named e he
  · obtain ⟨snapshot, callback, hinput, henvelope⟩ := AsyncFeatureParquetWriter.mem_entering he
    exact hrows snapshot callback hinput e henvelope

theorem Settled.run (h : Settled codec versions fileName base s)
    (hbase : Filed codec versions fileName base) {inputs : List (FeatureWriterInput F)}
    (haccepted : ∀ snapshot callback, .write snapshot callback ∈ inputs → codec.accepted snapshot)
    (hrows : ∀ snapshot callback, .write snapshot callback ∈ inputs →
      ∀ e, envelope codec versions snapshot = .ok e → HasRow base.writer.disk e) :
    Settled codec versions fileName base (s.run codec versions fileName inputs) := by
  induction inputs generalizing s with
  | nil => exact h
  | cons input inputs ih =>
    have hnext := h.step hbase
      (fun snapshot callback heq => haccepted snapshot callback (heq ▸ List.mem_cons_self))
      (fun snapshot callback heq => hrows snapshot callback (heq ▸ List.mem_cons_self))
    exact ih hnext
      (fun snapshot callback hin => haccepted snapshot callback (List.mem_cons_of_mem _ hin))
      (fun snapshot callback hin => hrows snapshot callback (List.mem_cons_of_mem _ hin))

/-- A call that is over was told that its content is there. -/
theorem Settled.deduplicated (h : Settled codec versions fileName base s)
    (hbase : Filed codec versions fileName base) {e : FeatureEnvelope F} {outcome : FeatureWriteOutcome}
    {enqueued : Bool} (hcall : .ended e outcome enqueued ∈ s.writer.calls) :
    outcome = .deduplicated ∧ enqueued = false := by
  obtain ⟨row, hrow, hid, hidentity⟩ := h.named e
    (List.mem_append_left _ (List.mem_filterMap.mpr ⟨_, hcall, rfl⟩))
  obtain ⟨before, after, hcalls⟩ := List.append_of_mem hcall
  have hcontents : before.filterMap FeatureWriteCall.content? = [] := by
    have hnone := (List.append_eq_nil_iff.mp h.contents_eq).1
    rw [hcalls, List.filterMap_append] at hnone
    exact (List.append_eq_nil_iff.mp hnone).1
  have hfirst : firstContent s.writer.found before e.featureSnapshotId = some e.contentIdentity := by
    rw [← hid, ← hidentity]
    apply firstContent_eq_some
    · rw [hcontents, List.append_nil, h.found]
      exact hbase.orderly.distinct
    · rw [h.found]
      exact List.mem_append_left _ hrow
  have hexplains := h.filed.sound.explained before e outcome enqueued after hcalls
  rw [hfirst] at hexplains
  obtain ⟨houtcome, hiff⟩ := hexplains.resolve_right fun hfailed => by cases hfailed.1
  refine ⟨houtcome.trans (firstOutcome_same _), ?_⟩
  rw [← Bool.not_eq_true]
  exact fun htrue => by cases hiff.mp htrue

end FeatureTreeWriter

open FeatureTreeWriter in
/-- After a writer was handed some outputs and closed, and none of its files took the name of another, writers
that come after it on the root and are given only outputs among them change nothing, in whatever schedule with
failures, crashes and restarts: the files and the rows in them stay, no row is counted as written, and every
write that is over was answered DEDUPLICATED. -/
theorem rewriting_changes_nothing (codec : FeatureCodec F) (versions : WriterVersions)
    (fileName : List (FeatureEnvelope F) → String) (outputs : List (PersistableFeatureSnapshot F))
    (hmodels : ∀ output ∈ outputs, codec.accepted output) {base : FeatureTreeWriter F}
    (hrun : Scheduled codec versions fileName outputs base) (hhanded : Handed codec versions outputs base)
    (hnames : Unreplaced fileName base) (published : Bool) (inputs : List (FeatureWriterInput F))
    (hwrites : ∀ snapshot callback, .write snapshot callback ∈ inputs → snapshot ∈ outputs) :
    let s := (base.restart fileName published).run codec versions fileName inputs
    s.files = base.files ∧ s.writer.disk = base.writer.disk ∧
      (∀ row ∈ s.writer.disk, ∃ file ∈ s.files, featureRow row ∈ file.rows) ∧ s.written = 0 ∧
      ∀ e outcome enqueued, .ended e outcome enqueued ∈ s.writer.calls →
        outcome = .deduplicated ∧ enqueued = false := by
  intro s
  have hbase := hrun.filed hmodels
  have hsettled : Settled codec versions fileName base s := by
    refine Settled.run (hbase.settled_restart hhanded.returned published) hbase ?_ ?_
    · exact fun snapshot callback hin => hmodels _ (hwrites snapshot callback hin)
    · exact fun snapshot callback hin e henvelope =>
        hhanded.hasRow hbase (hwrites snapshot callback hin) henvelope
  refine ⟨hsettled.files_eq hbase, hsettled.disk_eq hbase, fun row hrow => ?_, hsettled.written,
    fun e outcome enqueued hcall => hsettled.deduplicated hbase hcall⟩
  rw [hsettled.disk_eq hbase] at hrow
  rw [hsettled.files_eq hbase]
  exact hbase.mem_file hnames hrow

/-! ### Two snapshots, by two writers -/

/-- A file is named by the digests of its rows. -/
def examplePartName (envelopes : List (FeatureEnvelope ℚ)) : String :=
  "part-" ++ String.join (envelopes.map (·.payloadSha256)) ++ ".parquet"

def exampleOutputs : List (PersistableFeatureSnapshot ℚ) :=
  [.singleVenue exampleFeatureSnapshot, .singleVenue exampleLaterSnapshot]

/-- The submissions are flushed together behind the sentinel, or one by one where a batch has one row. -/
def exampleTreeInputs (flush : List (FeatureWriterInput ℚ)) : List (FeatureWriterInput ℚ) :=
  .start :: exampleOutputs.map (.write · none) ++ [.close, .runClose] ++ flush ++ [.returnClose]

def exampleFlushTogether : List (FeatureWriterInput ℚ) := [.getItem, .getItem, .getItem, .fileWritten]

def exampleFlushSingly : List (FeatureWriterInput ℚ) :=
  [.getItem, .fileWritten, .getItem, .fileWritten, .getItem]

def exampleTreeWriter (batchRows : Nat) (flush : List (FeatureWriterInput ℚ)) : FeatureTreeWriter ℚ :=
  (FeatureTreeWriter.new batchRows 4 exampleQueueCapacity_pos 1000).run exampleFeatureCodec exampleWriterVersions
    examplePartName (exampleTreeInputs flush)

/-- The two ways to flush. -/
def ExampleFlush (batchRows : Nat) (flush : List (FeatureWriterInput ℚ)) : Prop :=
  (batchRows = 10 ∧ flush = exampleFlushTogether) ∨ (batchRows = 1 ∧ flush = exampleFlushSingly)

theorem exampleOutputs_models : ∀ output ∈ exampleOutputs, exampleFeatureCodec.accepted output :=
  fun _ houtput => List.sublist_append_left exampleOutputs [_] |>.subset houtput

theorem exampleTreeInputs_writes {batchRows : Nat} {flush : List (FeatureWriterInput ℚ)}
    (hflush : ExampleFlush batchRows flush) :
    ∀ snapshot callback, .write snapshot callback ∈ exampleTreeInputs flush → snapshot ∈ exampleOutputs := by
  intro snapshot callback hin
  rcases hflush with ⟨-, rfl⟩ | ⟨-, rfl⟩
  · have hwritten : snapshot ∈ exampleOutputs ∧ none = callback := by
      simpa [exampleTreeInputs, exampleFlushTogether] using hin
    exact hwritten.1
  · have hwritten : snapshot ∈ exampleOutputs ∧ none = callback := by
      simpa [exampleTreeInputs, exampleFlushSingly] using hin
    exact hwritten.1

theorem exampleTreeWriter_scheduled {batchRows : Nat} {flush : List (FeatureWriterInput ℚ)}
    (hflush : ExampleFlush batchRows flush) :
    FeatureTreeWriter.Scheduled exampleFeatureReader.codec exampleWriterVersions examplePartName
      exampleOutputs (exampleTreeWriter batchRows flush) :=
  ⟨batchRows, 4, exampleQueueCapacity_pos, 1000, exampleTreeInputs flush, exampleTreeInputs_writes hflush, rfl⟩

set_option maxRecDepth 4096 in
theorem exampleTreeWriter_handed {batchRows : Nat} {flush : List (FeatureWriterInput ℚ)}
    (hflush : ExampleFlush batchRows flush) :
    FeatureTreeWriter.Handed exampleFeatureReader.codec exampleWriterVersions exampleOutputs
      (exampleTreeWriter batchRows flush) where
  found := by rcases hflush with ⟨rfl, rfl⟩ | ⟨rfl, rfl⟩ <;> rfl
  answered := by rcases hflush with ⟨rfl, rfl⟩ | ⟨rfl, rfl⟩ <;> decide +kernel
  envelopes := by rcases hflush with ⟨rfl, rfl⟩ | ⟨rfl, rfl⟩ <;> rfl
  returned := by rcases hflush with ⟨rfl, rfl⟩ | ⟨rfl, rfl⟩ <;> decide +kernel

theorem exampleTreeWriter_unreplaced {batchRows : Nat} {flush : List (FeatureWriterInput ℚ)}
    (hflush : ExampleFlush batchRows flush) :
    FeatureTreeWriter.Unreplaced examplePartName (exampleTreeWriter batchRows flush) := by
  unfold FeatureTreeWriter.Unreplaced
  rcases hflush with ⟨rfl, rfl⟩ | ⟨rfl, rfl⟩ <;> decide +kernel

set_option maxRecDepth 4096 in
/-- Two files of one row are read back as two records. -/
theorem written_tree_reads_back_two : ∃ yielded,
    exampleFeatureReader.iterRecords
        ((exampleTreeWriter 1 exampleFlushSingly).tree "/data/feature_schema=v1") {} =
      .ok (yielded, none) ∧ yielded.length = 2 ∧
        ∀ e enqueued, .ended e .accepted enqueued ∈
          (exampleTreeWriter 1 exampleFlushSingly).writer.calls →
            e ∈ (exampleTreeWriter 1 exampleFlushSingly).writer.disk := by
  have hflush : ExampleFlush 1 exampleFlushSingly := .inr ⟨rfl, rfl⟩
  obtain ⟨hread, hclosed⟩ := written_tree_reads_back exampleFeatureReader exampleWriterVersions examplePartName
    1 4 exampleQueueCapacity_pos 1000 (exampleTreeInputs exampleFlushSingly)
    (fun snapshot callback hin =>
      exampleOutputs_models snapshot (exampleTreeInputs_writes hflush snapshot callback hin))
    {} "/data/feature_schema=v1" (exampleTreeWriter_unreplaced hflush)
  have hdisk : (exampleTreeWriter 1 exampleFlushSingly).writer.disk =
      [exampleFeatureEnvelope, exampleLaterEnvelope] := rfl
  obtain ⟨yielded, hyielded, -, hperm⟩ := hread (hdisk ▸ List.cons_ne_nil _ _)
  refine ⟨yielded, hyielded, ?_, (hclosed (exampleTreeWriter_handed hflush).returned).2⟩
  change (yielded.map (·.logical)).Perm
    (((exampleTreeWriter 1 exampleFlushSingly).writer.disk.filter _).map _) at hperm
  rw [hdisk] at hperm
  have hlength := hperm.length_eq
  rwa [List.length_map] at hlength

/-- One file of two rows and two files of one. -/
theorem written_trees_agree_two : ∃ report,
    compareFeatureTrees exampleFeatureReader exampleRowDigest
        ((exampleTreeWriter 10 exampleFlushTogether).tree "/data/feature_schema=v1")
        ((exampleTreeWriter 1 exampleFlushSingly).tree "/data/feature_schema=v1") {} = .ok report ∧
      report.identical = true := by
  have htogether : ExampleFlush 10 exampleFlushTogether := .inl ⟨rfl, rfl⟩
  have hsingly : ExampleFlush 1 exampleFlushSingly := .inr ⟨rfl, rfl⟩
  obtain ⟨report, hreport, hidentical, -⟩ := written_trees_agree exampleFeatureReader exampleRowDigest
    exampleWriterVersions examplePartName exampleOutputs (List.cons_ne_nil _ _) exampleOutputs_models
    (exampleTreeWriter_scheduled htogether) (exampleTreeWriter_scheduled hsingly)
    (exampleTreeWriter_handed htogether) (exampleTreeWriter_handed hsingly)
    (exampleTreeWriter_unreplaced htogether) (exampleTreeWriter_unreplaced hsingly) "/data/feature_schema=v1"
  exact ⟨report, hreport, hidentical⟩

/-- The two rows of one file, written again one by one. -/
theorem rewriting_changes_nothing_two :
    let base := exampleTreeWriter 10 exampleFlushTogether
    let again := (base.restart examplePartName false).run exampleFeatureCodec exampleWriterVersions
      examplePartName (exampleTreeInputs exampleFlushSingly)
    again.files = base.files ∧ again.writer.disk = base.writer.disk ∧ again.written = 0 := by
  have htogether : ExampleFlush 10 exampleFlushTogether := .inl ⟨rfl, rfl⟩
  have hsingly : ExampleFlush 1 exampleFlushSingly := .inr ⟨rfl, rfl⟩
  obtain ⟨hfiles, hdisk, -, hwritten, -⟩ := rewriting_changes_nothing exampleFeatureCodec
    exampleWriterVersions examplePartName exampleOutputs exampleOutputs_models
    (exampleTreeWriter_scheduled htogether) (exampleTreeWriter_handed htogether)
    (exampleTreeWriter_unreplaced htogether) false (exampleTreeInputs exampleFlushSingly)
    (exampleTreeInputs_writes hsingly)
  exact ⟨hfiles, hdisk, hwritten⟩

end Cvf
