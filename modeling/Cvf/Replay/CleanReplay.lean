/-
# Cvf.Replay.CleanReplay — a collection that completed is replayed as it was recorded.

The checks before the manifest of a clean end and those before a replay are made by the same audits, on
the same Parquet files: the steps in between only replace the manifest.  So a completed collection passes
the second ones, with one exception: they ask for an event, which the first do not.  What the audit of
the journal reads is then what the runner publishes (`clean_collection_replays`).
-/
import Cvf.Replay.CrashPoints
import Cvf.Replay.Runner

namespace Cvf

open Cvf.Library

variable {codecs : CollectionCodecs} {tree after : CollectionTree}

/-! ## Trees with the same Parquet files -/

/-- Two trees that differ in other files at most. -/
structure SameParquet (tree after : CollectionTree) : Prop where
  root : after.root = tree.root
  directories : after.directories = tree.directories
  files : after.selected (nameEndsWith ".parquet") = tree.selected (nameEndsWith ".parquet")

theorem SameParquet.rawTree (h : SameParquet tree after) : after.rawTree = tree.rawTree := by
  have hopen : after.openParquet = tree.openParquet := by
    funext file
    unfold CollectionTree.openParquet FileTree.pathText
    rw [h.root]
  unfold CollectionTree.rawTree FileTree.pathText
  rw [h.directories, h.files, hopen, h.root]

theorem SameParquet.auditTree (h : SameParquet tree after) :
    auditTree codecs after = auditTree codecs tree := by
  unfold Cvf.auditTree
  rw [h.rawTree]

theorem SameParquet.journalRecords (h : SameParquet tree after) :
    journalRecords codecs after = journalRecords codecs tree := by
  unfold Cvf.journalRecords
  rw [h.rawTree]

theorem SameParquet.auditNormalizedJournal (h : SameParquet tree after) (requireNormalizedEvents : Bool) :
    auditNormalizedJournal codecs after requireNormalizedEvents =
      auditNormalizedJournal codecs tree requireNormalizedEvents := by
  unfold Cvf.auditNormalizedJournal CollectionTree.hasChannel
  rw [h.directories, h.journalRecords]

/-! ## The last manifest -/

theorem temporaryManifest_ne (uuidHex name : String) (hname : name.toList.head? ≠ some '.') :
    [s!".{collectionManifestFilename}.{uuidHex}.tmp"] ≠ [name] := by
  intro heq
  apply hname
  rw [← (List.cons.inj heq).1]
  simp only [String.toList_append]
  rfl

/-- What writing the last manifest leaves. -/
structure ManifestWritten (codec : ManifestCodec) (tree after : CollectionTree)
    (clean : CollectionManifest) : Prop where
  same : SameParquet tree after
  present : after.present = true
  manifest : after.lookup [collectionManifestFilename] = some (.text (codec.payload clean))
  sentinel : after.contains [compactionInProgressFilename] = tree.contains [compactionInProgressFilename]
  temporary : tree.selected (nameEndsWith ".tmp") = [] → after.selected (nameEndsWith ".tmp") = []

theorem manifestWritten (codec : ManifestCodec) (tree : CollectionTree) (uuidHex : String)
    (clean : CollectionManifest) :
    ManifestWritten codec tree (tree.run (atomicWriteManifest codec uuidHex clean)) clean := by
  have hmanifest : [s!".{collectionManifestFilename}.{uuidHex}.tmp"] ≠ [collectionManifestFilename] :=
    temporaryManifest_ne _ _ (by decide)
  have hdirectories : (tree.run (atomicWriteManifest codec uuidHex clean)).directories =
      tree.directories := by
    refine (FileTree.directories_replace (tree.apply (.mkdir [])) _ _).trans ?_
    show tree.directories ++ [] = tree.directories
    rw [List.append_nil]
  refine
    { same :=
        { root := FileTree.root_run tree _
          directories := hdirectories
          files := FileTree.selected_run_of_spares tree
            (spares_atomicWriteManifest codec uuidHex clean) }
      present := ?_
      manifest := FileTree.lookup_replace (tree.apply (.mkdir [])) _ _ hmanifest
      sentinel := ?_
      temporary := ?_ }
  · have hmade : (tree.apply (.mkdir [])).present = true := rfl
    exact FileTree.present_run hmade _
  · have havoids : ∀ step ∈ atomicWriteManifest codec uuidHex clean,
        FileTree.Avoids [compactionInProgressFilename] step := by
      have htemporary : [s!".{collectionManifestFilename}.{uuidHex}.tmp"] ≠
          [compactionInProgressFilename] := temporaryManifest_ne _ _ (by decide)
      have hother : [collectionManifestFilename] ≠ [compactionInProgressFilename] := by decide
      intro step hstep
      simp only [atomicWriteManifest, FileTree.replaceSteps, List.mem_cons, List.not_mem_nil,
        or_false] at hstep
      rcases hstep with rfl | rfl | rfl | rfl | rfl
      · trivial
      · exact htemporary
      · exact htemporary
      · exact ⟨htemporary, hother⟩
      · exact htemporary
    unfold FileTree.contains
    rw [FileTree.lookup_run_of_avoids tree havoids, hdirectories]
  · exact FileTree.selected_replace_temporary (tree.apply (.mkdir [])) _ _ (by decide +kernel)

/-! ## What a completed collection has passed -/

/-- The checks of a collection that completes, over the tree its writer leaves. -/
structure Finished (codecs : CollectionCodecs) (tree : CollectionTree) (run : CollectionRun)
    (clean : CollectionManifest) (rawAudit : RawAudit) (journal : NormalizedJournalAudit) : Prop where
  audited : auditTree codecs tree = .ok rawAudit
  journaled : auditNormalizedJournal codecs tree false = .ok journal
  count : journal.normalizedEventCount = run.normalizedEventCount
  marker : journal.terminalMarkerAt = run.featureTimelineEndAt
  sentinel : tree.contains [compactionInProgressFilename] = false
  terminal : clean.terminal = .cleanEnd
  featureTimelineEndAt : clean.featureTimelineEndAt = some run.featureTimelineEndAt
  normalizedEventCount : clean.normalizedEventCount = some run.normalizedEventCount
  rawAudit : clean.rawAudit = some (.fromRawAudit rawAudit)

theorem finished_of_ok {run : CollectionRun} {clean : CollectionManifest}
    (h : finishCollection codecs tree run.runId run.finishedAt run.featureTimelineEndAt
      run.normalizedEventCount = .ok clean) :
    ∃ rawAudit journal, Finished codecs tree run clean rawAudit journal := by
  unfold finishCollection at h
  obtain ⟨rawAudit, haudited, h⟩ := bind_eq_ok_iff.mp h
  obtain ⟨journal, hjournaled, h⟩ := bind_eq_ok_iff.mp h
  split_ifs at h with hreconciled
  obtain ⟨hcount, hmarker⟩ := not_or.mp hreconciled
  unfold completedManifest at h
  obtain ⟨current, hcurrent, h⟩ := bind_eq_ok_iff.mp h
  split_ifs at h
  obtain ⟨-, -, h⟩ := bind_eq_ok_iff.mp h
  obtain rfl := Except.ok.inj h
  refine ⟨rawAudit, journal, haudited, hjournaled, not_not.mp hcount, not_not.mp hmarker, ?_, rfl, rfl,
    rfl, rfl⟩
  -- the manifest was read, so no compaction is under way
  unfold readCollectionManifest at hcurrent
  split at hcurrent
  · cases hcurrent
  · rename_i hnone
    exact Bool.eq_false_iff.mpr hnone

/-- A collection that completes has passed the checks over the tree its writer leaves, and ends by
writing the manifest. -/
theorem collect_eq_ok {run : CollectionRun} {clean : CollectionManifest}
    (hclean : (collect codecs tree run).2 = .ok clean) :
    ∃ claimed, (collect codecs tree run).1 =
        claimed ++ run.written ++ atomicWriteManifest codecs.manifests run.manifestHex clean ∧
      (claimed = newTextFile collectionManifestFilename (codecs.manifests.payload run.inProgress)) ∧
      ∃ rawAudit journal, Finished codecs (tree.run (claimed ++ run.written)) run clean rawAudit journal := by
  unfold collect beginCollectionManifest claimCollectionManifest at hclean ⊢
  cases hvalidate : run.inProgress.validate with
  | error e =>
    rw [hvalidate] at hclean
    cases hclean
  | ok _ =>
    rw [hvalidate] at hclean
    dsimp only at hclean ⊢
    by_cases hempty : tree.directories ≠ [] ∨ tree.files.map Prod.fst ≠ []
    · rw [if_pos hempty] at hclean
      cases hclean
    rw [if_neg hempty] at hclean ⊢
    dsimp only at hclean ⊢
    generalize hclaimed : newTextFile collectionManifestFilename
      (codecs.manifests.payload run.inProgress) = claimed at hclean ⊢
    cases hfinish : finishCollection codecs (tree.run (claimed ++ run.written)) run.runId run.finishedAt
        run.featureTimelineEndAt run.normalizedEventCount with
    | error e =>
      rw [hfinish] at hclean
      cases hclean
    | ok manifest =>
      rw [hfinish] at hclean
      obtain rfl := Except.ok.inj hclean
      exact ⟨claimed, rfl, rfl, finished_of_ok hfinish⟩

/-! ## No temporary file is left -/

theorem selected_tmp_writeFiles {files : List RawFile} (hfiles : PartFiles files)
    (hnone : tree.selected (nameEndsWith ".tmp") = []) :
    (tree.run (files.flatMap writeFileSteps)).selected (nameEndsWith ".tmp") = [] := by
  have hnamed := hfiles.named
  clear hfiles
  induction files generalizing tree with
  | nil => exact hnone
  | cons file files ih =>
    rw [List.flatMap_cons, FileTree.run_append]
    refine ih ?_ fun f hf => hnamed f (List.mem_cons_of_mem _ hf)
    exact FileTree.selected_replace_temporary (tree.apply (.mkdir file.directory)) _ _
      (not_tmp_of_parquet (hnamed file List.mem_cons_self)) hnone

/-- The names of the partitions do not look like those of temporary files. -/
def PlainPartitions (files : List RawFile) : Prop :=
  ∀ file ∈ files, ∀ name ∈ file.directory, nameEndsWith ".tmp" [name] = false

theorem rglob_tmp_eq_nil (hfiles : tree.selected (nameEndsWith ".tmp") = [])
    (hdirectories : ∀ directory ∈ tree.directories, nameEndsWith ".tmp" directory = false) :
    tree.rglob ".tmp" = [] := by
  apply List.filter_eq_nil_iff.mpr
  intro path hpath
  rcases List.mem_append.mp hpath with hpath | hpath
  · rw [hdirectories path hpath]
    decide
  · obtain ⟨file, hfile, rfl⟩ := List.mem_map.mp hpath
    exact List.filter_eq_nil_iff.mp hfiles file hfile

/-- The directories a writer makes are those of its partitions. -/
theorem directories_of_written (hblank : Blank tree) {run : CollectionRun} (hplain : PlainPartitions run.files)
    (text : String) :
    ∀ directory ∈ (tree.run (newTextFile collectionManifestFilename text ++ run.written)).directories,
      nameEndsWith ".tmp" directory = false := by
  intro directory hdirectory
  rcases FileTree.mem_directories_run hdirectory with hbefore | ⟨path, hstep, hstart, hne⟩
  · rw [hblank.1] at hbefore
    cases hbefore
  -- a step that makes a directory makes the root or the directory of a file
  have hpath : path = [] ∨ ∃ file ∈ run.files, path = file.directory := by
    rcases List.mem_append.mp hstep with hstep | hstep
    · simp only [newTextFile, List.mem_cons, List.not_mem_nil, or_false, FileStep.mkdir.injEq,
        reduceCtorEq] at hstep
      exact .inl hstep
    · rcases List.mem_cons.mp hstep with hstep | hstep
      · exact .inl (FileStep.mkdir.inj hstep)
      · obtain ⟨file, hfile, hstep⟩ := List.mem_flatMap.mp hstep
        simp only [writeFileSteps, FileTree.replaceSteps, List.mem_cons, List.not_mem_nil, or_false,
          FileStep.mkdir.injEq, reduceCtorEq] at hstep
        exact .inr ⟨file, hfile, hstep⟩
  rcases hpath with rfl | ⟨file, hfile, rfl⟩
  · exact absurd (List.prefix_nil.mp hstart) hne
  · have hlast := List.getLast?_eq_some_getLast hne
    have hplain := hplain file hfile _ (hstart.subset (List.getLast_mem hne))
    unfold nameEndsWith at hplain ⊢
    rw [hlast]
    exact hplain

/-! ## The journal as it was recorded -/

/-- A record of an event. -/
def isEventRecord (r : RawMarketRecord) : Bool :=
  r.channel = normalizedEventJournalChannel ∧ r.messageKind ≠ featureTimelineEndMessageKind

/-- The records that hold the recorded events. -/
def RecordedBy (codec : EventCodec) (records : List RawMarketRecord)
    (recorded : List NormalizedMarketEvent) : Prop :=
  List.Forall₂ (JournalOf codec) recorded (records.filter isEventRecord)

theorem exists_pairs_of_recorded {codec : EventCodec} {records : List RawMarketRecord}
    {recorded : List NormalizedMarketEvent} (h : RecordedBy codec records recorded) :
    ∃ pairs : List (NormalizedMarketEvent × RawMarketRecord),
      pairs.map Prod.fst = recorded ∧ pairs.map Prod.snd = records.filter isEventRecord ∧
        ∀ p ∈ pairs, JournalOf codec p.1 p.2 := by
  unfold RecordedBy at h
  generalize records.filter isEventRecord = held at h ⊢
  induction h with
  | nil => exact ⟨[], rfl, rfl, by simp⟩
  | @cons e r _ _ hhead _ ih =>
    obtain ⟨pairs, hfst, hsnd, hpairs⟩ := ih
    refine ⟨(e, r) :: pairs, by rw [List.map_cons, hfst], by rw [List.map_cons, hsnd], ?_⟩
    intro p hp
    rcases List.mem_cons.mp hp with rfl | hp
    · exact hhead
    · exact hpairs p hp

/-- The events that records in another order hold are the recorded ones. -/
theorem events_perm {records front : List RawMarketRecord} {events recorded : List NormalizedMarketEvent}
    (hrecorded : RecordedBy codecs.events records recorded)
    (hfaithful : ∀ e ∈ recorded, codecs.events.FaithfulAt e)
    (hfront : front.Perm ((records.filter isEventRecord).map RawMarketRecord.withTextSequence))
    (hholds : HoldEvents codecs front events) : events.Perm recorded := by
  obtain ⟨pairs, hfst, hsnd, hpairs⟩ := exists_pairs_of_recorded hrecorded
  rw [← hsnd, List.map_map] at hfront
  obtain ⟨sorted, hsorted, rfl⟩ := exists_perm_map hfront
  have hheld : HoldEvents codecs (sorted.map (RawMarketRecord.withTextSequence ∘ Prod.snd))
      (sorted.map Prod.fst) := by
    unfold HoldEvents
    rw [List.forall₂_map_left_iff, List.forall₂_map_right_iff, List.forall₂_same]
    intro p hp
    have hin := hsorted.mem_iff.mp hp
    have hevent : p.1 ∈ recorded := by
      rw [← hfst]
      exact List.mem_map_of_mem hin
    exact normalize_of_journalOf (hfaithful _ hevent) (hpairs p hin).withTextSequence _
  rw [holdEvents_unique hholds hheld, ← hfst]
  exact hsorted.map Prod.fst

theorem matches_journalFilter (r : RawMarketRecord) :
    journalFilter.matches r = decide (r.channel = normalizedEventJournalChannel) := by
  unfold RawScanFilter.matches journalFilter
  simp

/-- Without its marker, a journal holds the records of events. -/
theorem front_perm {records front : List RawMarketRecord} {marker : RawMarketRecord}
    (hunmarked : ∀ r ∈ front, r.messageKind ≠ featureTimelineEndMessageKind)
    (hmarked : marker.messageKind = featureTimelineEndMessageKind)
    (hjournal : (front ++ [marker]).Perm (matchingRecords journalFilter records)) :
    front.Perm ((records.filter isEventRecord).map RawMarketRecord.withTextSequence) := by
  have hfront : (front ++ [marker]).filter (fun r => r.messageKind ≠ featureTimelineEndMessageKind) =
      front := by
    rw [List.filter_append, List.filter_eq_self.mpr fun r hr => by simpa using hunmarked r hr]
    simp [hmarked]
  have hfilter := hjournal.filter fun r => r.messageKind ≠ featureTimelineEndMessageKind
  rw [hfront] at hfilter
  refine hfilter.trans (List.Perm.of_eq ?_)
  unfold matchingRecords
  rw [List.filter_filter, List.filter_map]
  congr 1
  apply List.filter_congr
  intro r _
  show (decide (r.messageKind ≠ featureTimelineEndMessageKind) &&
    journalFilter.matches r.withTextSequence) = isEventRecord r
  rw [matches_withTextSequence, matches_journalFilter, Bool.and_comm]
  unfold isEventRecord
  rw [Bool.decide_and]

/-- The records of events are in receive order. -/
theorem front_sorted {order : ReplayOrder} {front : List RawMarketRecord}
    (hunmarked : ∀ r ∈ front, r.messageKind ≠ featureTimelineEndMessageKind)
    (hchannel : ∀ r ∈ front, r.channel = normalizedEventJournalChannel)
    (hsorted : front.Pairwise fun a b => stableRecordKey order a ≤ stableRecordKey order b) :
    front.Pairwise fun a b => replayTimestamp a order ≤ replayTimestamp b order := by
  have hpriority : ∀ r ∈ front, recordPriority r = 1 := by
    intro r hr
    unfold recordPriority
    rw [if_neg (by rw [hchannel r hr]; decide), if_neg (hunmarked r hr)]
  refine hsorted.imp_of_mem ?_
  intro a b ha hb hkey
  unfold stableRecordKey at hkey
  rw [hpriority a ha, hpriority b hb, Prod.Lex.toLex_le_toLex] at hkey
  rcases hkey with hlt | ⟨-, hkey⟩
  · exact absurd hlt (lt_irrefl _)
  · rcases Prod.Lex.toLex_le_toLex.mp hkey with hlt | ⟨heq, -⟩
    · exact hlt.le
    · exact heq.le

/-- An event of the journal has the metadata of its record. -/
theorem metadataMatches_of_normalize {codec : EventCodec}
    {venue : RawMarketRecord → Except String (List NormalizedMarketEvent)} {r : RawMarketRecord}
    {event : NormalizedMarketEvent} (hchannel : r.channel = normalizedEventJournalChannel)
    (hunmarked : r.messageKind ≠ featureTimelineEndMessageKind)
    (h : normalize codec venue r = .ok [event]) : metadataMatches event r := by
  unfold normalize at h
  rw [if_pos hchannel, if_neg hunmarked] at h
  split_ifs at h
  obtain ⟨held, -, h⟩ := bind_eq_ok_iff.mp h
  split_ifs at h with hmetadata
  obtain ⟨rfl, -⟩ := List.cons.inj (Except.ok.inj h)
  exact hmetadata

theorem receipts_of_holds {front : List RawMarketRecord} {events : List NormalizedMarketEvent}
    (hunmarked : ∀ r ∈ front, r.messageKind ≠ featureTimelineEndMessageKind)
    (hchannel : ∀ r ∈ front, r.channel = normalizedEventJournalChannel)
    (hholds : HoldEvents codecs front events) :
    events.map (fun event => event.base.localReceiveTimestamp) =
      front.map fun r => replayTimestamp r .receiveTime := by
  unfold HoldEvents at hholds
  induction hholds with
  | nil => rfl
  | @cons r event front events hhead _ ih =>
    have hmetadata := metadataMatches_of_normalize (hchannel r List.mem_cons_self)
      (hunmarked r List.mem_cons_self) hhead
    rw [List.map_cons, List.map_cons, hmetadata.2.2.2.1,
      ih (fun r hr => hunmarked r (List.mem_cons_of_mem _ hr))
        (fun r hr => hchannel r (List.mem_cons_of_mem _ hr))]
    rfl

/-- In the order in which they were received. -/
def InReceiveOrder (events : List NormalizedMarketEvent) : Prop :=
  events.Pairwise fun a b => a.base.localReceiveTimestamp ≤ b.base.localReceiveTimestamp

/-- The events of records in receive order are in receive order. -/
theorem inReceiveOrder_of_holds {front : List RawMarketRecord} {events : List NormalizedMarketEvent}
    (hunmarked : ∀ r ∈ front, r.messageKind ≠ featureTimelineEndMessageKind)
    (hchannel : ∀ r ∈ front, r.channel = normalizedEventJournalChannel)
    (hsorted : front.Pairwise fun a b => replayTimestamp a .receiveTime ≤ replayTimestamp b .receiveTime)
    (hholds : HoldEvents codecs front events) : InReceiveOrder events := by
  unfold InReceiveOrder
  rw [← List.pairwise_map (f := fun event : NormalizedMarketEvent => event.base.localReceiveTimestamp)
      (R := (· ≤ ·)),
    receipts_of_holds hunmarked hchannel hholds, List.pairwise_map]
  exact hsorted

/-! ## From completion to replay -/

/-- The Parquet files of an audited tree hold their records, each under its own id. -/
theorem holds_of_audited {raw : RawTree} {rawAudit : RawAudit} {records : List RawMarketRecord}
    (haudit : auditRawTree codecs.rowHash codecs.batches raw = .ok rawAudit)
    (hrows : raw.rows.Perm (records.map row)) :
    raw.Holds records ∧ (records.map RawMarketRecord.recordId).Nodup := by
  obtain ⟨hvalid, hnodup, -⟩ := auditRawTree_eq_ok_iff.mp haudit
  refine ⟨⟨fun file hfile => (hvalid file hfile).1, hrows⟩, ?_⟩
  have hids := ((hrows.map RawRow.recordId).nodup_iff).mp hnodup
  rw [List.map_map] at hids
  have hsplit : RawRow.recordId ∘ row = Uuid.str ∘ RawMarketRecord.recordId := rfl
  rw [hsplit, ← List.map_map] at hids
  exact hids.of_map _

/-- What a tree with an audited journal replays. -/
theorem replay_of_audited {rawAudit : RawAudit} {journal : NormalizedJournalAudit}
    {requireNormalizedEvents : Bool} (haudit : auditTree codecs tree = .ok rawAudit)
    (hjournal : auditNormalizedJournal codecs tree requireNormalizedEvents = .ok journal)
    {records : List RawMarketRecord} {recorded : List NormalizedMarketEvent}
    (hrows : tree.rows.Perm (records.map row)) (hrecorded : RecordedBy codecs.events records recorded)
    (hfaithful : ∀ e ∈ recorded, codecs.events.FaithfulAt e) :
    ∃ read replayed, journalRecords codecs tree = .ok read ∧
      replay codecs .receiveTime read = .ok replayed ∧ replayed.published.Perm recorded ∧
      InReceiveOrder replayed.published ∧ replayed.finishedThrough = some journal.terminalMarkerAt ∧
      journal.normalizedEventCount = recorded.length := by
  obtain ⟨raw, hraw, haudit⟩ := bind_eq_ok_iff.mp haudit
  rw [← rows_of_rawTree hraw] at hrows
  obtain ⟨hholds, hunique⟩ := holds_of_audited haudit hrows
  have hread : journalRecords codecs tree =
      .ok (sortByKey (stableRecordKey .receiveTime) (matchingRecords journalFilter records)) := by
    unfold journalRecords
    rw [hraw]
    exact @iterRecords_ok
      { tree := raw, reader := codecs.batches, batchSize_pos := one_le_batchSize } _ hunique hholds
      journalFilter .receiveTime
  -- the audit read the same records in the same order, so the shape it found is the shape of the replay
  unfold auditNormalizedJournal at hjournal
  split_ifs at hjournal
  obtain ⟨read, hread', hjournal⟩ := bind_eq_ok_iff.mp hjournal
  rw [hread] at hread'
  obtain rfl := Except.ok.inj hread'
  obtain ⟨s, hfold, hfinish⟩ := bind_eq_ok_iff.mp hjournal
  obtain ⟨front, marker, events, hshape⟩ := journalShape_of_audit hfold hfinish
  have hperm := sortByKey_perm (stableRecordKey .receiveTime) (matchingRecords journalFilter records)
  have hsorted := pairwise_sortByKey (stableRecordKey .receiveTime)
    (matchingRecords journalFilter records)
  have hchannel : ∀ r ∈ sortByKey (stableRecordKey .receiveTime) (matchingRecords journalFilter records),
      r.channel = normalizedEventJournalChannel := by
    intro r hr
    have hmatch := (List.mem_filter.mp (hperm.mem_iff.mp hr)).2
    rw [matches_journalFilter] at hmatch
    exact of_decide_eq_true hmatch
  rw [hshape.split] at hperm hsorted
  have hfrontChannel : ∀ r ∈ front, r.channel = normalizedEventJournalChannel := by
    intro r hr
    apply hchannel
    rw [hshape.split]
    exact List.mem_append_left _ hr
  -- before the marker every record is an event, whose sort key starts with its receive time
  have hfrontSorted := front_sorted hshape.unmarked hfrontChannel (List.pairwise_append.mp hsorted).1
  obtain ⟨replayed, hreplay, hpublished, hfinished⟩ := replay_of_shape hshape hchannel hfrontSorted
  have hevents := events_perm hrecorded hfaithful
    (front_perm hshape.unmarked hshape.marked hperm) hshape.holds
  refine ⟨_, replayed, hread, hreplay, ?_, ?_, hfinished, ?_⟩
  · rw [hpublished]
    exact hevents
  · rw [hpublished]
    exact inReceiveOrder_of_holds hshape.unmarked hfrontChannel hfrontSorted hshape.holds
  · rw [hshape.count, hevents.length_eq]

/-- A journal with an event passes the audit that asks for one. -/
theorem auditNormalizedJournal_of_events {journal : NormalizedJournalAudit}
    (hjournal : auditNormalizedJournal codecs tree false = .ok journal)
    (hevents : journal.normalizedEventCount ≠ 0) :
    auditNormalizedJournal codecs tree true = .ok journal := by
  unfold auditNormalizedJournal at hjournal ⊢
  split_ifs at hjournal ⊢
  obtain ⟨read, hread, hjournal⟩ := bind_eq_ok_iff.mp hjournal
  obtain ⟨s, hfold, hfinish⟩ := bind_eq_ok_iff.mp hjournal
  exact bind_eq_ok_iff.mpr
    ⟨read, hread, bind_eq_ok_iff.mpr ⟨s, hfold, finish_of_events hfinish hevents⟩⟩

/-- What is true of the tree that a completed collection leaves. -/
structure Completed (codecs : CollectionCodecs) (tree : CollectionTree) (run : CollectionRun)
    (clean : CollectionManifest) (rawAudit : RawAudit) (journal : NormalizedJournalAudit) : Prop where
  evidence : (inspectCollectionEvidence tree).any = true
  finished : tree.rglob ".tmp" = []
  manifest : readCollectionManifest codecs.manifests tree = .ok clean
  rows : CollectionTree.rows tree = run.files.flatMap RawFile.rows
  checks : Finished codecs tree run clean rawAudit journal

theorem completed_of_ok (hblank : Blank tree) {run : CollectionRun} (hfiles : PartFiles run.files)
    (hplain : PlainPartitions run.files) {clean : CollectionManifest}
    (hclean : (collect codecs tree run).2 = .ok clean)
    (hmanifest : codecs.manifests.validateJson (codecs.manifests.payload clean) = .ok clean) :
    ∃ rawAudit journal,
      Completed codecs (tree.run (collect codecs tree run).1) run clean rawAudit journal := by
  obtain ⟨claimed, hsteps, hclaimed, rawAudit, journal, hfinished⟩ := collect_eq_ok hclean
  rw [hsteps, FileTree.run_append]
  have hwritten := manifestWritten codecs.manifests (tree.run (claimed ++ run.written)) run.manifestHex
    clean
  have hspares : ∀ step ∈ claimed ++ [.mkdir []], FileTree.Spares (nameEndsWith ".parquet") step := by
    intro step hstep
    rcases List.mem_append.mp hstep with hstep | hstep
    · rw [hclaimed] at hstep
      exact spares_newTextFile _ manifest_not_parquet step hstep
    · obtain rfl := List.mem_singleton.mp hstep
      trivial
  have hsplit : claimed ++ run.written =
      claimed ++ [.mkdir []] ++ run.files.flatMap writeFileSteps ++ [] := by
    rw [List.append_nil]
    exact List.append_cons ..
  have hrows : CollectionTree.rows (tree.run (claimed ++ run.written)) =
      run.files.flatMap RawFile.rows := by
    rw [hsplit]
    exact rows_of_written hblank hfiles hspares (by simp)
  -- no temporary file is left, under no directory that looks like one
  have htemporary : (tree.run (claimed ++ run.written)).selected (nameEndsWith ".tmp") = [] := by
    have hnone : ((tree.run claimed).apply (.mkdir [])).selected (nameEndsWith ".tmp") = [] := by
      show (tree.run claimed).selected (nameEndsWith ".tmp") = []
      rw [hclaimed, FileTree.selected_run_of_spares tree (spares_newTextFile _ (by decide +kernel))]
      unfold FileTree.selected
      rw [hblank.2]
      rfl
    rw [FileTree.run_append]
    exact selected_tmp_writeFiles hfiles hnone
  have hdirectories : ∀ directory ∈ (tree.run (claimed ++ run.written)).directories,
      nameEndsWith ".tmp" directory = false := by
    rw [hclaimed]
    exact directories_of_written hblank hplain _
  generalize tree.run (claimed ++ run.written) = before at *
  generalize before.run (atomicWriteManifest codecs.manifests run.manifestHex clean) = final at *
  have hsentinel : final.contains [compactionInProgressFilename] = false :=
    hwritten.sentinel.trans hfinished.sentinel
  refine ⟨rawAudit, journal, ?_, ?_, ?_, ?_, ?_⟩
  · unfold inspectCollectionEvidence CollectionEvidence.any FileTree.contains
    rw [hwritten.present, hwritten.manifest]
    simp
  · refine rglob_tmp_eq_nil (hwritten.temporary htemporary) ?_
    rw [hwritten.same.directories]
    exact hdirectories
  · unfold readCollectionManifest
    rw [hsentinel, if_neg (by decide), hwritten.manifest]
    dsimp only
    rw [hmanifest]
  · unfold CollectionTree.rows
    rw [hwritten.same.files]
    exact hrows
  · exact
      { hfinished with
        audited := hwritten.same.auditTree.trans hfinished.audited
        journaled := (hwritten.same.auditNormalizedJournal false).trans hfinished.journaled
        sentinel := hsentinel }

/-- A collection that completes and has recorded an event is clean, resolves to its journal, and replays
the events it recorded, in the order in which they were received, up to the end of its feature
timeline. -/
theorem clean_collection_replays (codecs : CollectionCodecs) {tree : CollectionTree} (hblank : Blank tree)
    {run : CollectionRun} (hfiles : PartFiles run.files) (hplain : PlainPartitions run.files)
    {records : List RawMarketRecord} {recorded : List NormalizedMarketEvent}
    (hrows : (run.files.flatMap RawFile.rows).Perm (records.map row))
    (hrecorded : RecordedBy codecs.events records recorded)
    (hfaithful : ∀ e ∈ recorded, codecs.events.FaithfulAt e) {clean : CollectionManifest}
    (hclean : (collect codecs tree run).2 = .ok clean)
    (hmanifest : codecs.manifests.validateJson (codecs.manifests.payload clean) = .ok clean)
    (hevents : recorded ≠ []) :
    ∃ validation read replayed,
      validateCleanCollection codecs (tree.run (collect codecs tree run).1) none = .ok validation ∧
      resolveReplaySource codecs (tree.run (collect codecs tree run).1) .auto =
        .ok { mode := .journal, cleanCollection := some validation } ∧
      journalRecords codecs (tree.run (collect codecs tree run).1) = .ok read ∧
      replay codecs .receiveTime read = .ok replayed ∧ replayed.published.Perm recorded ∧
      InReceiveOrder replayed.published ∧ replayed.finishedThrough = some run.featureTimelineEndAt := by
  obtain ⟨rawAudit, journal, h⟩ := completed_of_ok hblank hfiles hplain hclean hmanifest
  -- only what the completed tree holds matters from here on, not how it was written
  generalize tree.run (collect codecs tree run).1 = final at *
  have hchecks := h.checks
  rw [← h.rows] at hrows
  obtain ⟨read, replayed, hread, hreplay, hpublished, hordered, hthrough, hcount⟩ :=
    replay_of_audited hchecks.audited hchecks.journaled hrows hrecorded hfaithful
  have hnonzero : journal.normalizedEventCount ≠ 0 := by
    rw [hcount]
    exact fun hzero => hevents (List.length_eq_zero_iff.mp hzero)
  let validation : CleanCollectionValidation :=
    { manifest := clean
      rawAudit
      normalizedEventCount := journal.normalizedEventCount
      terminalMarkerCount := journal.terminalMarkerCount }
  have hvalid : Validated codecs final none validation :=
    { finished := h.finished
      manifest := h.manifest
      terminal := hchecks.terminal
      audited := hchecks.audited
      logical := hchecks.rawAudit
      journal := by
        refine ⟨journal.terminalMarkerAt, ?_, ?_, ?_⟩
        · exact auditNormalizedJournal_of_events hchecks.journaled hnonzero
        · rw [hchecks.normalizedEventCount, ← hchecks.count]
        · rw [hchecks.featureTimelineEndAt, ← hchecks.marker] }
  have hvalidate := validateCleanCollection_eq_ok_iff.mpr hvalid
  refine ⟨validation, read, replayed, hvalidate, ?_, hread, hreplay, hpublished, hordered, ?_⟩
  · unfold resolveReplaySource
    dsimp only
    rw [if_neg (by decide), if_neg (by simp [h.evidence]), hvalidate]
  · rw [hthrough, hchecks.marker]

/-- Without an event, the audit that asks for one fails. -/
theorem auditNormalizedJournal_of_empty {journal : NormalizedJournalAudit}
    (hjournal : auditNormalizedJournal codecs tree false = .ok journal)
    (hempty : journal.normalizedEventCount = 0) :
    auditNormalizedJournal codecs tree true = .error "normalized journal is empty" := by
  unfold auditNormalizedJournal at hjournal ⊢
  split_ifs at hjournal ⊢
  obtain ⟨read, hread, hjournal⟩ := bind_eq_ok_iff.mp hjournal
  obtain ⟨s, hfold, hfinish⟩ := bind_eq_ok_iff.mp hjournal
  obtain ⟨-, -, -, -, hcount, -⟩ := finish_eq_ok_iff.mp hfinish
  simp only [hread, hfold, bind, Except.bind]
  unfold JournalAuditState.finish
  rw [if_pos (by simp [← hcount, hempty])]

/-- A completed collection that has recorded no event is refused. -/
theorem empty_collection_refused (hblank : Blank tree) {run : CollectionRun}
    (hfiles : PartFiles run.files) (hplain : PlainPartitions run.files) {clean : CollectionManifest}
    (hclean : (collect codecs tree run).2 = .ok clean)
    (hmanifest : codecs.manifests.validateJson (codecs.manifests.payload clean) = .ok clean)
    (hempty : run.normalizedEventCount = 0) :
    resolveReplaySource codecs (tree.run (collect codecs tree run).1) .auto =
      .error "normalized journal is empty" := by
  obtain ⟨rawAudit, journal, h⟩ := completed_of_ok hblank hfiles hplain hclean hmanifest
  have hchecks := h.checks
  have haudit := auditNormalizedJournal_of_empty hchecks.journaled (hchecks.count.trans hempty)
  unfold resolveReplaySource validateCleanCollection
  dsimp only
  rw [if_neg (by decide), if_neg (by simp [h.evidence]), h.finished]
  simp only [sortByKey, List.insertionSort_nil, h.manifest, hchecks.audited, haudit, bind, Except.bind,
    Option.elim_none]
  rw [if_neg (not_not.mpr hchecks.terminal), if_neg (not_not.mpr hchecks.rawAudit)]

/-! ### Collections that complete -/

theorem openParquet_writtenFile (tree : CollectionTree) {file : RawFile} (h : file.schemaMatches = true) :
    tree.openParquet (writtenFile file) = .ok file := by
  obtain ⟨directory, name, schemaMatches, rows⟩ := file
  obtain rfl : schemaMatches = true := h
  show Except.ok _ = _
  simp [RawFile.path, writtenFile]

/-- What a writer leaves is the files it was given. -/
theorem rawTree_of_written (hblank : Blank tree) {run : CollectionRun} (hfiles : PartFiles run.files)
    (hschema : ∀ file ∈ run.files, file.schemaMatches = true) {text : String}
    (hdirectories : ∀ directory ∈
      (tree.run (newTextFile collectionManifestFilename text ++ run.written)).directories,
        nameEndsWith ".parquet" directory = false) :
    CollectionTree.rawTree (tree.run (newTextFile collectionManifestFilename text ++ run.written)) =
      .ok { root := tree.root, files := run.files } := by
  have hnone : ((tree.run (newTextFile collectionManifestFilename text)).apply (.mkdir [])).selected
      (nameEndsWith ".parquet") = [] := by
    show (tree.run (newTextFile collectionManifestFilename text)).selected (nameEndsWith ".parquet") = []
    rw [FileTree.selected_run_of_spares tree (spares_newTextFile text manifest_not_parquet),
      hblank.selected]
  have hselected : (tree.run (newTextFile collectionManifestFilename text ++ run.written)).selected
      (nameEndsWith ".parquet") = run.files.map writtenFile := by
    rw [FileTree.run_append]
    refine (selected_writeFiles hfiles ?_).trans ?_
    · intro file _ other hother
      rw [hnone] at hother
      cases hother
    · rw [hnone, List.nil_append]
  have hfind : (tree.run (newTextFile collectionManifestFilename text ++ run.written)).directories.find?
      (nameEndsWith ".parquet") = none :=
    List.find?_eq_none.mpr fun directory hdirectory => by
      rw [hdirectories directory hdirectory]
      decide
  unfold CollectionTree.rawTree
  rw [hfind, hselected, FileTree.root_run]
  dsimp only
  have hopened : (run.files.map writtenFile).mapM (CollectionTree.openParquet
      (tree.run (newTextFile collectionManifestFilename text ++ run.written))) =
        .ok (run.files.map id) :=
    mapM_map_eq_ok fun file hfile => openParquet_writtenFile _ (hschema file hfile)
  rw [List.map_id] at hopened
  rw [hopened]
  rfl

/-- The manifest of the clean end of a run. -/
def CollectionRun.clean (run : CollectionRun) (rawAudit : RawAudit) : CollectionManifest :=
  { run.inProgress with
    terminal := .cleanEnd
    terminalAt := some run.finishedAt
    featureTimelineEndAt := some run.featureTimelineEndAt
    normalizedEventCount := some run.normalizedEventCount
    rawAudit := some (.fromRawAudit rawAudit) }

/-- The tree that the writer of a run leaves. -/
def CollectionRun.writtenTree (codec : ManifestCodec) (run : CollectionRun) (tree : CollectionTree) :
    CollectionTree :=
  tree.run (newTextFile collectionManifestFilename (codec.payload run.inProgress) ++ run.written)

/-- A collection completes where both audits pass and the journal holds what was counted. -/
theorem collect_completes (hblank : Blank tree) {run : CollectionRun} (hfiles : PartFiles run.files)
    (hvalidate : run.inProgress.validate = .ok ())
    (hread : codecs.manifests.validateJson (codecs.manifests.payload run.inProgress) =
      .ok run.inProgress)
    (hsentinel : (run.writtenTree codecs.manifests tree).contains [compactionInProgressFilename] = false)
    {rawAudit : RawAudit}
    (haudit : auditTree codecs (run.writtenTree codecs.manifests tree) = .ok rawAudit)
    (hjournal : auditNormalizedJournal codecs (run.writtenTree codecs.manifests tree) false =
      .ok { normalizedEventCount := run.normalizedEventCount, terminalMarkerCount := 1
            terminalMarkerAt := run.featureTimelineEndAt })
    (hclean : (run.clean rawAudit).validate = .ok ()) :
    (collect codecs tree run).2 = .ok (run.clean rawAudit) := by
  -- no part file and no journal file takes the name of the manifest
  have hlookup : (run.writtenTree codecs.manifests tree).lookup [collectionManifestFilename] =
      some (.text (codecs.manifests.payload run.inProgress)) := by
    unfold CollectionRun.writtenTree
    rw [FileTree.run_append]
    exact (FileTree.lookup_run_of_avoids _ (avoids_written hfiles _)).trans (lookup_newTextFile ..)
  have hcurrent : readCollectionManifest codecs.manifests (run.writtenTree codecs.manifests tree) =
      .ok run.inProgress := by
    unfold readCollectionManifest
    rw [hsentinel, if_neg (by decide), hlookup]
    dsimp only
    rw [hread]
  have hfinish : finishCollection codecs (run.writtenTree codecs.manifests tree) run.runId run.finishedAt
      run.featureTimelineEndAt run.normalizedEventCount = .ok (run.clean rawAudit) := by
    unfold finishCollection completedManifest
    rw [haudit, hjournal, hcurrent]
    simp only [bind, Except.bind, pure, Except.pure]
    rw [if_neg (by simp), if_neg (by simp [CollectionRun.inProgress]),
      if_neg (by simp [CollectionRun.inProgress])]
    unfold CollectionRun.clean at hclean ⊢
    rw [hclean]
  unfold collect beginCollectionManifest claimCollectionManifest
  rw [hvalidate]
  dsimp only
  rw [if_neg (by simp [hblank.1, hblank.2])]
  unfold CollectionRun.writtenTree at hfinish
  dsimp only
  rw [hfinish]

/-! ### A journal with two events, and one without -/

theorem featureTimelineEnd_not_blank : isBlank featureTimelineEndMessageKind = false := by
  decide +kernel

theorem wildcard_canonical : validateCanonicalSymbol "*" true = .ok "*" := by
  decide +kernel

/-- An index price that is received later. -/
def laterPriceEvent : NormalizedMarketEvent :=
  .indexPrice
    { exchange := .okx
      symbol := "ETH-USDT-PERP"
      exchangeTimestamp := 2
      localReceiveTimestamp := 3
      normalizationTimestamp := 4
      sequenceId := some (.int 8)
      rawPayloadReference := none
      indexPrice := 6 }

/-- The JSON of `laterPriceEvent`, as `canonical_json` writes it. -/
def laterPriceJson : String :=
  "\x7b\"event_type\":\"INDEX_PRICE\",\"exchange\":\"OKX\"," ++
    "\"exchange_timestamp\":\"1970-01-01T00:00:00.000002Z\",\"index_price\":\"6\"," ++
    "\"local_receive_timestamp\":\"1970-01-01T00:00:00.000003Z\"," ++
    "\"normalization_timestamp\":\"1970-01-01T00:00:00.000004Z\"," ++
    "\"raw_payload_reference\":null,\"sequence_id\":8,\"symbol\":\"ETH-USDT-PERP\"\x7d"

theorem laterPriceEvent_valid : laterPriceEvent.Valid := by
  refine ⟨⟨by decide +kernel, fun hwild => absurd hwild (by decide +kernel)⟩, ?_⟩
  show (0 : Rat) < 6
  norm_num

/-- Of the events, the two of the examples are read back. -/
def exampleJournalCodec : EventCodec :=
  { payloadJson := fun event =>
      if event.base.localReceiveTimestamp = 0 then indexPriceJson else laterPriceJson
    validateJson := fun payload =>
      if payload = indexPriceJson.toUTF8 then .ok indexPriceEvent
      else if payload = laterPriceJson.toUTF8 then .ok laterPriceEvent
      else .error "Invalid JSON"
    timelineEndJson := fun _ =>
      "\x7b\"schema_version\":1,\"through_timestamp\":\"1970-01-01T00:00:00.000005Z\"\x7d"
    validateTimelineEndJson := fun _ => .ok 5 }

theorem laterPriceJson_ne : laterPriceJson.toUTF8 ≠ indexPriceJson.toUTF8 := by decide +kernel

theorem exampleJournalCodec_faithful :
    ∀ e ∈ [indexPriceEvent, laterPriceEvent], exampleJournalCodec.FaithfulAt e := by
  have hindex : exampleJournalCodec.payloadJson indexPriceEvent = indexPriceJson := by rfl
  have hlater : exampleJournalCodec.payloadJson laterPriceEvent = laterPriceJson := by rfl
  intro e he
  unfold EventCodec.FaithfulAt
  rcases List.mem_cons.mp he with rfl | he
  · rw [hindex]
    unfold exampleJournalCodec
    dsimp only
    rw [if_pos rfl]
  · obtain rfl := List.mem_singleton.mp he
    rw [hlater]
    unfold exampleJournalCodec
    dsimp only
    rw [if_neg laterPriceJson_ne, if_pos rfl]

/-- The terminal marker at five microseconds. -/
def exampleMarker : RawMarketRecord :=
  { recordId := numberedTrade.recordId
    exchange := .binance
    symbol := "*"
    channel := normalizedEventJournalChannel
    messageKind := featureTimelineEndMessageKind
    transport := .internal
    exchangeTimestamp := none
    localReceiveTimestamp := 5
    normalizationTimestamp := some 5
    sequenceId := none
    connectionGeneration := 0
    rawPayload := (exampleJournalCodec.timelineEndJson 5).toUTF8
    symbol_canonical := wildcard_canonical
    channel_not_blank := journalChannel_not_blank
    messageKind_not_blank := featureTimelineEnd_not_blank }

theorem three_lt_limit : 3 < 2 ^ 128 := by norm_num

/-- The record of `indexPriceEvent`. -/
def exampleEventRecord : RawMarketRecord :=
  journalRecord exampleJournalCodec { int := 3, lt := three_lt_limit } indexPriceEvent
    indexPriceEvent_valid

/-- The record of `laterPriceEvent`, with a smaller id. -/
def exampleLaterRecord : RawMarketRecord :=
  journalRecord exampleJournalCodec { int := 2, lt := Uuid.two_lt_limit } laterPriceEvent
    laterPriceEvent_valid

/-- One file for each record. -/
def exampleFiles (records : List RawMarketRecord) : List RawFile :=
  records.map fun r =>
    { directory := partitionDirectory (rowPartition (row r)), name := "part-a.parquet", rows := [row r] }

def exampleJournalRun (records : List RawMarketRecord) (normalizedEventCount : Nat) : CollectionRun :=
  { exampleRun with files := exampleFiles records, normalizedEventCount }

/-- The manifest that the collection of example records ends with. -/
def exampleClean (records : List RawMarketRecord) (normalizedEventCount : Nat) : CollectionManifest :=
  (exampleJournalRun records normalizedEventCount).clean
    (auditRows exampleCodecs.rowHash records.length (records.map row))

/-- Of the manifests, the two of a run are read back. -/
def exampleJournalManifests (records : List RawMarketRecord) (normalizedEventCount : Nat) :
    ManifestCodec :=
  let inProgress := (exampleJournalRun records normalizedEventCount).inProgress
  let clean := exampleClean records normalizedEventCount
  { payloadJson := exampleManifestJson
    validateJson := fun text =>
      if text = exampleManifestJson clean ++ "\n" then .ok clean
      else (exampleManifests inProgress).validateJson text }

def exampleJournalCodecs (records : List RawMarketRecord) (normalizedEventCount : Nat) :
    CollectionCodecs :=
  { exampleCodecs with
    events := exampleJournalCodec
    manifests := exampleJournalManifests records normalizedEventCount }

/-- The directory behind the writer of a run. -/
def exampleWritten (records : List RawMarketRecord) (normalizedEventCount : Nat) : CollectionTree :=
  (exampleJournalRun records normalizedEventCount).writtenTree
    (exampleJournalManifests records normalizedEventCount) { root := "raw" }

theorem exampleFiles_rows (records : List RawMarketRecord) :
    (exampleFiles records).flatMap RawFile.rows = records.map row := by
  unfold exampleFiles
  rw [List.flatMap_map]
  exact (List.map_eq_flatMap).symm

/-- A journal of example records in receive order, each under its own id, is read as it is. -/
theorem exampleWritten_read {records : List RawMarketRecord} {count : Nat}
    (hfiles : PartFiles (exampleFiles records))
    (hids : (records.map RawMarketRecord.recordId).Nodup)
    (hchannel : ∀ r ∈ records, r.channel = normalizedEventJournalChannel)
    (hdirectories : ∀ directory ∈ (exampleWritten records count).directories,
      nameEndsWith ".parquet" directory = false)
    (hsorted : records.Pairwise fun a b =>
      stableRecordKey .receiveTime a ≤ stableRecordKey .receiveTime b) :
    CollectionTree.rawTree (exampleWritten records count) =
        .ok { root := "raw", files := exampleFiles records } ∧
      journalRecords (exampleJournalCodecs records count) (exampleWritten records count) =
        .ok (records.map RawMarketRecord.withTextSequence) := by
  have hschema : ∀ file ∈ exampleFiles records, file.schemaMatches = true := by
    intro file hfile
    obtain ⟨r, -, rfl⟩ := List.mem_map.mp hfile
    rfl
  have hraw : CollectionTree.rawTree (exampleWritten records count) =
      .ok { root := "raw", files := exampleFiles records } :=
    rawTree_of_written ⟨rfl, rfl⟩ hfiles hschema hdirectories
  refine ⟨hraw, ?_⟩
  have hholds : RawTree.Holds { root := "raw", files := exampleFiles records } records :=
    ⟨hschema, List.Perm.of_eq (exampleFiles_rows records)⟩
  have hmatching : matchingRecords journalFilter records =
      records.map RawMarketRecord.withTextSequence := by
    unfold matchingRecords
    apply List.filter_eq_self.mpr
    intro r hr
    obtain ⟨r', hr', rfl⟩ := List.mem_map.mp hr
    rw [matches_withTextSequence, matches_journalFilter]
    exact decide_eq_true (hchannel r' hr')
  have hordered : (records.map RawMarketRecord.withTextSequence).Pairwise fun a b =>
      stableRecordKey .receiveTime a ≤ stableRecordKey .receiveTime b := by
    rw [List.pairwise_map]
    refine hsorted.imp fun hle => ?_
    rw [stableRecordKey_withTextSequence, stableRecordKey_withTextSequence]
    exact hle
  have hinjective : ∀ r ∈ records.map RawMarketRecord.withTextSequence,
      ∀ r' ∈ records.map RawMarketRecord.withTextSequence,
        stableRecordKey .receiveTime r = stableRecordKey .receiveTime r' → r = r' := by
    intro r hr r' hr' heq
    refine List.inj_on_of_nodup_map ?_ hr hr' (recordId_eq_of_stableRecordKey_eq heq)
    rw [List.map_map]
    exact hids
  unfold journalRecords
  rw [hraw]
  refine (@iterRecords_ok
    { tree := { root := "raw", files := exampleFiles records }
      reader := (exampleJournalCodecs records count).batches
      batchSize_pos := one_le_batchSize } _ hids hholds journalFilter .receiveTime).trans ?_
  rw [hmatching, ← eq_sortByKey (List.Perm.refl _) hordered hinjective]

/-- A manifest under way ends in a `null` where that of a clean end has its time. -/
theorem closing_ne (front rest time : String) :
    front ++ "null" ++ "\x7d" ++ "\n" ≠ rest ++ (time ++ "Z\"") ++ "\x7d" ++ "\n" := by
  intro heq
  have hlast := congrArg (fun text : String => (text.toList.reverse.drop 2).head?) heq
  simp [String.toList_append] at hlast

theorem exampleManifestJson_ne (records : List RawMarketRecord) (count : Nat) :
    exampleManifestJson (exampleJournalRun records count).inProgress ++ "\n" ≠
      exampleManifestJson (exampleClean records count) ++ "\n" :=
  closing_ne _ _ _

/-- Both manifests of a run are read back. -/
theorem exampleJournalManifests_read (records : List RawMarketRecord) (count : Nat) :
    let manifests := (exampleJournalCodecs records count).manifests
    let inProgress := (exampleJournalRun records count).inProgress
    let clean := exampleClean records count
    manifests.validateJson (manifests.payload inProgress) = .ok inProgress ∧
      manifests.validateJson (manifests.payload clean) = .ok clean := by
  unfold exampleJournalCodecs exampleJournalManifests ManifestCodec.payload
  dsimp only
  rw [if_neg (exampleManifestJson_ne records count), if_pos rfl]
  exact ⟨exampleManifests_reads _, rfl⟩

/-- What the examples are checked for. -/
structure ExampleJournal (records : List RawMarketRecord) (count : Nat) (s : JournalAuditState) : Prop where
  files : PartFiles (exampleFiles records)
  valid : ∀ file ∈ exampleFiles records, ValidFile file
  ids : (records.map RawMarketRecord.recordId).Nodup
  rowIds : ((records.map row).map RawRow.recordId).Nodup
  channel : ∀ r ∈ records, r.channel = normalizedEventJournalChannel
  directories : ∀ directory ∈ (exampleWritten records count).directories,
    nameEndsWith ".parquet" directory = false
  hasJournal : (exampleWritten records count).hasChannel normalizedEventJournalChannel = true
  sentinel : (exampleWritten records count).contains [compactionInProgressFilename] = false
  sorted : records.Pairwise fun a b => stableRecordKey .receiveTime a ≤ stableRecordKey .receiveTime b
  audit : (records.map RawMarketRecord.withTextSequence).foldlM
    (auditJournalRecord (exampleJournalCodecs records count)) {} = .ok s
  finish : s.finish false =
    .ok { normalizedEventCount := count, terminalMarkerCount := 1, terminalMarkerAt := 5 }

theorem exampleVersions_not_blank :
    ¬(isBlank exampleRun.codeVersion || isBlank exampleRun.strategyVersion) = true := by
  decide +kernel

theorem ExampleJournal.completes {records : List RawMarketRecord} {count : Nat} {s : JournalAuditState}
    (h : ExampleJournal records count s) :
    (collect (exampleJournalCodecs records count) { root := "raw" } (exampleJournalRun records count)).2 =
      .ok (exampleClean records count) := by
  obtain ⟨hraw, hread⟩ := exampleWritten_read h.files h.ids h.channel h.directories h.sorted
  have haudit : auditTree (exampleJournalCodecs records count) (exampleWritten records count) =
      .ok (auditRows exampleCodecs.rowHash records.length (records.map row)) := by
    refine bind_eq_ok_iff.mpr ⟨_, hraw, auditRawTree_eq_ok_iff.mpr ⟨h.valid, ?_, ?_⟩⟩
    · show (((exampleFiles records).flatMap RawFile.rows).map RawRow.recordId).Nodup
      rw [exampleFiles_rows]
      exact h.rowIds
    · show _ = auditRows _ (exampleFiles records).length ((exampleFiles records).flatMap RawFile.rows)
      rw [exampleFiles_rows]
      unfold exampleFiles
      rw [List.length_map]
      rfl
  have hjournal : auditNormalizedJournal (exampleJournalCodecs records count)
      (exampleWritten records count) false =
        .ok { normalizedEventCount := count, terminalMarkerCount := 1, terminalMarkerAt := 5 } := by
    unfold auditNormalizedJournal
    rw [h.hasJournal, hread, if_neg (by decide)]
    exact bind_eq_ok_iff.mpr ⟨_, rfl, bind_eq_ok_iff.mpr ⟨s, h.audit, h.finish⟩⟩
  have hclean : ∀ rawAudit, ((exampleJournalRun records count).clean rawAudit).validate = .ok () := by
    intro rawAudit
    unfold CollectionManifest.validate
    rw [if_neg]
    · rfl
    · exact exampleVersions_not_blank
  have hstarted : (exampleJournalRun records count).inProgress.validate = .ok () := by
    unfold CollectionManifest.validate
    rw [if_neg]
    · rfl
    · exact exampleVersions_not_blank
  exact collect_completes ⟨rfl, rfl⟩ h.files hstarted
    (exampleJournalManifests_read records count).1 h.sentinel haudit hjournal (hclean _)

/-- The audit counts the record of an event before the marker. -/
theorem auditJournalRecord_of_journalOf {codec : EventCodec} (hcodec : codecs.events = codec)
    {e : NormalizedMarketEvent} {r : RawMarketRecord} {s : JournalAuditState}
    (hfaithful : codec.FaithfulAt e) (h : JournalOf codec e r) (hopen : s.terminalMarkerCount = 0) :
    auditJournalRecord codecs s r.withTextSequence =
      .ok
        { s with
          latestEventReceiveAt := some (s.latestEventReceiveAt.elim e.base.localReceiveTimestamp
            (max · e.base.localReceiveTimestamp))
          normalizedEventCount := s.normalizedEventCount + 1 } := by
  have hkind : r.withTextSequence.messageKind ≠ featureTimelineEndMessageKind := by
    rw [h.withTextSequence.messageKind]
    decide +kernel
  unfold auditJournalRecord
  rw [if_neg hkind, if_neg (not_not.mpr hopen), hcodec,
    normalize_of_journalOf hfaithful h.withTextSequence codecs.venue]

theorem exampleEventRecord_journalOf : JournalOf exampleJournalCodec indexPriceEvent exampleEventRecord :=
  journalOf_journalRecord indexPriceEvent_valid

theorem exampleLaterRecord_journalOf : JournalOf exampleJournalCodec laterPriceEvent exampleLaterRecord :=
  journalOf_journalRecord laterPriceEvent_valid

/-- What the audit counts in the two records and the marker. -/
theorem exampleJournal_audited (codecs : CollectionCodecs) (hcodec : codecs.events = exampleJournalCodec) :
    ([exampleEventRecord, exampleLaterRecord, exampleMarker].map
        RawMarketRecord.withTextSequence).foldlM (auditJournalRecord codecs) {} =
      .ok
        { normalizedEventCount := 2
          terminalMarkerCount := 1
          terminalMarkerAt := some 5
          latestEventReceiveAt := some 3 } := by
  have hmarker : featureTimelineEndTimestamp codecs.events exampleMarker.withTextSequence =
      .ok (some 5) := by
    rw [hcodec]
    rfl
  rw [List.map_cons, List.map_cons, List.map_cons, List.map_nil, List.foldlM_cons,
    auditJournalRecord_of_journalOf hcodec
      (exampleJournalCodec_faithful indexPriceEvent List.mem_cons_self)
      exampleEventRecord_journalOf rfl]
  dsimp only [bind, Except.bind]
  rw [List.foldlM_cons, auditJournalRecord_of_journalOf hcodec
    (exampleJournalCodec_faithful laterPriceEvent (List.mem_cons_of_mem _ List.mem_cons_self))
    exampleLaterRecord_journalOf rfl]
  dsimp only [bind, Except.bind]
  unfold auditJournalRecord
  rw [List.foldlM_cons, if_pos (by rfl), if_neg (by decide), hmarker]
  rfl

theorem exampleJournal_events :
    ExampleJournal [exampleEventRecord, exampleLaterRecord, exampleMarker] 2
      { normalizedEventCount := 2
        terminalMarkerCount := 1
        terminalMarkerAt := some 5
        latestEventReceiveAt := some 3 } where
  files := ⟨by decide +kernel, by decide +kernel, by decide +kernel⟩
  valid := by decide +kernel
  ids := by decide +kernel
  rowIds := by decide +kernel
  channel := by decide +kernel
  directories := by decide +kernel
  hasJournal := by decide +kernel
  sentinel := by decide +kernel
  sorted := by decide +kernel
  audit := exampleJournal_audited _ rfl
  finish := rfl

theorem clean_collection_replays_two_events :
    let codecs := exampleJournalCodecs [exampleEventRecord, exampleLaterRecord, exampleMarker] 2
    let run := exampleJournalRun [exampleEventRecord, exampleLaterRecord, exampleMarker] 2
    let final := FileTree.run { root := "raw" } (collect codecs { root := "raw" } run).1
    ∃ validation read replayed,
      validateCleanCollection codecs final none = .ok validation ∧
      resolveReplaySource codecs final .auto =
        .ok { mode := .journal, cleanCollection := some validation } ∧
      journalRecords codecs final = .ok read ∧
      replay codecs .receiveTime read = .ok replayed ∧
      replayed.published.Perm [indexPriceEvent, laterPriceEvent] ∧
      InReceiveOrder replayed.published ∧ replayed.finishedThrough = some 5 := by
  have hplain : PlainPartitions
      (exampleFiles [exampleEventRecord, exampleLaterRecord, exampleMarker]) := by
    unfold PlainPartitions
    decide +kernel
  have hrecorded : RecordedBy exampleJournalCodec
      [exampleEventRecord, exampleLaterRecord, exampleMarker] [indexPriceEvent, laterPriceEvent] := by
    have hevents : [exampleEventRecord, exampleLaterRecord, exampleMarker].filter isEventRecord =
        [exampleEventRecord, exampleLaterRecord] := by
      rfl
    unfold RecordedBy
    rw [hevents]
    exact List.Forall₂.cons exampleEventRecord_journalOf
      (List.Forall₂.cons exampleLaterRecord_journalOf List.Forall₂.nil)
  exact clean_collection_replays _ ⟨rfl, rfl⟩ exampleJournal_events.files hplain
    (List.Perm.of_eq (exampleFiles_rows _)) hrecorded exampleJournalCodec_faithful
    exampleJournal_events.completes (exampleJournalManifests_read _ _).2 (List.cons_ne_nil _ _)

theorem exampleJournal_empty :
    ExampleJournal [exampleMarker] 0 { terminalMarkerCount := 1, terminalMarkerAt := some 5 } where
  files := ⟨by decide +kernel, by decide +kernel, by decide +kernel⟩
  valid := by decide +kernel
  ids := by decide +kernel
  rowIds := by decide +kernel
  channel := by decide +kernel
  directories := by decide +kernel
  hasJournal := by decide +kernel
  sentinel := by decide +kernel
  sorted := by decide +kernel
  audit := by rfl
  finish := rfl

/-- A collection whose journal is only its marker completes, and is not a source of replays. -/
theorem collection_without_events_completes_and_is_refused :
    let codecs := exampleJournalCodecs [exampleMarker] 0
    let run := exampleJournalRun [exampleMarker] 0
    let collected := collect codecs { root := "raw" } run
    collected.2 = .ok (exampleClean [exampleMarker] 0) ∧
      resolveReplaySource codecs (FileTree.run { root := "raw" } collected.1) .auto =
        .error "normalized journal is empty" := by
  have hplain : PlainPartitions (exampleFiles [exampleMarker]) := by
    unfold PlainPartitions
    decide +kernel
  exact ⟨exampleJournal_empty.completes,
    empty_collection_refused ⟨rfl, rfl⟩ exampleJournal_empty.files hplain exampleJournal_empty.completes
      (exampleJournalManifests_read _ _).2 rfl⟩

end Cvf
