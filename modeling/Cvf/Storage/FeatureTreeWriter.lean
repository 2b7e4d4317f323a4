/-
# Cvf.Storage.FeatureTreeWriter — the feature writer and the tree below its root.

`AsyncFeatureParquetWriter` keeps the rows of its published files and forgets the files.  Here every file
that ends goes through `_write_partition_file` into the tree, where `os.replace` takes the place of a file
of the same name.  The writer inside takes the steps it takes alone (`exists_step`), so its invariants are
there, and the tree is the files of the batches that were published (`Filed`).

Two batches of one partition could be given one file name, which cuts the SHA-256 of the batch to sixteen
digits; then the later file replaces the earlier one.  That the names differ is a hypothesis.
-/
import Cvf.Storage.FeatureCompare
import Cvf.Storage.FeatureExactlyOnce

namespace Cvf

open Cvf.Library

variable {F : Type}

/-! ## What a step of the writer leaves alone -/

def FeatureWriteCall.envelope? : FeatureWriteCall F → Option (FeatureEnvelope F)
  | .refused _ => none
  | .ended e _ _ => some e

theorem FeatureWriteCall.envelope?_of_content? {call : FeatureWriteCall F} {e : FeatureEnvelope F}
    (h : call.content? = some e) : call.envelope? = some e := by
  cases call with
  | refused error => cases h
  | ended e' outcome enqueued =>
    cases enqueued with
    | false => cases h
    | true => exact h

namespace AsyncFeatureParquetWriter

variable {w w' w'' : AsyncFeatureParquetWriter F} {new new' : List (FeatureEnvelope F)}

/-- The envelopes of the calls that are over and of the write in flight. -/
def named (w : AsyncFeatureParquetWriter F) : List (FeatureEnvelope F) :=
  w.calls.filterMap FeatureWriteCall.envelope? ++ (w.inFlight.map Prod.fst).toList

/-- The files of the flush under way. -/
def flushing (w : AsyncFeatureParquetWriter F) : List (FeaturePartition × List (FeatureEnvelope F)) :=
  match w.worker with
  | .flushing groups _ => groups
  | _ => []

/-- A step that publishes nothing, and names `new` at most. -/
structure Unpublished (w w' : AsyncFeatureParquetWriter F) (new : List (FeatureEnvelope F)) : Prop where
  disk : w'.disk = w.disk
  found : w'.found = w.found
  named : ∀ e ∈ w'.named, e ∈ w.named ∨ e ∈ new
  flushing : ∀ group ∈ w'.flushing, group ∈ w.flushing ∨ ∃ batch, group ∈ flushGroups batch

/-- Where only the queue, the store, the batch or the close changes, everything stays. -/
theorem Unpublished.of_eq (hdisk : w'.disk = w.disk) (hfound : w'.found = w.found)
    (hcalls : w'.calls = w.calls) (hinFlight : w'.inFlight.map Prod.fst = w.inFlight.map Prod.fst)
    (hworker : w'.flushing = w.flushing) : Unpublished w w' [] where
  disk := hdisk
  found := hfound
  named := by
    intro e he
    left
    unfold AsyncFeatureParquetWriter.named at he ⊢
    rwa [hcalls, hinFlight] at he
  flushing := fun group hgroup => .inl (hworker ▸ hgroup)

theorem Unpublished.refl (w : AsyncFeatureParquetWriter F) : Unpublished w w [] :=
  .of_eq rfl rfl rfl rfl rfl

theorem Unpublished.trans (h : Unpublished w w' new) (h' : Unpublished w' w'' new') :
    Unpublished w w'' (new ++ new') where
  disk := h'.disk.trans h.disk
  found := h'.found.trans h.found
  named := by
    intro e he
    rcases h'.named e he with he | he
    · exact (h.named e he).imp_right (List.mem_append_left _)
    · exact .inr (List.mem_append_right _ he)
  flushing := fun group hgroup => (h'.flushing group hgroup).elim (h.flushing group) .inr

/-- What was named already need not be said again. -/
theorem Unpublished.known (h : Unpublished w w' new) (hnew : ∀ e ∈ new, e ∈ w.named) :
    Unpublished w w' [] :=
  { h with named := fun e he => .inl ((h.named e he).elim id (hnew e)) }

theorem mem_named_of_inFlight {e : FeatureEnvelope F} {put : PutPhase}
    (h : w.inFlight = some (e, put)) : e ∈ w.named := by
  unfold named
  rw [h]
  exact List.mem_append_right _ List.mem_cons_self

/-- What entered the queue was named by its call. -/
theorem mem_named_of_mem_contents {e : FeatureEnvelope F} (h : e ∈ w.contents) : e ∈ w.named := by
  rcases List.mem_append.mp h with hcall | hentered
  · obtain ⟨call, hcall, hcontent⟩ := List.mem_filterMap.mp hcall
    apply List.mem_append_left
    exact List.mem_filterMap.mpr ⟨call, hcall, FeatureWriteCall.envelope?_of_content? hcontent⟩
  · unfold entered at hentered
    split at hentered
    · rename_i e' hinFlight
      rw [List.mem_singleton.mp hentered]
      exact mem_named_of_inFlight hinFlight
    · cases hentered

theorem unpublished_refuse (w : AsyncFeatureParquetWriter F) (error : FeatureParquetError) :
    Unpublished w (w.refuse error) [] where
  disk := rfl
  found := rfl
  named := by
    intro e he
    left
    unfold named refuse at he
    unfold named
    rwa [List.filterMap_append, show List.filterMap FeatureWriteCall.envelope?
      [FeatureWriteCall.refused error] = ([] : List (FeatureEnvelope F)) from rfl, List.append_nil] at he
  flushing := fun _ => .inl

theorem unpublished_endCall (w : AsyncFeatureParquetWriter F) (e : FeatureEnvelope F)
    (outcome : FeatureWriteOutcome) (enqueued : Bool) :
    Unpublished w (w.endCall e outcome enqueued) [e] where
  disk := rfl
  found := rfl
  named := by
    intro e' he'
    unfold named endCall at he'
    rw [List.filterMap_append, Option.map_none, Option.toList_none, List.append_nil] at he'
    rcases List.mem_append.mp he' with he' | he'
    · exact .inl (List.mem_append_left _ he')
    · exact .inr he'
  flushing := fun _ => .inl

theorem unpublished_withdraw (w : AsyncFeatureParquetWriter F) (e : FeatureEnvelope F)
    (outcome : FeatureWriteOutcome) : Unpublished w (w.withdraw e outcome) [e] :=
  (Unpublished.of_eq rfl rfl rfl rfl rfl : Unpublished w
    { w with queue := w.queue.unpark .write, store := w.store.rollbackReservation e } []).trans
    (unpublished_endCall _ e outcome false)

theorem unpublished_abandon (w : AsyncFeatureParquetWriter F) (e : FeatureEnvelope F) (put : PutPhase)
    (outcome : FeatureWriteOutcome) : Unpublished w (w.abandon e put outcome) [e] := by
  unfold abandon
  split_ifs
  · exact unpublished_endCall w e outcome true
  · exact unpublished_withdraw w e outcome

theorem unpublished_reserveAndPut (w : AsyncFeatureParquetWriter F) (e : FeatureEnvelope F)
    (callback : Option String) : Unpublished w (w.reserveAndPut e callback) [e] := by
  have hreserve : Unpublished w { w with store := (w.store.reserve e).2 } [] :=
    .of_eq rfl rfl rfl rfl rfl
  unfold reserveAndPut
  dsimp only
  split
  · exact hreserve.trans (unpublished_endCall _ e _ false)
  · exact hreserve.trans (unpublished_endCall _ e _ false)
  · split_ifs with hfull
    · exact (Unpublished.of_eq rfl rfl rfl rfl rfl : Unpublished w
        { w with store := (w.store.reserve e).2, queue := w.queue.putNowait (.submission e) hfull }
        []).trans (unpublished_endCall _ e _ true)
    · split
      · exact hreserve.trans (unpublished_withdraw _ e _)
      · refine ⟨rfl, rfl, ?_, fun _ => .inl⟩
        intro e' he'
        rcases List.mem_append.mp he' with he' | he'
        · exact .inl (List.mem_append_left _ he')
        · exact .inr he'

/-- What a write can name. -/
theorem unpublished_write (w : AsyncFeatureParquetWriter F) (codec : FeatureCodec F)
    (versions : WriterVersions) (snapshot : PersistableFeatureSnapshot F) (callback : Option String) :
    Unpublished w (w.write codec versions snapshot callback)
      (envelope codec versions snapshot).toOption.toList := by
  have hrefuse : ∀ error, Unpublished w (w.refuse error)
      (envelope codec versions snapshot).toOption.toList := fun error =>
    (unpublished_refuse w error).trans
      ((Unpublished.refl _).trans ⟨rfl, rfl, fun _ => .inl, fun _ => .inl⟩)
  have henter : Unpublished w (w.enterWrite codec versions snapshot callback)
      (envelope codec versions snapshot).toOption.toList := by
    unfold enterWrite
    cases henvelope : envelope codec versions snapshot with
    | error text => exact unpublished_refuse w _
    | ok e => exact unpublished_reserveAndPut w e callback
  unfold write
  split_ifs
  · exact hrefuse _
  · exact hrefuse _
  · -- the lock is held, so the call waits
    cases w.worker with
    | absent => exact hrefuse _
    | _ => exact ⟨rfl, rfl, fun _ => .inl, fun _ => .inl⟩
  · cases w.worker with
    | absent => exact hrefuse _
    | failed error => exact hrefuse _
    | _ => exact henter

theorem unpublished_runPut {e : FeatureEnvelope F} {put : PutPhase} (h : w.inFlight = some (e, put)) :
    Unpublished w (w.runPut e) [] := by
  unfold runPut
  split_ifs
  · exact .of_eq rfl rfl rfl (by rw [h]; rfl) rfl
  · exact .of_eq rfl rfl rfl (by rw [h]; rfl) rfl

theorem unpublished_resumeWrite (w : AsyncFeatureParquetWriter F) (e : FeatureEnvelope F)
    (put : PutPhase) : Unpublished w (w.resumeWrite e put) [e] := by
  unfold resumeWrite
  split
  · exact unpublished_abandon w e put _
  · exact unpublished_abandon w e put _
  · split_ifs
    · exact unpublished_endCall w e _ true
    · exact ⟨rfl, rfl, fun _ => .inl, fun _ => .inl⟩

theorem unpublished_wake (w : AsyncFeatureParquetWriter F) (woken : Option FeaturePutter) :
    Unpublished w (w.wake woken) [] := by
  unfold wake
  split
  · exact .refl w
  · split_ifs
    · exact .of_eq rfl rfl rfl rfl rfl
    · exact .refl w
  · split
    · rename_i e hinFlight
      exact .of_eq rfl rfl rfl (by rw [hinFlight]; rfl) rfl
    · exact .refl w

theorem flushing_afterFlush (stopping : Bool) :
    ∀ w : AsyncFeatureParquetWriter F, flushing { w with worker := afterFlush stopping } = [] := by
  intro w
  cases stopping <;> rfl

theorem unpublished_flush (w : AsyncFeatureParquetWriter F) (stopping : Bool) :
    Unpublished w (w.flush stopping) [] := by
  unfold flush
  split_ifs
  · refine ⟨rfl, rfl, fun _ => .inl, ?_⟩
    intro group hgroup
    rw [flushing_afterFlush] at hgroup
    cases hgroup
  · exact ⟨rfl, rfl, fun _ => .inl, fun group hgroup => .inr ⟨w.batch, hgroup⟩⟩

theorem unpublished_takeItem (w : AsyncFeatureParquetWriter F)
    (queue : AsyncQueue FeaturePutter (FeatureQueueItem F)) (woken : Option FeaturePutter)
    (item : FeatureQueueItem F) : Unpublished w (w.takeItem queue woken item) [] := by
  cases item with
  | stop =>
    exact ((Unpublished.of_eq rfl rfl rfl rfl rfl : Unpublished w { w with queue } []).trans
      (unpublished_wake _ woken)).trans (unpublished_flush _ true)
  | submission e =>
    have htaken : Unpublished w ({ w with queue, batch := w.batch ++ [e] }.wake woken) [] :=
      (Unpublished.of_eq rfl rfl rfl rfl rfl :
        Unpublished w { w with queue, batch := w.batch ++ [e] } []).trans (unpublished_wake _ woken)
    unfold takeItem
    dsimp only
    split_ifs
    · exact htaken.trans (unpublished_flush _ false)
    · exact htaken

/-- A worker that fails writes no further file. -/
theorem unpublished_failWorker (w : AsyncFeatureParquetWriter F) (error : String) :
    Unpublished w (w.failWorker error) [] :=
  ⟨rfl, rfl, fun _ => .inl, fun _ hgroup => absurd hgroup List.not_mem_nil⟩

theorem unpublished_putStop (w : AsyncFeatureParquetWriter F) (entered parked : ClosePhase) :
    Unpublished w (w.putStop entered parked) [] := by
  unfold putStop
  split_ifs <;> exact .of_eq rfl rfl rfl rfl rfl

/-- The envelopes a step can name that were not named before. -/
def entering (codec : FeatureCodec F) (versions : WriterVersions) :
    FeatureWriterInput F → List (FeatureEnvelope F)
  | .write snapshot _ => (envelope codec versions snapshot).toOption.toList
  | _ => []

theorem mem_entering {codec : FeatureCodec F} {versions : WriterVersions} {input : FeatureWriterInput F}
    {e : FeatureEnvelope F} (h : e ∈ entering codec versions input) :
    ∃ snapshot callback, input = .write snapshot callback ∧ envelope codec versions snapshot = .ok e := by
  cases input with
  | write snapshot callback =>
    refine ⟨snapshot, callback, rfl, ?_⟩
    unfold entering at h
    dsimp only at h
    cases hcase : envelope codec versions snapshot with
    | error text =>
      rw [hcase] at h
      cases h
    | ok made =>
      rw [hcase] at h
      rw [List.mem_singleton.mp h]
  | _ => cases h

/-- Only the end of a file and a restart publish. -/
theorem unpublished_step (w : AsyncFeatureParquetWriter F) (codec : FeatureCodec F)
    (versions : WriterVersions) (input : FeatureWriterInput F) (hfile : input ≠ .fileWritten)
    (hrestart : ∀ published, input ≠ .restart published) :
    Unpublished w (w.step codec versions input) (entering codec versions input) := by
  have hflight : ∀ {e put w'}, w.inFlight = some (e, put) → Unpublished w w' [e] → Unpublished w w' [] :=
    fun hinFlight h => h.known fun e' he' =>
      List.mem_singleton.mp he' ▸ mem_named_of_inFlight hinFlight
  unfold step
  cases input with
  | fileWritten => exact absurd rfl hfile
  | restart published => exact absurd rfl (hrestart published)
  | write snapshot callback => exact unpublished_write w codec versions snapshot callback
  | start =>
    dsimp only
    split
    · split_ifs
      · exact ⟨rfl, rfl, fun _ => .inl, fun _ hgroup => absurd hgroup List.not_mem_nil⟩
      · exact .refl w
    · exact .refl w
  | runPut =>
    dsimp only
    split
    · exact unpublished_runPut ‹_›
    · exact unpublished_runPut ‹_›
    · exact .refl w
  | resumeWrite =>
    dsimp only
    split
    · exact hflight ‹_› (unpublished_resumeWrite w _ _)
    · exact .refl w
  | cancelWrite =>
    dsimp only
    split
    · exact hflight ‹_› (unpublished_abandon w _ _ _)
    · exact .refl w
  | getItem =>
    dsimp only
    split
    · exact unpublished_takeItem w _ _ _
    · exact .refl w
  | flushTimeout =>
    dsimp only
    split
    · exact unpublished_flush w false
    · exact .refl w
  | fileFails error =>
    dsimp only
    split
    · exact unpublished_failWorker w error
    · exact .refl w
  | close =>
    dsimp only
    split_ifs
    · exact .of_eq rfl rfl rfl rfl rfl
    · exact .refl w
  | runClose =>
    dsimp only
    split_ifs
    · split
      · exact .of_eq rfl rfl rfl rfl rfl
      · exact .of_eq rfl rfl rfl rfl rfl
      · exact unpublished_putStop w _ _
    · exact .refl w
  | runStopPut =>
    dsimp only
    split
    · exact unpublished_putStop w _ _
    · exact unpublished_putStop w _ _
    · exact .refl w
  | resumeClose =>
    dsimp only
    split
    · split
      · exact .of_eq rfl rfl rfl rfl rfl
      · split_ifs <;> exact .of_eq rfl rfl rfl rfl rfl
      · split_ifs
        · exact .of_eq rfl rfl rfl rfl rfl
        · exact .refl w
    · exact .refl w
  | returnClose =>
    dsimp only
    split
    · exact .of_eq rfl rfl rfl rfl rfl
    · exact .of_eq rfl rfl rfl rfl rfl
    · exact .refl w

/-- A worker that has failed stays so until the next writer. -/
theorem failed_step {error : String} (h : w.worker = .failed error) (codec : FeatureCodec F)
    (versions : WriterVersions) (input : FeatureWriterInput F)
    (hrestart : ∀ published, input ≠ .restart published) :
    (w.step codec versions input).worker = .failed error := by
  have hendCall : ∀ (w' : AsyncFeatureParquetWriter F) e outcome enqueued, w'.worker = .failed error →
      (w'.endCall e outcome enqueued).worker = .failed error := fun _ _ _ _ h => h
  have habandon : ∀ e put outcome, (w.abandon e put outcome).worker = .failed error := by
    intro e put outcome
    unfold abandon withdraw
    split_ifs <;> exact h
  have hputStop : ∀ entered parked, (w.putStop entered parked).worker = .failed error := by
    intro entered parked
    unfold putStop
    split_ifs <;> exact h
  have hrunPut : ∀ e, (w.runPut e).worker = .failed error := by
    intro e
    unfold runPut
    split_ifs <;> exact h
  unfold step
  cases input with
  | restart published => exact absurd rfl (hrestart published)
  | write snapshot callback =>
    show (w.write codec versions snapshot callback).worker = _
    unfold write
    rw [h]
    dsimp only
    split_ifs <;> exact h
  | start =>
    rw [h]
    exact h
  | runPut =>
    dsimp only
    split
    · exact hrunPut _
    · exact hrunPut _
    · exact h
  | resumeWrite =>
    dsimp only
    split
    · unfold resumeWrite
      rw [h]
      exact habandon _ _ _
    · exact h
  | cancelWrite =>
    dsimp only
    split
    · exact habandon _ _ _
    · exact h
  | getItem =>
    rw [h]
    exact h
  | flushTimeout =>
    rw [h]
    exact h
  | fileWritten =>
    rw [h]
    exact h
  | fileFails text =>
    rw [h]
    exact h
  | close =>
    dsimp only
    split_ifs <;> exact h
  | runClose =>
    rw [h]
    dsimp only
    split_ifs <;> exact h
  | runStopPut =>
    dsimp only
    split
    · exact hputStop _ _
    · exact hputStop _ _
    · exact h
  | resumeClose =>
    rw [h]
    dsimp only
    split <;> exact h
  | returnClose =>
    rw [h]
    dsimp only
    split <;> exact h

end AsyncFeatureParquetWriter

/-! ## The tree -/

/-- `os.replace` onto the path of a file. -/
def publishFile (files : List (FeatureFile F)) (file : FeatureFile F) : List (FeatureFile F) :=
  files.filter (fun other => decide (other.path ≠ file.path)) ++ [file]

/-- The writer with the files below its schema root. -/
structure FeatureTreeWriter (F : Type) where
  writer : AsyncFeatureParquetWriter F
  files : List (FeatureFile F) := []
  /-- `_written` -/
  written : Nat := 0
  /-- `_written_files` -/
  writtenFiles : Nat := 0
  /-- The batches whose files were published, by whichever writer on the root. -/
  published : List (FeaturePartition × List (FeatureEnvelope F)) := []

namespace FeatureTreeWriter

/-- A writer on an empty root. -/
def new (batchRows queueCapacity : Nat) (queueCapacity_pos : 0 < queueCapacity)
    (deduplicationCapacity : Nat) : FeatureTreeWriter F :=
  { writer := .new batchRows queueCapacity queueCapacity_pos deduplicationCapacity [] }

def tree (s : FeatureTreeWriter F) (schemaRoot : String) : FeatureTree F :=
  { schemaRoot, files := s.files }

section Step

variable (codec : FeatureCodec F) (versions : WriterVersions)
  (fileName : List (FeatureEnvelope F) → String)

/-- A file is in place, with the writer behind it. -/
def publish (s : FeatureTreeWriter F) (group : FeaturePartition × List (FeatureEnvelope F))
    (file : FeatureFile F) (writer : AsyncFeatureParquetWriter F) : FeatureTreeWriter F :=
  { s with writer, files := publishFile s.files file, published := s.published ++ [group] }

/-- A partition file ends: it is published and committed, or its rows do not fit the schema. -/
def endFile (s : FeatureTreeWriter F) (group : FeaturePartition × List (FeatureEnvelope F))
    (groups : List (FeaturePartition × List (FeatureEnvelope F))) (stopping : Bool) :
    FeatureTreeWriter F :=
  match writePartitionFile fileName group.1 group.2 with
  | .error text => { s with writer := s.writer.failWorker text }
  | .ok file =>
    let next := s.publish group file (s.writer.fileWritten group.2 groups stopping)
    if (s.writer.store.markCommitted group.2).1 then
      { next with written := s.written + group.2.length, writtenFiles := s.writtenFiles + 1 }
    else next

/-- A new writer on the root; a crash may come just behind the `os.replace` of a file. -/
def restart (s : FeatureTreeWriter F) (published : Bool) : FeatureTreeWriter F :=
  let reset := { s with written := 0, writtenFiles := 0 }
  match published, s.writer.worker with
  | true, .flushing (group :: _) _ =>
    match writePartitionFile fileName group.1 group.2 with
    | .error _ => { reset with writer := s.writer.restart false }
    | .ok file => reset.publish group file (s.writer.restart true)
  | _, _ => { reset with writer := s.writer.restart false }

def step (s : FeatureTreeWriter F) : FeatureWriterInput F → FeatureTreeWriter F
  | .fileWritten =>
    match s.writer.worker with
    | .flushing (group :: groups) stopping => s.endFile fileName group groups stopping
    | _ => s
  | .restart published => s.restart fileName published
  | input => { s with writer := s.writer.step codec versions input }

def run (s : FeatureTreeWriter F) (inputs : List (FeatureWriterInput F)) : FeatureTreeWriter F :=
  inputs.foldl (step codec versions fileName) s

end Step

/-! ## The tree is the files of the published batches -/

section Filed

/-- The file that a batch is written to. -/
def batchFile (fileName : List (FeatureEnvelope F) → String)
    (group : FeaturePartition × List (FeatureEnvelope F)) : FeatureFile F :=
  { path :=
      { parent := featurePartitionDirectory group.1
        name := fileName (sortByKey partitionKey group.2) }
    rows := (sortByKey partitionKey group.2).map featureRow }

variable {codec : FeatureCodec F} {versions : WriterVersions}
  {fileName : List (FeatureEnvelope F) → String} {s : FeatureTreeWriter F}
  {group : FeaturePartition × List (FeatureEnvelope F)}

/-- A batch that was written: every envelope made by the writer for its partition, and the file with it. -/
structure Batch (codec : FeatureCodec F) (versions : WriterVersions)
    (fileName : List (FeatureEnvelope F) → String)
    (group : FeaturePartition × List (FeatureEnvelope F)) : Prop where
  of : ∀ e ∈ group.2, EnvelopeOf codec versions group.1 e
  file : writePartitionFile fileName group.1 group.2 = .ok (batchFile fileName group)

structure Filed (codec : FeatureCodec F) (versions : WriterVersions)
    (fileName : List (FeatureEnvelope F) → String) (s : FeatureTreeWriter F) : Prop where
  sound : s.writer.Sound
  orderly : s.writer.Orderly
  made : ∀ e ∈ s.writer.found ++ s.writer.named,
    EnvelopeOf codec versions (featurePartition e.snapshot) e
  flushing : ∀ group ∈ s.writer.flushing, ∀ e ∈ group.2, featurePartition e.snapshot = group.1
  disk : s.writer.disk = s.published.flatMap Prod.snd
  published : ∀ group ∈ s.published, Batch codec versions fileName group
  files : s.files = (s.published.map (batchFile fileName)).foldl publishFile []
  written : (∀ error, s.writer.worker ≠ .failed error) →
    s.written + s.writer.found.length = s.writer.disk.length

theorem filed_new (batchRows queueCapacity : Nat) (queueCapacity_pos : 0 < queueCapacity)
    (deduplicationCapacity : Nat) :
    Filed codec versions fileName
      (new batchRows queueCapacity queueCapacity_pos deduplicationCapacity) where
  sound := AsyncFeatureParquetWriter.sound_new _ _ _ _ _
  orderly := AsyncFeatureParquetWriter.orderly_new _ _ _ _ List.nodup_nil
  made := fun _ he => absurd he List.not_mem_nil
  flushing := fun _ hgroup => absurd hgroup List.not_mem_nil
  disk := rfl
  published := fun _ hgroup => absurd hgroup List.not_mem_nil
  files := rfl
  written := fun _ => rfl

theorem flushGroups_members {batch : List (FeatureEnvelope F)} (hgroup : group ∈ flushGroups batch) :
    ∀ e ∈ group.2, featurePartition e.snapshot = group.1 :=
  (groupByKey_members _ batch group ((sortByKey_perm _ _).mem_iff.mp hgroup)).2

/-- A file that is written is the file of its batch. -/
theorem eq_batchFile {file : FeatureFile F}
    (h : writePartitionFile fileName group.1 group.2 = .ok file) : file = batchFile fileName group :=
  (writePartitionFile_eq_ok_iff.mp h).2.2

/-- What is on its way to disk was made by the writer. -/
theorem Filed.made_pending (h : Filed codec versions fileName s) :
    ∀ e ∈ s.writer.disk ++ s.writer.pending, EnvelopeOf codec versions (featurePartition e.snapshot) e := by
  intro e he
  apply h.made
  rcases List.mem_append.mp (h.sound.kept.subset he) with hfound | hcontent
  · exact List.mem_append_left _ hfound
  · exact List.mem_append_right _ (AsyncFeatureParquetWriter.mem_named_of_mem_contents hcontent)

/-- The batch at the head of a flush is written where its rows fit. -/
theorem Filed.batch (h : Filed codec versions fileName s)
    {groups : List (FeaturePartition × List (FeatureEnvelope F))} {stopping : Bool}
    (hworker : s.writer.worker = .flushing (group :: groups) stopping) {file : FeatureFile F}
    (hfile : writePartitionFile fileName group.1 group.2 = .ok file) :
    Batch codec versions fileName group where
  of := by
    intro e he
    have hpartition := h.flushing group (by
      unfold AsyncFeatureParquetWriter.flushing
      rw [hworker]
      exact List.mem_cons_self) e he
    have hmade := h.made_pending e (List.mem_append_right _ (by
      unfold AsyncFeatureParquetWriter.pending
      rw [hworker]
      exact List.mem_append_left _ (List.mem_append_left _ (List.mem_append_left _ he))))
    rwa [hpartition] at hmade
  file := eq_batchFile hfile ▸ hfile

/-- A step that publishes nothing. -/
theorem Filed.quiet (h : Filed codec versions fileName s) (input : FeatureWriterInput F)
    (hfile : input ≠ .fileWritten) (hrestart : ∀ published, input ≠ .restart published)
    (haccepted : ∀ snapshot callback, input = .write snapshot callback → codec.accepted snapshot) :
    Filed codec versions fileName { s with writer := s.writer.step codec versions input } := by
  have hstep := AsyncFeatureParquetWriter.unpublished_step s.writer codec versions input hfile hrestart
  have hentering : ∀ e ∈ AsyncFeatureParquetWriter.entering codec versions input,
      EnvelopeOf codec versions (featurePartition e.snapshot) e := by
    intro e he
    obtain ⟨snapshot, callback, hinput, henvelope⟩ := AsyncFeatureParquetWriter.mem_entering he
    refine ⟨snapshot, haccepted snapshot callback hinput, henvelope, ?_⟩
    rw [(envelope_spec henvelope).2.1]
  exact
    { sound := h.sound.step codec versions input
      orderly := h.orderly.step h.sound codec versions input
      made := by
        intro e he
        rcases List.mem_append.mp he with hfound | hnamed
        · exact h.made e (List.mem_append_left _ (hstep.found ▸ hfound))
        · exact (hstep.named e hnamed).elim (fun hnamed => h.made e (List.mem_append_right _ hnamed))
            (hentering e)
      flushing := by
        intro group hgroup
        rcases hstep.flushing group hgroup with hgroup | ⟨batch, hbatch⟩
        · exact h.flushing group hgroup
        · exact flushGroups_members hbatch
      disk := hstep.disk.trans h.disk
      published := h.published
      files := h.files
      written := by
        intro hworking
        have hbefore : ∀ error, s.writer.worker ≠ .failed error := fun error hfailed =>
          hworking error (AsyncFeatureParquetWriter.failed_step hfailed codec versions input hrestart)
        show s.written + (s.writer.step codec versions input).found.length = _
        rw [hstep.found, hstep.disk]
        exact h.written hbefore }

/-- The batches with one more, and the files with its file. -/
theorem Filed.publish_files (h : Filed codec versions fileName s) :
    publishFile s.files (batchFile fileName group) =
      ((s.published ++ [group]).map (batchFile fileName)).foldl publishFile [] := by
  rw [List.map_append, List.foldl_append, ← h.files]
  rfl

/-- A file that ends. -/
theorem Filed.endFile (h : Filed codec versions fileName s)
    {groups : List (FeaturePartition × List (FeatureEnvelope F))} {stopping : Bool}
    (hworker : s.writer.worker = .flushing (group :: groups) stopping) :
    Filed codec versions fileName (s.endFile fileName group groups stopping) := by
  unfold FeatureTreeWriter.endFile
  cases hfile : writePartitionFile fileName group.1 group.2 with
  | error text =>
    -- the worker fails as with any other error of the file
    have hfails : s.writer.step codec versions (.fileFails text) = s.writer.failWorker text := by
      unfold AsyncFeatureParquetWriter.step
      rw [hworker]
    have hquiet := h.quiet (.fileFails text) (fun heq => by cases heq)
      (fun _ heq => by cases heq) (fun _ _ heq => by cases heq)
    rwa [hfails] at hquiet
  | ok file =>
    obtain rfl := eq_batchFile hfile
    have hbatch := h.batch hworker hfile
    have hwritten : s.writer.step codec versions .fileWritten =
        s.writer.fileWritten group.2 groups stopping := by
      unfold AsyncFeatureParquetWriter.step
      rw [hworker]
    have hsame : (s.writer.fileWritten group.2 groups stopping).disk = s.writer.disk ++ group.2 ∧
        (s.writer.fileWritten group.2 groups stopping).found = s.writer.found ∧
        (s.writer.fileWritten group.2 groups stopping).named = s.writer.named := by
      unfold AsyncFeatureParquetWriter.fileWritten
      dsimp only
      split_ifs <;> exact ⟨rfl, rfl, rfl⟩
    have hrest : ∀ other ∈ (s.writer.fileWritten group.2 groups stopping).flushing,
        other ∈ s.writer.flushing := by
      intro other hother
      have hin : other ∈ groups := by
        unfold AsyncFeatureParquetWriter.fileWritten at hother
        dsimp only at hother
        split_ifs at hother
        · unfold AsyncFeatureParquetWriter.flushing AsyncFeatureParquetWriter.behindFile at hother
          split_ifs at hother with hempty
          · cases stopping <;> cases hother
          · exact hother
        · cases hother
      unfold AsyncFeatureParquetWriter.flushing
      rw [hworker]
      exact List.mem_cons_of_mem _ hin
    have hbefore : ∀ error, s.writer.worker ≠ .failed error := by
      rw [hworker]
      exact fun error heq => by cases heq
    have hcount := h.written hbefore
    have hpublished : ∀ next : FeatureTreeWriter F,
        next.writer = s.writer.fileWritten group.2 groups stopping →
        next.files = publishFile s.files (batchFile fileName group) →
        next.published = s.published ++ [group] →
        ((∀ error, next.writer.worker ≠ .failed error) →
          next.written + s.writer.found.length = s.writer.disk.length + group.2.length) →
        Filed codec versions fileName next := by
      intro next hwriter hfiles hnext hnumber
      exact
        { sound := by
            rw [hwriter, ← hwritten]
            exact h.sound.step codec versions .fileWritten
          orderly := by
            rw [hwriter, ← hwritten]
            exact h.orderly.step h.sound codec versions .fileWritten
          made := by
            rw [hwriter, hsame.2.1, hsame.2.2]
            exact h.made
          flushing := by
            rw [hwriter]
            exact fun other hother => h.flushing other (hrest other hother)
          disk := by
            rw [hwriter, hsame.1, hnext, h.disk, List.flatMap_append]
            show _ = _ ++ (group.2 ++ [])
            rw [List.append_nil]
          published := by
            rw [hnext]
            intro other hother
            rcases List.mem_append.mp hother with hother | hother
            · exact h.published other hother
            · exact List.mem_singleton.mp hother ▸ hbatch
          files := by
            rw [hfiles, hnext]
            exact h.publish_files
          written := by
            intro hworking
            rw [hwriter, hsame.1, hsame.2.1, List.length_append]
            exact hnumber hworking }
    dsimp only
    split_ifs with hcommitted
    · refine hpublished _ rfl rfl rfl fun _ => ?_
      show s.written + group.2.length + s.writer.found.length = _
      omega
    · -- a commit that finds a row missing fails the worker
      refine hpublished _ rfl rfl rfl fun hworking => ?_
      apply absurd _ (hworking "feature deduplication reservation disappeared before commit")
      show (s.writer.fileWritten group.2 groups stopping).worker = _
      unfold AsyncFeatureParquetWriter.fileWritten
      rw [if_neg hcommitted]
      rfl

/-- The next writer finds the rows on disk, and has named nothing. -/
theorem Filed.reset (h : Filed codec versions fileName s) {next : FeatureTreeWriter F} (published : Bool)
    (hwriter : next.writer = s.writer.restart published) (hwritten : next.written = 0)
    (hdisk : next.writer.disk = next.published.flatMap Prod.snd)
    (hbatches : ∀ group ∈ next.published, Batch codec versions fileName group)
    (hfiles : next.files = (next.published.map (batchFile fileName)).foldl publishFile []) :
    Filed codec versions fileName next where
  sound := by
    rw [hwriter]
    exact h.sound.step codec versions (.restart published)
  orderly := by
    rw [hwriter]
    exact h.orderly.step h.sound codec versions (.restart published)
  made := by
    intro e he
    have hin : e ∈ next.published.flatMap Prod.snd := by
      rw [← hdisk, hwriter]
      rw [hwriter] at he
      rcases List.mem_append.mp he with he | he
      · exact he
      · cases he
    obtain ⟨group, hgroup, he⟩ := List.mem_flatMap.mp hin
    obtain ⟨snapshot, haccepted, henvelope, hpartition⟩ := (hbatches group hgroup).of e he
    exact ⟨snapshot, haccepted, henvelope, by rw [(envelope_spec henvelope).2.1]⟩
  flushing := by
    rw [hwriter]
    exact fun _ hgroup => absurd hgroup List.not_mem_nil
  disk := hdisk
  published := hbatches
  files := hfiles
  written := by
    intro _
    rw [hwritten, hwriter, Nat.zero_add]
    rfl

/-- A restart publishes the file at the head of a flush, or nothing. -/
theorem restart_cases (fileName : List (FeatureEnvelope F) → String) (s : FeatureTreeWriter F)
    (published : Bool) :
    s.restart fileName published =
        { s with written := 0, writtenFiles := 0, writer := s.writer.restart false } ∨
      ∃ group groups stopping file, s.writer.worker = .flushing (group :: groups) stopping ∧
        writePartitionFile fileName group.1 group.2 = .ok file ∧
        s.restart fileName published =
          publish { s with written := 0, writtenFiles := 0 } group file (s.writer.restart true) := by
  unfold FeatureTreeWriter.restart
  dsimp only
  split
  · rename_i group groups stopping hworker
    cases hfile : writePartitionFile fileName group.1 group.2 with
    | error text => exact .inl rfl
    | ok file => exact .inr ⟨group, groups, stopping, file, hworker, hfile, rfl⟩
  · exact .inl rfl

theorem Filed.restart (h : Filed codec versions fileName s) (published : Bool) :
    Filed codec versions fileName (s.restart fileName published) := by
  rcases restart_cases fileName s published with
    hkept | ⟨group, groups, stopping, file, hworker, hfile, hpublished⟩
  · rw [hkept]
    refine h.reset false rfl rfl ?_ h.published h.files
    rw [← h.disk]
    show (match s.writer.worker with
      | .flushing (group :: _) _ => if false = true then s.writer.disk ++ group.2 else s.writer.disk
      | _ => s.writer.disk) = s.writer.disk
    split <;> rfl
  · rw [hpublished]
    obtain rfl := eq_batchFile hfile
    have hbatch := h.batch hworker hfile
    refine h.reset true rfl rfl ?_ ?_ h.publish_files
    · show (s.writer.restart true).disk = (s.published ++ [group]).flatMap Prod.snd
      rw [List.flatMap_append, ← h.disk]
      unfold AsyncFeatureParquetWriter.restart
      rw [hworker]
      show s.writer.disk ++ group.2 = s.writer.disk ++ (group.2 ++ [])
      rw [List.append_nil]
    · intro other hother
      rcases List.mem_append.mp hother with hother | hother
      · exact h.published other hother
      · exact List.mem_singleton.mp hother ▸ hbatch

/-- What a step keeps, where only snapshots of their models are written. -/
theorem Filed.step (h : Filed codec versions fileName s) {input : FeatureWriterInput F}
    (haccepted : ∀ snapshot callback, input = .write snapshot callback → codec.accepted snapshot) :
    Filed codec versions fileName (s.step codec versions fileName input) := by
  cases input with
  | fileWritten =>
    unfold FeatureTreeWriter.step
    dsimp only
    split
    · exact h.endFile ‹_›
    · exact h
  | restart published => exact h.restart published
  | write snapshot callback =>
    exact h.quiet _ (fun heq => by cases heq) (fun _ heq => by cases heq) haccepted
  | _ => exact h.quiet _ (fun heq => by cases heq) (fun _ heq => by cases heq) haccepted

theorem Filed.run (h : Filed codec versions fileName s) {inputs : List (FeatureWriterInput F)}
    (haccepted : ∀ snapshot callback, .write snapshot callback ∈ inputs → codec.accepted snapshot) :
    Filed codec versions fileName (s.run codec versions fileName inputs) := by
  induction inputs generalizing s with
  | nil => exact h
  | cons input inputs ih =>
    have hnext := h.step fun snapshot callback heq =>
      haccepted snapshot callback (heq ▸ List.mem_cons_self)
    exact ih hnext fun snapshot callback hin =>
      haccepted snapshot callback (List.mem_cons_of_mem _ hin)

end Filed

end FeatureTreeWriter

end Cvf
