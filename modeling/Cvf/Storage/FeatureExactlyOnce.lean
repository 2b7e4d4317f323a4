/-
# Cvf.Storage.FeatureExactlyOnce — each accepted snapshot is one row.

`Sound` says what is on disk or on its way there.  What is missing for a close that returns is that
nothing is left on the way: the sentinel enters behind the last submission, since `close` waits for the
write in flight and lets no other begin, so the worker finishes over an empty queue (`Orderly`).

All of it is about one writer, from its start to its end.  A crash loses the submissions that are accepted
and not yet in a file; the next writer on the root knows the rows it finds, and no others.
-/
import Cvf.Storage.FeatureReader
import Cvf.Storage.WriterInvariant

namespace Cvf

open Cvf.Library

variable {F : Type}

/-! ## The sentinel -/

/-- Submissions only. -/
def NoSentinel (items : List (FeatureQueueItem F)) : Prop := ∀ item ∈ items, item ≠ .stop

/-- Submissions, and perhaps the sentinel behind them. -/
def SentinelLast (items : List (FeatureQueueItem F)) : Prop :=
  ∃ front rest, items = front ++ rest ∧ NoSentinel front ∧ (rest = [] ∨ rest = [.stop])

theorem NoSentinel.last {items : List (FeatureQueueItem F)} (h : NoSentinel items) : SentinelLast items :=
  ⟨items, [], (List.append_nil items).symm, h, .inl rfl⟩

theorem NoSentinel.submission {items : List (FeatureQueueItem F)} (h : NoSentinel items)
    (e : FeatureEnvelope F) : NoSentinel (items ++ [.submission e]) := by
  intro item hitem hstop
  rcases List.mem_append.mp hitem with hitem | hitem
  · exact h item hitem hstop
  · rw [List.mem_singleton.mp hitem] at hstop
    cases hstop

theorem NoSentinel.tail {item : FeatureQueueItem F} {items : List (FeatureQueueItem F)}
    (h : NoSentinel (item :: items)) : NoSentinel items :=
  fun other hother => h other (List.mem_cons_of_mem _ hother)

theorem SentinelLast.tail {item : FeatureQueueItem F} {items : List (FeatureQueueItem F)}
    (h : SentinelLast (item :: items)) : SentinelLast items := by
  obtain ⟨front, rest, hitems, hfront, hrest⟩ := h
  cases front with
  | nil =>
    rcases hrest with rfl | rfl
    · cases hitems
    · obtain ⟨-, rfl⟩ := List.cons.inj hitems
      exact ⟨[], [], rfl, fun _ hother => absurd hother List.not_mem_nil, .inl rfl⟩
  | cons first front =>
    obtain ⟨-, rfl⟩ := List.cons.inj hitems
    exact ⟨front, rest, rfl, hfront.tail, hrest⟩

/-- Behind the sentinel there is nothing. -/
theorem SentinelLast.nil_of_stop {items : List (FeatureQueueItem F)} (h : SentinelLast (.stop :: items)) :
    items = [] := by
  obtain ⟨front, rest, hitems, hfront, hrest⟩ := h
  cases front with
  | nil =>
    rcases hrest with rfl | rfl
    · cases hitems
    · exact (List.cons.inj hitems).2
  | cons first front =>
    obtain ⟨rfl, -⟩ := List.cons.inj hitems
    exact absurd rfl (hfront .stop List.mem_cons_self)

namespace AsyncFeatureParquetWriter

/-- The worker has taken the sentinel. -/
def Stopping : FeatureWorkerPhase F → Prop
  | .flushing _ stopping => stopping = true
  | .finished => True
  | _ => False

/-- The sentinel has not been put. -/
def Unput : ClosePhase → Prop
  | .notCalled => True
  | .requested => True
  | .blocked put => put ≠ .done
  | _ => False

/-- Writes may be in flight. -/
def Open : ClosePhase → Prop
  | .notCalled => True
  | .requested => True
  | _ => False

theorem Open.unput {close : ClosePhase} (h : Open close) : Unput close := by
  cases close with
  | notCalled => trivial
  | requested => trivial
  | blocked put => exact h.elim
  | awaitingWorker => exact h.elim
  | returned => exact h.elim
  | raised => exact h.elim

/-- How close, queue and worker stand to one another. -/
structure Orderly (w : AsyncFeatureParquetWriter F) : Prop where
  distinct : (w.disk.map (·.featureSnapshotId)).Nodup
  free : ¬ Open w.close → w.inFlight = none
  unput : Unput w.close → NoSentinel w.queue.items ∧ ¬ Stopping w.worker
  last : SentinelLast w.queue.items
  empty : Stopping w.worker → w.queue.items = [] ∧ w.batch = []
  failed : ∀ e error, .ended e (.raised error) true ∈ w.calls → ∃ text, w.worker = .failed text
  returned : w.close = .returned → w.worker = .absent ∨ w.worker = .finished

variable {w w' : AsyncFeatureParquetWriter F}

/-- The ids of what is on disk and on its way there differ. -/
theorem Sound.distinct (h : w.Sound) (hworker : w.worker ≠ .absent) :
    ((w.disk ++ w.pending).map (·.featureSnapshotId)).Nodup := by
  have hids := h.ids hworker
  rw [List.map_append] at hids
  obtain ⟨some, hperm, hsublist⟩ := h.kept
  have hsome := (hsublist.map (·.featureSnapshotId)).nodup (List.nodup_append.mp hids).1
  exact (hperm.map (·.featureSnapshotId)).nodup_iff.mp hsome

/-! ## Steps -/

/-- A step that leaves the queue, the worker and the close as they are. -/
theorem Orderly.same (h : w.Orderly) (hdisk : w'.disk = w.disk) (hclose : w'.close = w.close)
    (hitems : w'.queue.items = w.queue.items) (hworker : w'.worker = w.worker) (hbatch : w'.batch = w.batch)
    (hfree : w'.inFlight = none ∨ Open w.close)
    (hcalls : ∀ e error, .ended e (.raised error) true ∈ w'.calls →
      .ended e (.raised error) true ∈ w.calls ∨ ∃ text, w.worker = .failed text) : w'.Orderly where
  distinct := hdisk ▸ h.distinct
  free := by
    rw [hclose]
    exact fun hnot => hfree.elim id fun hopen => absurd hopen hnot
  unput := by
    rw [hclose, hitems, hworker]
    exact h.unput
  last := hitems ▸ h.last
  empty := by
    rw [hworker, hitems, hbatch]
    exact h.empty
  failed := by
    intro e error hin
    rw [hworker]
    exact (hcalls e error hin).elim (h.failed e error) id
  returned := by
    rw [hclose, hworker]
    exact h.returned

/-- The call that ends was not one that raised with its submission on the queue. -/
theorem mem_calls_snoc {calls : List (FeatureWriteCall F)} {call : FeatureWriteCall F}
    (hcall : ∀ e error, call ≠ .ended e (.raised error) true) {e : FeatureEnvelope F}
    {error : FeatureParquetError} (h : .ended e (.raised error) true ∈ calls ++ [call]) :
    FeatureWriteCall.ended e (.raised error) true ∈ calls := by
  rcases List.mem_append.mp h with h | h
  · exact h
  · exact absurd (List.mem_singleton.mp h).symm (hcall e error)

theorem Orderly.refuse (h : w.Orderly) (error : FeatureParquetError) : (w.refuse error).Orderly := by
  refine h.same rfl rfl rfl rfl rfl ?_ fun e error hin =>
    .inl (mem_calls_snoc (fun _ _ heq => by cases heq) hin)
  by_cases hopen : Open w.close
  · exact .inr hopen
  · exact .inl (h.free hopen)

theorem Orderly.withdraw (h : w.Orderly) (e : FeatureEnvelope F) (outcome : FeatureWriteOutcome) :
    (w.withdraw e outcome).Orderly :=
  h.same rfl rfl rfl rfl rfl (.inl rfl) fun _ _ hin =>
    .inl (mem_calls_snoc (fun _ _ heq => by cases heq) hin)

/-- A call ends with its submission on the queue or with none. -/
theorem Orderly.endCall (h : w.Orderly) (e : FeatureEnvelope F) (outcome : FeatureWriteOutcome)
    (enqueued : Bool)
    (houtcome : ∀ error, outcome = .raised error → enqueued = true → ∃ text, w.worker = .failed text) :
    (w.endCall e outcome enqueued).Orderly := by
  refine h.same rfl rfl rfl rfl rfl (.inl rfl) ?_
  intro other error hin
  rcases List.mem_append.mp hin with hin | hin
  · exact .inl hin
  · obtain ⟨-, houtcome', henqueued⟩ := FeatureWriteCall.ended.inj (List.mem_singleton.mp hin)
    exact .inr (houtcome error houtcome'.symm henqueued.symm)

theorem Orderly.abandon (h : w.Orderly) (e : FeatureEnvelope F) (put : PutPhase)
    (outcome : FeatureWriteOutcome)
    (houtcome : ∀ error, outcome = .raised error → ∃ text, w.worker = .failed text) :
    (w.abandon e put outcome).Orderly := by
  unfold AsyncFeatureParquetWriter.abandon
  split_ifs
  · exact h.endCall e outcome true fun error hraised _ => houtcome error hraised
  · exact h.withdraw e outcome

/-- A submission enters while writes may be in flight. -/
theorem Orderly.submit (h : w.Orderly) (hopen : Open w.close) (e : FeatureEnvelope F)
    {queue : AsyncQueue FeaturePutter (FeatureQueueItem F)}
    (hqueue : queue.items = w.queue.items ++ [.submission e]) {store : FeatureDeduplication}
    {inFlight : Option (FeatureEnvelope F × PutPhase)} :
    Orderly { w with queue, store, inFlight } := by
  obtain ⟨hnone, hworker⟩ := h.unput hopen.unput
  have hafter : NoSentinel queue.items := by
    rw [hqueue]
    exact hnone.submission e
  exact
    { distinct := h.distinct
      free := fun hnot => absurd hopen hnot
      unput := fun _ => ⟨hafter, hworker⟩
      last := hafter.last
      empty := fun hstopping => absurd hstopping hworker
      failed := h.failed
      returned := h.returned }

theorem Orderly.reserveAndPut (h : w.Orderly) (hopen : Open w.close) (e : FeatureEnvelope F)
    (callback : Option String) : (w.reserveAndPut e callback).Orderly := by
  have hstored : Orderly { w with store := (w.store.reserve e).2 } :=
    h.same rfl rfl rfl rfl rfl (.inr hopen) fun _ _ hin => .inl hin
  unfold AsyncFeatureParquetWriter.reserveAndPut
  dsimp only
  split
  · exact hstored.endCall e _ false fun _ _ henqueued => by cases henqueued
  · exact hstored.endCall e _ false fun _ _ henqueued => by cases henqueued
  · split_ifs with hfull
    · exact (h.submit hopen e rfl).endCall e _ true fun _ hraised => by cases hraised
    · split
      · exact hstored.withdraw e _
      · exact hstored.same rfl rfl rfl rfl rfl (.inr hopen) fun _ _ hin => .inl hin

theorem Orderly.write (h : w.Orderly) (codec : FeatureCodec F) (versions : WriterVersions)
    (snapshot : PersistableFeatureSnapshot F) (callback : Option String) :
    (w.write codec versions snapshot callback).Orderly := by
  have henter : w.close = .notCalled → (w.enterWrite codec versions snapshot callback).Orderly := by
    intro hclose
    unfold AsyncFeatureParquetWriter.enterWrite
    split
    · exact h.refuse _
    · rename_i e henvelope
      exact h.reserveAndPut (by rw [hclose]; trivial) e callback
  unfold AsyncFeatureParquetWriter.write
  split_ifs with hover hclosing hheld
  · exact h.refuse _
  · exact h.refuse _
  · split
    · exact h.refuse _
    · exact h
  · cases w.worker with
    | absent => exact h.refuse _
    | failed error => exact h.refuse _
    | _ => exact henter (not_not.mp hclosing)

theorem Orderly.runPut (h : w.Orderly) {e : FeatureEnvelope F} {put : PutPhase}
    (hinFlight : w.inFlight = some (e, put)) : (w.runPut e).Orderly := by
  have hopen : Open w.close := by
    by_contra hnot
    rw [h.free hnot] at hinFlight
    cases hinFlight
  unfold AsyncFeatureParquetWriter.runPut
  split_ifs with hfull
  · exact h.submit hopen e rfl
  · exact h.same rfl rfl rfl rfl rfl (.inr hopen) fun _ _ hin => .inl hin

theorem Orderly.resumeWrite (h : w.Orderly) {e : FeatureEnvelope F} {put : PutPhase}
    (hinFlight : w.inFlight = some (e, put)) : (w.resumeWrite e put).Orderly := by
  have hopen : Open w.close := by
    by_contra hnot
    rw [h.free hnot] at hinFlight
    cases hinFlight
  unfold AsyncFeatureParquetWriter.resumeWrite
  split
  · rename_i error hworker
    exact h.abandon e put _ fun _ _ => ⟨error, hworker⟩
  · -- a worker that has taken the sentinel leaves no write in flight
    rename_i hworker
    exact absurd (by rw [hworker]; trivial) (h.unput hopen.unput).2
  · split_ifs
    · exact h.endCall e _ true fun _ hraised => by cases hraised
    · exact h

theorem Orderly.wake (h : w.Orderly) (woken : Option FeaturePutter) : (w.wake woken).Orderly := by
  unfold AsyncFeatureParquetWriter.wake
  split
  · exact h
  · split_ifs with hclose
    · have hblocked : ¬ Open w.close := by
        rw [hclose]
        exact id
      have hunput : Unput w.close := by
        rw [hclose]
        exact fun heq => by cases heq
      exact
        { distinct := h.distinct
          free := fun _ => h.free hblocked
          unput := fun _ => h.unput hunput
          last := h.last
          empty := h.empty
          failed := h.failed
          returned := fun heq => by cases heq }
    · exact h
  · split
    · rename_i e hinFlight
      refine h.same rfl rfl rfl rfl rfl (.inr ?_) fun _ _ hin => .inl hin
      by_contra hnot
      rw [h.free hnot] at hinFlight
      cases hinFlight
    · exact h

theorem stopping_afterFlush (stopping : Bool) :
    Stopping (afterFlush stopping : FeatureWorkerPhase F) ↔ stopping = true := by
  cases stopping with
  | false => simp [afterFlush, Stopping]
  | true => simp [afterFlush, Stopping]

theorem stopping_behindFile (groups : List (FeaturePartition × List (FeatureEnvelope F)))
    (stopping : Bool) : Stopping (behindFile groups stopping) ↔ stopping = true := by
  unfold behindFile
  split_ifs
  · exact stopping_afterFlush stopping
  · exact Iff.rfl

theorem stopping_flush (w : AsyncFeatureParquetWriter F) (stopping : Bool) :
    Stopping (w.flush stopping).worker ↔ stopping = true := by
  unfold AsyncFeatureParquetWriter.flush
  split_ifs
  · exact stopping_afterFlush stopping
  · exact Iff.rfl

theorem queue_wake (w : AsyncFeatureParquetWriter F) (woken : Option FeaturePutter) :
    (w.wake woken).queue = w.queue := by
  unfold AsyncFeatureParquetWriter.wake
  split
  · rfl
  · split_ifs <;> rfl
  · split <;> rfl

theorem unput_wake (w : AsyncFeatureParquetWriter F) (woken : Option FeaturePutter) :
    Unput (w.wake woken).close ↔ Unput w.close := by
  unfold AsyncFeatureParquetWriter.wake
  split
  · rfl
  · split_ifs with hclose
    · rw [hclose]
      exact iff_of_true (fun heq => by cases heq) (fun heq => by cases heq)
    · rfl
  · split <;> rfl

theorem batch_flush (w : AsyncFeatureParquetWriter F) (stopping : Bool) :
    (w.flush stopping).batch = [] ∧ (w.flush stopping).queue = w.queue := by
  unfold AsyncFeatureParquetWriter.flush
  split_ifs with hempty
  · exact ⟨List.isEmpty_iff.mp hempty, rfl⟩
  · exact ⟨rfl, rfl⟩

/-- A flush, which is the last one where the sentinel was taken off a queue that it leaves empty. -/
theorem Orderly.flush (h : w.Orderly) (hworker : w.worker = .getting) {stopping : Bool}
    (hstopping : stopping = true → ¬ Unput w.close ∧ w.queue.items = []) :
    (w.flush stopping).Orderly := by
  obtain ⟨-, hcalls, hinFlight, hdisk, -, hclose⟩ := flush_rest w stopping
  obtain ⟨hbatch, hqueue⟩ := batch_flush w stopping
  exact
    { distinct := by
        rw [hdisk]
        exact h.distinct
      free := by
        rw [hclose, hinFlight]
        exact h.free
      unput := by
        rw [hclose, hqueue, stopping_flush]
        exact fun hunput => ⟨(h.unput hunput).1, fun heq => (hstopping heq).1 hunput⟩
      last := by
        rw [hqueue]
        exact h.last
      empty := by
        rw [stopping_flush, hqueue]
        exact fun heq => ⟨(hstopping heq).2, hbatch⟩
      failed := by
        intro e error hin
        rw [hcalls] at hin
        obtain ⟨text, hfailed⟩ := h.failed e error hin
        rw [hworker] at hfailed
        cases hfailed
      returned := by
        intro hreturned
        rw [hclose] at hreturned
        rcases h.returned hreturned with heq | heq <;> rw [hworker] at heq <;> cases heq }

theorem Orderly.takeItem (h : w.Orderly) (hworker : w.worker = .getting) {item : FeatureQueueItem F}
    {queue : AsyncQueue FeaturePutter (FeatureQueueItem F)} (hitems : w.queue.items = item :: queue.items)
    (woken : Option FeaturePutter) : (w.takeItem queue woken item).Orderly := by
  have hlast : SentinelLast (item :: queue.items) := hitems ▸ h.last
  have htaken (batch : List (FeatureEnvelope F)) : Orderly { w with queue, batch } :=
    { distinct := h.distinct
      free := h.free
      unput := fun hunput => by
        have hnone := (h.unput hunput).1
        rw [hitems] at hnone
        exact ⟨hnone.tail, (h.unput hunput).2⟩
      last := hlast.tail
      empty := fun hstopping => absurd hstopping (by rw [hworker]; exact id)
      failed := h.failed
      returned := h.returned }
  have hgetting (batch : List (FeatureEnvelope F)) :
      (({ w with queue, batch } : AsyncFeatureParquetWriter F).wake woken).worker = .getting := by
    rw [worker_wake]
    exact hworker
  cases item with
  | stop =>
    have hput : ¬ Unput w.close := by
      intro hunput
      have hnone := (h.unput hunput).1
      rw [hitems] at hnone
      exact hnone .stop List.mem_cons_self rfl
    refine ((htaken w.batch).wake woken).flush (hgetting w.batch) fun _ => ⟨?_, ?_⟩
    · rw [unput_wake]
      exact hput
    · rw [queue_wake]
      exact hlast.nil_of_stop
  | submission e =>
    unfold AsyncFeatureParquetWriter.takeItem
    dsimp only
    split_ifs
    · exact ((htaken _).wake woken).flush (hgetting _) fun heq => by cases heq
    · exact (htaken _).wake woken

/-- A worker in a flush that goes on, or fails. -/
theorem Orderly.setWorker (h : w.Orderly) {groups : List (FeaturePartition × List (FeatureEnvelope F))}
    {stopping : Bool} (hworker : w.worker = .flushing groups stopping)
    (hdisk : (w'.disk.map (·.featureSnapshotId)).Nodup)
    (hclose : w'.close = w.close) (hqueue : w'.queue = w.queue) (hbatch : w'.batch = w.batch)
    (hinFlight : w'.inFlight = w.inFlight) (hcalls : w'.calls = w.calls)
    (hstopping : Stopping w'.worker → stopping = true) : w'.Orderly where
  distinct := hdisk
  free := by
    rw [hclose, hinFlight]
    exact h.free
  unput := by
    rw [hclose, hqueue]
    intro hunput
    obtain ⟨hnone, hnot⟩ := h.unput hunput
    exact ⟨hnone, fun hstop => hnot (by rw [hworker]; exact hstopping hstop)⟩
  last := hqueue ▸ h.last
  empty := by
    rw [hqueue, hbatch]
    exact fun hstop => h.empty (by rw [hworker]; exact hstopping hstop)
  failed := by
    intro e error hin
    rw [hcalls] at hin
    obtain ⟨text, hfailed⟩ := h.failed e error hin
    rw [hworker] at hfailed
    cases hfailed
  returned := by
    intro hreturned
    rw [hclose] at hreturned
    rcases h.returned hreturned with heq | heq <;> rw [hworker] at heq <;> cases heq

/-- The file that is being written has no id that is on disk, or twice. -/
theorem Sound.distinct_published (h : w.Sound) {group : FeaturePartition × List (FeatureEnvelope F)}
    {groups : List (FeaturePartition × List (FeatureEnvelope F))} {stopping : Bool}
    (hworker : w.worker = .flushing (group :: groups) stopping) :
    ((w.disk ++ group.2).map (·.featureSnapshotId)).Nodup := by
  have hall := h.distinct (by rw [hworker]; exact fun heq => by cases heq)
  have hpending : w.pending = group.2 ++ (groups.flatMap Prod.snd ++ w.batch ++
      w.queue.items.filterMap FeatureQueueItem.envelope?) := by
    unfold pending
    rw [hworker]
    show (group.2 ++ groups.flatMap Prod.snd) ++ w.batch ++ _ = _
    simp only [List.append_assoc]
  rw [hpending, ← List.append_assoc, List.map_append] at hall
  exact (List.nodup_append.mp hall).1

theorem Orderly.fileWritten (h : w.Orderly) (hsound : w.Sound)
    {group : FeaturePartition × List (FeatureEnvelope F)}
    {groups : List (FeaturePartition × List (FeatureEnvelope F))} {stopping : Bool}
    (hworker : w.worker = .flushing (group :: groups) stopping) :
    (w.fileWritten group.2 groups stopping).Orderly := by
  have hdisk := hsound.distinct_published hworker
  unfold AsyncFeatureParquetWriter.fileWritten
  dsimp only
  split_ifs
  · exact h.setWorker hworker hdisk rfl rfl rfl rfl rfl (stopping_behindFile groups stopping).mp
  · exact h.setWorker hworker hdisk rfl rfl rfl rfl rfl False.elim

/-- The close moves on, with no sentinel put. -/
theorem Orderly.setClose (h : w.Orderly) {close : ClosePhase} {store : FeatureDeduplication}
    {queue : AsyncQueue FeaturePutter (FeatureQueueItem F)} (hitems : queue.items = w.queue.items)
    (hopen : Open w.close → Open close ∨ w.inFlight = none) (hunput : Unput close → Unput w.close)
    (hreturned : close = .returned → w.worker = .absent ∨ w.worker = .finished) :
    Orderly { w with close, store, queue } where
  distinct := h.distinct
  free := by
    intro hnot
    by_cases hwas : Open w.close
    · exact (hopen hwas).elim (fun hstill => absurd hstill hnot) id
    · exact h.free hwas
  unput := by
    rw [show ({ w with close, store, queue } : AsyncFeatureParquetWriter F).queue.items = _ from hitems]
    exact fun h' => h.unput (hunput h')
  last := by
    rw [show ({ w with close, store, queue } : AsyncFeatureParquetWriter F).queue.items = _ from hitems]
    exact h.last
  empty := by
    rw [show ({ w with close, store, queue } : AsyncFeatureParquetWriter F).queue.items = _ from hitems]
    exact h.empty
  failed := h.failed
  returned := hreturned

/-- The sentinel enters, or its putter parks. -/
theorem Orderly.putStop (h : w.Orderly) (hfree : w.inFlight = none) (hunput : Unput w.close)
    {entered parked : ClosePhase} (hentered : ¬ Unput entered ∧ entered ≠ .returned)
    (hparked : parked ≠ .returned) : (w.putStop entered parked).Orderly := by
  obtain ⟨hnone, hworker⟩ := h.unput hunput
  unfold AsyncFeatureParquetWriter.putStop
  split_ifs with hfull hwait
  · exact
      { distinct := h.distinct
        free := fun _ => hfree
        unput := fun hstill => absurd hstill hentered.1
        last := ⟨w.queue.items, [.stop], rfl, hnone, .inr rfl⟩
        empty := fun hstopping => absurd hstopping hworker
        failed := h.failed
        returned := fun heq => absurd heq hentered.2 }
  · exact h.setClose rfl (fun _ => .inr hfree) (fun _ => hunput) fun heq => absurd heq hparked
  · exact h.setClose rfl (fun _ => .inr hfree) (fun _ => hunput) fun heq => absurd heq hparked

/-! ## Runs -/

theorem orderly_new (batchRows queueCapacity : Nat) (queueCapacity_pos : 0 < queueCapacity)
    (deduplicationCapacity : Nat) {disk : List (FeatureEnvelope F)}
    (hdisk : (disk.map (·.featureSnapshotId)).Nodup) :
    (new batchRows queueCapacity queueCapacity_pos deduplicationCapacity disk).Orderly where
  distinct := hdisk
  free := fun _ => rfl
  unput := fun _ => ⟨fun _ hitem => absurd hitem List.not_mem_nil, id⟩
  last := ⟨[], [], rfl, fun _ hitem => absurd hitem List.not_mem_nil, .inl rfl⟩
  empty := False.elim
  failed := fun _ _ hin => absurd hin List.not_mem_nil
  returned := fun heq => by cases heq

/-- What a crash leaves on disk. -/
theorem Orderly.restart (h : w.Orderly) (hsound : w.Sound) (published : Bool) :
    (w.restart published).Orderly := by
  unfold AsyncFeatureParquetWriter.restart
  apply orderly_new
  split
  · rename_i group groups stopping hworker
    split_ifs
    · exact hsound.distinct_published hworker
    · exact h.distinct
  · exact h.distinct

theorem Orderly.step (h : w.Orderly) (hsound : w.Sound) (codec : FeatureCodec F)
    (versions : WriterVersions) (input : FeatureWriterInput F) : (w.step codec versions input).Orderly := by
  unfold AsyncFeatureParquetWriter.step
  cases input with
  | start =>
    dsimp only
    split
    · rename_i index hworker hindex
      split_ifs with hclose
      · exact
          { distinct := h.distinct
            free := h.free
            unput := fun hunput => ⟨(h.unput hunput).1, id⟩
            last := h.last
            empty := False.elim
            failed := by
              intro e error hin
              obtain ⟨text, hfailed⟩ := h.failed e error hin
              rw [hworker] at hfailed
              cases hfailed
            returned := fun heq => by
              rw [show w.close = _ from hclose] at heq
              cases heq }
      · exact h
    · exact h
  | write snapshot callback => exact h.write codec versions snapshot callback
  | runPut =>
    dsimp only
    split
    · rename_i e hinFlight
      exact h.runPut hinFlight
    · rename_i e hinFlight
      exact h.runPut hinFlight
    · exact h
  | resumeWrite =>
    dsimp only
    split
    · rename_i e put hinFlight
      exact h.resumeWrite hinFlight
    · exact h
  | cancelWrite =>
    dsimp only
    split
    · rename_i e put hinFlight
      exact h.abandon e put .cancelled fun _ hraised => by cases hraised
    · exact h
  | getItem =>
    dsimp only
    split
    · rename_i item woken queue hworker hget
      exact h.takeItem hworker (AsyncQueue.items_of_getNowait hget) woken
    · exact h
  | flushTimeout =>
    dsimp only
    split
    · rename_i hworker
      exact h.flush hworker fun heq => by cases heq
    · exact h
  | fileWritten =>
    dsimp only
    split
    · rename_i group groups stopping hworker
      exact h.fileWritten hsound hworker
    · exact h
  | fileFails error =>
    dsimp only
    split
    · rename_i groups stopping hworker
      exact h.setWorker hworker h.distinct rfl rfl rfl rfl rfl False.elim
    · exact h
  | close =>
    dsimp only
    split_ifs with hclose
    · exact h.setClose rfl (fun _ => .inl trivial) (fun _ => by rw [hclose]; trivial) fun heq => by cases heq
    · exact h
  | runClose =>
    dsimp only
    split_ifs with hclose
    · have hunput : Unput w.close := by
        rw [hclose.1]
        trivial
      split
      · rename_i hworker
        exact h.setClose rfl (fun _ => .inr hclose.2) False.elim fun _ => .inl hworker
      · exact h.setClose rfl (fun _ => .inr hclose.2) False.elim fun heq => by cases heq
      · exact h.putStop hclose.2 hunput ⟨id, fun heq => by cases heq⟩ fun heq => by cases heq
    · exact h
  | runStopPut =>
    have hblocked : ∀ put, w.close = .blocked put → w.inFlight = none :=
      fun put hclose => h.free (by rw [hclose]; exact id)
    dsimp only
    split
    · rename_i hclose
      exact h.putStop (hblocked _ hclose) (by rw [hclose]; exact fun heq => by cases heq)
        ⟨fun hdone => hdone rfl, fun heq => by cases heq⟩ fun heq => by cases heq
    · rename_i hclose
      exact h.putStop (hblocked _ hclose) (by rw [hclose]; exact fun heq => by cases heq)
        ⟨fun hdone => hdone rfl, fun heq => by cases heq⟩ fun heq => by cases heq
    · exact h
  | resumeClose =>
    dsimp only
    split
    · rename_i put hclose
      have hover {close : ClosePhase} {store : FeatureDeduplication} (hput : ¬ Unput close)
          (hne : close ≠ .returned) : Orderly { w with close, store } :=
        h.setClose rfl (fun _ => .inr (h.free (by rw [hclose]; exact id)))
          (fun hunput => absurd hunput hput) fun heq => absurd heq hne
      split
      · exact hover id fun heq => by cases heq
      · split_ifs
        · exact hover id fun heq => by cases heq
        · exact hover id fun heq => by cases heq
      · split_ifs
        · exact hover id fun heq => by cases heq
        · exact h
    · exact h
  | returnClose =>
    dsimp only
    split
    · rename_i hclose hworker
      exact h.setClose rfl (fun _ => .inr (h.free (by rw [hclose]; exact id))) False.elim
        fun _ => .inr hworker
    · rename_i hclose hworker
      exact h.setClose rfl (fun _ => .inr (h.free (by rw [hclose]; exact id))) False.elim
        fun heq => by cases heq
    · exact h
  | restart published => exact h.restart hsound published

theorem Orderly.run (h : w.Orderly) (hsound : w.Sound) (codec : FeatureCodec F)
    (versions : WriterVersions) (inputs : List (FeatureWriterInput F)) :
    (w.run codec versions inputs).Orderly := by
  induction inputs generalizing w with
  | nil => exact h
  | cons input inputs ih => exact ih (h.step hsound codec versions input) (hsound.step codec versions input)

/-! ## Rows stay -/

theorem disk_reserveAndPut (w : AsyncFeatureParquetWriter F) (e : FeatureEnvelope F)
    (callback : Option String) : (w.reserveAndPut e callback).disk = w.disk := by
  unfold AsyncFeatureParquetWriter.reserveAndPut
  dsimp only
  split
  · rfl
  · rfl
  · split_ifs
    · rfl
    · split <;> rfl

theorem disk_write (w : AsyncFeatureParquetWriter F) (codec : FeatureCodec F) (versions : WriterVersions)
    (snapshot : PersistableFeatureSnapshot F) (callback : Option String) :
    (w.write codec versions snapshot callback).disk = w.disk := by
  have henter : (w.enterWrite codec versions snapshot callback).disk = w.disk := by
    unfold AsyncFeatureParquetWriter.enterWrite
    split
    · rfl
    · exact disk_reserveAndPut w _ callback
  unfold AsyncFeatureParquetWriter.write
  split_ifs
  · rfl
  · rfl
  · split <;> rfl
  · cases w.worker with
    | absent => rfl
    | failed error => rfl
    | _ => exact henter

theorem disk_abandon (w : AsyncFeatureParquetWriter F) (e : FeatureEnvelope F) (put : PutPhase)
    (outcome : FeatureWriteOutcome) : (w.abandon e put outcome).disk = w.disk := by
  unfold AsyncFeatureParquetWriter.abandon
  split_ifs <;> rfl

theorem disk_wake (w : AsyncFeatureParquetWriter F) (woken : Option FeaturePutter) :
    (w.wake woken).disk = w.disk := by
  unfold AsyncFeatureParquetWriter.wake
  split
  · rfl
  · split_ifs <;> rfl
  · split <;> rfl

theorem disk_flush (w : AsyncFeatureParquetWriter F) (stopping : Bool) : (w.flush stopping).disk = w.disk :=
  (flush_rest w stopping).2.2.2.1

theorem disk_takeItem (w : AsyncFeatureParquetWriter F)
    (queue : AsyncQueue FeaturePutter (FeatureQueueItem F)) (woken : Option FeaturePutter)
    (item : FeatureQueueItem F) : (w.takeItem queue woken item).disk = w.disk := by
  cases item with
  | stop => exact (disk_flush _ _).trans (disk_wake _ _)
  | submission e =>
    unfold AsyncFeatureParquetWriter.takeItem
    dsimp only
    split_ifs
    · exact (disk_flush _ _).trans (disk_wake _ _)
    · exact disk_wake _ _

theorem disk_putStop (w : AsyncFeatureParquetWriter F) (entered parked : ClosePhase) :
    (w.putStop entered parked).disk = w.disk := by
  unfold AsyncFeatureParquetWriter.putStop
  split_ifs <;> rfl

/-- No step, a crash included, takes a row off the disk. -/
theorem disk_step (w : AsyncFeatureParquetWriter F) (codec : FeatureCodec F) (versions : WriterVersions)
    (input : FeatureWriterInput F) : w.disk <+: (w.step codec versions input).disk := by
  have hsame {next : AsyncFeatureParquetWriter F} (h : next.disk = w.disk) : w.disk <+: next.disk := by
    rw [h]
  unfold AsyncFeatureParquetWriter.step
  cases input with
  | start =>
    dsimp only
    split
    · split_ifs <;> exact hsame rfl
    · exact hsame rfl
  | write snapshot callback => exact hsame (disk_write w codec versions snapshot callback)
  | runPut =>
    have hput (e : FeatureEnvelope F) : (w.runPut e).disk = w.disk := by
      unfold AsyncFeatureParquetWriter.runPut
      split_ifs <;> rfl
    dsimp only
    split
    · exact hsame (hput _)
    · exact hsame (hput _)
    · exact hsame rfl
  | resumeWrite =>
    dsimp only
    split
    · unfold AsyncFeatureParquetWriter.resumeWrite
      split
      · exact hsame (disk_abandon ..)
      · exact hsame (disk_abandon ..)
      · split_ifs <;> exact hsame rfl
    · exact hsame rfl
  | cancelWrite =>
    dsimp only
    split
    · exact hsame (disk_abandon ..)
    · exact hsame rfl
  | getItem =>
    dsimp only
    split
    · exact hsame (disk_takeItem ..)
    · exact hsame rfl
  | flushTimeout =>
    dsimp only
    split
    · exact hsame (disk_flush ..)
    · exact hsame rfl
  -- a written file and a restart that publishes add rows at the end, nothing else touches them
  | fileWritten =>
    dsimp only
    split
    · unfold AsyncFeatureParquetWriter.fileWritten
      dsimp only
      split_ifs <;> exact List.prefix_append _ _
    · exact hsame rfl
  | fileFails error =>
    dsimp only
    split <;> exact hsame rfl
  | close =>
    dsimp only
    split_ifs <;> exact hsame rfl
  | runClose =>
    dsimp only
    split_ifs
    · split
      · exact hsame rfl
      · exact hsame rfl
      · exact hsame (disk_putStop ..)
    · exact hsame rfl
  | runStopPut =>
    dsimp only
    split
    · exact hsame (disk_putStop ..)
    · exact hsame (disk_putStop ..)
    · exact hsame rfl
  | resumeClose =>
    dsimp only
    split
    · split
      · exact hsame rfl
      · split_ifs <;> exact hsame rfl
      · split_ifs <;> exact hsame rfl
    · exact hsame rfl
  | returnClose =>
    dsimp only
    split <;> exact hsame rfl
  | restart published =>
    dsimp only [restart, new]
    split
    · split_ifs
      · exact List.prefix_append _ _
      · exact List.prefix_refl _
    · exact List.prefix_refl _

theorem disk_run (w : AsyncFeatureParquetWriter F) (codec : FeatureCodec F) (versions : WriterVersions)
    (inputs : List (FeatureWriterInput F)) : w.disk <+: (w.run codec versions inputs).disk := by
  induction inputs generalizing w with
  | nil => exact List.prefix_refl _
  | cons input inputs ih => exact (w.disk_step codec versions input).trans (ih _)

/-! ## One row each -/

theorem mem_contents {e : FeatureEnvelope F} {outcome : FeatureWriteOutcome}
    (h : .ended e outcome true ∈ w.calls) : e ∈ w.contents :=
  List.mem_append_left _ (List.mem_filterMap.mpr ⟨_, h, rfl⟩)

/-- An accepted call has put its submission on the queue. -/
theorem Sound.enqueued_of_accepted (h : w.Sound) {e : FeatureEnvelope F} {enqueued : Bool}
    (hcall : .ended e .accepted enqueued ∈ w.calls) : enqueued = true := by
  obtain ⟨before, after, hcalls⟩ := List.append_of_mem hcall
  rcases h.explained before e .accepted enqueued after hcalls with ⟨hfirst, hiff⟩ | ⟨-, hne, -⟩
  · apply hiff.mpr
    cases hcontent : firstContent w.found before e.featureSnapshotId with
    | none => rfl
    | some identity =>
      rw [hcontent] at hfirst
      unfold firstOutcome at hfirst
      dsimp only at hfirst
      split_ifs at hfirst
  · exact absurd rfl hne

/-- Rows, accepted contents and those put on the queue are of different ids, or the same. -/
theorem Sound.eq_of_id (h : w.Sound) (hworker : w.worker ≠ .absent) {e e' : FeatureEnvelope F}
    (he : e ∈ w.found ++ w.contents) (he' : e' ∈ w.found ++ w.contents)
    (hid : e'.featureSnapshotId = e.featureSnapshotId) : e' = e := by
  have hids := h.ids hworker
  rw [List.map_append] at hids
  exact List.inj_on_of_nodup_map (List.nodup_append.mp hids).1 he' he hid

/-- Behind a close that returned, what is on disk is what was found and what was put on the queue. -/
theorem Orderly.disk_of_returned (h : w.Orderly) (hsound : w.Sound) (hreturned : w.close = .returned) :
    w.disk.Perm (w.found ++ w.calls.filterMap FeatureWriteCall.content?) := by
  have hfree : w.inFlight = none := h.free (by rw [hreturned]; exact id)
  have hcontents : w.contents = w.calls.filterMap FeatureWriteCall.content? := by
    unfold contents entered
    rw [hfree, List.append_nil]
  have hover := h.returned hreturned
  have hpending : w.pending = [] := by
    rcases hover with habsent | hfinished
    · exact (hsound.unstarted habsent).2.2.2.1
    · obtain ⟨hitems, hbatch⟩ := h.empty (by rw [hfinished]; trivial)
      unfold pending
      rw [hfinished, hitems, hbatch]
      rfl
  have hconserved := hsound.conserved fun error hfailed => by
    rcases hover with heq | heq <;> rw [hfailed] at heq <;> cases heq
  rwa [hpending, List.append_nil, hcontents] at hconserved

end AsyncFeatureParquetWriter

open AsyncFeatureParquetWriter in
/-- On a root whose rows have different ids, in every schedule with restarts: the rows on disk keep
different ids and stay; within one writer a content that was found or put on the queue is the only one of
its id that is accepted or on disk; and behind a close that returned each accepted content is one row, and
each row was found or is of a call that was accepted, or cancelled behind its put. -/
theorem feature_writer_exactly_once (codec : FeatureCodec F) (versions : WriterVersions)
    (batchRows queueCapacity : Nat) (queueCapacity_pos : 0 < queueCapacity) (capacity : Nat)
    (disk : List (FeatureEnvelope F)) (hdisk : (disk.map (·.featureSnapshotId)).Nodup)
    (inputs : List (FeatureWriterInput F)) :
    let w := (new batchRows queueCapacity queueCapacity_pos capacity disk).run codec versions inputs
    (w.disk.map (·.featureSnapshotId)).Nodup ∧
    (∀ more, w.disk <+: (w.run codec versions more).disk) ∧
    (∀ e e', (e ∈ w.found ∨ ∃ outcome, .ended e outcome true ∈ w.calls) →
      (e' ∈ w.disk ∨ ∃ enqueued, .ended e' .accepted enqueued ∈ w.calls) →
        e'.featureSnapshotId = e.featureSnapshotId → e' = e) ∧
    (w.close = .returned →
      (∀ e enqueued, .ended e .accepted enqueued ∈ w.calls →
        e ∈ w.disk ∧ (w.disk.map (·.featureSnapshotId)).count e.featureSnapshotId = 1) ∧
      ∀ row ∈ w.disk, row ∈ w.found ∨ .ended row .accepted true ∈ w.calls ∨
        .ended row .cancelled true ∈ w.calls) := by
  intro w
  have hsound : w.Sound := (sound_new _ _ _ _ _).run codec versions inputs
  have horderly : w.Orderly := (orderly_new _ _ _ _ hdisk).run (sound_new _ _ _ _ _) codec versions inputs
  have haccepted : ∀ e enqueued, .ended e .accepted enqueued ∈ w.calls → e ∈ w.contents := by
    intro e enqueued hcall
    have htrue := hsound.enqueued_of_accepted hcall
    exact mem_contents (htrue ▸ hcall)
  refine ⟨horderly.distinct, fun more => w.disk_run codec versions more, ?_, ?_⟩
  · intro e e' he he' hid
    by_cases hworker : w.worker = .absent
    · -- before the start there are the rows found, and no calls with a submission
      obtain ⟨hsame, hcontents, -⟩ := hsound.unstarted hworker
      have hnone : ∀ x, x ∉ w.contents := fun x => hcontents ▸ List.not_mem_nil
      have hein : e ∈ w.disk := by
        rw [hsame]
        exact he.elim id fun ⟨outcome, hcall⟩ => absurd (mem_contents hcall) (hnone e)
      have hein' : e' ∈ w.disk :=
        he'.elim id fun ⟨enqueued, hcall⟩ => absurd (haccepted e' enqueued hcall) (hnone e')
      exact List.inj_on_of_nodup_map horderly.distinct hein' hein hid
    · apply hsound.eq_of_id hworker _ _ hid
      · exact he.elim (List.mem_append_left _) fun ⟨outcome, hcall⟩ =>
          List.mem_append_right _ (mem_contents hcall)
      · exact he'.elim (fun hin => hsound.kept.subset (List.mem_append_left _ hin))
          fun ⟨enqueued, hcall⟩ => List.mem_append_right _ (haccepted e' enqueued hcall)
  · intro hreturned
    have hperm := horderly.disk_of_returned hsound hreturned
    constructor
    · intro e enqueued hcall
      have hin : e ∈ w.disk := by
        apply hperm.mem_iff.mpr
        have htrue := hsound.enqueued_of_accepted hcall
        exact List.mem_append_right _ (List.mem_filterMap.mpr ⟨_, htrue ▸ hcall, rfl⟩)
      exact ⟨hin, List.count_eq_one_of_mem horderly.distinct (List.mem_map_of_mem hin)⟩
    · intro row hrow
      rcases List.mem_append.mp (hperm.mem_iff.mp hrow) with hfound | hcalled
      · exact .inl hfound
      · right
        obtain ⟨call, hcall, hcontent⟩ := List.mem_filterMap.mp hcalled
        cases call with
        | refused error => cases hcontent
        | ended e outcome enqueued =>
          cases enqueued with
          | false => cases hcontent
          | true =>
            obtain rfl := Option.some.inj hcontent
            cases outcome with
            | accepted => exact .inl hcall
            | cancelled => exact .inr hcall
            | deduplicated =>
              obtain ⟨before, after, hcalls⟩ := List.append_of_mem hcall
              rcases hsound.explained before e _ true after hcalls with ⟨hfirst, hiff⟩ | ⟨-, -, hne, -⟩
              · rw [hiff.mp rfl] at hfirst
                cases hfirst
              · exact absurd rfl hne
            | raised error =>
              -- such a call saw the worker fail, and the close would have raised
              obtain ⟨text, hfailed⟩ := horderly.failed e error hcall
              rcases horderly.returned hreturned with heq | heq <;> rw [hfailed] at heq <;> cases heq

/-! ### Two contents of one id -/

def revisedFeatureEnvelope : FeatureEnvelope ℚ :=
  { snapshot := .singleVenue revisedFeatureSnapshot
    codeVersion := "0.3.1"
    configHash := exampleWriterVersions.configHash
    payloadJson := revisedFeatureJson
    payloadSha256 := exampleFeatureSha256 revisedFeatureJson }

theorem exampleQueueCapacity_pos : 0 < 4 := Nat.succ_pos 3

/-- A writer on an empty root. -/
def exampleFeatureWriter (inputs : List (FeatureWriterInput ℚ)) : AsyncFeatureParquetWriter ℚ :=
  (AsyncFeatureParquetWriter.new 10 4 exampleQueueCapacity_pos 1000 []).run exampleFeatureCodec
    exampleWriterVersions inputs

/-- Accepted and lost in a crash: the next writer on the root accepts another content of the id. -/
theorem crash_forgets_accepted_content :
    let before := exampleFeatureWriter [.start, .write (.singleVenue exampleLaterSnapshot) none]
    let after := before.run exampleFeatureCodec exampleWriterVersions
      [.restart false, .start, .write (.singleVenue revisedFeatureSnapshot) none]
    before.calls = [.ended exampleLaterEnvelope .accepted true] ∧
      after.calls = [.ended revisedFeatureEnvelope .accepted true] ∧
      revisedFeatureEnvelope.featureSnapshotId = exampleLaterEnvelope.featureSnapshotId ∧
      revisedFeatureEnvelope.contentIdentity ≠ exampleLaterEnvelope.contentIdentity := by
  refine ⟨rfl, rfl, rfl, ?_⟩
  decide +kernel

/-- A snapshot, the same again, another content of it and a second snapshot, written and closed. -/
def exampleWriterInputs : List (FeatureWriterInput ℚ) :=
  [.start, .write (.singleVenue exampleLaterSnapshot) none, .write (.singleVenue exampleLaterSnapshot) none,
    .write (.singleVenue revisedFeatureSnapshot) none, .write (.singleVenue exampleFeatureSnapshot) none,
    .close, .runClose, .getItem, .getItem, .getItem, .fileWritten, .returnClose]

/-- The next writer is given the second snapshot and the other content. -/
def exampleRestartInputs : List (FeatureWriterInput ℚ) :=
  exampleWriterInputs ++ [.restart false, .start, .write (.singleVenue exampleFeatureSnapshot) none,
    .write (.singleVenue revisedFeatureSnapshot) none]

set_option maxRecDepth 4096 in
/-- Of a duplicate, a conflict and a restart only the two accepted contents are left. -/
theorem feature_writer_exactly_once_restart :
    let w := exampleFeatureWriter exampleWriterInputs
    let restarted := exampleFeatureWriter exampleRestartInputs
    w.calls = [.ended exampleLaterEnvelope .accepted true,
        .ended exampleLaterEnvelope .deduplicated false,
        .ended revisedFeatureEnvelope (.raised .conflict) false,
        .ended exampleFeatureEnvelope .accepted true] ∧
      restarted.calls = [.ended exampleFeatureEnvelope .deduplicated false,
        .ended revisedFeatureEnvelope (.raised .conflict) false] ∧
      (∀ e enqueued, .ended e .accepted enqueued ∈ w.calls →
        e ∈ w.disk ∧ (w.disk.map (·.featureSnapshotId)).count e.featureSnapshotId = 1) ∧
      (restarted.disk.map (·.featureSnapshotId)).Nodup ∧
      ∀ row ∈ restarted.disk, row.featureSnapshotId = exampleLaterEnvelope.featureSnapshotId →
        row = exampleLaterEnvelope := by
  obtain ⟨-, -, -, hreturned⟩ := feature_writer_exactly_once exampleFeatureCodec exampleWriterVersions 10 4
    exampleQueueCapacity_pos 1000 [] List.nodup_nil exampleWriterInputs
  obtain ⟨hdistinct, -, hcontent, -⟩ := feature_writer_exactly_once exampleFeatureCodec
    exampleWriterVersions 10 4 exampleQueueCapacity_pos 1000 [] List.nodup_nil exampleRestartInputs
  have hclose : (exampleFeatureWriter exampleWriterInputs).close = .returned := by decide +kernel
  have hfound : exampleLaterEnvelope ∈ (exampleFeatureWriter exampleRestartInputs).found := by
    show exampleLaterEnvelope ∈ [exampleLaterEnvelope, exampleFeatureEnvelope]
    exact List.mem_cons_self
  refine ⟨rfl, rfl, (hreturned hclose).1, hdistinct, fun row hrow hid => ?_⟩
  exact hcontent exampleLaterEnvelope row (.inl hfound) (.inl hrow) hid

end Cvf
