/-
# Cvf.Storage.FeatureWriter — the feature writer's writes, worker and close.

A write holds one lock from its reservation to its end, so at most one submission waits for a slot of the
queue, and `close` begins only between two writes.  The worker takes submissions into a batch and flushes
it by partition; the rows of a published file are committed in the index.  A write that fails before its
submission has entered the queue withdraws its reservation; a worker that fails deletes all of them, and
every later write raises.

An input names what the event loop runs next, up to its next suspension.  A call waiting for the lock has
no effect yet: the input of a write is the moment it gets the lock.  `restart` makes a new writer on the
same root, after a close, a failure or a crash; a crash may come between the publication of a file and its
commit.
-/
import Cvf.Library.Grouping
import Cvf.Storage.FeatureIndex
import Cvf.Storage.ParquetWriter

namespace Cvf

open Cvf.Library

/-- The tasks that put on the writer's queue. -/
inductive FeaturePutter where
  | write
  | stop
  deriving DecidableEq, Repr

inductive FeatureQueueItem (F : Type) where
  /-- `_FeatureSubmission` -/
  | submission (envelope : FeatureEnvelope F)
  /-- `_STOP` -/
  | stop

def FeatureQueueItem.envelope? {F : Type} : FeatureQueueItem F → Option (FeatureEnvelope F)
  | .submission e => some e
  | .stop => none

/-- The errors `write` raises. -/
inductive FeatureParquetError where
  | closed
  | closing
  | notStarted
  | workerFailed (error : String)
  | stoppedUnexpectedly
  | envelope (error : String)
  | conflict
  | backpressureCallback (error : String)
  deriving DecidableEq, Repr

def FeatureParquetError.text : FeatureParquetError → String
  | .closed => "cannot write after close"
  | .closing => "cannot write after close begins"
  | .notStarted => "start the feature writer before writing"
  | .workerFailed error => "feature writer failed: " ++ error
  | .stoppedUnexpectedly => "feature writer stopped unexpectedly"
  | .envelope error => error
  | .conflict => "duplicate feature_snapshot_id has different content"
  | .backpressureCallback error => "feature backpressure callback failed: " ++ error

inductive FeatureWriteOutcome where
  /-- `FeatureWriteStatus.ACCEPTED` -/
  | accepted
  /-- `FeatureWriteStatus.DEDUPLICATED` -/
  | deduplicated
  | raised (error : FeatureParquetError)
  | cancelled
  deriving DecidableEq, Repr

/-- A call of `write` that is over: refused before it had an envelope, or ended. -/
inductive FeatureWriteCall (F : Type) where
  | refused (error : FeatureParquetError)
  | ended (envelope : FeatureEnvelope F) (outcome : FeatureWriteOutcome) (enqueued : Bool)

/-- The content a call has put on the queue. -/
def FeatureWriteCall.content? {F : Type} : FeatureWriteCall F → Option (FeatureEnvelope F)
  | .refused _ => none
  | .ended e _ enqueued => if enqueued then some e else none

/-- The worker task `_run`. -/
inductive FeatureWorkerPhase (F : Type) where
  | absent
  /-- Waiting for an item or for the flush deadline. -/
  | getting
  /-- In `_flush`, with the partitions still to write; `stopping` after the sentinel. -/
  | flushing (groups : List (FeaturePartition × List (FeatureEnvelope F))) (stopping : Bool)
  | finished
  | failed (error : String)

structure AsyncFeatureParquetWriter (F : Type) where
  queue : AsyncQueue FeaturePutter (FeatureQueueItem F)
  batchRows : Nat
  store : FeatureDeduplication
  batch : List (FeatureEnvelope F) := []
  worker : FeatureWorkerPhase F := .absent
  close : ClosePhase := .notCalled
  /-- The write that holds the lock while the task that puts its submission waits for a slot. -/
  inFlight : Option (FeatureEnvelope F × PutPhase) := none
  /-- The calls that are over. -/
  calls : List (FeatureWriteCall F) := []
  /-- The rows of the published files. -/
  disk : List (FeatureEnvelope F)
  /-- The rows that were there when the writer was made. -/
  found : List (FeatureEnvelope F)

inductive FeatureWriterInput (F : Type) where
  | start
  /-- A write gets the lock; `callback` is what the backpressure callback raises, if it does. -/
  | write (snapshot : PersistableFeatureSnapshot F) (callback : Option String)
  | runPut
  /-- The write in flight, after `asyncio.wait` on its put and the worker. -/
  | resumeWrite
  | cancelWrite
  | getItem
  | flushTimeout
  /-- The off-loop write of the next partition file ends. -/
  | fileWritten
  | fileFails (error : String)
  | close
  | runClose
  | runStopPut
  | resumeClose
  /-- `_close_lifecycle`, after `await self._task`. -/
  | returnClose
  | restart (published : Bool)

/-- The order of `sorted(grouped)`. -/
def partitionOrder (partition : FeaturePartition) : String ×ₗ String ×ₗ String :=
  toLex (partition.date, toLex (partition.symbol, partition.scope))

/-- The files of a flush, in the order they are written. -/
def flushGroups {F : Type} (batch : List (FeatureEnvelope F)) :
    List (FeaturePartition × List (FeatureEnvelope F)) :=
  sortByKey (fun group => partitionOrder group.1) (groupByKey (featurePartition ·.snapshot) batch)

namespace AsyncFeatureParquetWriter

variable {F : Type}

def new (batchRows queueCapacity : Nat) (queueCapacity_pos : 0 < queueCapacity)
    (deduplicationCapacity : Nat) (disk : List (FeatureEnvelope F)) : AsyncFeatureParquetWriter F :=
  { queue := AsyncQueue.new queueCapacity queueCapacity_pos
    batchRows
    store := { deduplicationCapacity }
    disk
    found := disk }

def refuse (w : AsyncFeatureParquetWriter F) (error : FeatureParquetError) :
    AsyncFeatureParquetWriter F :=
  { w with calls := w.calls ++ [.refused error] }

/-- The write that holds the lock is over. -/
def endCall (w : AsyncFeatureParquetWriter F) (e : FeatureEnvelope F) (outcome : FeatureWriteOutcome)
    (enqueued : Bool) : AsyncFeatureParquetWriter F :=
  { w with inFlight := none, calls := w.calls ++ [.ended e outcome enqueued] }

/-- The write fails with its submission not on the queue. -/
def withdraw (w : AsyncFeatureParquetWriter F) (e : FeatureEnvelope F)
    (outcome : FeatureWriteOutcome) : AsyncFeatureParquetWriter F :=
  { w with
    queue := w.queue.unpark .write
    store := w.store.rollbackReservation e }.endCall e outcome false

/-- `write` from `_reserve` to its first suspension. -/
def reserveAndPut (w : AsyncFeatureParquetWriter F) (e : FeatureEnvelope F) (callback : Option String) :
    AsyncFeatureParquetWriter F :=
  let reserved := { w with store := (w.store.reserve e).2 }
  match (w.store.reserve e).1 with
  | .conflict => reserved.endCall e (.raised .conflict) false
  | .known => reserved.endCall e .deduplicated false
  | .reserved =>
    if h : w.queue.full = false then
      { reserved with queue := w.queue.putNowait (.submission e) h }.endCall e .accepted true
    else
      match callback with
      | some error => reserved.withdraw e (.raised (.backpressureCallback error))
      | none => { reserved with inFlight := some (e, .created) }

/-- `write` behind its checks. -/
def enterWrite (codec : FeatureCodec F) (versions : WriterVersions) (w : AsyncFeatureParquetWriter F)
    (snapshot : PersistableFeatureSnapshot F) (callback : Option String) :
    AsyncFeatureParquetWriter F :=
  match envelope codec versions snapshot with
  | .error text => w.refuse (.envelope text)
  | .ok e => w.reserveAndPut e callback

/-- `write`; with the lock held by another call it waits. -/
def write (codec : FeatureCodec F) (versions : WriterVersions) (w : AsyncFeatureParquetWriter F)
    (snapshot : PersistableFeatureSnapshot F) (callback : Option String) :
    AsyncFeatureParquetWriter F :=
  if w.close = .returned ∨ w.close = .raised then w.refuse .closed
  else if w.close ≠ .notCalled then w.refuse .closing
  else
    match w.worker with
    | .absent => w.refuse .notStarted
    | worker =>
      if w.inFlight.isSome then w
      else
        match worker with
        | .failed error => w.refuse (.workerFailed error)
        | _ => w.enterWrite codec versions snapshot callback

/-- The task putting the submission in flight runs: it puts, or parks. -/
def runPut (w : AsyncFeatureParquetWriter F) (e : FeatureEnvelope F) : AsyncFeatureParquetWriter F :=
  if h : w.queue.full = false then
    { w with queue := w.queue.putNowait (.submission e) h, inFlight := some (e, .done) }
  else { w with queue := w.queue.park .write, inFlight := some (e, .waiting) }

/-- A write that ends without `ACCEPTED`, its submission on the queue or not. -/
def abandon (w : AsyncFeatureParquetWriter F) (e : FeatureEnvelope F) (put : PutPhase)
    (outcome : FeatureWriteOutcome) : AsyncFeatureParquetWriter F :=
  if put = .done then w.endCall e outcome true else w.withdraw e outcome

/-- `_put_or_worker_failure` and `write` behind `asyncio.wait`. -/
def resumeWrite (w : AsyncFeatureParquetWriter F) (e : FeatureEnvelope F) (put : PutPhase) :
    AsyncFeatureParquetWriter F :=
  match w.worker with
  -- a worker that is done fails the write, whether or not its put is done
  | .failed error => w.abandon e put (.raised (.workerFailed error))
  | .finished => w.abandon e put (.raised .stoppedUnexpectedly)
  | _ => if put = .done then w.endCall e .accepted true else w

/-- A freed slot wakes the putter parked longest. -/
def wake (w : AsyncFeatureParquetWriter F) : Option FeaturePutter → AsyncFeatureParquetWriter F
  | none => w
  | some .stop => if w.close = .blocked .waiting then { w with close := .blocked .woken } else w
  | some .write =>
    match w.inFlight with
    | some (e, .waiting) => { w with inFlight := some (e, .woken) }
    | _ => w

/-- What the worker does when a flush has no file left to write. -/
def afterFlush (stopping : Bool) : FeatureWorkerPhase F := if stopping then .finished else .getting

/-- And behind one of its files. -/
def behindFile (groups : List (FeaturePartition × List (FeatureEnvelope F))) (stopping : Bool) :
    FeatureWorkerPhase F :=
  if groups.isEmpty then afterFlush stopping else .flushing groups stopping

/-- `_flush` up to its first file.  The batch is not looked at again before it is cleared. -/
def flush (w : AsyncFeatureParquetWriter F) (stopping : Bool) : AsyncFeatureParquetWriter F :=
  if w.batch.isEmpty then { w with worker := afterFlush stopping }
  else { w with worker := .flushing (flushGroups w.batch) stopping, batch := [] }

/-- The worker gets an item; `woken` is the putter its slot wakes, `queue` the queue without it. -/
def takeItem (w : AsyncFeatureParquetWriter F) (queue : AsyncQueue FeaturePutter (FeatureQueueItem F))
    (woken : Option FeaturePutter) : FeatureQueueItem F → AsyncFeatureParquetWriter F
  | .stop => ({ w with queue }.wake woken).flush true
  | .submission e =>
    let taken := { w with queue, batch := w.batch ++ [e] }.wake woken
    if w.batchRows ≤ taken.batch.length then taken.flush false else taken

/-- `_run` raises. -/
def failWorker (w : AsyncFeatureParquetWriter F) (error : String) : AsyncFeatureParquetWriter F :=
  { w with worker := .failed error, store := w.store.rollbackAllPending }

/-- A file is published, and its rows are committed. -/
def fileWritten (w : AsyncFeatureParquetWriter F) (envelopes : List (FeatureEnvelope F))
    (groups : List (FeaturePartition × List (FeatureEnvelope F))) (stopping : Bool) :
    AsyncFeatureParquetWriter F :=
  let published :=
    { w with disk := w.disk ++ envelopes, store := (w.store.markCommitted envelopes).2 }
  if (w.store.markCommitted envelopes).1 then { published with worker := behindFile groups stopping }
  else published.failWorker "feature deduplication reservation disappeared before commit"

/-- Putting the sentinel, in the lifecycle task or in its put task. -/
def putStop (w : AsyncFeatureParquetWriter F) (entered parked : ClosePhase) :
    AsyncFeatureParquetWriter F :=
  if h : w.queue.full = false then { w with queue := w.queue.putNowait .stop h, close := entered }
  else if parked = .blocked .waiting then { w with queue := w.queue.park .stop, close := parked }
  else { w with close := parked }

/-- The end of `_close_lifecycle`, which rolls pending rows back. -/
def closed (w : AsyncFeatureParquetWriter F) (phase : ClosePhase) : AsyncFeatureParquetWriter F :=
  { w with close := phase, store := w.store.rollbackAllPending }

/-- A new writer on the root.  `published` says that a crash came just behind `os.replace`. -/
def restart (w : AsyncFeatureParquetWriter F) (published : Bool) : AsyncFeatureParquetWriter F :=
  new w.batchRows w.queue.maxsize w.queue.maxsize_pos w.store.deduplicationCapacity
    (match w.worker with
      | .flushing (group :: _) _ => if published then w.disk ++ group.2 else w.disk
      | _ => w.disk)

def step (codec : FeatureCodec F) (versions : WriterVersions) (w : AsyncFeatureParquetWriter F) :
    FeatureWriterInput F → AsyncFeatureParquetWriter F
  | .start =>
    match w.worker, rebuildFeatureIndex w.disk with
    | .absent, .ok index =>
      if w.close = .notCalled then { w with worker := .getting, store := { w.store with index } } else w
    | _, _ => w
  | .write snapshot callback => w.write codec versions snapshot callback
  | .runPut =>
    match w.inFlight with
    | some (e, .created) => w.runPut e
    | some (e, .woken) => w.runPut e
    | _ => w
  | .resumeWrite =>
    match w.inFlight with
    | some (e, put) => w.resumeWrite e put
    | none => w
  | .cancelWrite =>
    match w.inFlight with
    | some (e, put) => w.abandon e put .cancelled
    | none => w
  | .getItem =>
    match w.worker, w.queue.getNowait with
    | .getting, some (item, woken, queue) => w.takeItem queue woken item
    | _, _ => w
  | .flushTimeout =>
    match w.worker with
    | .getting => w.flush false
    | _ => w
  | .fileWritten =>
    match w.worker with
    | .flushing (group :: groups) stopping => w.fileWritten group.2 groups stopping
    | _ => w
  | .fileFails error =>
    match w.worker with
    | .flushing _ _ => w.failWorker error
    | _ => w
  | .close => if w.close = .notCalled then { w with close := .requested } else w
  | .runClose =>
    if w.close = .requested ∧ w.inFlight = none then
      match w.worker with
      | .absent => { w with close := .returned }
      | .failed _ => w.closed .raised
      | _ => w.putStop .awaitingWorker (.blocked .created)
    else w
  | .runStopPut =>
    match w.close with
    | .blocked .created => w.putStop (.blocked .done) (.blocked .waiting)
    | .blocked .woken => w.putStop (.blocked .done) (.blocked .waiting)
    | _ => w
  | .resumeClose =>
    match w.close with
    | .blocked put =>
      match w.worker with
      | .failed _ => w.closed .raised
      -- with the worker done but the sentinel not taken `_put_or_worker_failure` raises
      | .finished => if put = .done then { w with close := .awaitingWorker } else w.closed .raised
      | _ => if put = .done then { w with close := .awaitingWorker } else w
    | _ => w
  | .returnClose =>
    match w.close, w.worker with
    | .awaitingWorker, .finished => w.closed .returned
    | .awaitingWorker, .failed _ => w.closed .raised
    | _, _ => w
  | .restart published => w.restart published

end AsyncFeatureParquetWriter

end Cvf
