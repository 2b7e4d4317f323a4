/-
# Cvf.Storage.ParquetWriter — the raw writer's queue, worker and close.

`write` admits a record unless a close has begun, and puts it on a bounded queue; on a full queue it
waits for a task that runs `queue.put`.  The worker takes items into a batch and flushes the batch by
partition, one file after another, each written off-loop; it returns when it takes the sentinel that
`close` puts on the same queue.

The queue is all that `write` and `close` share.  A write that waits for a slot when the sentinel enters
may put its record behind the sentinel, where the worker does not look; it returns normally if it runs
before the worker's last flush ends.

An input names the task that runs next and takes it to its next suspension, so every schedule is a run.
Writes are not cancelled, and `close` is called once.
-/
import Cvf.Library.AsyncQueue
import Cvf.Library.Grouping
import Cvf.Library.Run

namespace Cvf

open Cvf.Library

/-- The tasks that put on the writer's queue. -/
inductive PutterId where
  | write (id : Nat)
  | stop
  deriving DecidableEq, Repr

/-- `_RawSubmission`: the record of one `write` call. -/
structure RawSubmission (R : Type*) where
  write : Nat
  record : R
  deriving DecidableEq, Repr

inductive QueueItem (R : Type*) where
  | submission (s : RawSubmission R)
  /-- `_STOP` -/
  | stop
  deriving DecidableEq, Repr

/-- The submission of an item, none for the sentinel. -/
def QueueItem.submission? {R : Type*} : QueueItem R → Option (RawSubmission R)
  | .submission s => some s
  | .stop => none

inductive WritePhase where
  /-- Waiting for the task that puts on the full queue. -/
  | blocked (put : PutPhase)
  | returned
  | raised
  deriving DecidableEq, Repr

/-- A call of `write` that has run. -/
structure WriteCall (R : Type*) where
  record : R
  phase : WritePhase
  deriving DecidableEq, Repr

/-- The worker task `_run`. -/
inductive WorkerPhase (R P : Type*) where
  /-- Not started. -/
  | absent
  /-- Waiting for an item or for the flush deadline. -/
  | getting
  /-- In `_flush`, with the partitions still to write; `stopping` after the sentinel. -/
  | flushing (groups : List (P × List (RawSubmission R))) (stopping : Bool)
  | finished
  | failed
  deriving DecidableEq, Repr

/-- The one `close` call and its `_close_lifecycle` task. -/
inductive ClosePhase where
  | notCalled
  /-- The task has been created; new writes are refused. -/
  | requested
  | blocked (put : PutPhase)
  | awaitingWorker
  | returned
  | raised
  deriving DecidableEq, Repr

structure AsyncPartitionedParquetWriter (R P : Type*) where
  queue : AsyncQueue PutterId (QueueItem R)
  batchRows : Nat
  batch : List (RawSubmission R) := []
  worker : WorkerPhase R P := .absent
  close : ClosePhase := .notCalled
  /-- The calls in the order they were made; a call is named by its place. -/
  writes : List (WriteCall R) := []
  /-- The committed files, with their partitions. -/
  files : List (P × List (RawSubmission R)) := []

inductive WriterInput (R : Type*) where
  | start
  | write (record : R)
  | runPut (id : Nat)
  /-- The write, after `asyncio.wait` on its put and the worker. -/
  | resumeWrite (id : Nat)
  | getItem
  | flushTimeout
  /-- The off-loop write of the next partition file ends. -/
  | fileWritten
  | fileFails
  | close
  | runClose
  | runStopPut
  | resumeClose
  /-- `_close_lifecycle`, after `await self._task`. -/
  | returnClose
  deriving DecidableEq, Repr

namespace AsyncPartitionedParquetWriter

variable {R P : Type*} [DecidableEq P] (partition : R → P)

def new (batchRows queueCapacity : Nat) (queueCapacity_pos : 0 < queueCapacity) :
    AsyncPartitionedParquetWriter R P :=
  { queue := AsyncQueue.new queueCapacity queueCapacity_pos, batchRows }

def workerDone (w : AsyncPartitionedParquetWriter R P) : Bool :=
  match w.worker with
  | .finished => true
  | .failed => true
  | _ => false

def setWrite (w : AsyncPartitionedParquetWriter R P) (id : Nat) (call : WriteCall R) :
    AsyncPartitionedParquetWriter R P :=
  { w with writes := w.writes.set id call }

/-- `_flush` up to its first file.  The batch is not looked at again before it is cleared. -/
def flush (w : AsyncPartitionedParquetWriter R P) (stopping : Bool) :
    AsyncPartitionedParquetWriter R P :=
  if w.batch = [] then { w with worker := if stopping then .finished else .getting }
  else
    { w with
      worker := .flushing (groupByKey (fun s => partition s.record) w.batch) stopping
      batch := [] }

/-- A freed slot wakes the putter parked longest. -/
def wake (w : AsyncPartitionedParquetWriter R P) (woken : Option PutterId) :
    AsyncPartitionedParquetWriter R P :=
  match woken with
  | none => w
  | some .stop => if w.close = .blocked .waiting then { w with close := .blocked .woken } else w
  | some (.write id) =>
    match w.writes[id]? with
    | some { record, phase := .blocked .waiting } => w.setWrite id { record, phase := .blocked .woken }
    | _ => w

def addWrite (w : AsyncPartitionedParquetWriter R P) (record : R) (phase : WritePhase) :
    AsyncPartitionedParquetWriter R P :=
  { w with writes := w.writes ++ [{ record, phase }] }

/-- The body of `write` up to its first suspension. -/
def write (w : AsyncPartitionedParquetWriter R P) (record : R) :
    AsyncPartitionedParquetWriter R P :=
  if w.close ≠ .notCalled then w.addWrite record .raised
  else
    match w.worker with
    -- `start the Parquet writer before writing`
    | .absent => w.addWrite record .raised
    -- `_raise_worker_failure`
    | .failed => w.addWrite record .raised
    | _ =>
      if h : w.queue.full = false then
        { w with
          queue := w.queue.putNowait (.submission { write := w.writes.length, record }) h }.addWrite
            record .returned
      else w.addWrite record (.blocked .created)

/-- The task putting the record of a blocked write runs: it puts, or parks. -/
def runPut (w : AsyncPartitionedParquetWriter R P) (id : Nat) (record : R) :
    AsyncPartitionedParquetWriter R P :=
  if h : w.queue.full = false then
    { w with queue := w.queue.putNowait (.submission { write := id, record }) h }.setWrite id
      { record, phase := .blocked .done }
  else
    { w with queue := w.queue.park (.write id) }.setWrite id { record, phase := .blocked .waiting }

/-- Putting the sentinel, in the lifecycle task or in its put task. -/
def putStop (w : AsyncPartitionedParquetWriter R P) (entered parked : ClosePhase) :
    AsyncPartitionedParquetWriter R P :=
  if h : w.queue.full = false then { w with queue := w.queue.putNowait .stop h, close := entered }
  else if parked = .blocked .waiting then { w with queue := w.queue.park .stop, close := parked }
  else { w with close := parked }

def step (w : AsyncPartitionedParquetWriter R P) : WriterInput R → AsyncPartitionedParquetWriter R P
  | .start =>
    if w.close = .notCalled ∧ w.worker matches .absent then { w with worker := .getting } else w
  | .write record => w.write record
  | .runPut id =>
    match w.writes[id]? with
    | some { record, phase := .blocked .created } => w.runPut id record
    | some { record, phase := .blocked .woken } => w.runPut id record
    | _ => w
  | .resumeWrite id =>
    match w.writes[id]? with
    | some { record, phase := .blocked put } =>
      -- a worker that is done fails the write, whether or not its put is done
      if w.workerDone then w.setWrite id { record, phase := .raised }
      else if put = .done then w.setWrite id { record, phase := .returned }
      else w
    | _ => w
  | .getItem =>
    match w.worker, w.queue.getNowait with
    | .getting, some (.stop, woken, queue) => ({ w with queue }.wake woken).flush partition true
    | .getting, some (.submission s, woken, queue) =>
      let w := { w with queue, batch := w.batch ++ [s] }.wake woken
      if w.batchRows ≤ w.batch.length then w.flush partition false else w
    | _, _ => w
  | .flushTimeout =>
    match w.worker with
    | .getting => w.flush partition false
    | _ => w
  | .fileWritten =>
    match w.worker with
    | .flushing (group :: groups) stopping =>
      { w with
        files := w.files ++ [group]
        worker :=
          if groups = [] then (if stopping then .finished else .getting)
          else .flushing groups stopping }
    | _ => w
  | .fileFails =>
    match w.worker with
    | .flushing _ _ => { w with worker := .failed }
    | _ => w
  | .close => if w.close = .notCalled then { w with close := .requested } else w
  | .runClose =>
    if w.close = .requested then
      match w.worker with
      | .absent => { w with close := .returned }
      | .failed => { w with close := .raised }
      | _ => w.putStop .awaitingWorker (.blocked .created)
    else w
  | .runStopPut =>
    match w.close with
    | .blocked .created => w.putStop (.blocked .done) (.blocked .waiting)
    | .blocked .woken => w.putStop (.blocked .done) (.blocked .waiting)
    | _ => w
  | .resumeClose =>
    match w.close with
    | .blocked put =>
      match w.worker with
      | .failed => { w with close := .raised }
      | .finished => { w with close := if put = .done then .awaitingWorker else .raised }
      | _ => if put = .done then { w with close := .awaitingWorker } else w
    | _ => w
  | .returnClose =>
    if w.close = .awaitingWorker then
      match w.worker with
      | .finished => { w with close := .returned }
      | .failed => { w with close := .raised }
      | _ => w
    else w

end AsyncPartitionedParquetWriter

end Cvf
