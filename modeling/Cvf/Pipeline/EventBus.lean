/-
# Cvf.Pipeline.EventBus — the fan-out of normalized events to the consumers' queues.

`publish` walks the registered consumers in order.  A queue with a free slot takes the event at once
(`put_nowait`); on a full one the call creates a task that runs `queue.put` and waits for it.  Each
consumer is a task of its own: it takes an item, runs its handler and reports `task_done`.  `drain`
starts one `queue.join()` task for each consumer and returns when all of them have returned.

An input of the machine names the task that runs next and takes it to its next suspension, so every
schedule of the event loop is a run; `take` and `finishHandling` are the two halves of a consumer's
turn, with the handler's own suspensions between them.  No call is cancelled, no handler raises and the
bus is not closed.  `entered`, `started` and `before` record what entered a queue, the order in which the
publish calls started, and the calls that had returned when a drain started.
-/
import Cvf.Library.AsyncQueue
import Cvf.Library.Run

namespace Cvf

open Cvf.Library

variable {ι E : Type*} [DecidableEq ι]

/-- The event a publish call puts on a queue. -/
structure BusItem (E : Type*) where
  call : Nat
  event : E
  deriving DecidableEq, Repr

/-- `_ConsumerRuntime`, with the two counters of `asyncio.Queue.join`. -/
structure ConsumerRuntime (E : Type*) where
  queue : AsyncQueue Nat (BusItem E)
  unfinishedTasks : Nat := 0
  /-- The item whose handler is running. -/
  handling : Option (BusItem E) := none
  handled : List (BusItem E) := []
  entered : List (BusItem E) := []

/-- A call of `publish`: the consumers it has still to walk, the first of them the one whose queue is
full, and the task putting on that queue.  The call has returned when none are left. -/
structure PublishCall (ι E : Type*) where
  event : E
  remaining : List ι
  put : PutPhase

/-- Where one `queue.join()` task of a drain stands. -/
inductive JoinPhase where
  | created
  | waiting
  | done
  deriving DecidableEq, Repr

/-- A call of `drain`. -/
structure DrainCall (ι : Type*) where
  before : List Nat
  joins : ι → JoinPhase
  returned : Bool

/-- `NormalizedEventBus`, started, with the calls made on it. -/
structure NormalizedEventBus (ι E : Type*) where
  /-- The registered names, in order. -/
  names : List ι
  names_nodup : names.Nodup
  consumers : ι → ConsumerRuntime E
  calls : Nat → Option (PublishCall ι E) := fun _ => none
  started : List Nat := []
  drains : Nat → Option (DrainCall ι) := fun _ => none

/-- What `register` has accepted: no consumer twice, and every queue bounded by a positive capacity. -/
structure Registration (ι : Type*) where
  names : List ι
  names_nodup : names.Nodup
  capacity : ι → Nat
  capacity_pos : ∀ name, 0 < capacity name

/-- The next task to run. -/
inductive BusInput (ι E : Type*) where
  | publish (call : Nat) (event : E)
  /-- The task putting on the full queue a call waits for. -/
  | runPut (call : Nat)
  /-- The call, after its put is done. -/
  | resumePublish (call : Nat)
  | take (name : ι)
  | finishHandling (name : ι)
  | drain (drain : Nat)
  | runJoin (drain : Nat) (name : ι)
  | returnDrain (drain : Nat)

/-! ## The queues -/

/-- `queue.put_nowait(item)`. -/
def ConsumerRuntime.putNowait (runtime : ConsumerRuntime E) (item : BusItem E)
    (h : runtime.queue.full = false) : ConsumerRuntime E :=
  { runtime with
    queue := runtime.queue.putNowait item h
    unfinishedTasks := runtime.unfinishedTasks + 1
    entered := runtime.entered ++ [item] }

/-- `queue.get()` with an item there, up to the start of the handler. -/
def ConsumerRuntime.take (runtime : ConsumerRuntime E) :
    Option (Option Nat × ConsumerRuntime E) :=
  match runtime.handling, runtime.queue.getNowait with
  | none, some (item, woken, queue) =>
    some (woken, { runtime with queue, handling := some item })
  | _, _ => none

/-- The handler returns, and `queue.task_done()`. -/
def ConsumerRuntime.finishHandling (runtime : ConsumerRuntime E) : ConsumerRuntime E :=
  match runtime.handling with
  | none => runtime
  | some item =>
    { runtime with
      handling := none
      handled := runtime.handled ++ [item]
      unfinishedTasks := runtime.unfinishedTasks - 1 }

/-- `queue.join()`, run for the first time: it returns at once when nothing is unfinished. -/
def JoinPhase.run (phase : JoinPhase) (unfinishedTasks : Nat) : JoinPhase :=
  match phase with
  | .created => if unfinishedTasks = 0 then .done else .waiting
  | phase => phase

/-- `task_done` on the last unfinished item wakes every join that waits on the queue. -/
def JoinPhase.release (phase : JoinPhase) (unfinishedTasks : Nat) : JoinPhase :=
  if phase = .waiting ∧ unfinishedTasks = 0 then .done else phase

namespace NormalizedEventBus

/-- The bus after `start`: every queue is empty. -/
def new (registered : Registration ι) : NormalizedEventBus ι E :=
  { names := registered.names
    names_nodup := registered.names_nodup
    consumers := fun name =>
      { queue := AsyncQueue.new (registered.capacity name) (registered.capacity_pos name) } }

def setConsumer (bus : NormalizedEventBus ι E) (name : ι) (runtime : ConsumerRuntime E) :
    NormalizedEventBus ι E :=
  { bus with consumers := Function.update bus.consumers name runtime }

def setCall (bus : NormalizedEventBus ι E) (id : Nat) (call : PublishCall ι E) :
    NormalizedEventBus ι E :=
  { bus with calls := Function.update bus.calls id (some call) }

/-- The walk of `publish` over the consumers left, up to the first full queue. -/
def offer (bus : NormalizedEventBus ι E) (id : Nat) (event : E) : List ι → NormalizedEventBus ι E
  | [] => bus.setCall id { event, remaining := [], put := .done }
  | name :: names =>
    if h : (bus.consumers name).queue.full = false then
      (bus.setConsumer name ((bus.consumers name).putNowait { call := id, event } h)).offer id event
        names
    else bus.setCall id { event, remaining := name :: names, put := .created }

/-- The task putting on the full queue of `name` runs: it puts, or parks. -/
def runPut (bus : NormalizedEventBus ι E) (id : Nat) (call : PublishCall ι E) (name : ι) :
    NormalizedEventBus ι E :=
  match call.put with
  | .waiting => bus
  | .done => bus
  | _ =>
    if h : (bus.consumers name).queue.full = false then
      (bus.setConsumer name
        ((bus.consumers name).putNowait { call := id, event := call.event } h)).setCall id
          { call with put := .done }
    else
      (bus.setConsumer name
        { bus.consumers name with queue := (bus.consumers name).queue.park id }).setCall id
          { call with put := .waiting }

/-- A freed slot wakes the putter parked longest. -/
def wake (bus : NormalizedEventBus ι E) (woken : Option Nat) : NormalizedEventBus ι E :=
  match woken with
  | none => bus
  | some id =>
    match bus.calls id with
    | some { event, remaining, put := .waiting } => bus.setCall id { event, remaining, put := .woken }
    | _ => bus

def callReturned (bus : NormalizedEventBus ι E) (id : Nat) : Bool :=
  match bus.calls id with
  | some call => call.remaining.isEmpty
  | none => false

def step (bus : NormalizedEventBus ι E) : BusInput ι E → NormalizedEventBus ι E
  | .publish id event =>
    match bus.calls id with
    | some _ => bus
    | none => { bus with started := bus.started ++ [id] }.offer id event bus.names
  | .runPut id =>
    match bus.calls id with
    | some { event, remaining := name :: names, put } =>
      bus.runPut id { event, remaining := name :: names, put } name
    | _ => bus
  | .resumePublish id =>
    match bus.calls id with
    | some { event, remaining := _ :: names, put := .done } => bus.offer id event names
    | _ => bus
  | .take name =>
    match (bus.consumers name).take with
    | none => bus
    | some (woken, runtime) => (bus.setConsumer name runtime).wake woken
  | .finishHandling name =>
    let runtime := (bus.consumers name).finishHandling
    { bus.setConsumer name runtime with
      drains := fun d => (bus.drains d).map fun drain =>
        { drain with
          joins := Function.update drain.joins name
            ((drain.joins name).release runtime.unfinishedTasks) } }
  | .drain d =>
    match bus.drains d with
    | some _ => bus
    | none =>
      { bus with
        drains := Function.update bus.drains d (some
          { before := bus.started.filter bus.callReturned
            joins := fun _ => .created
            returned := false }) }
  | .runJoin d name =>
    { bus with
      drains := Function.update bus.drains d ((bus.drains d).map fun drain =>
        { drain with
          joins := Function.update drain.joins name
            ((drain.joins name).run (bus.consumers name).unfinishedTasks) }) }
  | .returnDrain d =>
    { bus with
      drains := Function.update bus.drains d ((bus.drains d).map fun drain =>
        { drain with
          returned := drain.returned || bus.names.all fun name => drain.joins name = .done }) }

end NormalizedEventBus

end Cvf
