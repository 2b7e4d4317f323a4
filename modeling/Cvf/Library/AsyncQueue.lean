/-
# Cvf.Library.AsyncQueue — a bounded FIFO queue with blocked putters.

The queue of a cooperative event loop.  `put` on a full queue parks the putting task; taking an item
wakes the task parked longest, which runs at some later time and parks again when the slot has been
taken meanwhile by a `putNowait`.  `PutPhase` is where one putting task stands, and `runPut` what the
task does when the loop runs it.  Which task runs next is left to the user of the queue.
-/
import Mathlib

namespace Cvf.Library

variable {τ α : Type*}

/-- Where a task that puts one item stands. -/
inductive PutPhase where
  /-- The task has not run yet. -/
  | created
  /-- Parked in the list of putters. -/
  | waiting
  /-- Taken off the list of putters, and not run since. -/
  | woken
  | done
  deriving DecidableEq, Repr

structure AsyncQueue (τ α : Type*) where
  maxsize : Nat
  items : List α
  /-- The parked putters, longest first. -/
  putters : List τ
  maxsize_pos : 0 < maxsize
  within : items.length ≤ maxsize

namespace AsyncQueue

def new (maxsize : Nat) (maxsize_pos : 0 < maxsize) : AsyncQueue τ α :=
  { maxsize, items := [], putters := [], maxsize_pos, within := Nat.zero_le _ }

def full (q : AsyncQueue τ α) : Bool := q.maxsize ≤ q.items.length

theorem length_lt_of_not_full {q : AsyncQueue τ α} (h : q.full = false) :
    q.items.length < q.maxsize := by
  simpa [full] using h

def putNowait (q : AsyncQueue τ α) (item : α) (h : q.full = false) : AsyncQueue τ α :=
  { q with
    items := q.items ++ [item]
    within := by
      have hlt := length_lt_of_not_full h
      simpa using hlt }

def park (q : AsyncQueue τ α) (task : τ) : AsyncQueue τ α :=
  { q with putters := q.putters ++ [task] }

/-- A parked task is cancelled. -/
def unpark [DecidableEq τ] (q : AsyncQueue τ α) (task : τ) : AsyncQueue τ α :=
  { q with putters := q.putters.filter (· ≠ task) }

/-- The item at the head, the putter its slot wakes, and the queue left behind. -/
def getNowait (q : AsyncQueue τ α) : Option (α × Option τ × AsyncQueue τ α) :=
  match h : q.items with
  | [] => none
  | item :: items =>
    some (item, q.putters.head?,
      { q with
        items
        putters := q.putters.tail
        within := by
          have hwithin := q.within
          rw [h, List.length_cons] at hwithin
          omega })

@[simp]
theorem items_new (maxsize : Nat) (h : 0 < maxsize) :
    (new maxsize h : AsyncQueue τ α).items = [] := rfl

@[simp]
theorem items_putNowait (q : AsyncQueue τ α) (item : α) (h : q.full = false) :
    (q.putNowait item h).items = q.items ++ [item] := rfl

@[simp]
theorem items_park (q : AsyncQueue τ α) (task : τ) : (q.park task).items = q.items := rfl

@[simp]
theorem items_unpark [DecidableEq τ] (q : AsyncQueue τ α) (task : τ) :
    (q.unpark task).items = q.items := rfl

theorem items_of_getNowait {q q' : AsyncQueue τ α} {item : α} {task : Option τ}
    (h : q.getNowait = some (item, task, q')) : q.items = item :: q'.items := by
  unfold getNowait at h
  split at h
  · cases h
  · rename_i hitems
    obtain ⟨rfl, -, rfl⟩ := Prod.mk.inj (Option.some.inj h) |>.imp_right Prod.mk.inj
    exact hitems

end AsyncQueue

end Cvf.Library
