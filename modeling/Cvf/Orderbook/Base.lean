/-
# Cvf.Orderbook.Base — the observable state shared by the venue books.

The statuses and transitions of a local book (`cvf.orderbook.base`), and the record every book
operation returns.
-/
import Cvf.Models

namespace Cvf

inductive BookStatus where
  | buffering
  | live
  | resyncRequired
  deriving DecidableEq, Repr

inductive BookTransition where
  | buffered
  | snapshotApplied
  | updateApplied
  | staleIgnored
  | retrySnapshot
  | sequenceGap
  | checksumMismatch
  | bufferOverflow
  | resyncStarted
  deriving DecidableEq, Repr

structure BookApplyResult where
  transition : BookTransition
  status : BookStatus
  generation : Nat
  sequenceId : Option Int
  bufferedEvents : Nat
  needsSnapshot : Bool
  reason : Option String := none
  deriving DecidableEq, Repr

end Cvf
