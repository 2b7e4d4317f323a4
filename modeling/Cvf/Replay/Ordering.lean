/-
# Cvf.Replay.Ordering — the stable order of replayed records.

Python compares the key tuple column by column, and text by code points; so does the lexicographic
product of the linear orders on `Int` and `String`.
-/
import Cvf.Storage.Raw

namespace Cvf

abbrev RecordKey :=
  Nat ×ₗ Int ×ₗ Int ×ₗ Nat ×ₗ String ×ₗ String ×ₗ String ×ₗ String ×ₗ String

inductive ReplayOrder where
  | eventTime
  | receiveTime
  deriving DecidableEq, Repr

/-- `replay_timestamp` -/
def replayTimestamp (r : RawMarketRecord) (order : ReplayOrder) : Int :=
  match order, r.exchangeTimestamp with
  | .eventTime, some timestamp => timestamp
  | _, _ => r.localReceiveTimestamp

def recordPriority (r : RawMarketRecord) : Nat :=
  if r.channel = "instrument_metadata" then 0
  else if r.messageKind = featureTimelineEndMessageKind then 2
  else 1

/-- The eighth column: the sequence id as text, empty when there is none. -/
def sequenceKey (r : RawMarketRecord) : String := (r.sequenceId.map SequenceId.str).getD ""

/-- `stable_record_key` -/
def stableRecordKey (order : ReplayOrder) (r : RawMarketRecord) : RecordKey :=
  toLex (recordPriority r, toLex (replayTimestamp r order, toLex (r.localReceiveTimestamp,
    toLex (r.connectionGeneration, toLex (r.exchange.value, toLex (r.symbol, toLex (r.channel,
      toLex (sequenceKey r, r.recordId.str))))))))

theorem sequenceKey_withTextSequence (r : RawMarketRecord) :
    sequenceKey r.withTextSequence = sequenceKey r := by
  unfold sequenceKey RawMarketRecord.withTextSequence
  rw [Option.map_map]
  rfl

/-- The key does not see whether a sequence id is an integer or its text. -/
theorem stableRecordKey_withTextSequence (order : ReplayOrder) (r : RawMarketRecord) :
    stableRecordKey order r.withTextSequence = stableRecordKey order r := by
  unfold stableRecordKey
  rw [sequenceKey_withTextSequence]
  rfl

theorem Uuid.str_injective {u v : Uuid} (h : u.str = v.str) : u = v := by
  have hparse := parse_str u
  rw [h, parse_str] at hparse
  exact (Except.ok.inj hparse).symm

/-- Records with the same key have the same id. -/
theorem recordId_eq_of_stableRecordKey_eq {order : ReplayOrder} {r s : RawMarketRecord}
    (h : stableRecordKey order r = stableRecordKey order s) : r.recordId = s.recordId := by
  unfold stableRecordKey at h
  simp only [toLex_inj, Prod.mk.injEq] at h
  exact Uuid.str_injective h.2.2.2.2.2.2.2.2

end Cvf
