/-
# Cvf.Storage.FirstContent — a write is answered by the first content of its id.

A writer without a cache takes the same steps (`Sound.step_withoutCache`), so the capacity does not show in
any call.
-/
import Cvf.Storage.FeatureReader
import Cvf.Storage.WriterInvariant

namespace Cvf

open Cvf.Library

variable {F : Type}

namespace AsyncFeatureParquetWriter

variable {w : AsyncFeatureParquetWriter F}

/-! ## Without the cache -/

/-- The same writer with no cache before its index. -/
def withoutCache (w : AsyncFeatureParquetWriter F) : AsyncFeatureParquetWriter F :=
  { w with store := w.store.withoutCache }

@[simp]
theorem worker_withoutCache (w : AsyncFeatureParquetWriter F) : w.withoutCache.worker = w.worker := rfl

@[simp]
theorem inFlight_withoutCache (w : AsyncFeatureParquetWriter F) : w.withoutCache.inFlight = w.inFlight :=
  rfl

@[simp]
theorem close_withoutCache (w : AsyncFeatureParquetWriter F) : w.withoutCache.close = w.close := rfl

@[simp]
theorem queue_withoutCache (w : AsyncFeatureParquetWriter F) : w.withoutCache.queue = w.queue := rfl

@[simp]
theorem disk_withoutCache (w : AsyncFeatureParquetWriter F) : w.withoutCache.disk = w.disk := rfl

theorem ite_withoutCache {c : Prop} [Decidable c] {a b a' b' : AsyncFeatureParquetWriter F}
    (ha : a' = a.withoutCache) (hb : b' = b.withoutCache) :
    (if c then a' else b') = (if c then a else b).withoutCache := by
  split_ifs
  · exact ha
  · exact hb

theorem dite_withoutCache {c : Prop} [Decidable c] {a a' : c → AsyncFeatureParquetWriter F}
    {b b' : ¬ c → AsyncFeatureParquetWriter F} (ha : ∀ h, a' h = (a h).withoutCache)
    (hb : ∀ h, b' h = (b h).withoutCache) :
    dite c a' b' = (dite c a b).withoutCache := by
  by_cases h : c
  · rw [dif_pos h, dif_pos h, ha]
  · rw [dif_neg h, dif_neg h, hb]

theorem withdraw_withoutCache (w : AsyncFeatureParquetWriter F) (e : FeatureEnvelope F)
    (outcome : FeatureWriteOutcome) :
    w.withoutCache.withdraw e outcome = (w.withdraw e outcome).withoutCache := by
  unfold AsyncFeatureParquetWriter.withdraw withoutCache endCall
  dsimp only
  rw [FeatureDeduplication.rollbackReservation_withoutCache]

theorem abandon_withoutCache (w : AsyncFeatureParquetWriter F) (e : FeatureEnvelope F) (put : PutPhase)
    (outcome : FeatureWriteOutcome) :
    w.withoutCache.abandon e put outcome = (w.abandon e put outcome).withoutCache :=
  ite_withoutCache rfl (w.withdraw_withoutCache e outcome)

theorem runPut_withoutCache (w : AsyncFeatureParquetWriter F) (e : FeatureEnvelope F) :
    w.withoutCache.runPut e = (w.runPut e).withoutCache :=
  dite_withoutCache (fun _ => rfl) fun _ => rfl

theorem resumeWrite_withoutCache (w : AsyncFeatureParquetWriter F) (e : FeatureEnvelope F)
    (put : PutPhase) : w.withoutCache.resumeWrite e put = (w.resumeWrite e put).withoutCache := by
  unfold AsyncFeatureParquetWriter.resumeWrite
  rw [worker_withoutCache]
  cases w.worker with
  | failed error => exact w.abandon_withoutCache e put _
  | finished => exact w.abandon_withoutCache e put _
  | _ => exact ite_withoutCache rfl rfl

theorem flush_withoutCache (w : AsyncFeatureParquetWriter F) (stopping : Bool) :
    w.withoutCache.flush stopping = (w.flush stopping).withoutCache :=
  ite_withoutCache rfl rfl

theorem wake_withoutCache (w : AsyncFeatureParquetWriter F) (woken : Option FeaturePutter) :
    w.withoutCache.wake woken = (w.wake woken).withoutCache := by
  cases woken with
  | none => rfl
  | some putter =>
    cases putter with
    | stop => exact ite_withoutCache rfl rfl
    | write =>
      unfold AsyncFeatureParquetWriter.wake
      dsimp only
      rw [inFlight_withoutCache]
      cases w.inFlight with
      | none => rfl
      | some flight =>
        obtain ⟨e, put⟩ := flight
        cases put <;> rfl

theorem putStop_withoutCache (w : AsyncFeatureParquetWriter F) (entered parked : ClosePhase) :
    w.withoutCache.putStop entered parked = (w.putStop entered parked).withoutCache :=
  dite_withoutCache (fun _ => rfl) fun _ => ite_withoutCache rfl rfl

theorem fileWritten_withoutCache (w : AsyncFeatureParquetWriter F) (envelopes : List (FeatureEnvelope F))
    (groups : List (FeaturePartition × List (FeatureEnvelope F))) (stopping : Bool) :
    w.withoutCache.fileWritten envelopes groups stopping =
      (w.fileWritten envelopes groups stopping).withoutCache :=
  ite_withoutCache rfl rfl

/-- With the invariant a reservation gives one answer with any cache. -/
theorem Sound.reserveAndPut_withoutCache (h : w.Sound) (hrun : w.Running) (hfree : w.inFlight = none)
    (e : FeatureEnvelope F) (callback : Option String) :
    w.withoutCache.reserveAndPut e callback = (w.reserveAndPut e callback).withoutCache := by
  have hreserve : w.withoutCache.store.reserve e =
      ((w.store.reserve e).1, (w.store.reserve e).2.withoutCache) :=
    (h.holds hrun hfree).reserve_withoutCache e
  unfold AsyncFeatureParquetWriter.reserveAndPut
  dsimp only
  rw [hreserve]
  cases (w.store.reserve e).1 with
  | conflict => rfl
  | known => rfl
  | reserved =>
    refine dite_withoutCache (fun _ => rfl) fun _ => ?_
    cases callback with
    | none => rfl
    | some error => exact withdraw_withoutCache { w with store := (w.store.reserve e).2 } e _

theorem Sound.write_withoutCache (h : w.Sound) (codec : FeatureCodec F) (versions : WriterVersions)
    (snapshot : PersistableFeatureSnapshot F) (callback : Option String) :
    w.withoutCache.write codec versions snapshot callback =
      (w.write codec versions snapshot callback).withoutCache := by
  unfold AsyncFeatureParquetWriter.write
  rw [close_withoutCache, worker_withoutCache, inFlight_withoutCache]
  split_ifs with hover hclosing hheld
  · rfl
  · rfl
  · cases w.worker with
    | absent => rfl
    | _ => rfl
  · have hclose : w.close = .notCalled := not_not.mp hclosing
    have hfree : w.inFlight = none := by simpa using hheld
    have hgo : Working w.worker →
        w.withoutCache.enterWrite codec versions snapshot callback =
          (w.enterWrite codec versions snapshot callback).withoutCache := by
      intro hworking
      have hrun : w.Running := by
        refine ⟨hworking, ?_, ?_⟩ <;> rw [hclose] <;> exact fun h => by cases h
      unfold enterWrite
      cases envelope codec versions snapshot with
      | error text => rfl
      | ok e => exact h.reserveAndPut_withoutCache hrun hfree e callback
    cases hworker : w.worker with
    | absent => rfl
    | failed error => rfl
    | _ => exact hgo (by rw [hworker]; exact trivial)

theorem takeItem_withoutCache (w : AsyncFeatureParquetWriter F)
    (queue : AsyncQueue FeaturePutter (FeatureQueueItem F)) (woken : Option FeaturePutter)
    (item : FeatureQueueItem F) :
    w.withoutCache.takeItem queue woken item = (w.takeItem queue woken item).withoutCache := by
  cases item with
  | stop =>
    have hwake : wake { w.withoutCache with queue } woken =
        (wake { w with queue } woken).withoutCache := wake_withoutCache { w with queue } woken
    exact (congrArg (flush · true) hwake).trans (flush_withoutCache _ true)
  | submission e =>
    have hwake : wake { w.withoutCache with queue, batch := w.batch ++ [e] } woken =
        (wake { w with queue, batch := w.batch ++ [e] } woken).withoutCache :=
      wake_withoutCache { w with queue, batch := w.batch ++ [e] } woken
    show (if w.batchRows ≤ (wake { w.withoutCache with queue, batch := w.batch ++ [e] } woken).batch.length
      then (wake { w.withoutCache with queue, batch := w.batch ++ [e] } woken).flush false
      else wake { w.withoutCache with queue, batch := w.batch ++ [e] } woken) = _
    rw [hwake]
    exact ite_withoutCache (flush_withoutCache _ false) rfl

/-- Every step does with a cache what it does without. -/
theorem Sound.step_withoutCache (h : w.Sound) (codec : FeatureCodec F) (versions : WriterVersions)
    (input : FeatureWriterInput F) :
    w.withoutCache.step codec versions input = (w.step codec versions input).withoutCache := by
  cases input with
  | write snapshot callback => exact h.write_withoutCache codec versions snapshot callback
  | start =>
    unfold AsyncFeatureParquetWriter.step
    dsimp only
    rw [worker_withoutCache, close_withoutCache, disk_withoutCache]
    cases w.worker with
    | absent =>
      cases rebuildFeatureIndex w.disk with
      | error text => rfl
      | ok index => exact ite_withoutCache rfl rfl
    | _ => rfl
  | runPut =>
    unfold AsyncFeatureParquetWriter.step
    dsimp only
    rw [inFlight_withoutCache]
    cases w.inFlight with
    | none => rfl
    | some flight =>
      obtain ⟨e, put⟩ := flight
      cases put with
      | created => exact w.runPut_withoutCache e
      | woken => exact w.runPut_withoutCache e
      | _ => rfl
  | resumeWrite =>
    unfold AsyncFeatureParquetWriter.step
    dsimp only
    rw [inFlight_withoutCache]
    cases w.inFlight with
    | none => rfl
    | some flight => exact w.resumeWrite_withoutCache flight.1 flight.2
  | cancelWrite =>
    unfold AsyncFeatureParquetWriter.step
    dsimp only
    rw [inFlight_withoutCache]
    cases w.inFlight with
    | none => rfl
    | some flight => exact w.abandon_withoutCache flight.1 flight.2 _
  | getItem =>
    unfold AsyncFeatureParquetWriter.step
    dsimp only
    rw [worker_withoutCache, queue_withoutCache]
    cases w.worker with
    | getting =>
      cases w.queue.getNowait with
      | none => rfl
      | some taken => exact w.takeItem_withoutCache taken.2.2 taken.2.1 taken.1
    | _ => rfl
  | flushTimeout =>
    unfold AsyncFeatureParquetWriter.step
    dsimp only
    rw [worker_withoutCache]
    cases w.worker with
    | getting => exact w.flush_withoutCache false
    | _ => rfl
  | fileWritten =>
    unfold AsyncFeatureParquetWriter.step
    dsimp only
    rw [worker_withoutCache]
    cases w.worker with
    | flushing groups stopping =>
      cases groups with
      | nil => rfl
      | cons group groups => exact w.fileWritten_withoutCache group.2 groups stopping
    | _ => rfl
  | fileFails error =>
    unfold AsyncFeatureParquetWriter.step
    dsimp only
    rw [worker_withoutCache]
    cases w.worker with
    | _ => rfl
  | close => exact ite_withoutCache rfl rfl
  | runClose =>
    unfold AsyncFeatureParquetWriter.step
    dsimp only
    rw [worker_withoutCache, close_withoutCache, inFlight_withoutCache]
    refine ite_withoutCache ?_ rfl
    cases w.worker with
    | absent => rfl
    | failed error => rfl
    | _ => exact w.putStop_withoutCache _ _
  | runStopPut =>
    unfold AsyncFeatureParquetWriter.step
    dsimp only
    rw [close_withoutCache]
    cases w.close with
    | blocked put =>
      cases put with
      | created => exact w.putStop_withoutCache _ _
      | woken => exact w.putStop_withoutCache _ _
      | _ => rfl
    | _ => rfl
  | resumeClose =>
    unfold AsyncFeatureParquetWriter.step
    dsimp only
    rw [close_withoutCache, worker_withoutCache]
    cases w.close with
    | blocked put =>
      cases w.worker with
      | failed error => rfl
      | _ => exact ite_withoutCache rfl rfl
    | _ => rfl
  | returnClose =>
    unfold AsyncFeatureParquetWriter.step
    dsimp only
    rw [close_withoutCache, worker_withoutCache]
    cases w.close with
    | awaitingWorker => cases w.worker <;> rfl
    | _ => rfl
  | restart published =>
    show w.withoutCache.restart published = (w.restart published).withoutCache
    unfold AsyncFeatureParquetWriter.restart
    rw [worker_withoutCache]
    rfl

theorem Sound.run_withoutCache (h : w.Sound) (codec : FeatureCodec F) (versions : WriterVersions)
    (inputs : List (FeatureWriterInput F)) :
    w.withoutCache.run codec versions inputs = (w.run codec versions inputs).withoutCache := by
  induction inputs generalizing w with
  | nil => rfl
  | cons input inputs ih =>
    show (w.withoutCache.step codec versions input).run codec versions inputs = _
    rw [h.step_withoutCache codec versions input, ih (h.step codec versions input)]
    rfl

/-- In a running writer with the lock free, a write ends as the first content of its id says; where that is
`ACCEPTED` and the queue is full, it waits for a slot. -/
theorem Sound.write_outcome (h : w.Sound) (hrun : w.Running) (hclose : w.close = .notCalled)
    (hfree : w.inFlight = none) {codec : FeatureCodec F} {versions : WriterVersions}
    {snapshot : PersistableFeatureSnapshot F} {e : FeatureEnvelope F}
    (henvelope : envelope codec versions snapshot = .ok e) :
    let first := firstContent w.found w.calls e.featureSnapshotId
    let after := w.step codec versions (.write snapshot none)
    (first ≠ none → after.calls =
        w.calls ++ [.ended e (firstOutcome first e.contentIdentity) false] ∧ after.inFlight = none) ∧
      (first = none → w.queue.full = false →
        after.calls = w.calls ++ [.ended e .accepted true] ∧ after.inFlight = none) ∧
      (first = none → w.queue.full = true →
        after.calls = w.calls ∧ after.inFlight = some (e, .created)) := by
  have hafter : w.step codec versions (.write snapshot none) = w.reserveAndPut e none := by
    show w.write codec versions snapshot none = _
    have henter : w.enterWrite codec versions snapshot none = w.reserveAndPut e none := by
      unfold enterWrite
      rw [henvelope]
    unfold AsyncFeatureParquetWriter.write
    rw [if_neg (by rw [hclose]; decide), if_neg (by rw [hclose]; decide), hfree]
    have hworking := hrun.1
    cases hworker : w.worker with
    | absent => exact (ne_absent_of_working hworking hworker).elim
    | failed error => exact (ne_failed_of_working hworking error hworker).elim
    | _ => exact henter
  dsimp only
  rw [hafter]
  unfold AsyncFeatureParquetWriter.reserveAndPut
  dsimp only
  rcases h.reserve_spec hrun hfree e with ⟨hanswer, hfirst, -⟩ | ⟨hanswer, hfirst, -⟩ |
      ⟨hanswer, ⟨first, hne, hfirst⟩, -⟩
  · rw [hanswer, hfirst]
    refine ⟨fun h => absurd rfl h, ?_, ?_⟩
    · intro _ hfull
      dsimp only
      rw [dif_pos hfull]
      exact ⟨rfl, rfl⟩
    · intro _ hfull
      dsimp only
      rw [dif_neg (by rw [hfull]; decide)]
      exact ⟨rfl, rfl⟩
  · rw [hanswer, hfirst, firstOutcome_same]
    exact ⟨fun _ => ⟨rfl, rfl⟩, fun h => absurd h (Option.some_ne_none _),
      fun h => absurd h (Option.some_ne_none _)⟩
  · rw [hanswer, hfirst, firstOutcome_other hne]
    exact ⟨fun _ => ⟨rfl, rfl⟩, fun h => absurd h (Option.some_ne_none _),
      fun h => absurd h (Option.some_ne_none _)⟩

end AsyncFeatureParquetWriter

open AsyncFeatureParquetWriter in
/-- Over every root, every schedule and every capacity: a write that ends as `ACCEPTED`, `DEDUPLICATED` or
with a conflict ends as the first content of its id says; a running writer tells every write so, unless
it waits for a slot; and with another capacity the calls are the same. -/
theorem writes_answer_first_content (codec : FeatureCodec F) (versions : WriterVersions)
    (batchRows queueCapacity : Nat) (queueCapacity_pos : 0 < queueCapacity) (capacity : Nat)
    (disk : List (FeatureEnvelope F)) (inputs : List (FeatureWriterInput F)) :
    let w := (new batchRows queueCapacity queueCapacity_pos capacity disk).run codec versions inputs
    (∀ before e outcome enqueued after, w.calls = before ++ .ended e outcome enqueued :: after →
      outcome = .accepted ∨ outcome = .deduplicated ∨ outcome = .raised .conflict →
      outcome = firstOutcome (firstContent w.found before e.featureSnapshotId) e.contentIdentity) ∧
    (∀ before e outcome after, w.calls = before ++ .ended e outcome true :: after →
      firstContent w.found before e.featureSnapshotId = none) ∧
    (w.Running → w.close = .notCalled → w.inFlight = none →
      ∀ snapshot e, envelope codec versions snapshot = .ok e →
        let first := firstContent w.found w.calls e.featureSnapshotId
        let after := w.step codec versions (.write snapshot none)
        (first ≠ none → after.calls =
            w.calls ++ [.ended e (firstOutcome first e.contentIdentity) false] ∧
          after.inFlight = none) ∧
        (first = none → w.queue.full = false →
          after.calls = w.calls ++ [.ended e .accepted true] ∧ after.inFlight = none) ∧
        (first = none → w.queue.full = true →
          after.calls = w.calls ∧ after.inFlight = some (e, .created))) ∧
    (∀ capacity', ((new batchRows queueCapacity queueCapacity_pos capacity' disk).run codec versions
      inputs).calls = w.calls) := by
  have hsound : ∀ capacity,
      ((new batchRows queueCapacity queueCapacity_pos capacity disk).run codec versions inputs).Sound :=
    fun capacity => (sound_new _ _ _ _ _).run codec versions inputs
  refine ⟨?_, ?_, ?_, ?_⟩
  · intro before e outcome enqueued after hcalls houtcome
    rcases (hsound capacity).explained before e outcome enqueued after hcalls with ⟨heq, -⟩ |
        ⟨-, haccepted, hdeduplicated, hconflict⟩
    · exact heq
    · rcases houtcome with h | h | h
      · exact absurd h haccepted
      · exact absurd h hdeduplicated
      · exact absurd h hconflict
  · intro before e outcome after hcalls
    rcases (hsound capacity).explained before e outcome true after hcalls with ⟨-, hiff⟩ | ⟨hnone, -⟩
    · exact hiff.mp rfl
    · exact hnone
  · intro hrun hclose hfree snapshot e henvelope
    exact (hsound capacity).write_outcome hrun hclose hfree henvelope
  · -- both runs have the calls of the run without a cache
    intro capacity'
    have hcalls : ∀ capacity,
        ((new batchRows queueCapacity queueCapacity_pos capacity disk).run codec versions inputs).calls =
          ((new batchRows queueCapacity queueCapacity_pos 0 disk).run codec versions inputs).calls := by
      intro capacity
      have hrun : (new batchRows queueCapacity queueCapacity_pos 0 disk).run codec versions inputs =
          ((new batchRows queueCapacity queueCapacity_pos capacity disk).run codec versions
            inputs).withoutCache :=
        (sound_new batchRows queueCapacity queueCapacity_pos capacity disk).run_withoutCache codec versions
          inputs
      rw [hrun]
      rfl
    rw [hcalls, ← hcalls capacity]

/-! ### One snapshot, twice -/

theorem writes_answer_first_content_twice :
    let inputs : List (FeatureWriterInput ℚ) :=
      [.start, .write (.singleVenue exampleFeatureSnapshot) none,
        .write (.singleVenue exampleFeatureSnapshot) none]
    let w := (AsyncFeatureParquetWriter.new 10 4 (by decide) 1 []).run exampleFeatureCodec
      exampleWriterVersions inputs
    w.calls = [.ended exampleFeatureEnvelope .accepted true,
        .ended exampleFeatureEnvelope .deduplicated false] ∧
      ((AsyncFeatureParquetWriter.new 10 4 (by decide) 1000 []).run exampleFeatureCodec
        exampleWriterVersions inputs).calls = w.calls := by
  refine ⟨rfl, ?_⟩
  exact (writes_answer_first_content exampleFeatureCodec exampleWriterVersions 10 4 (by decide) 1 []
    _).2.2.2 1000

end Cvf
