/-
# Cvf.Storage.CleanClose — when a clean close has written every accepted record.

The ledger invariant: the submissions in the committed files, in the flush, in the batch and on the
queue are those of the calls whose put is done, each once.  When the worker returns after the sentinel,
everything but the queue is in the files.

What is left is the place of the sentinel.  If no write waits for a slot when the sentinel enters the
queue, it is and stays the last item, since no write is admitted after `close` has begun; then the worker
leaves an empty queue.  `late_put_is_lost` is the schedule in which one write waits.
-/
import Cvf.Storage.ParquetWriter

namespace Cvf

open Cvf.Library

variable {R P : Type*}

/-! ## The ledger -/

/-- The call waits for a put that is not done. -/
def WritePhase.Pending : WritePhase → Prop
  | .blocked put => put ≠ .done
  | _ => False

instance : (phase : WritePhase) → Decidable phase.Pending
  | .blocked put => inferInstanceAs (Decidable (put ≠ .done))
  | .returned => .isFalse id
  | .raised => .isFalse id

/-- The call's record is on the queue or further, and the call has not raised. -/
def WritePhase.Entered : WritePhase → Prop
  | .blocked put => put = .done
  | .returned => True
  | .raised => False

/-- `content` holds the submission of every call that has entered its record, each once, and no others
than submissions of calls whose put is over. -/
structure Ledger (content : List (RawSubmission R)) (writes : List (WriteCall R)) : Prop where
  nodup : (content.map RawSubmission.write).Nodup
  calls : ∀ s ∈ content, ∃ call, writes[s.write]? = some call ∧ call.record = s.record ∧
    ¬ call.phase.Pending
  entered : ∀ id call, writes[id]? = some call → call.phase.Entered →
    { write := id, record := call.record } ∈ content

namespace Ledger

variable {content content' : List (RawSubmission R)} {writes writes' : List (WriteCall R)}

theorem perm (h : Ledger content writes) (hperm : content.Perm content') :
    Ledger content' writes := by
  obtain ⟨hnodup, hcalls, hentered⟩ := h
  refine ⟨?_, ?_, ?_⟩
  · exact ((hperm.map RawSubmission.write).nodup_iff).mp hnodup
  · exact fun s hs => hcalls s (hperm.mem_iff.mpr hs)
  · exact fun id call hid hcall => hperm.mem_iff.mp (hentered id call hid hcall)

theorem notMem (h : Ledger content writes) {id : Nat}
    (hid : ∀ call, writes[id]? = some call → call.phase.Pending) :
    id ∉ content.map RawSubmission.write := by
  intro hmem
  obtain ⟨s, hs, rfl⟩ := List.mem_map.mp hmem
  obtain ⟨call, hcall, -, hover⟩ := h.calls s hs
  exact hover (hid call hcall)

/-- One call changes its phase and enters nothing. -/
theorem update (h : Ledger content writes) {id : Nat} {record : R} {phase : WritePhase}
    (hself : writes'[id]? = some { record, phase })
    (hother : ∀ i, i ≠ id → writes'[i]? = writes[i]?)
    (hrecord : ∀ call, writes[id]? = some call → call.record = record)
    (hpending : phase.Pending → ∀ call, writes[id]? = some call → call.phase.Pending)
    (hentered : phase.Entered → ∃ call, writes[id]? = some call ∧ call.phase.Entered) :
    Ledger content writes' := by
  refine ⟨h.nodup, ?_, ?_⟩
  · intro s hs
    obtain ⟨call, hcall, hrec, hover⟩ := h.calls s hs
    by_cases hid : s.write = id
    · rw [hid] at hcall ⊢
      refine ⟨_, hself, ?_, ?_⟩
      · rw [← hrec, hrecord call hcall]
      · exact fun hp => hover (hpending hp call hcall)
    · exact ⟨call, by rw [hother _ hid, hcall], hrec, hover⟩
  · intro i call hcall hphase
    by_cases hid : i = id
    · subst hid
      rw [hself] at hcall
      obtain rfl := Option.some.inj hcall
      obtain ⟨old, hold, hin⟩ := hentered hphase
      have hmem := h.entered i old hold hin
      rw [hrecord old hold] at hmem
      exact hmem
    · rw [hother i hid] at hcall
      exact h.entered i call hcall hphase

/-- One call's put is done. -/
theorem put (h : Ledger content writes) {id : Nat} {record : R} {phase : WritePhase}
    (hself : writes'[id]? = some { record, phase })
    (hother : ∀ i, i ≠ id → writes'[i]? = writes[i]?)
    (hold : ∀ call, writes[id]? = some call → call.phase.Pending) (hphase : ¬ phase.Pending) :
    Ledger (content ++ [{ write := id, record }]) writes' := by
  have hnot := h.notMem hold
  refine ⟨?_, ?_, ?_⟩
  · rw [List.map_append]
    refine List.nodup_append.mpr ⟨h.nodup, by simp, ?_⟩
    rintro a ha b hb rfl
    obtain rfl : a = id := by simpa using hb
    exact hnot ha
  · intro s hs
    rcases List.mem_append.mp hs with hmem | hlast
    · have hid : s.write ≠ id := fun heq => hnot (heq ▸ List.mem_map_of_mem hmem)
      rw [hother _ hid]
      exact h.calls s hmem
    · obtain rfl : s = { write := id, record } := by simpa using hlast
      exact ⟨_, hself, rfl, hphase⟩
  · intro i call hcall hin
    by_cases hid : i = id
    · subst hid
      rw [hself] at hcall
      obtain rfl := Option.some.inj hcall
      simp
    · rw [hother i hid] at hcall
      exact List.mem_append_left _ (h.entered i call hcall hin)

end Ledger

namespace AsyncPartitionedParquetWriter

/-! ## The invariant -/

/-- The submissions a flush has still to write. -/
def held (w : AsyncPartitionedParquetWriter R P) : List (RawSubmission R) :=
  match w.worker with
  | .flushing groups _ => groups.flatMap Prod.snd
  | _ => []

/-- Every submission the writer holds, from the files back to the queue. -/
def content (w : AsyncPartitionedParquetWriter R P) : List (RawSubmission R) :=
  w.files.flatMap Prod.snd ++
    (w.held ++ (w.batch ++ w.queue.items.filterMap QueueItem.submission?))

/-- No write waits for a put. -/
def NoPendingWrite (w : AsyncPartitionedParquetWriter R P) : Prop :=
  ∀ call ∈ w.writes, ¬ call.phase.Pending

instance (w : AsyncPartitionedParquetWriter R P) : Decidable w.NoPendingWrite :=
  inferInstanceAs (Decidable (∀ call ∈ w.writes, ¬ call.phase.Pending))

/-- The worker is taking items, or flushing before the sentinel. -/
def Working (w : AsyncPartitionedParquetWriter R P) : Prop :=
  w.worker = .getting ∨ ∃ groups, w.worker = .flushing groups false

/-- The sentinel has not entered the queue. -/
def BeforeStop (w : AsyncPartitionedParquetWriter R P) : Prop :=
  QueueItem.stop ∉ w.queue.items ∧ (w.worker = .absent ∨ w.Working)

/-- The sentinel is the last item the worker will find. -/
def StopLast (w : AsyncPartitionedParquetWriter R P) : Prop :=
  w.NoPendingWrite ∧ ∃ pre : List (RawSubmission R),
    w.queue.items = pre.map QueueItem.submission ++ [.stop] ∧ w.Working

/-- The worker has taken the sentinel and left nothing behind. -/
def Drained (w : AsyncPartitionedParquetWriter R P) : Prop :=
  w.NoPendingWrite ∧ w.queue.items = [] ∧ w.batch = [] ∧
    (w.worker = .finished ∨ ∃ groups, w.worker = .flushing groups true)

/-- Where the sentinel is, for each phase of the close. -/
def StopPlaced (w : AsyncPartitionedParquetWriter R P) : Prop :=
  match w.close with
  | .notCalled => w.BeforeStop
  | .requested => w.BeforeStop
  | .blocked put =>
    if put = .done then w.StopLast ∨ w.Drained else w.BeforeStop ∧ w.worker ≠ .absent
  | .awaitingWorker => w.StopLast ∨ w.Drained
  | .returned => w.worker = .absent ∨ w.Drained ∧ w.worker = .finished
  | .raised => True

/-- A file or a group of a flush holds rows of its own partition, at least one. -/
def OfPartition (partition : R → P) (g : P × List (RawSubmission R)) : Prop :=
  g.2 ≠ [] ∧ ∀ s ∈ g.2, partition s.record = g.1

structure Sound (partition : R → P) (w : AsyncPartitionedParquetWriter R P) : Prop where
  files : ∀ f ∈ w.files, OfPartition partition f
  groups : ∀ groups stopping, w.worker = .flushing groups stopping →
    ∀ g ∈ groups, OfPartition partition g
  absent : w.worker = .absent → ∀ call ∈ w.writes, call.phase = .raised
  ledger : w.worker ≠ .failed → Ledger w.content w.writes
  stop : w.worker ≠ .failed → w.StopPlaced
  /-- A close that has returned has not met a failed worker. -/
  returned : w.close = .returned → w.worker ≠ .failed

variable {partition : R → P} {w w' : AsyncPartitionedParquetWriter R P}

/-! ## Calls that come and change -/

theorem getElem?_addWrite (writes : List (WriteCall R)) (call : WriteCall R) {i : Nat}
    (h : i ≠ writes.length) : (writes ++ [call])[i]? = writes[i]? := by
  rcases lt_or_gt_of_ne h with hlt | hgt
  · exact List.getElem?_append_left hlt
  · rw [List.getElem?_eq_none (by simp; omega), List.getElem?_eq_none (by omega)]

theorem getElem?_set_other (writes : List (WriteCall R)) (id : Nat) (call : WriteCall R) {i : Nat}
    (h : i ≠ id) : (writes.set id call)[i]? = writes[i]? := by
  rw [List.getElem?_set_ne (Ne.symm h)]

theorem getElem?_set_self {writes : List (WriteCall R)} {id : Nat} {old : WriteCall R}
    (h : writes[id]? = some old) (call : WriteCall R) : (writes.set id call)[id]? = some call := by
  obtain ⟨hlt, -⟩ := List.getElem?_eq_some_iff.mp h
  simp [hlt]

theorem noPendingWrite_addWrite (h : w.NoPendingWrite) {record : R} {phase : WritePhase}
    (hphase : ¬ phase.Pending) : (w.addWrite record phase).NoPendingWrite := by
  intro call hcall
  rcases List.mem_append.mp hcall with hcall | hcall
  · exact h call hcall
  · obtain rfl : call = { record, phase } := by simpa using hcall
    exact hphase

theorem noPendingWrite_setWrite (h : w.NoPendingWrite) {id : Nat} {call : WriteCall R}
    (hphase : ¬ call.phase.Pending) : (w.setWrite id call).NoPendingWrite := by
  intro c hc
  rcases List.mem_or_eq_of_mem_set hc with hc | rfl
  · exact h c hc
  · exact hphase

/-- The place of the sentinel depends on the calls only through the pending ones. -/
theorem stopPlaced_of_writes (h : w.StopPlaced) (hqueue : w'.queue.items = w.queue.items)
    (hbatch : w'.batch = w.batch) (hworker : w'.worker = w.worker) (hclose : w'.close = w.close)
    (hpending : w.NoPendingWrite → w'.NoPendingWrite) : w'.StopPlaced := by
  unfold StopPlaced BeforeStop StopLast Drained Working at *
  rw [hqueue, hbatch, hworker, hclose]
  split at h
  · exact h
  · exact h
  · split_ifs at h ⊢ with hdone
    · exact h.imp (And.imp_left hpending) (And.imp_left hpending)
    · exact h
  · exact h.imp (And.imp_left hpending) (And.imp_left hpending)
  · exact h.imp_right (And.imp_left (And.imp_left hpending))
  · trivial

/-- A call changes its phase, entering nothing. -/
theorem Sound.setWrite (h : Sound partition w) {id : Nat} {old : WriteCall R} {phase : WritePhase}
    (hold : w.writes[id]? = some old) (hpending : phase.Pending → old.phase.Pending)
    (hentered : phase.Entered → old.phase.Entered) (hraised : old.phase = .raised → phase = .raised)
    (hstop : w.worker ≠ .failed → (w.setWrite id { record := old.record, phase }).StopPlaced) :
    Sound partition (w.setWrite id { record := old.record, phase }) := by
  refine ⟨h.files, h.groups, ?_, ?_, hstop, h.returned⟩
  · intro habsent call hcall
    rcases List.mem_or_eq_of_mem_set hcall with hcall | rfl
    · exact h.absent habsent call hcall
    · exact hraised (h.absent habsent old (List.mem_of_getElem? hold))
  · intro hworker
    apply (h.ledger hworker).update (getElem?_set_self hold _) fun i => getElem?_set_other _ _ _
    · intro call hcall
      rw [hold] at hcall
      rw [Option.some.inj hcall]
    · intro hp call hcall
      rw [hold] at hcall
      exact Option.some.inj hcall ▸ hpending hp
    · exact fun hin => ⟨old, hold, hentered hin⟩

theorem Sound.wake (h : Sound partition w) (woken : Option PutterId) :
    Sound partition (w.wake woken) := by
  unfold AsyncPartitionedParquetWriter.wake
  split
  · exact h
  · split_ifs with hclose
    · refine ⟨h.files, h.groups, h.absent, h.ledger, ?_, by simp⟩
      intro hworker
      have hbefore := h.stop hworker
      unfold StopPlaced at hbefore ⊢
      rw [hclose] at hbefore
      exact hbefore
    · exact h
  · rename_i id
    split
    · rename_i record hid
      apply h.setWrite hid
      · exact fun _ => by simp [WritePhase.Pending]
      · intro hin
        cases hin
      · intro hraised
        cases hraised
      · intro hworker
        exact stopPlaced_of_writes (h.stop hworker) rfl rfl rfl rfl fun hnone =>
          absurd (by simp [WritePhase.Pending]) (hnone _ (List.mem_of_getElem? hid))
    · exact h

/-- A step that neither moves a submission nor touches a call. -/
theorem Sound.of_eq (h : Sound partition w) (hfiles : w'.files = w.files)
    (hworker : w'.worker = w.worker) (hbatch : w'.batch = w.batch)
    (hitems : w'.queue.items.filterMap QueueItem.submission? =
      w.queue.items.filterMap QueueItem.submission?)
    (hwrites : w'.writes = w.writes) (hstop : w.worker ≠ .failed → w'.StopPlaced)
    (hreturned : w'.close = .returned → w.worker ≠ .failed) : Sound partition w' := by
  have hcontent : w'.content = w.content := by
    unfold content held
    rw [hfiles, hworker, hbatch, hitems]
  refine ⟨?_, ?_, ?_, ?_, ?_, ?_⟩
  · rw [hfiles]
    exact h.files
  · rw [hworker]
    exact h.groups
  · rw [hworker, hwrites]
    exact h.absent
  · rw [hworker, hwrites, hcontent]
    exact h.ledger
  · rw [hworker]
    exact hstop
  · rw [hworker]
    exact hreturned

/-! ## Putting on the queue -/

theorem content_putNowait (w : AsyncPartitionedParquetWriter R P) (s : RawSubmission R)
    (hfull : w.queue.full = false) :
    content { w with queue := w.queue.putNowait (.submission s) hfull } = w.content ++ [s] := by
  simp [content, held, QueueItem.submission?, List.filterMap_append]

/-- Before the sentinel a submission may enter the queue. -/
theorem beforeStop_putNowait (h : w.BeforeStop) (s : RawSubmission R)
    (hfull : w.queue.full = false) :
    BeforeStop { w with queue := w.queue.putNowait (.submission s) hfull } := by
  refine ⟨?_, h.2⟩
  simpa using h.1

/-- The sentinel has been put. -/
def StopEntered : ClosePhase → Prop
  | .notCalled => False
  | .requested => False
  | .blocked put => put = .done
  | _ => True

theorem beforeStop_of_stopPlaced (h : w.StopPlaced) (hclose : ¬ StopEntered w.close) :
    w.BeforeStop := by
  unfold StopPlaced at h
  split at h
  · exact h
  · exact h
  · rename_i put hput
    rw [hput] at hclose
    have hdone : put ≠ .done := hclose
    rw [if_neg hdone] at h
    exact h.1
  all_goals
    rename_i hput
    rw [hput] at hclose
    exact absurd trivial hclose

/-- Before the sentinel is put, its place depends on the queue and the worker only. -/
theorem stopPlaced_of_beforeStop (h : w.StopPlaced) (hclose : ¬ StopEntered w.close)
    (hsame : w'.close = w.close) (hworker : w'.worker = w.worker) (h' : w'.BeforeStop) :
    w'.StopPlaced := by
  unfold StopPlaced at h ⊢
  rw [hsame, hworker]
  split
  · exact h'
  · exact h'
  · rename_i put hput
    rw [hput] at hclose h
    have hdone : put ≠ .done := hclose
    simp only [if_neg hdone] at h ⊢
    exact ⟨h', h.2⟩
  all_goals
    rename_i hput
    rw [hput] at hclose
    exact absurd trivial hclose

/-- While a write waits for a put, the sentinel has not been put. -/
theorem not_stopEntered_of_pending (h : Sound partition w) (hworker : w.worker ≠ .failed)
    {call : WriteCall R} (hcall : call ∈ w.writes) (hpending : call.phase.Pending)
    (hraised : w.close ≠ .raised) : ¬ StopEntered w.close := by
  have hnot : ¬ w.NoPendingWrite := fun hnone => hnone call hcall hpending
  have hplaced := h.stop hworker
  unfold StopPlaced at hplaced
  intro hentered
  split at hplaced
  · rename_i hput
    rw [hput] at hentered
    exact hentered
  · rename_i hput
    rw [hput] at hentered
    exact hentered
  · rename_i put hput
    rw [hput] at hentered
    have hdone : put = .done := hentered
    rw [if_pos hdone] at hplaced
    exact hplaced.elim (fun h => hnot h.1) fun h => hnot h.1
  · exact hplaced.elim (fun h => hnot h.1) fun h => hnot h.1
  · rcases hplaced with habsent | hdrained
    · rw [h.absent habsent call hcall] at hpending
      exact hpending
    · exact hnot hdrained.1.1
  · rename_i hput
    exact hraised hput

/-! ## One step -/

/-- A new call that enters nothing. -/
theorem Sound.addWrite (h : Sound partition w) {record : R} {phase : WritePhase}
    (hentered : ¬ phase.Entered) (habsent : w.worker = .absent → phase = .raised)
    (hstop : w.worker ≠ .failed → (w.addWrite record phase).StopPlaced) :
    Sound partition (w.addWrite record phase) := by
  have hnone : w.writes[w.writes.length]? = none := by simp
  refine ⟨h.files, h.groups, ?_, ?_, hstop, h.returned⟩
  · intro hworker call hcall
    rcases List.mem_append.mp hcall with hcall | hcall
    · exact h.absent hworker call hcall
    · obtain rfl : call = { record, phase } := by simpa using hcall
      exact habsent hworker
  · intro hworker
    have hself : (w.addWrite record phase).writes[w.writes.length]? = some { record, phase } := by
      simp [AsyncPartitionedParquetWriter.addWrite]
    apply (h.ledger hworker).update hself
    · exact fun i => getElem?_addWrite _ _
    · intro call hcall
      rw [hnone] at hcall
      cases hcall
    · intro _ call hcall
      rw [hnone] at hcall
      cases hcall
    · exact fun hin => absurd hin hentered

/-- A submission enters the queue and its call's put is done. -/
theorem Sound.put (h : Sound partition w) {id : Nat} {record : R} {phase : WritePhase}
    {writes' : List (WriteCall R)} (hfull : w.queue.full = false)
    (hself : writes'[id]? = some { record, phase })
    (hother : ∀ i, i ≠ id → writes'[i]? = w.writes[i]?)
    (hold : ∀ call, w.writes[id]? = some call → call.phase.Pending)
    (hphase : ¬ phase.Pending) (hworking : w.worker ≠ .absent)
    (hstop : w.worker ≠ .failed → w.StopPlaced → StopPlaced
      { w with queue := w.queue.putNowait (.submission { write := id, record }) hfull, writes := writes' }) :
    Sound partition
      { w with queue := w.queue.putNowait (.submission { write := id, record }) hfull, writes := writes' } := by
  refine ⟨h.files, h.groups, fun habsent => absurd habsent hworking, ?_, ?_, h.returned⟩
  · intro hworker
    have hput := (h.ledger hworker).put hself hother hold hphase
    rw [← content_putNowait w { write := id, record } hfull] at hput
    exact hput
  · exact fun hworker => hstop hworker (h.stop hworker)

theorem Sound.write [DecidableEq P] (h : Sound partition w) (record : R) :
    Sound partition (w.write record) := by
  unfold AsyncPartitionedParquetWriter.write
  have hraised : Sound partition (w.addWrite record .raised) := by
    refine h.addWrite id (fun _ => rfl) fun hworker => ?_
    exact stopPlaced_of_writes (h.stop hworker) rfl rfl rfl rfl fun hnone =>
      noPendingWrite_addWrite hnone id
  by_cases hclose : w.close = .notCalled
  swap
  · rw [if_pos hclose]
    exact hraised
  have hopen : ¬ StopEntered w.close := by
    rw [hclose]
    exact id
  rw [if_neg (not_not.mpr hclose)]
  split
  · exact hraised
  · exact hraised
  · rename_i hworker hfailed
    split_ifs with hfull
    · have hself : (w.writes ++ [{ record, phase := .returned }])[w.writes.length]? =
          some { record, phase := .returned } := by simp
      refine h.put hfull hself (fun i => getElem?_addWrite _ _) ?_ ?_ (fun he => hworker he) ?_
      · intro call hcall
        simp at hcall
      · exact id
      · intro _ hplaced
        refine stopPlaced_of_beforeStop hplaced hopen ?_ ?_ ?_
        · rfl
        · rfl
        · exact beforeStop_putNowait (beforeStop_of_stopPlaced hplaced hopen) _ hfull
    · refine h.addWrite (fun hin => nomatch hin) (fun he => absurd he hworker) fun hw => ?_
      have hbefore := beforeStop_of_stopPlaced (h.stop hw) hopen
      refine stopPlaced_of_beforeStop (h.stop hw) hopen ?_ ?_ ?_
      · rfl
      · rfl
      · exact hbefore

/-- A call waiting for a put changes its phase; the sentinel has not been put. -/
theorem Sound.setPending (h : Sound partition w) {id : Nat} {record : R} {put put' : PutPhase}
    (hold : w.writes[id]? = some { record, phase := .blocked put }) (hput : put ≠ .done)
    (hput' : put' ≠ .done) : Sound partition (w.setWrite id { record, phase := .blocked put' }) := by
  have hpending : (WritePhase.blocked put).Pending := hput
  apply h.setWrite hold (fun _ => hpending)
  · intro hin
    exact absurd hin hput'
  · intro hraised
    cases hraised
  · intro hworker
    refine stopPlaced_of_writes (h.stop hworker) rfl rfl rfl rfl fun hnone => ?_
    exact absurd hpending (hnone _ (List.mem_of_getElem? hold))

theorem Sound.park (h : Sound partition w) (task : PutterId) :
    Sound partition { w with queue := w.queue.park task } := by
  refine h.of_eq rfl rfl rfl rfl rfl h.stop ?_
  exact h.returned

theorem Sound.runPut (h : Sound partition w) {id : Nat} {record : R} {put : PutPhase}
    (hold : w.writes[id]? = some { record, phase := .blocked put }) (hput : put ≠ .done) :
    Sound partition (w.runPut id record) := by
  have hpending : (WritePhase.blocked put).Pending := hput
  have hcall := List.mem_of_getElem? hold
  unfold AsyncPartitionedParquetWriter.runPut
  split_ifs with hfull
  · refine h.put hfull (getElem?_set_self hold _) (fun i => getElem?_set_other _ _ _) ?_ ?_ ?_ ?_
    · intro call hcall'
      rw [hold] at hcall'
      exact Option.some.inj hcall' ▸ hpending
    · exact fun hp => hp rfl
    · intro habsent
      have hphase := h.absent habsent _ hcall
      cases hphase
    · intro hworker hplaced
      by_cases hraised : w.close = .raised
      · unfold StopPlaced
        simp only [hraised]
      · have hopen := not_stopEntered_of_pending h hworker hcall hpending hraised
        refine stopPlaced_of_beforeStop hplaced hopen ?_ ?_ ?_
        · rfl
        · rfl
        · exact beforeStop_putNowait (beforeStop_of_stopPlaced hplaced hopen) _ hfull
  · exact (h.park (.write id)).setPending hold hput (by simp)

theorem Sound.resumeWrite (h : Sound partition w) {id : Nat} {record : R} {put : PutPhase}
    (hold : w.writes[id]? = some { record, phase := .blocked put }) {phase : WritePhase}
    (hover : ¬ phase.Pending) (hentered : phase.Entered → put = .done) :
    Sound partition (w.setWrite id { record, phase }) := by
  apply h.setWrite hold (fun hp => absurd hp hover) hentered
  · intro hraised
    cases hraised
  · intro hworker
    exact stopPlaced_of_writes (h.stop hworker) rfl rfl rfl rfl fun hnone =>
      noPendingWrite_setWrite hnone hover

/-! ## The worker -/

/-- What a worker step has to keep while the close stands still. -/
theorem StopPlaced.imp (h : w.StopPlaced) (hclose : w'.close = w.close)
    (hbefore : w.BeforeStop → w'.BeforeStop) (habsent : w.worker ≠ .absent → w'.worker ≠ .absent)
    (hafter : w.StopLast ∨ w.Drained → w'.StopLast ∨ w'.Drained)
    (hworking : w.worker ≠ .absent ∧ w.worker ≠ .finished) : w'.StopPlaced := by
  unfold StopPlaced at h ⊢
  rw [hclose]
  split at h
  · exact hbefore h
  · exact hbefore h
  · split_ifs at h ⊢ with hdone
    · exact hafter h
    · exact h.imp hbefore habsent
  · exact hafter h
  · rcases h with h | h
    · exact absurd h hworking.1
    · exact absurd h.2 hworking.2
  · trivial

theorem stopLast_of_getting (hgetting : w.worker = .getting) (h : w.StopLast ∨ w.Drained) :
    w.StopLast := by
  rcases h with h | ⟨-, -, -, hworker | ⟨groups, hworker⟩⟩
  · exact h
  · rw [hgetting] at hworker
    cases hworker
  · rw [hgetting] at hworker
    cases hworker

/-- The worker takes a submission into the batch. -/
theorem Sound.take (h : Sound partition w) (hgetting : w.worker = .getting) {s : RawSubmission R}
    {queue : AsyncQueue PutterId (QueueItem R)}
    (hitems : w.queue.items = .submission s :: queue.items) :
    Sound partition { w with queue, batch := w.batch ++ [s] } := by
  have hcontent : content { w with queue, batch := w.batch ++ [s] } = w.content := by
    simp [content, held, hitems, QueueItem.submission?]
  refine ⟨h.files, h.groups, h.absent, ?_, ?_, h.returned⟩
  · rw [hcontent]
    exact h.ledger
  · intro hworker
    apply (h.stop hworker).imp
    · rfl
    · rintro ⟨hstop, hphase⟩
      rw [hitems] at hstop
      exact ⟨fun hmem => hstop (List.mem_cons_of_mem _ hmem), hphase⟩
    · exact id
    · intro hafter
      obtain ⟨hnone, pre, hpre, hworking⟩ := stopLast_of_getting hgetting hafter
      rw [hitems] at hpre
      cases pre with
      | nil => cases hpre
      | cons s' pre => exact Or.inl ⟨hnone, pre, (List.cons.inj hpre).2, hworking⟩
    · rw [hgetting]
      exact ⟨nofun, nofun⟩

/-- Where `_flush` sends the worker. -/
def flushWorker [DecidableEq P] (partition : R → P) (batch : List (RawSubmission R))
    (stopping : Bool) : WorkerPhase R P :=
  if batch = [] then (if stopping then .finished else .getting)
  else .flushing (groupByKey (fun s => partition s.record) batch) stopping

/-- After an ordinary flush the worker goes on taking items. -/
theorem flushWorker_false [DecidableEq P] (batch : List (RawSubmission R)) :
    flushWorker partition batch false = .getting ∨
      ∃ groups, flushWorker partition batch false = .flushing groups false := by
  by_cases hbatch : batch = []
  · left
    simp [flushWorker, hbatch]
  · right
    exact ⟨_, if_neg hbatch⟩

/-- After the last flush the worker returns. -/
theorem flushWorker_true [DecidableEq P] (batch : List (RawSubmission R)) :
    flushWorker partition batch true = .finished ∨
      ∃ groups, flushWorker partition batch true = .flushing groups true := by
  by_cases hbatch : batch = []
  · left
    simp [flushWorker, hbatch]
  · right
    exact ⟨_, if_neg hbatch⟩

theorem flush_eq [DecidableEq P] (w : AsyncPartitionedParquetWriter R P) (stopping : Bool) :
    w.flush partition stopping =
      { w with worker := flushWorker partition w.batch stopping, batch := [] } := by
  unfold AsyncPartitionedParquetWriter.flush flushWorker
  split_ifs with hbatch hstopping
  · rw [← hbatch]
  · rw [← hbatch]
  · rfl

/-- Waking a putter touches nothing that a flush reads or writes. -/
theorem wake_with (w : AsyncPartitionedParquetWriter R P) (woken : Option PutterId)
    (worker : WorkerPhase R P) (batch : List (RawSubmission R)) :
    { w with worker, batch }.wake woken = { w.wake woken with worker, batch } := by
  rcases woken with - | ⟨id | -⟩
  · rfl
  · unfold AsyncPartitionedParquetWriter.wake
    dsimp only
    split <;> rfl
  · unfold AsyncPartitionedParquetWriter.wake
    dsimp only
    split_ifs <;> rfl

theorem batch_wake (w : AsyncPartitionedParquetWriter R P) (woken : Option PutterId) :
    (w.wake woken).batch = w.batch := by
  unfold AsyncPartitionedParquetWriter.wake
  split
  · rfl
  · split_ifs <;> rfl
  · split <;> rfl

theorem flush_wake [DecidableEq P] (w : AsyncPartitionedParquetWriter R P) (woken : Option PutterId)
    (stopping : Bool) :
    (w.wake woken).flush partition stopping = (w.flush partition stopping).wake woken := by
  rw [flush_eq, batch_wake, flush_eq]
  exact (wake_with w woken _ _).symm

/-- A flush moves the batch, whatever state the sentinel is in. -/
theorem Sound.flush [DecidableEq P] (hfiles : ∀ f ∈ w.files, OfPartition partition f)
    (hgetting : w.worker = .getting) (hledger : Ledger w.content w.writes) {stopping : Bool}
    (hstop : (w.flush partition stopping).StopPlaced) :
    Sound partition (w.flush partition stopping) := by
  have hworker : flushWorker partition w.batch stopping ≠ .absent ∧
      flushWorker partition w.batch stopping ≠ .failed := by
    unfold flushWorker
    split_ifs <;> exact ⟨nofun, nofun⟩
  rw [flush_eq] at hstop ⊢
  refine ⟨hfiles, ?_, fun habsent => absurd habsent hworker.1, ?_, fun _ => hstop,
    fun _ => hworker.2⟩
  · intro groups stop hgroups g hg
    dsimp only at hgroups
    unfold flushWorker at hgroups
    split_ifs at hgroups
    obtain ⟨rfl, -⟩ := WorkerPhase.flushing.inj hgroups
    exact groupByKey_members _ _ g hg
  · intro _
    apply hledger.perm
    unfold content held flushWorker
    dsimp only
    rw [hgetting]
    split_ifs with hbatch hstopping
    · rw [hbatch]
    · rw [hbatch]
    · dsimp only
      rw [List.nil_append, List.nil_append]
      exact ((groupByKey_perm _ _).symm.append_right _).append_left _

/-- A flush before the sentinel. -/
theorem Sound.flushOpen [DecidableEq P] (h : Sound partition w) (hgetting : w.worker = .getting) :
    Sound partition (w.flush partition false) := by
  have hworker : w.worker ≠ .failed := by
    rw [hgetting]
    exact nofun
  have hflush := @flushWorker_false R P partition _ w.batch
  apply Sound.flush h.files hgetting (h.ledger hworker)
  rw [flush_eq]
  apply (h.stop hworker).imp
  · rfl
  · exact fun hbefore => ⟨hbefore.1, Or.inr hflush⟩
  · rintro - (habsent : flushWorker partition w.batch false = .absent)
    rcases hflush with hphase | ⟨groups, hphase⟩
    · rw [hphase] at habsent
      cases habsent
    · rw [hphase] at habsent
      cases habsent
  · intro hafter
    obtain ⟨hnone, pre, hpre, -⟩ := stopLast_of_getting hgetting hafter
    exact Or.inl ⟨hnone, pre, hpre, hflush⟩
  · rw [hgetting]
    exact ⟨nofun, nofun⟩

/-- The worker takes the sentinel: nothing is behind it. -/
theorem Sound.takeStop [DecidableEq P] (h : Sound partition w) (hgetting : w.worker = .getting)
    {queue : AsyncQueue PutterId (QueueItem R)} (hitems : w.queue.items = .stop :: queue.items) :
    Sound partition (AsyncPartitionedParquetWriter.flush partition { w with queue } true) := by
  have hworker : w.worker ≠ .failed := by
    rw [hgetting]
    exact nofun
  have hcontent : content { w with queue } = w.content := by
    unfold content
    rw [hitems, List.filterMap_cons_none rfl]
    rfl
  have hledger : Ledger (content { w with queue }) w.writes := hcontent ▸ h.ledger hworker
  apply @Sound.flush R P partition { w with queue } _ h.files hgetting hledger true
  rw [flush_eq]
  have hentered : QueueItem.stop ∈ w.queue.items := by
    rw [hitems]
    exact List.mem_cons_self
  have hdrained : w.StopLast ∨ w.Drained →
      Drained { w with queue, worker := flushWorker partition w.batch true, batch := [] } := by
    intro hafter
    obtain ⟨hnone, pre, hpre, -⟩ := stopLast_of_getting hgetting hafter
    rw [hitems] at hpre
    cases pre with
    | cons s pre => cases (List.cons.inj hpre).1
    | nil => exact ⟨hnone, (List.cons.inj hpre).2, rfl, flushWorker_true w.batch⟩
  have hplaced := h.stop hworker
  unfold StopPlaced at hplaced ⊢
  dsimp only
  split at hplaced
  · exact absurd hentered hplaced.1
  · exact absurd hentered hplaced.1
  · split_ifs at hplaced ⊢
    · exact Or.inr (hdrained hplaced)
    · exact absurd hentered hplaced.1.1
  · exact Or.inr (hdrained hplaced)
  · rw [hgetting] at hplaced
    rcases hplaced with hplaced | hplaced
    · cases hplaced
    · cases hplaced.2
  · trivial

theorem Sound.getItem [DecidableEq P] (h : Sound partition w) :
    Sound partition (w.step partition .getItem) := by
  simp only [step]
  split
  · rename_i woken queue hgetting hget
    rw [flush_wake]
    exact (h.takeStop hgetting (AsyncQueue.items_of_getNowait hget)).wake woken
  · rename_i s woken queue hgetting hget
    have htaken := h.take hgetting (AsyncQueue.items_of_getNowait hget)
    split_ifs
    · rw [flush_wake]
      exact (htaken.flushOpen hgetting).wake woken
    · exact htaken.wake woken
  · exact h

/-- An ordinary flush goes on to its next file, or back to the queue. -/
theorem working_of_flushing {group : P × List (RawSubmission R)}
    {groups : List (P × List (RawSubmission R))} {stopping : Bool}
    (hflushing : w.worker = .flushing (group :: groups) stopping)
    (hwork : w.worker = .absent ∨ w.Working) {files : List (P × List (RawSubmission R))} :
    Working { w with
      files
      worker := if groups = [] then (if stopping then .finished else .getting)
        else .flushing groups stopping } := by
  unfold Working at hwork ⊢
  rw [hflushing] at hwork
  rcases hwork with hwork | hwork | ⟨groups', hwork⟩
  · cases hwork
  · cases hwork
  · obtain ⟨-, rfl⟩ := WorkerPhase.flushing.inj hwork
    by_cases hlast : groups = []
    · left
      simp [hlast]
    · right
      exact ⟨groups, if_neg hlast⟩

/-- The last flush goes on to its next file, or the worker returns. -/
theorem nextWorker_true (groups : List (P × List (RawSubmission R))) :
    (if groups = [] then (if true then .finished else .getting)
      else .flushing groups true : WorkerPhase R P) = .finished ∨
    ∃ groups', (if groups = [] then (if true then .finished else .getting)
      else .flushing groups true : WorkerPhase R P) = .flushing groups' true := by
  by_cases hlast : groups = []
  · left
    simp [hlast]
  · right
    exact ⟨groups, if_neg hlast⟩

/-- The file of the next partition is committed. -/
theorem Sound.fileWritten [DecidableEq P] (h : Sound partition w) :
    Sound partition (w.step partition .fileWritten) := by
  simp only [step]
  split
  swap
  · exact h
  rename_i group groups stopping hflushing
  have hworker : w.worker ≠ .failed := by
    rw [hflushing]
    exact nofun
  have hgroups := h.groups _ _ hflushing
  have hcontent : ∀ worker : WorkerPhase R P,
      worker = (if groups = [] then (if stopping then .finished else .getting)
        else .flushing groups stopping) →
      content { w with files := w.files ++ [group], worker } = w.content := by
    rintro worker rfl
    unfold content held
    dsimp only
    rw [hflushing]
    split_ifs with hlast hstopping
    · simp [hlast]
    · simp [hlast]
    · simp
  refine ⟨?_, ?_, ?_, ?_, ?_, ?_⟩
  · intro f hf
    rcases List.mem_append.mp hf with hf | hf
    · exact h.files f hf
    · obtain rfl : f = group := by simpa using hf
      exact hgroups f List.mem_cons_self
  · intro groups' stopping' hphase g hg
    dsimp only at hphase
    split_ifs at hphase
    obtain ⟨rfl, -⟩ := WorkerPhase.flushing.inj hphase
    exact hgroups g (List.mem_cons_of_mem _ hg)
  · intro habsent
    dsimp only at habsent
    split_ifs at habsent
  · intro _
    rw [hcontent _ rfl]
    exact h.ledger hworker
  · intro _
    apply (h.stop hworker).imp
    · rfl
    · rintro ⟨hstop, hwork⟩
      exact ⟨hstop, Or.inr (working_of_flushing hflushing hwork)⟩
    · intro _ habsent
      dsimp only at habsent
      split_ifs at habsent
    · rintro (⟨hnone, pre, hpre, hwork⟩ | ⟨hnone, hitems, hbatch, hwork⟩)
      · exact Or.inl ⟨hnone, pre, hpre, working_of_flushing hflushing (Or.inr hwork)⟩
      · refine Or.inr ⟨hnone, hitems, hbatch, ?_⟩
        rw [hflushing] at hwork
        rcases hwork with hwork | ⟨groups', hwork⟩
        · cases hwork
        · obtain ⟨-, rfl⟩ := WorkerPhase.flushing.inj hwork
          exact nextWorker_true groups
    · rw [hflushing]
      exact ⟨nofun, nofun⟩
  · intro _
    dsimp only
    split_ifs <;> exact nofun

theorem Sound.fileFails (h : Sound partition w) {groups : List (P × List (RawSubmission R))}
    {stopping : Bool} (hflushing : w.worker = .flushing groups stopping) :
    Sound partition { w with worker := .failed } := by
  have hworker : w.worker ≠ .failed := by
    rw [hflushing]
    exact nofun
  refine ⟨h.files, nofun, nofun, fun hne => absurd rfl hne, fun hne => absurd rfl hne, ?_⟩
  intro hreturned
  -- the worker of a returned close is not in a flush
  have hplaced := h.stop hworker
  have hclose : w.close = .returned := hreturned
  unfold StopPlaced at hplaced
  simp only [hclose, hflushing] at hplaced
  rcases hplaced with hplaced | hplaced
  · cases hplaced
  · cases hplaced.2

/-! ## The close -/

/-- The sentinel is about to enter the queue. -/
def EntersStop (w : AsyncPartitionedParquetWriter R P) : WriterInput R → Prop
  | .runClose => w.close = .requested ∧ w.queue.full = false
  | .runStopPut => (w.close = .blocked .created ∨ w.close = .blocked .woken) ∧ w.queue.full = false
  | _ => False

instance [DecidableEq R] (w : AsyncPartitionedParquetWriter R P) (i : WriterInput R) :
    Decidable (w.EntersStop i) := by
  cases i <;> unfold EntersStop <;> infer_instance

theorem eq_map_of_notMem_stop {items : List (QueueItem R)} (h : QueueItem.stop ∉ items) :
    ∃ pre : List (RawSubmission R), items = pre.map QueueItem.submission := by
  induction items with
  | nil => exact ⟨[], rfl⟩
  | cons item items ih =>
      obtain ⟨pre, rfl⟩ := ih fun hmem => h (List.mem_cons_of_mem _ hmem)
      cases item with
      | stop => exact absurd List.mem_cons_self h
      | submission s => exact ⟨s :: pre, rfl⟩

/-- The sentinel enters behind every submission, or its put has still to be done. -/
theorem Sound.putStop (h : Sound partition w) (hworker : w.worker ≠ .failed)
    (hbefore : w.BeforeStop) (hstarted : w.worker ≠ .absent) {entered parked : ClosePhase}
    (hentered : entered = .awaitingWorker ∨ entered = .blocked .done)
    (hparked : parked = .blocked .created ∨ parked = .blocked .waiting)
    (hnone : w.queue.full = false → w.NoPendingWrite) :
    Sound partition (w.putStop entered parked) := by
  have hworking : w.Working := hbefore.2.resolve_left hstarted
  have hplaced : ∀ close : ClosePhase, close = .blocked .created ∨ close = .blocked .waiting →
      ∀ queue : AsyncQueue PutterId (QueueItem R), queue.items = w.queue.items →
      StopPlaced { w with queue, close } := by
    intro close hclose queue hitems
    have hagain : BeforeStop { w with queue, close } := ⟨hitems ▸ hbefore.1, hbefore.2⟩
    rcases hclose with rfl | rfl
    · exact ⟨hagain, hstarted⟩
    · exact ⟨hagain, hstarted⟩
  have hopen : parked ≠ .returned := by
    rcases hparked with rfl | rfl <;> exact nofun
  unfold AsyncPartitionedParquetWriter.putStop
  split_ifs with hfull hwaiting
  · refine h.of_eq rfl rfl rfl ?_ rfl ?_ fun _ => hworker
    · simp [QueueItem.submission?]
    · intro _
      obtain ⟨pre, hpre⟩ := eq_map_of_notMem_stop hbefore.1
      have hlast : ∀ close : ClosePhase, StopLast
          { w with queue := w.queue.putNowait .stop hfull, close } := fun close =>
        ⟨hnone hfull, pre, by rw [AsyncQueue.items_putNowait, hpre], hworking⟩
      rcases hentered with rfl | rfl
      · exact Or.inl (hlast _)
      · exact Or.inl (hlast _)
  · refine h.of_eq rfl rfl rfl rfl rfl (fun _ => ?_) fun _ => hworker
    exact hplaced parked hparked _ rfl
  · refine h.of_eq rfl rfl rfl rfl rfl (fun _ => ?_) fun _ => hworker
    exact hplaced parked hparked _ rfl

/-- A close whose sentinel is not put yet is before the sentinel. -/
theorem beforeStop_of_blocked (h : w.StopPlaced) {put : PutPhase} (hclose : w.close = .blocked put)
    (hput : put ≠ .done) : w.BeforeStop ∧ w.worker ≠ .absent := by
  unfold StopPlaced at h
  simp only [hclose] at h
  rw [if_neg hput] at h
  exact h

/-- Under a failed worker nothing is promised but that the close does not return. -/
theorem Sound.of_failed (h : Sound partition w) (hfailed : w'.worker = .failed)
    (hfiles : w'.files = w.files) (hclose : w'.close ≠ .returned) : Sound partition w' := by
  refine ⟨hfiles ▸ h.files, ?_, ?_, fun hne => absurd hfailed hne, fun hne => absurd hfailed hne,
    fun hreturned => absurd hreturned hclose⟩
  · intro groups stopping hflushing
    rw [hfailed] at hflushing
    cases hflushing
  · intro habsent
    rw [hfailed] at habsent
    cases habsent

theorem Sound.runStopPut (h : Sound partition w) {put : PutPhase}
    (hclose : w.close = .blocked put) (hput : put ≠ .done)
    (hnone : w.queue.full = false → w.NoPendingWrite) :
    Sound partition (w.putStop (.blocked .done) (.blocked .waiting)) := by
  by_cases hworker : w.worker = .failed
  · unfold AsyncPartitionedParquetWriter.putStop
    split_ifs
    · exact h.of_failed hworker rfl nofun
    · exact h.of_failed hworker rfl nofun
    · exact h.of_failed hworker rfl nofun
  · obtain ⟨hbefore, hstarted⟩ := beforeStop_of_blocked (h.stop hworker) hclose hput
    exact h.putStop hworker hbefore hstarted (Or.inr rfl) (Or.inr rfl) hnone

/-- The close of a writer moves on, leaving queue, worker and calls alone. -/
theorem Sound.setClose (h : Sound partition w) {close : ClosePhase}
    (hstop : w.worker ≠ .failed → StopPlaced { w with close })
    (hreturned : close = .returned → w.worker ≠ .failed) : Sound partition { w with close } :=
  h.of_eq rfl rfl rfl rfl rfl hstop hreturned

/-- A close whose sentinel is put waits for the worker. -/
theorem Sound.awaitWorker (h : Sound partition w) (hclose : w.close = .blocked .done) :
    Sound partition { w with close := .awaitingWorker } := by
  refine h.setClose (fun hworker => ?_) nofun
  have hplaced := h.stop hworker
  unfold StopPlaced at hplaced ⊢
  simp only [hclose] at hplaced
  exact hplaced

theorem Sound.close [DecidableEq P] (h : Sound partition w) :
    Sound partition (w.step partition .close) := by
  simp only [step]
  split_ifs with hclose
  · refine h.setClose (fun hworker => ?_) nofun
    have hplaced := h.stop hworker
    unfold StopPlaced at hplaced ⊢
    simp only [hclose] at hplaced
    exact hplaced
  · exact h

theorem Sound.runClose [DecidableEq P] (h : Sound partition w)
    (hnone : w.EntersStop .runClose → w.NoPendingWrite) :
    Sound partition (w.step partition .runClose) := by
  simp only [step]
  split_ifs with hclose
  swap
  · exact h
  split
  · rename_i habsent
    exact h.setClose (fun _ => Or.inl habsent) fun _ => by rw [habsent]; exact nofun
  · exact h.setClose (fun _ => trivial) nofun
  · rename_i hstarted hworker
    have hplaced := h.stop hworker
    unfold StopPlaced at hplaced
    simp only [hclose] at hplaced
    exact h.putStop hworker hplaced hstarted (Or.inl rfl) (Or.inl rfl) fun hfull =>
      hnone ⟨hclose, hfull⟩

theorem Sound.resumeClose [DecidableEq P] (h : Sound partition w) :
    Sound partition (w.step partition .resumeClose) := by
  simp only [step]
  split
  swap
  · exact h
  rename_i put hclose
  have hdone : put = .done → Sound partition { w with close := .awaitingWorker } := by
    rintro rfl
    exact h.awaitWorker hclose
  split
  · exact h.setClose (fun _ => trivial) nofun
  · split_ifs with hput
    · exact hdone hput
    · exact h.setClose (fun _ => trivial) nofun
  · split_ifs with hput
    · exact hdone hput
    · exact h

/-- The close returns when the worker has; then the worker has drained the queue. -/
theorem Sound.returnClose [DecidableEq P] (h : Sound partition w) :
    Sound partition (w.step partition .returnClose) := by
  simp only [step]
  split_ifs with hclose
  swap
  · exact h
  split
  · rename_i hfinished
    have hworker : w.worker ≠ .failed := by
      rw [hfinished]
      exact nofun
    refine h.setClose (fun _ => Or.inr ⟨?_, hfinished⟩) fun _ => hworker
    have hplaced := h.stop hworker
    unfold StopPlaced at hplaced
    simp only [hclose] at hplaced
    rcases hplaced with ⟨-, -, -, hwork | ⟨groups, hwork⟩⟩ | hdrained
    · rw [hfinished] at hwork
      cases hwork
    · rw [hfinished] at hwork
      cases hwork
    · exact hdrained
  · exact h.setClose (fun _ => trivial) nofun
  · exact h

theorem Sound.start [DecidableEq P] (h : Sound partition w) :
    Sound partition (w.step partition .start) := by
  simp only [AsyncPartitionedParquetWriter.step]
  split_ifs with hopen
  swap
  · exact h
  obtain ⟨hclose, hmatch⟩ := hopen
  have habsent : w.worker = .absent := by
    split at hmatch
    · assumption
    · cases hmatch
  have hworker : w.worker ≠ .failed := by
    rw [habsent]
    exact nofun
  have hcontent : content { w with worker := .getting } = w.content := by
    unfold content held
    rw [habsent]
  refine ⟨h.files, nofun, nofun, fun _ => ?_, fun _ => ?_, fun _ => nofun⟩
  · rw [hcontent]
    exact h.ledger hworker
  · have hplaced := h.stop hworker
    unfold StopPlaced at hplaced ⊢
    simp only [hclose] at hplaced ⊢
    exact ⟨hplaced.1, Or.inr (Or.inl rfl)⟩

/-! ## Runs -/

theorem Sound.new [DecidableEq P] (batchRows queueCapacity : Nat) (h : 0 < queueCapacity) :
    Sound partition (new batchRows queueCapacity h : AsyncPartitionedParquetWriter R P) := by
  refine ⟨nofun, nofun, fun _ => nofun, ?_, ?_, nofun⟩
  · exact fun _ => ⟨List.nodup_nil, nofun, nofun⟩
  · exact fun _ => ⟨nofun, Or.inl rfl⟩

/-- The step lemma: the invariant holds on, if no write waits for a put when the sentinel enters. -/
theorem Sound.step [DecidableEq P] (h : Sound partition w) (i : WriterInput R)
    (hnone : w.EntersStop i → w.NoPendingWrite) : Sound partition (w.step partition i) := by
  cases i with
  | start => exact h.start
  | write record => exact h.write record
  | runPut id =>
      simp only [AsyncPartitionedParquetWriter.step]
      split
      · rename_i record hold
        exact h.runPut hold nofun
      · rename_i record hold
        exact h.runPut hold nofun
      · exact h
  | resumeWrite id =>
      simp only [AsyncPartitionedParquetWriter.step]
      split
      · rename_i record put hold
        split_ifs with hdone hput
        · exact h.resumeWrite hold (fun hp => nomatch hp) nofun
        · exact h.resumeWrite hold (fun hp => nomatch hp) fun _ => hput
        · exact h
      · exact h
  | getItem => exact h.getItem
  | flushTimeout =>
      simp only [AsyncPartitionedParquetWriter.step]
      split
      · rename_i hgetting
        exact h.flushOpen hgetting
      · exact h
  | fileWritten => exact h.fileWritten
  | fileFails =>
      simp only [AsyncPartitionedParquetWriter.step]
      split
      · rename_i hflushing
        exact h.fileFails hflushing
      · exact h
  | close => exact h.close
  | runClose => exact h.runClose hnone
  | runStopPut =>
      simp only [AsyncPartitionedParquetWriter.step]
      split
      · rename_i hclose
        exact h.runStopPut hclose nofun fun hfull => hnone ⟨Or.inl hclose, hfull⟩
      · rename_i hclose
        exact h.runStopPut hclose nofun fun hfull => hnone ⟨Or.inr hclose, hfull⟩
      · exact h
  | resumeClose => exact h.resumeClose
  | returnClose => exact h.returnClose

/-- The record of a call is in one row of one committed file, a file of its partition. -/
def CommittedOnce (partition : R → P) (w : AsyncPartitionedParquetWriter R P) (id : Nat)
    (record : R) : Prop :=
  (∃ f ∈ w.files, { write := id, record } ∈ f.2 ∧ partition record = f.1) ∧
    ((w.files.flatMap Prod.snd).map RawSubmission.write).count id = 1

/-- When the close has returned, the record of every write that has returned is committed once. -/
def LosesNothing (partition : R → P) (w : AsyncPartitionedParquetWriter R P) : Prop :=
  w.close = .returned → ∀ (id : Nat) (record : R),
    w.writes[id]? = some { record, phase := .returned } → CommittedOnce partition w id record

theorem Sound.losesNothing (h : Sound partition w) : LosesNothing partition w := by
  intro hclose id record hid
  have hworker := h.returned hclose
  have hledger := h.ledger hworker
  have hplaced := h.stop hworker
  unfold StopPlaced at hplaced
  simp only [hclose] at hplaced
  rcases hplaced with habsent | ⟨⟨-, hitems, hbatch, -⟩, hfinished⟩
  · have hphase := h.absent habsent _ (List.mem_of_getElem? hid)
    cases hphase
  have hcontent : w.content = w.files.flatMap Prod.snd := by
    unfold content held
    rw [hfinished, hbatch, hitems]
    simp
  rw [hcontent] at hledger
  have hmem := hledger.entered id _ hid trivial
  obtain ⟨f, hf, hrow⟩ := List.mem_flatMap.mp hmem
  refine ⟨⟨f, hf, hrow, (h.files f hf).2 _ hrow⟩, ?_⟩
  exact List.count_eq_one_of_mem hledger.nodup (List.mem_map.mpr ⟨_, hmem, rfl⟩)

/-- In every run in which no write waits for a put when the sentinel enters the queue, a close that
returns has lost nothing. -/
theorem clean_close_loses_nothing [DecidableEq P] (partition : R → P) (batchRows queueCapacity : Nat)
    (hcapacity : 0 < queueCapacity) (inputs : List (WriterInput R))
    (hinputs : Admitted (AsyncPartitionedParquetWriter.step partition)
      (fun w i => w.EntersStop i → w.NoPendingWrite) (new batchRows queueCapacity hcapacity) inputs) :
    LosesNothing partition
      (inputs.foldl (AsyncPartitionedParquetWriter.step partition)
        (new batchRows queueCapacity hcapacity)) := by
  have hstep : ∀ (w : AsyncPartitionedParquetWriter R P) (i : WriterInput R), Sound partition w →
      (w.EntersStop i → w.NoPendingWrite) → Sound partition (w.step partition i) :=
    fun _ i hs => hs.step i
  exact (invariant_of_admitted hstep (Sound.new batchRows queueCapacity hcapacity)
    hinputs).losesNothing

/-- Two writes on a queue of one place: the second waits for its put when the first is taken, and is
done before the sentinel enters. -/
def waitingWrite : List (WriterInput Nat) :=
  [.start, .write 7, .write 8, .runPut 1, .getItem, .runPut 1, .resumeWrite 1, .close, .runClose,
    .getItem, .runStopPut, .resumeClose, .getItem, .fileWritten, .returnClose]

theorem clean_close_loses_nothing_after_waiting :
    Admitted (AsyncPartitionedParquetWriter.step id) (fun w i => w.EntersStop i → w.NoPendingWrite)
      (new 2 1 Nat.one_pos) waitingWrite ∧
    LosesNothing id (waitingWrite.foldl (AsyncPartitionedParquetWriter.step id)
      (new 2 1 Nat.one_pos)) := by
  have hadmitted : Admitted (AsyncPartitionedParquetWriter.step id)
      (fun w i => w.EntersStop i → w.NoPendingWrite) (new 2 1 Nat.one_pos) waitingWrite := by
    decide +kernel
  exact ⟨hadmitted, clean_close_loses_nothing id 2 1 Nat.one_pos waitingWrite hadmitted⟩

/-- The sentinel takes the slot of a write that waits; the write puts behind it and returns, and its
record stays on the queue. -/
def latePut : List (WriterInput Nat) :=
  [.start, .write 7, .write 8, .runPut 1, .getItem, .close, .runClose, .runPut 1, .getItem,
    .runPut 1, .resumeWrite 1, .fileWritten, .returnClose]

theorem late_put_is_lost :
    ¬ LosesNothing id (latePut.foldl (AsyncPartitionedParquetWriter.step id)
      (new 2 1 Nat.one_pos)) := by
  intro h
  have hcount := (h (by decide +kernel) 1 8 (by decide +kernel)).2
  revert hcount
  decide +kernel

end AsyncPartitionedParquetWriter

end Cvf
