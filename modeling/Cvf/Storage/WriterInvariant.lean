/-
# Cvf.Storage.WriterInvariant — what a feature writer keeps in every schedule.

`Sound`: rows on disk and rows on their way are those found and those put on the queue, ids differ, and
while the worker runs the index stands for the rows on disk and the pending ones
(`FeatureDeduplication.Holds`).  A reservation therefore finds the content that first came with its id,
whatever the cache has forgotten (`Sound.reserve_spec`).
-/
import Cvf.Storage.FeatureWriter

namespace Cvf

open Cvf.Library

variable {F : Type}

/-! ## The reference -/

/-- The content that first came with an id: found on disk, or put on the queue by a call. -/
def firstContent (found : List (FeatureEnvelope F)) (calls : List (FeatureWriteCall F)) (id : Uuid) :
    Option (String × String × String) :=
  ((found ++ calls.filterMap FeatureWriteCall.content?).find? (·.featureSnapshotId = id)).map
    (·.contentIdentity)

/-- What a write of a content is told by the first content of its id. -/
def firstOutcome (first : Option (String × String × String)) (identity : String × String × String) :
    FeatureWriteOutcome :=
  match first with
  | none => .accepted
  | some existing => if existing = identity then .deduplicated else .raised .conflict

theorem firstOutcome_same (identity : String × String × String) :
    firstOutcome (some identity) identity = .deduplicated := if_pos rfl

theorem firstOutcome_other {first identity : String × String × String} (h : first ≠ identity) :
    firstOutcome (some first) identity = .raised .conflict := if_neg h

theorem firstContent_eq_none_iff {found : List (FeatureEnvelope F)} {calls : List (FeatureWriteCall F)}
    {id : Uuid} :
    firstContent found calls id = none ↔
      ∀ e ∈ found ++ calls.filterMap FeatureWriteCall.content?, e.featureSnapshotId ≠ id := by
  unfold firstContent
  rw [Option.map_eq_none_iff, List.find?_eq_none]
  simp only [decide_eq_true_eq]

theorem firstContent_eq_some {found : List (FeatureEnvelope F)} {calls : List (FeatureWriteCall F)}
    (hids : ((found ++ calls.filterMap FeatureWriteCall.content?).map (·.featureSnapshotId)).Nodup)
    {e : FeatureEnvelope F} (he : e ∈ found ++ calls.filterMap FeatureWriteCall.content?) :
    firstContent found calls e.featureSnapshotId = some e.contentIdentity := by
  unfold firstContent
  cases hfind : (found ++ calls.filterMap FeatureWriteCall.content?).find?
      (fun other => decide (other.featureSnapshotId = e.featureSnapshotId)) with
  | none => exact absurd (decide_eq_true rfl) (List.find?_eq_none.mp hfind e he)
  | some other =>
    have hid : other.featureSnapshotId = e.featureSnapshotId := by simpa using List.find?_some hfind
    rw [List.inj_on_of_nodup_map hids (List.mem_of_find?_eq_some hfind) he hid]
    rfl

/-- A call that got to its reservation was answered by the first content before it: it is told so, or,
where it was to be accepted, it failed on its way. -/
def Explains (first : Option (String × String × String)) (e : FeatureEnvelope F)
    (outcome : FeatureWriteOutcome) (enqueued : Bool) : Prop :=
  (outcome = firstOutcome first e.contentIdentity ∧ (enqueued = true ↔ first = none)) ∨
    (first = none ∧ outcome ≠ .accepted ∧ outcome ≠ .deduplicated ∧ outcome ≠ .raised .conflict)

def Explained (found : List (FeatureEnvelope F)) (calls : List (FeatureWriteCall F)) : Prop :=
  ∀ before e outcome enqueued after, calls = before ++ .ended e outcome enqueued :: after →
    Explains (firstContent found before e.featureSnapshotId) e outcome enqueued

theorem Explained.snoc {found : List (FeatureEnvelope F)} {calls : List (FeatureWriteCall F)}
    (h : Explained found calls) {call : FeatureWriteCall F}
    (hcall : ∀ e outcome enqueued, call = .ended e outcome enqueued →
      Explains (firstContent found calls e.featureSnapshotId) e outcome enqueued) :
    Explained found (calls ++ [call]) := by
  intro before e outcome enqueued after heq
  rcases List.eq_nil_or_concat after with rfl | ⟨after, last, rfl⟩
  · obtain ⟨rfl, hlast⟩ := List.append_inj' heq rfl
    exact hcall e outcome enqueued (List.singleton_inj.mp hlast)
  · have hfront : calls ++ [call] =
        (before ++ .ended e outcome enqueued :: after) ++ [last] := by simpa using heq
    exact h before e outcome enqueued after (List.append_inj' hfront rfl).1

namespace AsyncFeatureParquetWriter

/-! ## What the writer holds -/

/-- The submissions of the worker's files. -/
def held : FeatureWorkerPhase F → List (FeatureEnvelope F)
  | .flushing groups _ => groups.flatMap Prod.snd
  | _ => []

/-- The submissions on their way to disk. -/
def pending (w : AsyncFeatureParquetWriter F) : List (FeatureEnvelope F) :=
  held w.worker ++ w.batch ++ w.queue.items.filterMap FeatureQueueItem.envelope?

/-- The submission in flight that has not entered the queue. -/
def reserved (w : AsyncFeatureParquetWriter F) : List (FeatureEnvelope F) :=
  match w.inFlight with
  | none => []
  | some (_, .done) => []
  | some (e, _) => [e]

/-- The submission in flight that has. -/
def entered (w : AsyncFeatureParquetWriter F) : List (FeatureEnvelope F) :=
  match w.inFlight with
  | some (e, .done) => [e]
  | _ => []

/-- The contents put on the queue. -/
def contents (w : AsyncFeatureParquetWriter F) : List (FeatureEnvelope F) :=
  w.calls.filterMap FeatureWriteCall.content? ++ w.entered

/-- Started and not failed. -/
def Working : FeatureWorkerPhase F → Prop
  | .absent => False
  | .failed _ => False
  | _ => True

/-- The index is in use: the worker has not failed, and `close` has not ended. -/
def Running (w : AsyncFeatureParquetWriter F) : Prop :=
  Working w.worker ∧ w.close ≠ .returned ∧ w.close ≠ .raised

structure Sound (w : AsyncFeatureParquetWriter F) : Prop where
  explained : Explained w.found w.calls
  unstarted : w.worker = .absent → w.disk = w.found ∧ w.contents = [] ∧ w.inFlight = none ∧
    w.pending = [] ∧ w.store.deduplication = []
  ids : w.worker ≠ .absent → ((w.found ++ w.contents ++ w.reserved).map (·.featureSnapshotId)).Nodup
  conserved : (∀ error, w.worker ≠ .failed error) → (w.disk ++ w.pending).Perm (w.found ++ w.contents)
  kept : (w.disk ++ w.pending).Subperm (w.found ++ w.contents)
  running : w.Running → w.store.Holds w.disk (w.pending ++ w.reserved)

variable {w w' : AsyncFeatureParquetWriter F}

theorem ne_absent_of_working (h : Working w.worker) : w.worker ≠ .absent := by
  intro hworker
  rw [hworker] at h
  exact h

theorem ne_failed_of_working (h : Working w.worker) (error : String) : w.worker ≠ .failed error := by
  intro hworker
  rw [hworker] at h
  exact h

/-! ## Steps of the worker and of close -/

/-- A step that moves submissions on, or loses some where the worker fails, and ends no call. -/
theorem Sound.move (h : w.Sound) (hfound : w'.found = w.found) (hcalls : w'.calls = w.calls)
    (hreserved : w'.reserved = w.reserved) (hentered : w'.entered = w.entered)
    (hdisk : w'.disk = w.disk)
    (hpending : w'.pending.Subperm w.pending)
    (hwhole : (∀ error, w'.worker ≠ .failed error) →
      (∀ error, w.worker ≠ .failed error) ∧ w'.pending.Perm w.pending)
    (habsent : w'.worker = .absent ↔ w.worker = .absent)
    (hinFlight : w.inFlight = none → w'.inFlight = none)
    (hcache : w'.store.deduplication = w.store.deduplication)
    (hrunning : w'.Running → w.Running ∧ w'.store = w.store) : w'.Sound where
  explained := by
    rw [hfound, hcalls]
    exact h.explained
  unstarted := by
    intro hworker
    obtain ⟨hsame, hcontents, hnone, hempty, hforgotten⟩ := h.unstarted (habsent.mp hworker)
    refine ⟨by rw [hdisk, hfound, hsame], ?_, hinFlight hnone, ?_, hcache.trans hforgotten⟩
    · unfold contents at hcontents ⊢
      rwa [hcalls, hentered]
    · rw [hempty] at hpending
      exact List.subperm_nil.mp hpending
  ids := by
    intro hworker
    have hids := h.ids (mt habsent.mpr hworker)
    unfold contents at hids ⊢
    rwa [hfound, hcalls, hentered, hreserved]
  conserved := by
    intro hworker
    obtain ⟨hbefore, hperm⟩ := hwhole hworker
    have hconserved := h.conserved hbefore
    unfold contents at hconserved ⊢
    rw [hfound, hcalls, hentered, hdisk]
    exact (hperm.append_left _).trans hconserved
  kept := by
    have hkept := h.kept
    unfold contents at hkept ⊢
    rw [hfound, hcalls, hentered, hdisk]
    exact (List.Subperm.append (List.Subperm.refl _) hpending).trans hkept
  running := by
    intro hrun
    obtain ⟨hbefore, hstore⟩ := hrunning hrun
    rw [hstore, hdisk, hreserved]
    refine (h.running hbefore).perm (List.Perm.refl _) (List.Perm.append_right _ ?_)
    exact (hwhole (ne_failed_of_working hrun.1)).2

/-- The worker fails, or the close ends: what is lost was pending. -/
theorem Sound.failWorker (h : w.Sound) (hworker : w.worker ≠ .absent) (error : String) :
    (w.failWorker error).Sound := by
  refine h.move rfl rfl rfl rfl rfl ?_ ?_ ⟨fun hphase => ?_, fun hphase => absurd hphase hworker⟩ id rfl ?_
  · unfold pending
    show ([] ++ w.batch ++ _).Subperm _
    rw [List.append_assoc, List.append_assoc, List.nil_append]
    exact (List.sublist_append_right _ _).subperm
  · exact fun hne => absurd rfl (hne error)
  · cases hphase
  · exact fun hrun => hrun.1.elim

theorem Sound.closed (h : w.Sound) {phase : ClosePhase} (hphase : phase = .returned ∨ phase = .raised) :
    (w.closed phase).Sound := by
  refine h.move rfl rfl rfl rfl rfl (List.Subperm.refl _) (fun hne => ⟨hne, List.Perm.refl _⟩) Iff.rfl id
    rfl ?_
  rintro ⟨-, hreturned, hraised⟩
  exact (hphase.elim hreturned hraised).elim

theorem held_afterFlush (stopping : Bool) : held (afterFlush stopping : FeatureWorkerPhase F) = [] := by
  unfold afterFlush
  split_ifs <;> rfl

theorem held_behindFile (groups : List (FeaturePartition × List (FeatureEnvelope F))) (stopping : Bool) :
    held (behindFile groups stopping) = groups.flatMap Prod.snd := by
  unfold behindFile
  split_ifs with hempty
  · rw [held_afterFlush, List.isEmpty_iff.mp hempty]
    rfl
  · rfl

/-- A worker that has a file less to write goes on working. -/
theorem working_behindFile (groups : List (FeaturePartition × List (FeatureEnvelope F)))
    (stopping : Bool) : Working (behindFile groups stopping) := by
  unfold behindFile afterFlush
  split_ifs <;> exact trivial

/-- A flush sorts the batch into files. -/
theorem pending_flush_perm (w : AsyncFeatureParquetWriter F) (hheld : held w.worker = [])
    (stopping : Bool) : (w.flush stopping).pending.Perm w.pending := by
  unfold flush pending
  split_ifs with hempty
  · rw [hheld]
    show (held (afterFlush stopping) ++ w.batch ++ _).Perm _
    rw [held_afterFlush]
  · rw [hheld]
    show ((flushGroups w.batch).flatMap Prod.snd ++ [] ++ _).Perm _
    rw [List.append_nil, List.nil_append]
    apply List.Perm.append_right
    exact ((sortByKey_perm _ _).flatMap_right _).trans (groupByKey_perm _ _)

theorem working_flush (w : AsyncFeatureParquetWriter F) (stopping : Bool) :
    Working (w.flush stopping).worker := by
  unfold flush afterFlush
  split_ifs <;> exact trivial

/-- What is not the worker's stays as it is in a flush. -/
theorem flush_rest (w : AsyncFeatureParquetWriter F) (stopping : Bool) :
    (w.flush stopping).found = w.found ∧ (w.flush stopping).calls = w.calls ∧
      (w.flush stopping).inFlight = w.inFlight ∧ (w.flush stopping).disk = w.disk ∧
      (w.flush stopping).store = w.store ∧ (w.flush stopping).close = w.close := by
  unfold flush
  split_ifs <;> exact ⟨rfl, rfl, rfl, rfl, rfl, rfl⟩

theorem Sound.flush (h : w.Sound) (hgetting : w.worker = .getting) (stopping : Bool) :
    (w.flush stopping).Sound := by
  obtain ⟨hfound, hcalls, hinFlight, hdisk, hstore, hclose⟩ := flush_rest w stopping
  have hperm := pending_flush_perm w (by rw [hgetting]; rfl) stopping
  have hworking := working_flush w stopping
  have hbefore : Working w.worker := by
    rw [hgetting]
    exact trivial
  refine h.move hfound hcalls ?_ ?_ hdisk hperm.subperm (fun _ => ⟨?_, hperm⟩) ?_ ?_
    (by rw [hstore]) ?_
  · unfold reserved
    rw [hinFlight]
  · unfold entered
    rw [hinFlight]
  · exact ne_failed_of_working hbefore
  · exact iff_of_false (ne_absent_of_working hworking) (ne_absent_of_working hbefore)
  · exact fun hnone => hinFlight.trans hnone
  · rintro ⟨-, hreturned, hraised⟩
    rw [hclose] at hreturned hraised
    exact ⟨⟨hbefore, hreturned, hraised⟩, hstore⟩

/-- Waking a putter changes the phase it is in. -/
theorem Sound.wake (h : w.Sound) (woken : Option FeaturePutter) : (w.wake woken).Sound := by
  unfold AsyncFeatureParquetWriter.wake
  split
  · exact h
  · split_ifs with hclose
    · refine h.move rfl rfl rfl rfl rfl (List.Subperm.refl _) (fun hne => ⟨hne, List.Perm.refl _⟩) Iff.rfl
        id rfl ?_
      rintro ⟨hphase, -⟩
      refine ⟨⟨hphase, ?_, ?_⟩, rfl⟩ <;> rw [hclose] <;> exact fun h => by cases h
    · exact h
  · split
    · rename_i e hinFlight
      refine h.move rfl rfl ?_ ?_ rfl (List.Subperm.refl _) (fun hne => ⟨hne, List.Perm.refl _⟩) Iff.rfl ?_
        rfl fun hrun => ⟨hrun, rfl⟩
      · unfold reserved
        rw [hinFlight]
      · unfold entered
        rw [hinFlight]
      · rw [hinFlight]
        exact fun h => by cases h
    · exact h

/-- The worker takes an item off the queue. -/
theorem Sound.take (h : w.Sound) (hgetting : w.worker = .getting) {item : FeatureQueueItem F}
    {queue : AsyncQueue FeaturePutter (FeatureQueueItem F)} {batch : List (FeatureEnvelope F)}
    (hitems : w.queue.items = item :: queue.items) (hbatch : batch = w.batch ++ item.envelope?.toList) :
    Sound { w with queue, batch } := by
  have hsame : pending { w with queue, batch } = w.pending := by
    unfold pending
    rw [hitems, hbatch]
    cases item with
    | submission e => simp [FeatureQueueItem.envelope?, hgetting, held]
    | stop => simp [FeatureQueueItem.envelope?, List.filterMap_cons, hgetting, held]
  refine h.move rfl rfl rfl rfl rfl ?_ (fun hne => ⟨hne, ?_⟩) Iff.rfl id rfl
    fun hrun => ⟨hrun, rfl⟩
  · rw [hsame]
  · rw [hsame]

/-- A published file: its rows go from the pending ones to those on disk. -/
theorem Sound.fileWritten (h : w.Sound) {group : FeaturePartition × List (FeatureEnvelope F)}
    {groups : List (FeaturePartition × List (FeatureEnvelope F))} {stopping : Bool}
    (hworker : w.worker = .flushing (group :: groups) stopping) :
    (w.fileWritten group.2 groups stopping).Sound := by
  let next : AsyncFeatureParquetWriter F :=
    { w with
      disk := w.disk ++ group.2
      store := (w.store.markCommitted group.2).2
      worker := behindFile groups stopping }
  have hheld : held next.worker = groups.flatMap Prod.snd := held_behindFile groups stopping
  have hworking : Working next.worker := working_behindFile groups stopping
  have hpending : w.pending = group.2 ++ next.pending := by
    unfold pending
    rw [hheld, hworker]
    show (group.2 ++ groups.flatMap Prod.snd) ++ w.batch ++ _ =
      group.2 ++ (groups.flatMap Prod.snd ++ w.batch ++ w.queue.items.filterMap _)
    simp only [List.append_assoc]
  have hsame : next.disk ++ next.pending = w.disk ++ w.pending := by
    rw [hpending]
    exact List.append_assoc _ _ _
  have hbefore : Working w.worker := by
    rw [hworker]
    exact trivial
  have hcommit : next.Running → (w.store.markCommitted group.2).1 = true ∧
      next.store.Holds next.disk (next.pending ++ next.reserved) := by
    rintro ⟨-, hreturned, hraised⟩
    have hholds := h.running ⟨hbefore, hreturned, hraised⟩
    rw [hpending, List.append_assoc] at hholds
    exact hholds.markCommitted
  have hsound : next.Sound :=
    { explained := h.explained
      unstarted := fun hphase => absurd hphase (ne_absent_of_working hworking)
      ids := fun _ => h.ids (ne_absent_of_working hbefore)
      conserved := fun _ => hsame ▸ h.conserved (ne_failed_of_working hbefore)
      kept := hsame ▸ h.kept
      running := fun hrun => (hcommit hrun).2 }
  unfold AsyncFeatureParquetWriter.fileWritten
  dsimp only
  split_ifs with hall
  · exact hsound
  · exact Sound.failWorker hsound (ne_absent_of_working hworking) _

/-! ## Steps of a write -/

theorem Sound.refuse (h : w.Sound) (error : FeatureParquetError) : (w.refuse error).Sound := by
  have hcontents : (w.refuse error).contents = w.contents := by
    unfold contents AsyncFeatureParquetWriter.refuse
    rw [List.filterMap_append]
    show (_ ++ []) ++ _ = _
    rw [List.append_nil]
    rfl
  exact
    { explained := h.explained.snoc fun e outcome enqueued hcall => by cases hcall
      unstarted := by
        rw [hcontents]
        exact h.unstarted
      ids := by
        rw [hcontents]
        exact h.ids
      conserved := by
        rw [hcontents]
        exact h.conserved
      kept := by
        rw [hcontents]
        exact h.kept
      running := h.running }

/-- A new id is reserved for the write in flight. -/
theorem Sound.fly (h : w.Sound) (hrun : w.Running) (hfree : w.inFlight = none) {e : FeatureEnvelope F}
    {store : FeatureDeduplication} (hstore : store.Holds w.disk (w.pending ++ [e])) :
    Sound { w with store, inFlight := some (e, .created) } := by
  have hentered : w.entered = [] := by
    unfold entered
    rw [hfree]
  have hcontents : contents { w with store, inFlight := some (e, .created) } = w.contents := by
    unfold contents
    rw [hentered]
    rfl
  have hconserved := h.conserved (ne_failed_of_working hrun.1)
  exact
    { explained := h.explained
      unstarted := fun habsent => absurd habsent (ne_absent_of_working hrun.1)
      ids := by
        intro _
        rw [hcontents]
        have hids := hstore.ids
        rw [← List.append_assoc] at hids
        exact ((hconserved.append_right [e]).map _).nodup_iff.mp hids
      conserved := by
        rw [hcontents]
        exact h.conserved
      kept := by
        rw [hcontents]
        exact h.kept
      running := fun _ => hstore }

theorem reserved_of_inFlight {e : FeatureEnvelope F} {put : PutPhase}
    (hinFlight : w.inFlight = some (e, put)) (hput : put ≠ .done) : w.reserved = [e] := by
  unfold reserved
  rw [hinFlight]
  cases put with
  | done => exact absurd rfl hput
  | created => rfl
  | waiting => rfl
  | woken => rfl

theorem entered_of_inFlight {e : FeatureEnvelope F} {put : PutPhase}
    (hinFlight : w.inFlight = some (e, put)) (hput : put ≠ .done) : w.entered = [] := by
  unfold entered
  rw [hinFlight]
  cases put with
  | done => exact absurd rfl hput
  | created => rfl
  | waiting => rfl
  | woken => rfl

/-- A write is in flight only behind a start. -/
theorem Sound.ne_absent (h : w.Sound) {e : FeatureEnvelope F} {put : PutPhase}
    (hinFlight : w.inFlight = some (e, put)) : w.worker ≠ .absent := by
  intro habsent
  obtain ⟨-, -, hnone, -, -⟩ := h.unstarted habsent
  rw [hinFlight] at hnone
  cases hnone

/-- The submission in flight enters the queue. -/
theorem Sound.put (h : w.Sound) {e : FeatureEnvelope F} {put : PutPhase}
    (hinFlight : w.inFlight = some (e, put)) (hput : put ≠ .done)
    {queue : AsyncQueue FeaturePutter (FeatureQueueItem F)}
    (hqueue : queue.items = w.queue.items ++ [.submission e]) :
    Sound { w with queue, inFlight := some (e, .done) } := by
  have hreserved := reserved_of_inFlight hinFlight hput
  have hentered := entered_of_inFlight hinFlight hput
  have hcontents : contents { w with queue, inFlight := some (e, .done) } = w.contents ++ [e] := by
    unfold contents
    rw [hentered, List.append_nil]
    rfl
  have hpending : pending { w with queue, inFlight := some (e, .done) } = w.pending ++ [e] := by
    unfold pending
    show _ ++ w.batch ++ queue.items.filterMap _ = _
    rw [hqueue, List.filterMap_append, ← List.append_assoc]
    rfl
  exact
    { explained := h.explained
      unstarted := fun habsent => absurd habsent (h.ne_absent hinFlight)
      ids := by
        intro habsent
        have hids := h.ids habsent
        rw [hcontents]
        rw [hreserved] at hids
        show ((w.found ++ (w.contents ++ [e]) ++ []).map _).Nodup
        rwa [List.append_nil, ← List.append_assoc]
      conserved := by
        intro hworker
        rw [hcontents, hpending, ← List.append_assoc, ← List.append_assoc]
        exact (h.conserved hworker).append_right [e]
      kept := by
        rw [hcontents, hpending, ← List.append_assoc, ← List.append_assoc]
        exact h.kept.append (List.Subperm.refl [e])
      running := by
        intro hrun
        have hholds := h.running hrun
        rw [hpending]
        rw [hreserved] at hholds
        show w.store.Holds w.disk (w.pending ++ [e] ++ [])
        rwa [List.append_nil] }

/-- No content of an id in flight came before. -/
theorem Sound.firstContent_inFlight (h : w.Sound) {e : FeatureEnvelope F} {put : PutPhase}
    (hinFlight : w.inFlight = some (e, put)) :
    firstContent w.found w.calls e.featureSnapshotId = none := by
  have hids := h.ids (h.ne_absent hinFlight)
  have hlast : w.found ++ w.contents ++ w.reserved =
      w.found ++ w.calls.filterMap FeatureWriteCall.content? ++ [e] := by
    unfold contents
    by_cases hput : put = .done
    · have hentered : w.entered = [e] := by
        unfold entered
        rw [hinFlight, hput]
      have hreserved : w.reserved = [] := by
        unfold reserved
        rw [hinFlight, hput]
      rw [hentered, hreserved, List.append_nil, List.append_assoc]
    · rw [reserved_of_inFlight hinFlight hput, entered_of_inFlight hinFlight hput, List.append_nil]
  rw [hlast, List.map_append, List.nodup_append] at hids
  rw [firstContent_eq_none_iff]
  intro other hother
  exact hids.2.2 _ (List.mem_map.mpr ⟨other, hother, rfl⟩) _ (List.mem_singleton.mpr rfl)

/-- An outcome of a write that failed on its way. -/
def Failing (outcome : FeatureWriteOutcome) : Prop :=
  outcome ≠ .accepted ∧ outcome ≠ .deduplicated ∧ outcome ≠ .raised .conflict

/-- A call ends whose submission is on the queue. -/
theorem Sound.endEntered (h : w.Sound) {e : FeatureEnvelope F} (hinFlight : w.inFlight = some (e, .done))
    {outcome : FeatureWriteOutcome} (houtcome : outcome = .accepted ∨ Failing outcome) :
    (w.endCall e outcome true).Sound := by
  have hfirst := h.firstContent_inFlight hinFlight
  have hentered : w.entered = [e] := by
    unfold entered
    rw [hinFlight]
  have hreserved : w.reserved = [] := by
    unfold reserved
    rw [hinFlight]
  have hcontents : (w.endCall e outcome true).contents = w.contents := by
    unfold contents
    rw [hentered]
    show (w.calls ++ [_]).filterMap _ ++ [] = _
    rw [List.filterMap_append, List.append_nil]
    rfl
  have hexplains : Explains (firstContent w.found w.calls e.featureSnapshotId) e outcome true := by
    rw [hfirst]
    rcases houtcome with rfl | hfailing
    · exact .inl ⟨rfl, iff_of_true rfl rfl⟩
    · exact .inr ⟨rfl, hfailing⟩
  exact
    { explained := by
        refine h.explained.snoc ?_
        rintro e' outcome' enqueued' ⟨⟩
        exact hexplains
      unstarted := fun habsent => absurd habsent (h.ne_absent hinFlight)
      ids := by
        intro habsent
        have hids := h.ids habsent
        rw [hreserved] at hids
        rw [hcontents]
        exact hids
      conserved := by
        rw [hcontents]
        exact h.conserved
      kept := by
        rw [hcontents]
        exact h.kept
      running := by
        intro hrun
        have hholds := h.running hrun
        rw [hreserved] at hholds
        exact hholds }

/-- A call ends whose submission is not, and withdraws its reservation. -/
theorem Sound.withdraw (h : w.Sound) {e : FeatureEnvelope F} {put : PutPhase}
    (hinFlight : w.inFlight = some (e, put)) (hput : put ≠ .done) {outcome : FeatureWriteOutcome}
    (houtcome : Failing outcome) : (w.withdraw e outcome).Sound := by
  have hreserved := reserved_of_inFlight hinFlight hput
  have hentered := entered_of_inFlight hinFlight hput
  have hcontents : (w.withdraw e outcome).contents = w.contents := by
    unfold contents
    rw [hentered]
    show (w.calls ++ [_]).filterMap _ ++ [] = _
    rw [List.filterMap_append]
    show (_ ++ []) ++ [] = _
    rw [List.append_nil]
  exact
    { explained := by
        refine h.explained.snoc ?_
        rintro e' outcome' enqueued' ⟨⟩
        exact .inr ⟨h.firstContent_inFlight hinFlight, houtcome⟩
      unstarted := fun habsent => absurd habsent (h.ne_absent hinFlight)
      ids := by
        intro habsent
        have hids := h.ids habsent
        rw [hreserved, List.map_append] at hids
        rw [hcontents]
        show ((w.found ++ w.contents ++ []).map _).Nodup
        rw [List.append_nil]
        exact hids.of_append_left
      conserved := by
        rw [hcontents]
        exact h.conserved
      kept := by
        rw [hcontents]
        exact h.kept
      running := by
        intro hrun
        have hholds := h.running hrun
        rw [hreserved] at hholds
        show (w.store.rollbackReservation e).Holds w.disk (w.pending ++ [])
        rw [List.append_nil]
        exact hholds.rollbackReservation }

/-- A write in flight that does not end with `ACCEPTED`. -/
theorem Sound.abandon (h : w.Sound) {e : FeatureEnvelope F} {put : PutPhase}
    (hinFlight : w.inFlight = some (e, put)) {outcome : FeatureWriteOutcome}
    (houtcome : Failing outcome) : (w.abandon e put outcome).Sound := by
  unfold AsyncFeatureParquetWriter.abandon
  split_ifs with hput
  · rw [hput] at hinFlight
    exact h.endEntered hinFlight (.inr houtcome)
  · exact h.withdraw hinFlight hput houtcome

/-- An id that is known, or in conflict. -/
theorem Sound.endKnown (h : w.Sound) (hrun : w.Running) (hfree : w.inFlight = none)
    {e : FeatureEnvelope F} {store : FeatureDeduplication} (hstore : store.Holds w.disk w.pending)
    {first : String × String × String}
    (hfirst : firstContent w.found w.calls e.featureSnapshotId = some first) :
    Sound (endCall { w with store } e (firstOutcome (some first) e.contentIdentity) false) := by
  have hentered : w.entered = [] := by
    unfold entered
    rw [hfree]
  have hreserved : w.reserved = [] := by
    unfold reserved
    rw [hfree]
  have hcontents : contents (endCall { w with store } e (firstOutcome (some first) e.contentIdentity)
      false) = w.contents := by
    unfold contents
    rw [hentered]
    show (w.calls ++ [_]).filterMap _ ++ [] = _
    rw [List.filterMap_append]
    show (_ ++ []) ++ [] = _
    rw [List.append_nil]
  have hworker := hrun.1
  exact
    { explained := by
        refine h.explained.snoc ?_
        rintro e' outcome' enqueued' ⟨⟩
        show Explains (firstContent w.found w.calls e.featureSnapshotId) _ _ _
        rw [hfirst]
        exact .inl ⟨rfl, iff_of_false Bool.false_ne_true (Option.some_ne_none _)⟩
      unstarted := fun habsent => absurd habsent (ne_absent_of_working hworker)
      ids := by
        intro habsent
        have hids := h.ids habsent
        rw [hreserved] at hids
        rw [hcontents]
        exact hids
      conserved := by
        rw [hcontents]
        exact h.conserved
      kept := by
        rw [hcontents]
        exact h.kept
      running := by
        intro _
        show store.Holds w.disk (w.pending ++ [])
        rwa [List.append_nil] }

/-- With no write in flight, the rows the writer holds are the contents that came first. -/
theorem Sound.mem_iff (h : w.Sound) (hrun : w.Running) (hfree : w.inFlight = none)
    {e : FeatureEnvelope F} :
    e ∈ w.disk ++ w.pending ↔ e ∈ w.found ++ w.calls.filterMap FeatureWriteCall.content? := by
  have hconserved := h.conserved (ne_failed_of_working hrun.1)
  unfold contents entered at hconserved
  rw [hfree, List.append_nil] at hconserved
  exact hconserved.mem_iff

theorem Sound.holds (h : w.Sound) (hrun : w.Running) (hfree : w.inFlight = none) :
    w.store.Holds w.disk w.pending := by
  have hholds := h.running hrun
  unfold reserved at hholds
  rwa [hfree, List.append_nil] at hholds

theorem Sound.firstContent_of_mem (h : w.Sound) (hrun : w.Running) (hfree : w.inFlight = none)
    {e : FeatureEnvelope F} (he : e ∈ w.disk ++ w.pending) :
    firstContent w.found w.calls e.featureSnapshotId = some e.contentIdentity := by
  have hids := h.ids (ne_absent_of_working hrun.1)
  unfold contents entered reserved at hids
  rw [hfree, List.append_nil, List.append_nil] at hids
  exact firstContent_eq_some hids ((h.mem_iff hrun hfree).mp he)

/-- A reservation is answered by the first content of its id. -/
theorem Sound.reserve_spec (h : w.Sound) (hrun : w.Running) (hfree : w.inFlight = none)
    (e : FeatureEnvelope F) :
    ((w.store.reserve e).1 = .reserved ∧
        firstContent w.found w.calls e.featureSnapshotId = none ∧
        (w.store.reserve e).2.Holds w.disk (w.pending ++ [e])) ∨
      ((w.store.reserve e).1 = .known ∧
        firstContent w.found w.calls e.featureSnapshotId = some e.contentIdentity ∧
        (w.store.reserve e).2.Holds w.disk w.pending) ∨
      ((w.store.reserve e).1 = .conflict ∧
        (∃ first, first ≠ e.contentIdentity ∧
          firstContent w.found w.calls e.featureSnapshotId = some first) ∧
        (w.store.reserve e).2.Holds w.disk w.pending) := by
  rcases (h.holds hrun hfree).reserve e with ⟨hanswer, hfresh, hholds⟩ |
      ⟨hanswer, ⟨other, hother, hid, hsame⟩, hholds⟩ | ⟨hanswer, ⟨other, hother, hid, hne⟩, hholds⟩
  · refine .inl ⟨hanswer, firstContent_eq_none_iff.mpr ?_, hholds⟩
    exact fun other hother => hfresh other ((h.mem_iff hrun hfree).mpr hother)
  · refine .inr (.inl ⟨hanswer, ?_, hholds⟩)
    rw [← hid, ← hsame]
    exact h.firstContent_of_mem hrun hfree hother
  · refine .inr (.inr ⟨hanswer, ⟨_, hne, ?_⟩, hholds⟩)
    rw [← hid]
    exact h.firstContent_of_mem hrun hfree hother

theorem failing_callback (error : String) : Failing (.raised (.backpressureCallback error)) := by
  refine ⟨?_, ?_, ?_⟩ <;> exact fun h => by cases h

theorem Sound.reserveAndPut (h : w.Sound) (hrun : w.Running) (hfree : w.inFlight = none)
    (e : FeatureEnvelope F) (callback : Option String) : (w.reserveAndPut e callback).Sound := by
  unfold AsyncFeatureParquetWriter.reserveAndPut
  dsimp only
  rcases h.reserve_spec hrun hfree e with ⟨hanswer, -, hholds⟩ | ⟨hanswer, hfirst, hholds⟩ |
      ⟨hanswer, ⟨first, hne, hfirst⟩, hholds⟩
  · rw [hanswer]
    have hfly := h.fly hrun hfree hholds
    dsimp only
    split_ifs with hfull
    · exact (hfly.put rfl (by decide) (AsyncQueue.items_putNowait _ _ hfull)).endEntered rfl (.inl rfl)
    · cases callback with
      | none => exact hfly
      | some error => exact hfly.withdraw rfl (by decide) (failing_callback error)
  · rw [hanswer]
    have hend := h.endKnown hrun hfree hholds hfirst
    rwa [firstOutcome_same] at hend
  · rw [hanswer]
    have hend := h.endKnown hrun hfree hholds hfirst
    rwa [firstOutcome_other hne] at hend

theorem Sound.write (h : w.Sound) (codec : FeatureCodec F) (versions : WriterVersions)
    (snapshot : PersistableFeatureSnapshot F) (callback : Option String) :
    (w.write codec versions snapshot callback).Sound := by
  have hgo : Working w.worker → w.close = .notCalled → ¬ w.inFlight.isSome →
      (w.enterWrite codec versions snapshot callback).Sound := by
    intro hworking hclose hheld
    have hfree : w.inFlight = none := by simpa using hheld
    have hrun : w.Running := by
      refine ⟨hworking, ?_, ?_⟩ <;> rw [hclose] <;> exact fun h => by cases h
    unfold enterWrite
    split
    · exact h.refuse _
    · exact h.reserveAndPut hrun hfree _ _
  unfold AsyncFeatureParquetWriter.write
  split_ifs with hover hclosing hheld
  · exact h.refuse _
  · exact h.refuse _
  · cases w.worker with
    | absent => exact h.refuse _
    | _ => exact h
  · have hclose : w.close = .notCalled := not_not.mp hclosing
    cases hworker : w.worker with
    | absent => exact h.refuse _
    | failed error => exact h.refuse _
    | _ => exact hgo (by rw [hworker]; exact trivial) hclose hheld

/-! ## Runs -/

theorem sound_new (batchRows queueCapacity : Nat) (queueCapacity_pos : 0 < queueCapacity)
    (deduplicationCapacity : Nat) (disk : List (FeatureEnvelope F)) :
    (new batchRows queueCapacity queueCapacity_pos deduplicationCapacity disk).Sound where
  explained := by
    intro before e outcome enqueued after h
    cases before <;> cases h
  unstarted := fun _ => ⟨rfl, rfl, rfl, rfl, rfl⟩
  ids := fun h => absurd rfl h
  conserved := fun _ => List.Perm.refl _
  kept := List.Subperm.refl _
  running := fun h => h.1.elim

/-- A start reads the index off the disk. -/
theorem Sound.start (h : w.Sound) (habsent : w.worker = .absent) {index : List IndexRow}
    (hindex : rebuildFeatureIndex w.disk = .ok index) :
    Sound { w with worker := .getting, store := { w.store with index } } := by
  obtain ⟨hdisk, hcontents, hfree, hpending, hforgotten⟩ := h.unstarted habsent
  have hholds := FeatureDeduplication.holds_of_rebuild w.store.deduplicationCapacity hindex
  have hreserved : w.reserved = [] := by
    unfold reserved
    rw [hfree]
  have hconserved := h.conserved (by rw [habsent]; exact fun error h => by cases h)
  have hnothing : pending { w with worker := .getting, store := { w.store with index } } = [] := by
    unfold pending at hpending ⊢
    rwa [habsent] at hpending
  exact
    { explained := h.explained
      unstarted := fun hworker => by cases hworker
      ids := by
        intro _
        show ((w.found ++ w.contents ++ w.reserved).map _).Nodup
        rw [hcontents, hreserved, ← hdisk]
        have hids := hholds.ids
        simp only [List.append_nil] at hids ⊢
        exact hids
      conserved := by
        intro _
        rw [hnothing]
        rwa [hpending] at hconserved
      kept := by
        rw [hnothing]
        have hkept := h.kept
        rwa [hpending] at hkept
      running := by
        intro _
        rw [hnothing]
        show FeatureDeduplication.Holds { w.store with index } w.disk ([] ++ w.reserved)
        rw [hreserved]
        refine ⟨hholds.ids, hholds.index, ?_⟩
        intro entry hentry
        have hnone : entry ∈ w.store.deduplication := hentry
        rw [hforgotten] at hnone
        exact absurd hnone List.not_mem_nil }

theorem Sound.putStop (h : w.Sound) (hclose : w.close ≠ .returned ∧ w.close ≠ .raised)
    (entered parked : ClosePhase) : (w.putStop entered parked).Sound := by
  unfold AsyncFeatureParquetWriter.putStop
  split_ifs with hfull hparked
  · have hsame : pending { w with queue := w.queue.putNowait .stop hfull, close := entered } =
        w.pending := by
      unfold pending
      show _ ++ w.batch ++ (w.queue.putNowait .stop hfull).items.filterMap _ = _
      rw [AsyncQueue.items_putNowait, List.filterMap_append]
      show _ ++ w.batch ++ (_ ++ []) = _
      rw [List.append_nil]
    refine h.move rfl rfl rfl rfl rfl (by rw [hsame]) (fun hne => ⟨hne, by rw [hsame]⟩) Iff.rfl id rfl ?_
    exact fun hrun => ⟨⟨hrun.1, hclose⟩, rfl⟩
  · refine h.move rfl rfl rfl rfl rfl (List.Subperm.refl _) (fun hne => ⟨hne, List.Perm.refl _⟩) Iff.rfl id
      rfl ?_
    exact fun hrun => ⟨⟨hrun.1, hclose⟩, rfl⟩
  · refine h.move rfl rfl rfl rfl rfl (List.Subperm.refl _) (fun hne => ⟨hne, List.Perm.refl _⟩) Iff.rfl id
      rfl ?_
    exact fun hrun => ⟨⟨hrun.1, hclose⟩, rfl⟩

/-- The close goes on, and nothing else. -/
theorem Sound.setClose (h : w.Sound) (hclose : w.close ≠ .returned ∧ w.close ≠ .raised)
    (phase : ClosePhase) : Sound { w with close := phase } := by
  refine h.move rfl rfl rfl rfl rfl (List.Subperm.refl _) (fun hne => ⟨hne, List.Perm.refl _⟩) Iff.rfl id
    rfl ?_
  exact fun hrun => ⟨⟨hrun.1, hclose⟩, rfl⟩

theorem failing_workerFailed (error : String) : Failing (.raised (.workerFailed error)) := by
  refine ⟨?_, ?_, ?_⟩ <;> exact fun h => by cases h

theorem failing_stopped : Failing (.raised .stoppedUnexpectedly) := by
  refine ⟨?_, ?_, ?_⟩ <;> exact fun h => by cases h

theorem failing_cancelled : Failing .cancelled := by
  refine ⟨?_, ?_, ?_⟩ <;> exact fun h => by cases h

theorem Sound.runPut (h : w.Sound) {e : FeatureEnvelope F} {put : PutPhase}
    (hinFlight : w.inFlight = some (e, put)) (hput : put ≠ .done) : (w.runPut e).Sound := by
  unfold AsyncFeatureParquetWriter.runPut
  split_ifs with hfull
  · exact h.put hinFlight hput (AsyncQueue.items_putNowait _ _ hfull)
  · refine h.move rfl rfl ?_ ?_ rfl (List.Subperm.refl _) (fun hne => ⟨hne, List.Perm.refl _⟩) Iff.rfl ?_
      rfl fun hrun => ⟨hrun, rfl⟩
    · exact (reserved_of_inFlight hinFlight hput).symm
    · exact (entered_of_inFlight hinFlight hput).symm
    · rw [hinFlight]
      exact fun h => by cases h

theorem Sound.resumeWrite (h : w.Sound) {e : FeatureEnvelope F} {put : PutPhase}
    (hinFlight : w.inFlight = some (e, put)) : (w.resumeWrite e put).Sound := by
  unfold AsyncFeatureParquetWriter.resumeWrite
  split
  · exact h.abandon hinFlight (failing_workerFailed _)
  · exact h.abandon hinFlight failing_stopped
  · split_ifs with hput
    · rw [hput] at hinFlight
      exact h.endEntered hinFlight (.inl rfl)
    · exact h

theorem worker_wake (w : AsyncFeatureParquetWriter F) (woken : Option FeaturePutter) :
    (w.wake woken).worker = w.worker := by
  unfold AsyncFeatureParquetWriter.wake
  split
  · rfl
  · split_ifs <;> rfl
  · split <;> rfl

theorem Sound.takeItem (h : w.Sound) (hworker : w.worker = .getting) {item : FeatureQueueItem F}
    {queue : AsyncQueue FeaturePutter (FeatureQueueItem F)}
    (hitems : w.queue.items = item :: queue.items) (woken : Option FeaturePutter) :
    (w.takeItem queue woken item).Sound := by
  cases item with
  | stop =>
    have htaken : Sound { w with queue } := h.take hworker hitems (List.append_nil w.batch).symm
    exact (htaken.wake woken).flush ((worker_wake _ _).trans hworker) true
  | submission e =>
    have htaken : Sound { w with queue, batch := w.batch ++ [e] } := h.take hworker hitems rfl
    unfold AsyncFeatureParquetWriter.takeItem
    dsimp only
    split_ifs with hfull
    · exact (htaken.wake woken).flush ((worker_wake _ _).trans hworker) false
    · exact htaken.wake woken

/-- Every step keeps the invariant. -/
theorem Sound.step (h : w.Sound) (codec : FeatureCodec F) (versions : WriterVersions)
    (input : FeatureWriterInput F) : (w.step codec versions input).Sound := by
  have hopen : ∀ phase, w.close = phase → phase ≠ .returned ∧ phase ≠ .raised →
      w.close ≠ .returned ∧ w.close ≠ .raised := by
    rintro phase rfl hne
    exact hne
  cases input with
  | start =>
    unfold AsyncFeatureParquetWriter.step
    dsimp only
    split
    · rename_i index hworker hindex
      split_ifs with hclose
      · exact h.start hworker hindex
      · exact h
    · exact h
  | write snapshot callback => exact h.write codec versions snapshot callback
  | runPut =>
    unfold AsyncFeatureParquetWriter.step
    dsimp only
    split
    · rename_i e hinFlight
      exact h.runPut hinFlight (by decide)
    · rename_i e hinFlight
      exact h.runPut hinFlight (by decide)
    · exact h
  | resumeWrite =>
    unfold AsyncFeatureParquetWriter.step
    dsimp only
    split
    · rename_i e put hinFlight
      exact h.resumeWrite hinFlight
    · exact h
  | cancelWrite =>
    unfold AsyncFeatureParquetWriter.step
    dsimp only
    split
    · rename_i e put hinFlight
      exact h.abandon hinFlight failing_cancelled
    · exact h
  | getItem =>
    unfold AsyncFeatureParquetWriter.step
    dsimp only
    split
    · rename_i item woken queue hworker hget
      exact h.takeItem hworker (AsyncQueue.items_of_getNowait hget) woken
    · exact h
  | flushTimeout =>
    unfold AsyncFeatureParquetWriter.step
    dsimp only
    split
    · rename_i hworker
      exact h.flush hworker false
    · exact h
  | fileWritten =>
    unfold AsyncFeatureParquetWriter.step
    dsimp only
    split
    · rename_i group groups stopping hworker
      exact h.fileWritten hworker
    · exact h
  | fileFails error =>
    unfold AsyncFeatureParquetWriter.step
    dsimp only
    split
    · rename_i groups stopping hworker
      exact h.failWorker (by rw [hworker]; exact fun h => by cases h) error
    · exact h
  | close =>
    unfold AsyncFeatureParquetWriter.step
    dsimp only
    split_ifs with hclose
    · exact h.setClose (hopen _ hclose (by decide)) _
    · exact h
  | runClose =>
    unfold AsyncFeatureParquetWriter.step
    dsimp only
    split_ifs with hclose
    · have hne := hopen _ hclose.1 (by decide)
      split
      · exact h.setClose hne _
      · exact h.closed (.inr rfl)
      · exact h.putStop hne _ _
    · exact h
  | runStopPut =>
    unfold AsyncFeatureParquetWriter.step
    dsimp only
    split
    · rename_i hclose
      exact h.putStop (hopen _ hclose (by decide)) _ _
    · rename_i hclose
      exact h.putStop (hopen _ hclose (by decide)) _ _
    · exact h
  | resumeClose =>
    unfold AsyncFeatureParquetWriter.step
    dsimp only
    split
    · rename_i put hclose
      have hne := hopen _ hclose (by simp)
      split
      · exact h.closed (.inr rfl)
      · split_ifs
        · exact h.setClose hne _
        · exact h.closed (.inr rfl)
      · split_ifs
        · exact h.setClose hne _
        · exact h
    · exact h
  | returnClose =>
    unfold AsyncFeatureParquetWriter.step
    dsimp only
    split
    · exact h.closed (.inl rfl)
    · exact h.closed (.inr rfl)
    · exact h
  | restart published => exact sound_new _ _ _ _ _

/-- A run of the writer. -/
def run (codec : FeatureCodec F) (versions : WriterVersions) (w : AsyncFeatureParquetWriter F)
    (inputs : List (FeatureWriterInput F)) : AsyncFeatureParquetWriter F :=
  inputs.foldl (fun w input => w.step codec versions input) w

theorem Sound.run (h : w.Sound) (codec : FeatureCodec F) (versions : WriterVersions)
    (inputs : List (FeatureWriterInput F)) : (w.run codec versions inputs).Sound := by
  induction inputs generalizing w with
  | nil => exact h
  | cons input inputs ih => exact ih (h.step codec versions input)

end AsyncFeatureParquetWriter

end Cvf
