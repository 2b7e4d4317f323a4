/-
# Cvf.Storage.FeatureIndex — the identities a feature writer knows.

An LRU of the last few identities stands before an SQLite table with the identity of every id that is
committed or reserved.  `reserve` looks an id up in both and inserts a PENDING row for a new one; the row
is committed with its file, or deleted when the reservation is withdrawn.

`FeatureDeduplication.Holds` says which envelopes the table stands for.  While it does, a cache entry is a
row of the table (`existing_eq_select`), so the cache only saves the lookup.
-/
import Cvf.Library.LastUse
import Cvf.Storage.FeatureRows

namespace Cvf

open Cvf.Library

variable {F : Type}

def FeatureEnvelope.featureSnapshotId (e : FeatureEnvelope F) : Uuid := e.snapshot.featureSnapshotId

/-! ## The table and the cache -/

inductive PersistenceState where
  | pending
  | committed
  deriving DecidableEq, Repr

/-- A row of `feature_snapshot_index`; the id is its primary key. -/
structure IndexRow where
  featureSnapshotId : Uuid
  identity : String × String × String
  persistenceState : PersistenceState
  deriving DecidableEq

def indexRow (state : PersistenceState) (e : FeatureEnvelope F) : IndexRow :=
  { featureSnapshotId := e.featureSnapshotId
    identity := e.contentIdentity
    persistenceState := state }

/-- The row the statement `UPDATE … SET persistence_state = 'COMMITTED'` is about. -/
def IndexRow.isPending (row : IndexRow) (e : FeatureEnvelope F) : Bool := row = indexRow .pending e

structure FeatureDeduplication where
  deduplicationCapacity : Nat
  /-- `_deduplication`, the least recently used first. -/
  deduplication : List (Uuid × (String × String × String)) := []
  index : List IndexRow := []

/-- What `_reserve` found: nothing, the same content, or another one. -/
inductive Reservation where
  | reserved
  | known
  | conflict
  deriving DecidableEq, Repr

/-- The rows of an index, each inserted under its primary key. -/
def insertCommitted (index : List IndexRow) : List (FeatureEnvelope F) → Except String (List IndexRow)
  | [] => .ok index
  | e :: envelopes =>
    if e.featureSnapshotId ∈ index.map (·.featureSnapshotId) then
      .error ("duplicate persisted feature_snapshot_id: " ++ e.featureSnapshotId.str)
    else insertCommitted (index ++ [indexRow .committed e]) envelopes

/-- `_rebuild_feature_index` from the rows on disk. -/
def rebuildFeatureIndex (disk : List (FeatureEnvelope F)) : Except String (List IndexRow) :=
  insertCommitted [] disk

namespace FeatureDeduplication

/-- `_deduplication.get` -/
def remembered (d : FeatureDeduplication) (id : Uuid) : Option (String × String × String) :=
  (d.deduplication.find? (·.1 = id)).map (·.2)

/-- `SELECT … WHERE feature_snapshot_id = ?` -/
def select (d : FeatureDeduplication) (id : Uuid) : Option (String × String × String) :=
  (d.index.find? (·.featureSnapshotId = id)).map (·.identity)

/-- `_remember_identity` -/
def rememberIdentity (d : FeatureDeduplication) (id : Uuid) (identity : String × String × String) :
    FeatureDeduplication :=
  let entries := touch d.deduplication (id, identity)
  { d with deduplication := entries.drop (entries.length - d.deduplicationCapacity) }

/-- `existing` of `_reserve`; the table is asked only when the cache has nothing. -/
def existing (d : FeatureDeduplication) (id : Uuid) : Option (String × String × String) :=
  (d.remembered id).or (d.select id)

/-- `INSERT INTO feature_snapshot_index … 'PENDING'` -/
def insertPending (d : FeatureDeduplication) (e : FeatureEnvelope F) : FeatureDeduplication :=
  { d with index := d.index ++ [indexRow .pending e] }

/-- `_reserve` -/
def reserve (d : FeatureDeduplication) (e : FeatureEnvelope F) : Reservation × FeatureDeduplication :=
  match d.existing e.featureSnapshotId with
  | some identity =>
    if identity ≠ e.contentIdentity then (.conflict, d)
    else (.known, d.rememberIdentity e.featureSnapshotId e.contentIdentity)
  | none =>
    (.reserved, (d.insertPending e).rememberIdentity e.featureSnapshotId e.contentIdentity)

/-- `_rollback_reservation` -/
def rollbackReservation (d : FeatureDeduplication) (e : FeatureEnvelope F) : FeatureDeduplication :=
  { d with
    index := d.index.filter fun row =>
      !(decide (row.featureSnapshotId = e.featureSnapshotId) &&
        decide (row.persistenceState = .pending))
    deduplication :=
      if d.remembered e.featureSnapshotId = some e.contentIdentity then
        d.deduplication.filter (·.1 ≠ e.featureSnapshotId)
      else d.deduplication }

/-- One transaction of `_mark_committed`; none when a reservation has disappeared. -/
def commitChunk (index : List IndexRow) : List (FeatureEnvelope F) → Option (List IndexRow)
  | [] => some index
  | e :: chunk =>
    if index.countP (·.isPending e) = 1 then
      commitChunk (index.map fun row => if row.isPending e then indexRow .committed e else row) chunk
    else none

/-- The transactions of `_mark_committed`, up to one that fails, and whether none did. -/
def commitChunks (index : List IndexRow) : List (List (FeatureEnvelope F)) → Bool × List IndexRow
  | [] => (true, index)
  | chunk :: chunks =>
    match commitChunk index chunk with
    | none => (false, index)
    | some index => commitChunks index chunks

/-- `_INDEX_TRANSACTION_ROWS` -/
def indexTransactionRows : Nat := 1000

/-- `envelopes[offset : offset + size]` for each offset, at most so many. -/
def slices {α : Type} (size : Nat) : Nat → List α → List (List α)
  | 0, _ => []
  | count + 1, xs => if xs.isEmpty then [] else xs.take size :: slices size count (xs.drop size)

/-- `_mark_committed` -/
def markCommitted (d : FeatureDeduplication) (envelopes : List (FeatureEnvelope F)) :
    Bool × FeatureDeduplication :=
  let result := commitChunks d.index (slices indexTransactionRows envelopes.length envelopes)
  (result.1, { d with index := result.2 })

/-- `_rollback_all_pending` -/
def rollbackAllPending (d : FeatureDeduplication) : FeatureDeduplication :=
  { d with index := d.index.filter fun row => decide (row.persistenceState ≠ .pending) }

/-! ## What the table stands for -/

/-- The table has a row for each envelope on disk and for each that is pending, no two of one id, and the
cache has entries of these envelopes. -/
structure Holds (d : FeatureDeduplication) (disk pending : List (FeatureEnvelope F)) : Prop where
  ids : ((disk ++ pending).map (·.featureSnapshotId)).Nodup
  index : d.index.Perm (disk.map (indexRow .committed) ++ pending.map (indexRow .pending))
  cached : ∀ entry ∈ d.deduplication, ∃ e ∈ disk ++ pending,
    entry = (e.featureSnapshotId, e.contentIdentity)

variable {d : FeatureDeduplication} {disk pending : List (FeatureEnvelope F)}

theorem Holds.exists_of_mem_index (h : d.Holds disk pending) {row : IndexRow} (hrow : row ∈ d.index) :
    ∃ e ∈ disk ++ pending, row.featureSnapshotId = e.featureSnapshotId ∧
      row.identity = e.contentIdentity := by
  rcases List.mem_append.mp (h.index.mem_iff.mp hrow) with hrow | hrow
  · obtain ⟨e, he, rfl⟩ := List.mem_map.mp hrow
    exact ⟨e, List.mem_append_left _ he, rfl, rfl⟩
  · obtain ⟨e, he, rfl⟩ := List.mem_map.mp hrow
    exact ⟨e, List.mem_append_right _ he, rfl, rfl⟩

theorem Holds.exists_row (h : d.Holds disk pending) {e : FeatureEnvelope F} (he : e ∈ disk ++ pending) :
    ∃ row ∈ d.index, row.featureSnapshotId = e.featureSnapshotId ∧ row.identity = e.contentIdentity := by
  rcases List.mem_append.mp he with he | he
  · exact ⟨indexRow .committed e, h.index.mem_iff.mpr (List.mem_append_left _
      (List.mem_map.mpr ⟨e, he, rfl⟩)), rfl, rfl⟩
  · exact ⟨indexRow .pending e, h.index.mem_iff.mpr (List.mem_append_right _
      (List.mem_map.mpr ⟨e, he, rfl⟩)), rfl, rfl⟩

/-- One id has one envelope. -/
theorem Holds.eq_of_id (h : d.Holds disk pending) {e e' : FeatureEnvelope F} (he : e ∈ disk ++ pending)
    (he' : e' ∈ disk ++ pending) (hid : e.featureSnapshotId = e'.featureSnapshotId) : e = e' :=
  List.inj_on_of_nodup_map h.ids he he' hid

theorem Holds.select_eq_some_iff (h : d.Holds disk pending) {id : Uuid}
    {identity : String × String × String} :
    d.select id = some identity ↔
      ∃ e ∈ disk ++ pending, e.featureSnapshotId = id ∧ e.contentIdentity = identity := by
  unfold select
  rw [Option.map_eq_some_iff]
  constructor
  · rintro ⟨row, hfind, rfl⟩
    have hid : row.featureSnapshotId = id := by simpa using List.find?_some hfind
    obtain ⟨e, he, hrow, hidentity⟩ := h.exists_of_mem_index (List.mem_of_find?_eq_some hfind)
    exact ⟨e, he, hrow.symm.trans hid, hidentity.symm⟩
  · rintro ⟨e, he, rfl, rfl⟩
    obtain ⟨row, hrow, hid, hidentity⟩ := h.exists_row he
    cases hfind : d.index.find? (fun row => decide (row.featureSnapshotId = e.featureSnapshotId)) with
    | none => exact absurd (decide_eq_true hid) (List.find?_eq_none.mp hfind row hrow)
    | some found =>
      have hfound : found.featureSnapshotId = e.featureSnapshotId := by simpa using List.find?_some hfind
      obtain ⟨e', he', hrow', hidentity'⟩ := h.exists_of_mem_index (List.mem_of_find?_eq_some hfind)
      have heq : e' = e := h.eq_of_id he' he (hrow'.symm.trans hfound)
      exact ⟨found, rfl, by rw [hidentity', heq]⟩

theorem Holds.select_eq_none_iff (h : d.Holds disk pending) {id : Uuid} :
    d.select id = none ↔ ∀ e ∈ disk ++ pending, e.featureSnapshotId ≠ id := by
  rw [Option.eq_none_iff_forall_ne_some]
  constructor
  · intro hnone e he hid
    exact hnone _ (h.select_eq_some_iff.mpr ⟨e, he, hid, rfl⟩)
  · intro hfresh identity hsome
    obtain ⟨e, he, hid, -⟩ := h.select_eq_some_iff.mp hsome
    exact hfresh e he hid

/-- The cache answers as the table would. -/
theorem Holds.existing_eq_select (h : d.Holds disk pending) (id : Uuid) :
    d.existing id = d.select id := by
  unfold existing
  cases hcache : d.remembered id with
  | none => rfl
  | some identity =>
    obtain ⟨entry, hfind, rfl⟩ := Option.map_eq_some_iff.mp hcache
    obtain ⟨e, he, hentry⟩ := h.cached entry (List.mem_of_find?_eq_some hfind)
    have hid : entry.1 = id := by simpa using List.find?_some hfind
    rw [hentry] at hid ⊢
    exact (h.select_eq_some_iff.mpr ⟨e, he, hid, rfl⟩).symm

/-! ## The operations keep it -/

theorem Holds.perm {disk' pending' : List (FeatureEnvelope F)} (h : d.Holds disk pending)
    (hdisk : disk'.Perm disk) (hpending : pending'.Perm pending) : d.Holds disk' pending' where
  ids := ((hdisk.append hpending).map _).nodup_iff.mpr h.ids
  index := h.index.trans ((hdisk.map _).append (hpending.map _)).symm
  cached := by
    intro entry hentry
    obtain ⟨e, he, heq⟩ := h.cached entry hentry
    exact ⟨e, (hdisk.append hpending).mem_iff.mpr he, heq⟩

/-- Remembering an envelope the table has. -/
theorem Holds.rememberIdentity (h : d.Holds disk pending) {e : FeatureEnvelope F}
    (he : e ∈ disk ++ pending) :
    (d.rememberIdentity e.featureSnapshotId e.contentIdentity).Holds disk pending where
  ids := h.ids
  index := h.index
  cached := by
    intro entry hentry
    rcases List.mem_append.mp (List.mem_of_mem_drop hentry) with hkept | hnew
    · exact h.cached entry (List.mem_of_mem_filter hkept)
    · exact ⟨e, he, List.mem_singleton.mp hnew⟩

/-- A new id gets a PENDING row. -/
theorem Holds.insert (h : d.Holds disk pending) {e : FeatureEnvelope F}
    (hfresh : ∀ other ∈ disk ++ pending, other.featureSnapshotId ≠ e.featureSnapshotId) :
    (d.insertPending e).Holds disk (pending ++ [e]) where
  ids := by
    rw [← List.append_assoc, List.map_append, List.nodup_append]
    refine ⟨h.ids, List.nodup_singleton _, ?_⟩
    intro id hid id' hid'
    obtain ⟨other, hother, rfl⟩ := List.mem_map.mp hid
    rw [List.mem_singleton.mp hid']
    exact hfresh other hother
  index := by
    rw [List.map_append, ← List.append_assoc]
    exact h.index.append_right _
  cached := by
    intro entry hentry
    obtain ⟨other, hother, heq⟩ := h.cached entry hentry
    refine ⟨other, ?_, heq⟩
    rw [← List.append_assoc]
    exact List.mem_append_left _ hother

/-- Withdrawing the reservation made last removes its row, and its cache entry if it has one. -/
theorem Holds.rollbackReservation {e : FeatureEnvelope F} (h : d.Holds disk (pending ++ [e])) :
    (d.rollbackReservation e).Holds disk pending where
  ids := by
    have hids := h.ids
    rw [← List.append_assoc, List.map_append, List.nodup_append] at hids
    exact hids.1
  index := by
    have hfresh : ∀ other ∈ disk ++ pending, other.featureSnapshotId ≠ e.featureSnapshotId := by
      have hids := h.ids
      rw [← List.append_assoc, List.map_append, List.nodup_append] at hids
      intro other hother
      exact hids.2.2 _ (List.mem_map.mpr ⟨other, hother, rfl⟩) _ (List.mem_singleton.mpr rfl)
    refine (h.index.filter _).trans ?_
    rw [List.filter_append, List.filter_eq_self.mpr ?_, List.map_append, List.filter_append,
      List.filter_eq_self.mpr ?_]
    · simp [indexRow]
    · intro row hrow
      obtain ⟨other, hother, rfl⟩ := List.mem_map.mp hrow
      have := hfresh other (List.mem_append_right _ hother)
      simp [indexRow, this]
    · intro row hrow
      obtain ⟨other, -, rfl⟩ := List.mem_map.mp hrow
      simp [indexRow]
  cached := by
    intro entry hentry
    have hentry' : entry ∈ d.deduplication ∧ entry ≠ (e.featureSnapshotId, e.contentIdentity) := by
      unfold FeatureDeduplication.rollbackReservation at hentry
      dsimp only at hentry
      split_ifs at hentry with hremembered
      · obtain ⟨hmem, hid⟩ := List.mem_filter.mp hentry
        refine ⟨hmem, ?_⟩
        rintro rfl
        simp at hid
      · refine ⟨hentry, ?_⟩
        rintro rfl
        -- the entry is the only one of its id, so the lookup would have found it
        apply hremembered
        cases hfind : d.deduplication.find? (fun entry => decide (entry.1 = e.featureSnapshotId)) with
        | none => exact absurd (decide_eq_true rfl) (List.find?_eq_none.mp hfind _ hentry)
        | some found =>
          obtain ⟨other, hother, heq⟩ := h.cached found (List.mem_of_find?_eq_some hfind)
          have hid : other.featureSnapshotId = e.featureSnapshotId := by
            have : found.1 = e.featureSnapshotId := by simpa using List.find?_some hfind
            rwa [heq] at this
          have hsame : other = e := h.eq_of_id hother (by simp) hid
          unfold remembered
          rw [hfind, heq, hsame]
          rfl
    obtain ⟨other, hother, heq⟩ := h.cached entry hentry'.1
    refine ⟨other, ?_, heq⟩
    rw [← List.append_assoc] at hother
    rcases List.mem_append.mp hother with hother | hother
    · exact hother
    · refine absurd ?_ hentry'.2
      rw [heq, List.mem_singleton.mp hother]

/-- What a reservation answers, and what the table stands for behind it. -/
theorem Holds.reserve (h : d.Holds disk pending) (e : FeatureEnvelope F) :
    ((d.reserve e).1 = .reserved ∧
        (∀ other ∈ disk ++ pending, other.featureSnapshotId ≠ e.featureSnapshotId) ∧
        (d.reserve e).2.Holds disk (pending ++ [e])) ∨
      ((d.reserve e).1 = .known ∧
        (∃ other ∈ disk ++ pending, other.featureSnapshotId = e.featureSnapshotId ∧
          other.contentIdentity = e.contentIdentity) ∧ (d.reserve e).2.Holds disk pending) ∨
      ((d.reserve e).1 = .conflict ∧
        (∃ other ∈ disk ++ pending, other.featureSnapshotId = e.featureSnapshotId ∧
          other.contentIdentity ≠ e.contentIdentity) ∧ (d.reserve e).2.Holds disk pending) := by
  unfold FeatureDeduplication.reserve
  rw [h.existing_eq_select]
  cases hselect : d.select e.featureSnapshotId with
  | none =>
    have hfresh := h.select_eq_none_iff.mp hselect
    refine .inl ⟨rfl, hfresh, (h.insert hfresh).rememberIdentity ?_⟩
    exact List.mem_append_right _ (List.mem_append_right _ (List.mem_singleton.mpr rfl))
  | some identity =>
    obtain ⟨other, hother, hid, rfl⟩ := h.select_eq_some_iff.mp hselect
    dsimp only
    split_ifs with hne
    · exact .inr (.inr ⟨rfl, ⟨other, hother, hid, hne⟩, h⟩)
    · have hsame : other.contentIdentity = e.contentIdentity := not_not.mp hne
      refine .inr (.inl ⟨rfl, ⟨other, hother, hid, hsame⟩, ?_⟩)
      rw [← hid, ← hsame]
      exact h.rememberIdentity hother

/-! ## Committing -/

theorem flatten_slices {α : Type} {size : Nat} (hsize : 0 < size) {count : Nat} {xs : List α}
    (h : xs.length ≤ count) : (slices size count xs).flatten = xs := by
  induction count generalizing xs with
  | zero =>
    rw [List.length_eq_zero_iff.mp (Nat.le_zero.mp h)]
    rfl
  | succ count ih =>
    rw [slices]
    split_ifs with hempty
    · rw [List.isEmpty_iff.mp hempty]
      rfl
    · have hrest : (xs.drop size).length ≤ count := by
        rw [List.length_drop]
        omega
      rw [List.flatten_cons, ih hrest, List.take_append_drop]

section Commit

variable {index : List IndexRow} {e : FeatureEnvelope F}

/-- Among rows of different ids a reservation stands once, and committing it moves its row. -/
theorem commitRow_perm
    (hids : ((disk ++ (e :: pending)).map (·.featureSnapshotId)).Nodup)
    (h : index.Perm (disk.map (indexRow .committed) ++ (e :: pending).map (indexRow .pending))) :
    index.countP (·.isPending e) = 1 ∧
      (index.map fun row => if row.isPending e then indexRow .committed e else row).Perm
        ((disk ++ [e]).map (indexRow .committed) ++ pending.map (indexRow .pending)) := by
  have hdisk : ∀ row ∈ disk.map (indexRow .committed), row.isPending e = false := by
    intro row hrow
    obtain ⟨other, -, rfl⟩ := List.mem_map.mp hrow
    simp [IndexRow.isPending, indexRow]
  have hpending : ∀ row ∈ pending.map (indexRow .pending), row.isPending e = false := by
    intro row hrow
    obtain ⟨other, hother, rfl⟩ := List.mem_map.mp hrow
    have hne : other.featureSnapshotId ≠ e.featureSnapshotId := by
      rw [List.map_append, List.map_cons, List.nodup_middle, List.nodup_cons] at hids
      rintro hid
      apply hids.1
      rw [← hid]
      exact List.mem_append_right _ (List.mem_map.mpr ⟨other, hother, rfl⟩)
    simp [IndexRow.isPending, indexRow, hne]
  have hself : (indexRow .pending e).isPending e = true := decide_eq_true rfl
  have hkeep : ∀ rows : List IndexRow, (∀ row ∈ rows, row.isPending e = false) →
      (rows.map fun row => if row.isPending e then indexRow .committed e else row) = rows := by
    intro rows hrows
    conv_rhs => rw [← List.map_id rows]
    apply List.map_congr_left
    intro row hrow
    rw [hrows row hrow]
    rfl
  constructor
  · rw [h.countP_eq, List.countP_append, List.map_cons, List.countP_cons, hself,
      List.countP_eq_zero.mpr fun row hrow => by rw [hdisk row hrow]; exact Bool.false_ne_true,
      List.countP_eq_zero.mpr fun row hrow => by rw [hpending row hrow]; exact Bool.false_ne_true]
    rfl
  · refine (h.map _).trans ?_
    rw [List.map_append, List.map_cons, List.map_cons, hself, hkeep _ hdisk, hkeep _ hpending,
      List.map_append, List.append_assoc]
    exact List.Perm.refl _

/-- Reservations of a chunk are all found, and their rows committed. -/
theorem commitChunk_perm {chunk : List (FeatureEnvelope F)}
    (hids : ((disk ++ (chunk ++ pending)).map (·.featureSnapshotId)).Nodup)
    (h : index.Perm (disk.map (indexRow .committed) ++ (chunk ++ pending).map (indexRow .pending))) :
    ∃ index', commitChunk index chunk = some index' ∧
      index'.Perm ((disk ++ chunk).map (indexRow .committed) ++ pending.map (indexRow .pending)) := by
  induction chunk generalizing disk index with
  | nil =>
    rw [List.append_nil]
    exact ⟨index, rfl, h⟩
  | cons e chunk ih =>
    obtain ⟨hcount, hperm⟩ := commitRow_perm hids h
    have hids' : ((disk ++ [e] ++ (chunk ++ pending)).map (·.featureSnapshotId)).Nodup := by
      rwa [List.append_assoc]
    obtain ⟨index', hcommit, hindex⟩ := ih hids' hperm
    refine ⟨index', ?_, ?_⟩
    · rw [commitChunk, if_pos hcount]
      exact hcommit
    · rwa [List.append_assoc] at hindex

theorem commitChunks_perm {chunks : List (List (FeatureEnvelope F))}
    (hids : ((disk ++ (chunks.flatten ++ pending)).map (·.featureSnapshotId)).Nodup)
    (h : index.Perm
      (disk.map (indexRow .committed) ++ (chunks.flatten ++ pending).map (indexRow .pending))) :
    ∃ index', commitChunks index chunks = (true, index') ∧
      index'.Perm
        ((disk ++ chunks.flatten).map (indexRow .committed) ++ pending.map (indexRow .pending)) := by
  induction chunks generalizing disk index with
  | nil =>
    rw [List.flatten_nil, List.append_nil]
    exact ⟨index, rfl, h⟩
  | cons chunk chunks ih =>
    rw [List.flatten_cons, List.append_assoc] at hids h
    obtain ⟨index₁, hchunk, hindex₁⟩ := commitChunk_perm hids h
    have hids' : ((disk ++ chunk ++ (chunks.flatten ++ pending)).map (·.featureSnapshotId)).Nodup := by
      rwa [List.append_assoc]
    obtain ⟨index₂, hchunks, hindex₂⟩ := ih hids' hindex₁
    refine ⟨index₂, ?_, ?_⟩
    · rw [commitChunks, hchunk]
      exact hchunks
    · rw [List.flatten_cons, ← List.append_assoc]
      exact hindex₂

end Commit

/-- The rows of a published file are committed; no reservation has disappeared. -/
theorem Holds.markCommitted {envelopes : List (FeatureEnvelope F)}
    (h : d.Holds disk (envelopes ++ pending)) :
    (d.markCommitted envelopes).1 = true ∧
      (d.markCommitted envelopes).2.Holds (disk ++ envelopes) pending := by
  have hflatten : (slices indexTransactionRows envelopes.length envelopes).flatten = envelopes :=
    flatten_slices (by decide) le_rfl
  have hids := h.ids
  have hindex := h.index
  rw [← hflatten] at hids hindex
  obtain ⟨index', hcommit, hperm⟩ := commitChunks_perm hids hindex
  rw [hflatten] at hperm
  unfold FeatureDeduplication.markCommitted
  rw [hcommit]
  refine ⟨rfl, ?_, hperm, ?_⟩
  · rw [List.append_assoc]
    exact h.ids
  · intro entry hentry
    obtain ⟨e, he, heq⟩ := h.cached entry hentry
    refine ⟨e, ?_, heq⟩
    rwa [List.append_assoc]

/-! ## The index of a root -/

theorem insertCommitted_eq_ok {envelopes before : List (FeatureEnvelope F)} {index : List IndexRow}
    (h : insertCommitted (before.map (indexRow .committed)) envelopes = .ok index) :
    index = (before ++ envelopes).map (indexRow .committed) ∧
      ((before.map (·.featureSnapshotId)).Nodup →
        ((before ++ envelopes).map (·.featureSnapshotId)).Nodup) := by
  induction envelopes generalizing before with
  | nil =>
    rw [List.append_nil]
    exact ⟨(Except.ok.inj h).symm, id⟩
  | cons e envelopes ih =>
    rw [insertCommitted] at h
    split_ifs at h with hmem
    have hnew : e.featureSnapshotId ∉ before.map (·.featureSnapshotId) := by
      rw [List.map_map] at hmem
      exact hmem
    have happend : before.map (indexRow .committed) ++ [indexRow .committed e] =
        (before ++ [e]).map (indexRow .committed) := by rw [List.map_append, List.map_singleton]
    rw [happend] at h
    obtain ⟨hindex, hnodup⟩ := ih h
    rw [List.append_assoc] at hindex hnodup
    refine ⟨hindex, fun hbefore => hnodup ?_⟩
    rw [List.map_append, List.nodup_append]
    refine ⟨hbefore, List.nodup_singleton _, ?_⟩
    intro id hid id' hid'
    rw [List.mem_singleton.mp hid']
    rintro rfl
    exact hnew hid

/-- A rebuilt index holds for the disk it was read from. -/
theorem holds_of_rebuild (capacity : Nat) {index : List IndexRow}
    (h : rebuildFeatureIndex disk = .ok index) :
    { deduplicationCapacity := capacity, index : FeatureDeduplication }.Holds disk [] := by
  have hinsert : insertCommitted (([] : List (FeatureEnvelope F)).map (indexRow .committed)) disk =
      .ok index := h
  obtain ⟨hindex, hnodup⟩ := insertCommitted_eq_ok hinsert
  refine ⟨?_, ?_, fun entry hentry => absurd hentry List.not_mem_nil⟩
  · rw [List.append_nil]
    exact hnodup List.nodup_nil
  · show index.Perm (disk.map (indexRow .committed) ++ [])
    rw [List.append_nil, hindex]
    exact List.Perm.refl _

/-! ## Without the cache -/

/-- The same table with no cache before it. -/
def withoutCache (d : FeatureDeduplication) : FeatureDeduplication :=
  { deduplicationCapacity := 0, deduplication := [], index := d.index }

theorem rememberIdentity_withoutCache (d : FeatureDeduplication) (id : Uuid)
    (identity : String × String × String) :
    d.withoutCache.rememberIdentity id identity = d.withoutCache := by
  unfold FeatureDeduplication.rememberIdentity withoutCache
  simp

theorem rollbackReservation_withoutCache (d : FeatureDeduplication) (e : FeatureEnvelope F) :
    d.withoutCache.rollbackReservation e = (d.rollbackReservation e).withoutCache := by
  unfold FeatureDeduplication.rollbackReservation withoutCache
  simp

/-- Reserving gives the same answer and leaves the same table with any cache and with none. -/
theorem Holds.reserve_withoutCache (h : d.Holds disk pending) (e : FeatureEnvelope F) :
    d.withoutCache.reserve e = ((d.reserve e).1, (d.reserve e).2.withoutCache) := by
  have hexisting : d.withoutCache.existing e.featureSnapshotId = d.existing e.featureSnapshotId := by
    rw [h.existing_eq_select]
    rfl
  unfold FeatureDeduplication.reserve
  rw [hexisting]
  cases d.existing e.featureSnapshotId with
  | none =>
    exact congrArg (Prod.mk Reservation.reserved)
      ((d.insertPending e).rememberIdentity_withoutCache e.featureSnapshotId e.contentIdentity)
  | some identity =>
    dsimp only
    split_ifs
    · rfl
    · rw [rememberIdentity_withoutCache]
      rfl

end FeatureDeduplication

end Cvf
