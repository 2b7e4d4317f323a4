/-
# Cvf.Features.BookCourse — the fields that decide what the feature book does next.

The epoch, the synchronization time, the last error, the last change and the lineage are written by the
feature book and never read by it.  Two books that agree on the other fields (`course`) agree on them
after every event (`course_foldl`), and any two books of one capacity agree on them after an event that
starts both anew (`course_of_startsAnew`).
-/
import Cvf.Features.BookInvariant

namespace Cvf

namespace FeatureOrderBookState

variable (digest : SourceDigest)

/-- The book without the fields it only writes. -/
def course (book : FeatureOrderBookState) : FeatureOrderBookState :=
  { book with
    epoch := 0
    synchronizedSince := none
    lastError := none
    lastChange := none
    lineage := {} }

theorem course_eq_iff {book other : FeatureOrderBookState} :
    book.course = other.course ↔
      book.pendingCapacity = other.pendingCapacity ∧ book.pending = other.pending ∧
        book.bids = other.bids ∧ book.asks = other.asks ∧ book.generation = other.generation ∧
        book.sequenceId = other.sequenceId ∧ book.synchronized = other.synchronized := by
  simp [course]

/-! ## The parts of a step -/

theorem course_desynchronize {book other : FeatureOrderBookState} (h : book.course = other.course)
    (reason : String) : (book.desynchronize reason).course = (other.desynchronize reason).course := by
  obtain ⟨hcapacity, hpending, hbids, hasks, hgeneration, hsequence, -⟩ := course_eq_iff.mp h
  exact course_eq_iff.mpr ⟨hcapacity, hpending, hbids, hasks, hgeneration, hsequence, rfl⟩

/-- A reset leaves the capacity. -/
theorem course_reset {book other : FeatureOrderBookState}
    (hcapacity : book.pendingCapacity = other.pendingCapacity) (generation : Nat)
    (reason : Option String) :
    (book.reset generation reason true).course = (other.reset generation reason true).course :=
  course_eq_iff.mpr ⟨hcapacity, rfl, rfl, rfl, rfl, rfl, rfl⟩

theorem course_applyLevels (book : FeatureOrderBookState) (bids asks : List OrderBookLevel) :
    (book.applyLevels bids asks).1.course = (book.course.applyLevels bids asks).1.course ∧
      (book.applyLevels bids asks).2 = (book.course.applyLevels bids asks).2 := by
  cases book
  dsimp only [course, applyLevels]
  split_ifs <;> exact ⟨rfl, rfl⟩

theorem course_buffer (book : FeatureOrderBookState) (update : OrderBookUpdate) :
    (book.buffer digest update).1.course = (book.course.buffer digest update).1.course := by
  cases book
  dsimp only [course, buffer]
  split_ifs <;> rfl

theorem course_applied {after other : FeatureOrderBookState} (h : after.course = other.course)
    (change change' : BookChange) (sequence : Option Int) :
    ({ after with
        lastChange := some change
        sequenceId := orDefault sequence after.sequenceId } : FeatureOrderBookState).course =
      ({ other with
        lastChange := some change'
        sequenceId := orDefault sequence other.sequenceId } : FeatureOrderBookState).course :=
  congrArg (fun book : FeatureOrderBookState =>
    { book with sequenceId := orDefault sequence book.sequenceId }) h

theorem course_replayOne (book : FeatureOrderBookState) (update : OrderBookUpdate) :
    (book.replayOne update).1.course = (book.course.replayOne update).1.course ∧
      (book.replayOne update).2 = (book.course.replayOne update).2 := by
  obtain ⟨hafter, hok⟩ := book.course_applyLevels update.bids update.asks
  have hsequence : book.course.sequenceId = book.sequenceId := rfl
  unfold replayOne
  dsimp only
  rw [hsequence]
  generalize book.applyLevels update.bids update.asks = applied at hafter hok ⊢
  generalize book.course.applyLevels update.bids update.asks = applied' at hafter hok ⊢
  obtain ⟨after, ok⟩ := applied
  obtain ⟨other, ok'⟩ := applied'
  obtain rfl : ok = ok' := hok
  cases ok
  · split
    · split_ifs
      · exact ⟨rfl, rfl⟩
      · exact ⟨rfl, rfl⟩
      · exact ⟨hafter, rfl⟩
    · exact ⟨hafter, rfl⟩
  · split
    · split_ifs
      · exact ⟨rfl, rfl⟩
      · exact ⟨rfl, rfl⟩
      · exact ⟨course_applied hafter _ _ _, rfl⟩
    · exact ⟨course_applied hafter _ _ _, rfl⟩

theorem course_replayPending {book other : FeatureOrderBookState} (h : book.course = other.course)
    (updates : List OrderBookUpdate) :
    (book.replayPending updates).1.course = (other.replayPending updates).1.course := by
  induction updates generalizing book other with
  | nil => exact h
  | cons update rest ih =>
    obtain ⟨hbook, hbookOk⟩ := book.course_replayOne update
    obtain ⟨hother, hotherOk⟩ := other.course_replayOne update
    rw [h] at hbook hbookOk
    have hafter := hbook.trans hother.symm
    have hok := hbookOk.trans hotherOk.symm
    unfold replayPending
    generalize book.replayOne update = replayed at hafter hok ⊢
    generalize other.replayOne update = replayed' at hafter hok ⊢
    obtain ⟨after, ok⟩ := replayed
    obtain ⟨after', ok'⟩ := replayed'
    obtain rfl : ok = ok' := hok
    cases ok
    · exact hafter
    · exact ih hafter

/-- What is installed depends on the capacity alone. -/
theorem course_installed {book other : FeatureOrderBookState}
    (hcapacity : book.pendingCapacity = other.pendingCapacity) (snapshot : OrderBookSnapshot) :
    (book.installed digest snapshot).course = (other.installed digest snapshot).course := by
  have hbook := book.installed_spec digest snapshot
  have hother := other.installed_spec digest snapshot
  have hbids := hbook.bids.trans hother.bids.symm
  have hasks := hbook.asks.trans hother.asks.symm
  refine course_eq_iff.mpr ⟨?_, ?_, hbids, hasks, ?_, ?_, ?_⟩
  · rw [hbook.pendingCapacity, hother.pendingCapacity, hcapacity]
  · rw [hbook.pending, hother.pending]
  · rw [hbook.generation, hother.generation]
  · rw [hbook.sequenceId, hother.sequenceId]
  · rw [hbook.synchronized, hother.synchronized, hbids, hasks]

/-! ## One event -/

section

variable {book other : FeatureOrderBookState} (h : book.course = other.course)

include h

theorem course_applySnapshot (snapshot : OrderBookSnapshot) :
    (book.applySnapshot digest snapshot).1.course = (other.applySnapshot digest snapshot).1.course := by
  obtain ⟨hcapacity, hpending, -, -, hgeneration, hsequence, hsynchronized⟩ := course_eq_iff.mp h
  have hstale : book.isStale snapshot = other.isStale snapshot := by
    unfold isStale
    rw [hgeneration, hsynchronized, hsequence]
  have hinstalled := course_installed digest hcapacity snapshot
  obtain ⟨-, -, hbids, hasks, -, -, hinstalledSynchronized⟩ := course_eq_iff.mp hinstalled
  unfold applySnapshot
  rw [hgeneration, hpending, hstale]
  dsimp only
  rw [hbids, hasks, hinstalledSynchronized]
  generalize (if snapshot.generation = other.generation then other.pending else []) = waiting
  split_ifs
  · exact h
  · exact h
  · exact course_desynchronize hinstalled _
  · exact course_replayPending hinstalled _

theorem course_buffer_of_eq (update : OrderBookUpdate) :
    (book.buffer digest update).1.course = (other.buffer digest update).1.course := by
  rw [course_buffer, h, ← course_buffer]

theorem course_applyNext (update : OrderBookUpdate) :
    (book.applyNext digest update).1.course = (other.applyNext digest update).1.course := by
  obtain ⟨hbook, hbookOk⟩ :=
    (book.recordLineage digest (.orderBookUpdate update)).course_applyLevels update.bids update.asks
  obtain ⟨hother, hotherOk⟩ :=
    (other.recordLineage digest (.orderBookUpdate update)).course_applyLevels update.bids update.asks
  have hrecorded : (book.recordLineage digest (.orderBookUpdate update)).course =
      (other.recordLineage digest (.orderBookUpdate update)).course := h
  rw [hrecorded] at hbook hbookOk
  have hafter := hbook.trans hother.symm
  have hok := hbookOk.trans hotherOk.symm
  unfold applyNext
  dsimp only
  generalize (book.recordLineage digest (.orderBookUpdate update)).applyLevels update.bids
    update.asks = applied at hafter hok ⊢
  generalize (other.recordLineage digest (.orderBookUpdate update)).applyLevels update.bids
    update.asks = applied' at hafter hok ⊢
  obtain ⟨after, ok⟩ := applied
  obtain ⟨after', ok'⟩ := applied'
  obtain rfl : ok = ok' := hok
  cases ok
  · exact hafter
  · exact course_applied hafter _ _ _

theorem course_applyUpdate (update : OrderBookUpdate) :
    (book.applyUpdate digest update).1.course = (other.applyUpdate digest update).1.course := by
  obtain ⟨hcapacity, -, hbids, hasks, hgeneration, hsequence, hsynchronized⟩ := course_eq_iff.mp h
  have hgap : ∀ reason, ({ book.desynchronize reason with pending := [] } : FeatureOrderBookState).course =
      ({ other.desynchronize reason with pending := [] } : FeatureOrderBookState).course := fun reason =>
    course_eq_iff.mpr ⟨hcapacity, rfl, hbids, hasks, hgeneration, hsequence, rfl⟩
  unfold applyUpdate
  rw [hgeneration, hsynchronized, hsequence]
  split_ifs
  · exact h
  · exact course_buffer_of_eq digest (course_reset hcapacity _ _) update
  · exact course_buffer_of_eq digest h update
  · split
    · split_ifs
      · exact h
      · exact course_buffer_of_eq digest (hgap _) update
      · exact course_applyNext digest h update
    · exact course_applyNext digest h update

theorem course_consume (event : NormalizedMarketEvent) :
    (book.consume digest event).course = (other.consume digest event).course := by
  cases event with
  | orderBookSnapshot snapshot => exact course_applySnapshot digest h snapshot
  | orderBookUpdate update => exact course_applyUpdate digest h update
  | _ => exact h

/-- Books of one course keep to it. -/
theorem course_foldl (events : List NormalizedMarketEvent) :
    (events.foldl (consume digest) book).course = (events.foldl (consume digest) other).course := by
  induction events generalizing book other with
  | nil => exact h
  | cons event rest ih => exact ih (course_consume digest h event)

end

/-! ## An event that starts a book anew -/

/-- Of a generation above the book's, or a snapshot of its generation that is ahead of it where it is
synchronized, while no update waits. -/
def StartsAnew (book : FeatureOrderBookState) : NormalizedMarketEvent → Prop
  | .orderBookSnapshot snapshot =>
    book.generation < snapshot.generation ∨
      book.generation = snapshot.generation ∧ book.pending = [] ∧
        (book.synchronized = true → ∀ current ∈ book.sequenceId,
          ∀ sequence ∈ sequenceNumber snapshot.sequenceId, current < sequence)
  | .orderBookUpdate update => book.generation < update.generation
  | _ => False

theorem StartsAnew.heeded {book : FeatureOrderBookState} {snapshot : OrderBookSnapshot}
    (h : book.StartsAnew (.orderBookSnapshot snapshot)) :
    ¬ snapshot.generation < book.generation ∧ book.isStale snapshot = false ∧
      (if snapshot.generation = book.generation then book.pending else []) = [] := by
  rcases h with hnewer | ⟨hsame, hpending, hahead⟩
  · refine ⟨by omega, ?_, if_neg (by omega)⟩
    unfold isStale
    rw [decide_eq_false (by omega), Bool.false_and, Bool.false_and]
  · refine ⟨by omega, ?_, by rw [hpending, ite_self]⟩
    unfold isStale
    cases hsynchronized : book.synchronized with
    | false => rw [Bool.and_false, Bool.false_and]
    | true =>
      cases hsequence : sequenceNumber snapshot.sequenceId with
      | none => simp
      | some sequence =>
        cases hcurrent : book.sequenceId with
        | none => simp
        | some current =>
          have hlt := hahead hsynchronized current hcurrent sequence hsequence
          simp [hlt]

/-- Books that an event starts anew agree behind it. -/
theorem course_of_startsAnew {book other : FeatureOrderBookState}
    (hcapacity : book.pendingCapacity = other.pendingCapacity) {event : NormalizedMarketEvent}
    (hbook : book.StartsAnew event) (hother : other.StartsAnew event) :
    (book.consume digest event).course = (other.consume digest event).course := by
  cases event with
  | orderBookSnapshot snapshot =>
    obtain ⟨hbookOlder, hbookStale, hbookPending⟩ := hbook.heeded
    obtain ⟨hotherOlder, hotherStale, hotherPending⟩ := hother.heeded
    have hinstalled := course_installed digest hcapacity snapshot
    obtain ⟨-, -, hbids, hasks, -, -, hsynchronized⟩ := course_eq_iff.mp hinstalled
    show (book.applySnapshot digest snapshot).1.course = (other.applySnapshot digest snapshot).1.course
    unfold applySnapshot
    rw [if_neg hbookOlder, if_neg hotherOlder, hbookStale, hotherStale, if_neg Bool.false_ne_true,
      if_neg Bool.false_ne_true]
    dsimp only
    rw [hbookPending, hotherPending, hbids, hasks, hsynchronized]
    split_ifs
    · exact course_desynchronize hinstalled _
    · exact course_replayPending hinstalled _
  | orderBookUpdate update =>
    have hbookOlder : book.generation < update.generation := hbook
    have hotherOlder : other.generation < update.generation := hother
    show (book.applyUpdate digest update).1.course = (other.applyUpdate digest update).1.course
    unfold applyUpdate
    rw [if_neg (by omega), if_pos hbookOlder, if_neg (by omega), if_pos hotherOlder]
    exact course_buffer_of_eq digest (course_reset hcapacity _ _) update
  | _ => exact hbook.elim

end FeatureOrderBookState

end Cvf
