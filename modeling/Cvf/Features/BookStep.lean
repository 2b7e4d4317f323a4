/-
# Cvf.Features.BookStep — what one event can do to the feature book.

Every later fact about the feature book under a run of events comes from the one statement here
(`Recorded`): an event is refused as stale and leaves the book alone, or it is taken, and then it moves
the generation to its own, never lowers the epoch, and is recorded in the lineage of that generation.
-/
import Cvf.Features.Book

namespace Cvf

namespace StateUpdateStatus

/-- The two answers of a book that did not take an event. -/
def isStale : StateUpdateStatus → Bool
  | .staleGeneration | .staleSequence => true
  | _ => false

/-- The answers of a book that took one. -/
def isTaken : StateUpdateStatus → Bool
  | .accepted | .bufferedForSnapshot | .bookInvalidated => true
  | _ => false

end StateUpdateStatus

/-- `isinstance(event, (OrderBookSnapshot, OrderBookUpdate))`. -/
def NormalizedMarketEvent.isBook : NormalizedMarketEvent → Bool
  | .orderBookSnapshot _ | .orderBookUpdate _ => true
  | _ => false

/-- The lineage of an event's own generation, without the event. -/
def FeatureOrderBookState.lineageIn (book : FeatureOrderBookState) (generation : Nat) :
    SourceLineage :=
  if generation = book.generation then book.lineage else {}

/-- What taking an event does: `after` is the book it leaves, with `answer`. -/
structure Recorded (digest : SourceDigest) (book : FeatureOrderBookState)
    (event : NormalizedMarketEvent) (after : FeatureOrderBookState)
    (answer : StateUpdateStatus) : Prop where
  taken : answer.isTaken = true
  generation_le : book.generation ≤ event.generation
  generation : after.generation = event.generation
  epoch_le : book.epoch ≤ after.epoch
  lineage : after.lineage = (book.lineageIn event.generation).combine
    (.fromSource digest event.base.exchangeTimestamp event)

namespace FeatureOrderBookState

variable (digest : SourceDigest)

/-- A book event applied, with the book's answer. -/
def apply (book : FeatureOrderBookState) :
    NormalizedMarketEvent → FeatureOrderBookState × StateUpdateStatus
  | .orderBookSnapshot snapshot => book.applySnapshot digest snapshot
  | .orderBookUpdate update => book.applyUpdate digest update
  | _ => (book, .accepted)

/-! ## The parts of a step that keep the generation, the epoch and the lineage -/

/-- Two books of one generation and epoch, with one lineage. -/
structure SameEpoch (before after : FeatureOrderBookState) : Prop where
  generation : after.generation = before.generation
  epoch : after.epoch = before.epoch
  lineage : after.lineage = before.lineage

theorem SameEpoch.trans {a b c : FeatureOrderBookState} (h : SameEpoch a b) (h' : SameEpoch b c) :
    SameEpoch a c where
  generation := h'.generation.trans h.generation
  epoch := h'.epoch.trans h.epoch
  lineage := h'.lineage.trans h.lineage

theorem recordLineage_lineage (book : FeatureOrderBookState) (event : NormalizedMarketEvent) :
    (book.recordLineage digest event).lineage =
      book.lineage.combine (.fromSource digest event.base.exchangeTimestamp event) := rfl

theorem sameEpoch_applyLevels (book : FeatureOrderBookState) (bids asks : List OrderBookLevel) :
    SameEpoch book (book.applyLevels bids asks).1 := by
  unfold applyLevels
  dsimp only
  split_ifs <;> exact ⟨rfl, rfl, rfl⟩

theorem sameEpoch_replayOne (book : FeatureOrderBookState) (update : OrderBookUpdate) :
    SameEpoch book (book.replayOne update).1 := by
  have happly := book.sameEpoch_applyLevels update.bids update.asks
  unfold replayOne
  dsimp only
  generalize book.applyLevels update.bids update.asks = applied at happly ⊢
  obtain ⟨after, ok⟩ := applied
  cases ok
  · split
    · split_ifs
      · exact ⟨rfl, rfl, rfl⟩
      · exact ⟨rfl, rfl, rfl⟩
      · exact happly
    · exact happly
  · split
    · split_ifs
      · exact ⟨rfl, rfl, rfl⟩
      · exact ⟨rfl, rfl, rfl⟩
      · exact happly.trans ⟨rfl, rfl, rfl⟩
    · exact happly.trans ⟨rfl, rfl, rfl⟩

theorem replayPending_spec (book : FeatureOrderBookState) (updates : List OrderBookUpdate) :
    SameEpoch book (book.replayPending updates).1 ∧
      (book.replayPending updates).2.isTaken = true := by
  induction updates generalizing book with
  | nil =>
    refine ⟨⟨rfl, rfl, rfl⟩, ?_⟩
    unfold replayPending
    split_ifs <;> rfl
  | cons update rest ih =>
    have hone := book.sameEpoch_replayOne update
    unfold replayPending
    generalize book.replayOne update = replayed at hone ⊢
    obtain ⟨after, ok⟩ := replayed
    cases ok
    · exact ⟨hone, rfl⟩
    · obtain ⟨hrest, htaken⟩ := ih after
      exact ⟨hone.trans hrest, htaken⟩

/-! ## One event -/

theorem buffer_spec (book : FeatureOrderBookState) (update : OrderBookUpdate)
    (hgeneration : book.generation = update.generation) :
    (book.buffer digest update).1.generation = update.generation ∧
      book.epoch ≤ (book.buffer digest update).1.epoch ∧
      (book.buffer digest update).1.lineage =
        book.lineage.combine
          (.fromSource digest update.exchangeTimestamp (.orderBookUpdate update)) ∧
      (book.buffer digest update).2.isTaken = true := by
  unfold buffer
  split_ifs
  · exact ⟨rfl, Nat.le_succ _, rfl, rfl⟩
  · exact ⟨hgeneration, le_rfl, rfl, rfl⟩

theorem applyNext_spec (book : FeatureOrderBookState) (update : OrderBookUpdate) :
    SameEpoch (book.recordLineage digest (.orderBookUpdate update))
        (book.applyNext digest update).1 ∧
      (book.applyNext digest update).2.isTaken = true := by
  have happly := (book.recordLineage digest (.orderBookUpdate update)).sameEpoch_applyLevels
    update.bids update.asks
  unfold applyNext
  dsimp only
  generalize (book.recordLineage digest (.orderBookUpdate update)).applyLevels update.bids
    update.asks = applied at happly ⊢
  obtain ⟨after, ok⟩ := applied
  cases ok
  · exact ⟨happly, rfl⟩
  · exact ⟨happly.trans ⟨rfl, rfl, rfl⟩, rfl⟩

theorem applyUpdate_spec (book : FeatureOrderBookState) (update : OrderBookUpdate) :
    ((book.applyUpdate digest update).2.isStale = true ∧
        (book.applyUpdate digest update).1 = book) ∨
      Recorded digest book (.orderBookUpdate update) (book.applyUpdate digest update).1
        (book.applyUpdate digest update).2 := by
  -- an update of the book's own generation that continues it
  have hnext (hgeneration : update.generation = book.generation) :
      Recorded digest book (.orderBookUpdate update) (book.applyNext digest update).1
        (book.applyNext digest update).2 := by
    obtain ⟨hsame, htaken⟩ := book.applyNext_spec digest update
    exact
      { taken := htaken
        generation_le := hgeneration.ge
        generation := hsame.generation.trans hgeneration.symm
        epoch_le := hsame.epoch.ge
        lineage := by
          have hin : book.lineageIn update.generation = book.lineage := if_pos hgeneration
          rw [hsame.lineage, recordLineage_lineage]
          exact congrArg (SourceLineage.combine · _) hin.symm }
  -- one that waits for a snapshot, in a book of its generation that kept the lineage
  have hbuffer (waiting : FeatureOrderBookState) (hle : book.generation ≤ update.generation)
      (hgeneration : waiting.generation = update.generation) (hepoch : book.epoch ≤ waiting.epoch)
      (hlineage : waiting.lineage = book.lineageIn update.generation) :
      Recorded digest book (.orderBookUpdate update) (waiting.buffer digest update).1
        (waiting.buffer digest update).2 := by
    obtain ⟨hafter, hraised, hrecorded, htaken⟩ := waiting.buffer_spec digest update hgeneration
    exact
      { taken := htaken
        generation_le := hle
        generation := hafter
        epoch_le := hepoch.trans hraised
        lineage := by rw [hrecorded, hlineage]; rfl }
  unfold applyUpdate
  split_ifs with hstale hnewer hwaiting
  · exact .inl ⟨rfl, rfl⟩
  · exact .inr (hbuffer _ hnewer.le rfl (Nat.le_succ _) (if_neg hnewer.ne').symm)
  · have hgeneration : book.generation = update.generation := by omega
    exact .inr (hbuffer book hgeneration.le hgeneration le_rfl (if_pos hgeneration.symm).symm)
  · have hgeneration : book.generation = update.generation := by omega
    split
    · split_ifs
      · exact .inl ⟨rfl, rfl⟩
      · exact .inr (hbuffer _ hgeneration.le hgeneration le_rfl (if_pos hgeneration.symm).symm)
      · exact .inr (hnext hgeneration.symm)
    · exact .inr (hnext hgeneration.symm)

theorem applySnapshot_spec (book : FeatureOrderBookState) (snapshot : OrderBookSnapshot) :
    ((book.applySnapshot digest snapshot).2.isStale = true ∧
        (book.applySnapshot digest snapshot).1 = book) ∨
      Recorded digest book (.orderBookSnapshot snapshot) (book.applySnapshot digest snapshot).1
        (book.applySnapshot digest snapshot).2 := by
  -- the installed book, whatever the replay of pending updates makes of its levels
  have hinstalled (after : FeatureOrderBookState) (answer : StateUpdateStatus)
      (hle : book.generation ≤ snapshot.generation)
      (hsame : SameEpoch (book.installed digest snapshot) after) (htaken : answer.isTaken = true) :
      Recorded digest book (.orderBookSnapshot snapshot) after answer :=
    { taken := htaken
      generation_le := hle
      generation := by
        rw [hsame.generation]
        unfold installed
        dsimp only
        split_ifs <;> rfl
      epoch_le := by
        rw [hsame.epoch]
        unfold installed
        dsimp only
        split_ifs <;> simp only [recordLineage, reset] <;> split_ifs <;> omega
      lineage := by
        rw [hsame.lineage]
        unfold installed lineageIn
        by_cases hgeneration : snapshot.generation = book.generation
        · simp [hgeneration, recordLineage, NormalizedMarketEvent.generation]
        · simp [hgeneration, recordLineage, reset, NormalizedMarketEvent.generation] }
  unfold applySnapshot
  by_cases hstale : snapshot.generation < book.generation
  · rw [if_pos hstale]
    exact .inl ⟨rfl, rfl⟩
  rw [if_neg hstale]
  by_cases hsequence : book.isStale snapshot = true
  · rw [if_pos hsequence]
    exact .inl ⟨rfl, rfl⟩
  rw [if_neg hsequence]
  dsimp only
  split
  · exact .inr (hinstalled _ _ (not_lt.mp hstale) ⟨rfl, rfl, rfl⟩ rfl)
  · obtain ⟨hsame, htaken⟩ := (book.installed digest snapshot).replayPending_spec _
    exact .inr (hinstalled _ _ (not_lt.mp hstale) hsame htaken)

/-- One book event is refused as stale and changes nothing, or is taken and recorded. -/
theorem apply_spec (book : FeatureOrderBookState) (event : NormalizedMarketEvent)
    (hbook : event.isBook = true) :
    ((book.apply digest event).2.isStale = true ∧ (book.apply digest event).1 = book) ∨
      Recorded digest book event (book.apply digest event).1 (book.apply digest event).2 := by
  cases event with
  | orderBookSnapshot snapshot => exact book.applySnapshot_spec digest snapshot
  | orderBookUpdate update => exact book.applyUpdate_spec digest update
  | _ => simp [NormalizedMarketEvent.isBook] at hbook

end FeatureOrderBookState

/-- A book that took an event is not the book it was. -/
theorem Recorded.ne {digest : SourceDigest} {book after : FeatureOrderBookState}
    {event : NormalizedMarketEvent} {answer : StateUpdateStatus}
    (h : Recorded digest book event after answer) : after ≠ book := by
  rintro rfl
  have hlineage := congrArg SourceLineage.count h.lineage
  rw [FeatureOrderBookState.lineageIn, if_pos h.generation.symm] at hlineage
  simp [SourceLineage.combine, SourceLineage.fromSource, SourceLineage.fromDigest] at hlineage

end Cvf
