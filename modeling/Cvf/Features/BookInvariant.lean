/-
# Cvf.Features.BookInvariant — what the feature book is while it is synchronized.

A synchronized book has nothing waiting, two sides and no crossing, and says since when; that holds
after every event whatever it carries (`Coherent`).  That every stored quantity is positive holds only
of update levels: a snapshot's levels are stored as they come, a zero included.
-/
import Cvf.Features.BookStep
import Cvf.Library.Parsed
import Cvf.Library.Run

namespace Cvf

open Cvf.Library

namespace BookSide

/-- No stored quantity is zero or less. -/
def Positive (side : BookSide) : Prop := ∀ price quantity, side.lookup price = some quantity → 0 < quantity

/-- Two sides with a best bid strictly below the best ask. -/
def TwoSided (bids asks : BookSide) : Prop :=
  ∃ bestBid bestAsk : Decimal, bids.maxPrice = bestBid ∧ asks.minPrice = bestAsk ∧ bestBid < bestAsk

theorem positive_empty : Positive ∅ := by
  intro price quantity h
  rw [Finmap.lookup_empty] at h
  cases h

theorem Positive.put {side : BookSide} (h : side.Positive) {quantity : Decimal}
    (hquantity : 0 ≤ quantity) (price : Decimal) : (side.put price quantity).Positive := by
  intro p q hlookup
  rw [lookup_put] at hlookup
  split_ifs at hlookup with hp hzero
  · obtain rfl := Option.some.inj hlookup
    exact lt_of_le_of_ne hquantity (Ne.symm hzero)
  · exact h p q hlookup

theorem Positive.insert {side : BookSide} (h : side.Positive) {quantity : Decimal}
    (hquantity : 0 < quantity) (price : Decimal) :
    Positive (Finmap.insert price quantity side) := by
  intro p q hlookup
  by_cases hp : p = price
  · rw [hp, Finmap.lookup_insert] at hlookup
    exact (Option.some.inj hlookup) ▸ hquantity
  · rw [Finmap.lookup_insert_of_ne _ hp] at hlookup
    exact h p q hlookup

theorem keys_nonempty {side : BookSide} (h : side ≠ ∅) : side.keys.Nonempty := by
  by_contra hempty
  apply h
  apply Finmap.ext_lookup
  intro price
  have hnot : price ∉ side := by
    rw [← Finmap.mem_keys, Finset.not_nonempty_iff_eq_empty.mp hempty]
    exact Finset.notMem_empty price
  rw [Finmap.lookup_eq_none.mpr hnot, Finmap.lookup_empty]

/-- Sides that are not empty and not crossed. -/
theorem twoSided_of_not_crossed {bids asks : BookSide} (hbids : bids ≠ ∅) (hasks : asks ≠ ∅)
    (hcrossed : crossed bids asks = false) : TwoSided bids asks := by
  obtain ⟨bestBid, hbid⟩ := Finset.max_of_nonempty (keys_nonempty hbids)
  obtain ⟨bestAsk, hask⟩ := Finset.min_of_nonempty (keys_nonempty hasks)
  refine ⟨bestBid, bestAsk, hbid, hask, ?_⟩
  have hmax : bids.maxPrice = some bestBid := hbid
  have hmin : asks.minPrice = some bestAsk := hask
  rw [crossed, hmax, hmin] at hcrossed
  exact not_le.mp (of_decide_eq_false hcrossed)

end BookSide

namespace FeatureOrderBookState

variable (digest : SourceDigest)

/-! ## What the parts of a step can do -/

/-- The book with levels put on its sides. -/
def putLevels (book : FeatureOrderBookState) (bids asks : List OrderBookLevel) :
    FeatureOrderBookState :=
  { book with bids := applySide book.bids bids, asks := applySide book.asks asks }

/-- Levels are put, and the book is out of synchronization or goes on. -/
theorem applyLevels_cases (book : FeatureOrderBookState) (bids asks : List OrderBookLevel) :
    (∃ reason, book.applyLevels bids asks = ((book.putLevels bids asks).desynchronize reason, false)) ∨
      (BookSide.TwoSided (book.putLevels bids asks).bids (book.putLevels bids asks).asks ∧
        book.applyLevels bids asks = (book.putLevels bids asks, true)) := by
  unfold applyLevels
  dsimp only
  split_ifs with hempty hcrossed
  · exact .inl ⟨_, rfl⟩
  · exact .inl ⟨_, rfl⟩
  · obtain ⟨hbids, hasks⟩ := not_or.mp hempty
    exact .inr ⟨BookSide.twoSided_of_not_crossed hbids hasks
      (Bool.eq_false_iff.mpr hcrossed), rfl⟩

/-- A waiting update is skipped, ends the replay, or is applied. -/
theorem replayOne_cases (book : FeatureOrderBookState) (update : OrderBookUpdate) :
    book.replayOne update = (book, true) ∨
      (∃ reason, book.replayOne update = (book.desynchronize reason, false) ∨
        book.replayOne update =
          ((book.putLevels update.bids update.asks).desynchronize reason, false)) ∨
      (BookSide.TwoSided (book.putLevels update.bids update.asks).bids
          (book.putLevels update.bids update.asks).asks ∧
        book.replayOne update =
          ({ book.putLevels update.bids update.asks with
              lastChange := some (book.measureChange update)
              sequenceId := orDefault (sequenceNumber update.sequenceId) book.sequenceId }, true)) := by
  unfold replayOne
  dsimp only
  rcases book.applyLevels_cases update.bids update.asks with ⟨reason, hlost⟩ | ⟨hsides, hput⟩
  · rw [hlost]
    split
    · split_ifs
      · exact .inl rfl
      · exact .inr (.inl ⟨_, .inl rfl⟩)
      · exact .inr (.inl ⟨_, .inr rfl⟩)
    · exact .inr (.inl ⟨_, .inr rfl⟩)
  · rw [hput]
    split
    · split_ifs
      · exact .inl rfl
      · exact .inr (.inl ⟨_, .inl rfl⟩)
      · exact .inr (.inr ⟨hsides, rfl⟩)
    · exact .inr (.inr ⟨hsides, rfl⟩)

/-- An update that continues the book ends the synchronization or is applied. -/
theorem applyNext_cases (book : FeatureOrderBookState) (update : OrderBookUpdate) :
    let put := (book.recordLineage digest (.orderBookUpdate update)).putLevels update.bids update.asks
    (∃ reason, book.applyNext digest update = (put.desynchronize reason, .bookInvalidated)) ∨
      (BookSide.TwoSided put.bids put.asks ∧
        book.applyNext digest update =
          ({ put with
              lastChange := some (book.measureChange update)
              sequenceId := orDefault (sequenceNumber update.sequenceId) book.sequenceId },
            .accepted)) := by
  intro put
  unfold applyNext
  dsimp only
  rcases (book.recordLineage digest (.orderBookUpdate update)).applyLevels_cases update.bids
    update.asks with ⟨reason, hlost⟩ | ⟨hsides, hput⟩
  · rw [hlost]
    exact .inl ⟨reason, rfl⟩
  · rw [hput]
    exact .inr ⟨hsides, rfl⟩

/-- An update is stale, waits for a snapshot, or continues a synchronized book. -/
theorem applyUpdate_cases (book : FeatureOrderBookState) (update : OrderBookUpdate) :
    (∃ answer, answer.isStale = true ∧ book.applyUpdate digest update = (book, answer)) ∨
      (∃ waiting : FeatureOrderBookState,
        (waiting = book.reset update.generation (some "book generation changed before snapshot")
              true ∧ book.generation < update.generation ∨
            waiting = book ∧ book.generation = update.generation ∧ book.synchronized = false ∨
            waiting = { book.desynchronize "order-book update sequence gap" with pending := [] } ∧
              book.generation = update.generation ∧ book.synchronized = true) ∧
          book.applyUpdate digest update = waiting.buffer digest update) ∨
      (book.generation = update.generation ∧ book.synchronized = true ∧
        book.applyUpdate digest update = book.applyNext digest update) := by
  unfold applyUpdate
  split_ifs with hstale hnewer hwaiting
  · exact .inl ⟨_, rfl, rfl⟩
  · exact .inr (.inl ⟨_, .inl ⟨rfl, hnewer⟩, rfl⟩)
  · have hsame : book.generation = update.generation := by omega
    exact .inr (.inl ⟨_, .inr (.inl ⟨rfl, hsame, by simpa using hwaiting⟩), rfl⟩)
  · have hsame : book.generation = update.generation := by omega
    have hsynchronized : book.synchronized = true := by simpa using hwaiting
    split
    · split_ifs
      · exact .inl ⟨_, rfl, rfl⟩
      · exact .inr (.inl ⟨_, .inr (.inr ⟨rfl, hsame, hsynchronized⟩), rfl⟩)
      · exact .inr (.inr ⟨hsame, hsynchronized, rfl⟩)
    · exact .inr (.inr ⟨hsame, hsynchronized, rfl⟩)

/-- The updates a snapshot replays, in the order it replays them. -/
def replayed (book : FeatureOrderBookState) (snapshot : OrderBookSnapshot) :
    List OrderBookUpdate :=
  (if snapshot.generation = book.generation then book.pending else []).insertionSort
    fun u v => replayKey u ≤ replayKey v

/-- A snapshot is stale, is crossed, or is installed and the waiting updates replayed. -/
theorem applySnapshot_cases (book : FeatureOrderBookState) (snapshot : OrderBookSnapshot) :
    (∃ answer, answer.isStale = true ∧ book.applySnapshot digest snapshot = (book, answer)) ∨
      (book.generation ≤ snapshot.generation ∧ book.isStale snapshot = false ∧
        ((∃ reason, book.applySnapshot digest snapshot =
            ((book.installed digest snapshot).desynchronize reason, .bookInvalidated)) ∨
          ((book.installed digest snapshot).synchronized = true →
              BookSide.crossed (book.installed digest snapshot).bids
                (book.installed digest snapshot).asks = false) ∧
            book.applySnapshot digest snapshot =
              (book.installed digest snapshot).replayPending (book.replayed snapshot))) := by
  unfold applySnapshot
  by_cases hstale : snapshot.generation < book.generation
  · rw [if_pos hstale]
    exact .inl ⟨_, rfl, rfl⟩
  rw [if_neg hstale]
  by_cases hsequence : book.isStale snapshot = true
  · rw [if_pos hsequence]
    exact .inl ⟨_, rfl, rfl⟩
  rw [if_neg hsequence]
  refine .inr ⟨not_lt.mp hstale, Bool.eq_false_iff.mpr hsequence, ?_⟩
  dsimp only
  by_cases hcrossed : ((book.installed digest snapshot).synchronized &&
      BookSide.crossed (book.installed digest snapshot).bids
        (book.installed digest snapshot).asks) = true
  · rw [if_pos hcrossed]
    exact .inl ⟨_, rfl⟩
  · rw [if_neg hcrossed]
    refine .inr ⟨?_, rfl⟩
    intro hsynchronized
    rw [hsynchronized, Bool.true_and] at hcrossed
    exact Bool.eq_false_iff.mpr hcrossed

/-- The snapshot of a synchronized book's own generation continues its synchronization. -/
def continues (book : FeatureOrderBookState) (snapshot : OrderBookSnapshot) : Bool :=
  decide (snapshot.generation = book.generation) && book.synchronized

/-- The fields a snapshot installs. -/
structure Installed (book : FeatureOrderBookState) (snapshot : OrderBookSnapshot)
    (after : FeatureOrderBookState) : Prop where
  pendingCapacity : after.pendingCapacity = book.pendingCapacity
  pending : after.pending = []
  generation : after.generation = snapshot.generation
  epoch : after.epoch = if book.continues snapshot then book.epoch else book.epoch + 1
  sequenceId : after.sequenceId = sequenceNumber snapshot.sequenceId
  bids : after.bids = snapshotSide snapshot.bids
  asks : after.asks = snapshotSide snapshot.asks
  synchronized : after.synchronized = (decide (after.bids ≠ ∅) && decide (after.asks ≠ ∅))
  since : after.synchronizedSince =
    if after.synchronized then
      (if book.continues snapshot then book.synchronizedSince else some snapshot.exchangeTimestamp)
    else none

theorem installed_spec (book : FeatureOrderBookState) (snapshot : OrderBookSnapshot) :
    Installed book snapshot (book.installed digest snapshot) := by
  have hcontinues : (decide (snapshot.generation = book.generation) && book.synchronized) =
      book.continues snapshot := rfl
  by_cases hgeneration : snapshot.generation = book.generation
  · cases hsynchronized : book.synchronized <;>
      constructor <;> simp [installed, continues, recordLineage, reset, hgeneration, hsynchronized]
  · constructor <;> simp [installed, continues, recordLineage, reset, hgeneration]

/-! ## Coherence -/

/-- What a book keeps after every event. -/
structure Coherent (book : FeatureOrderBookState) : Prop where
  pending_le : book.pending.length ≤ book.pendingCapacity
  since : book.synchronizedSince.isSome = book.synchronized
  idle : book.synchronized = true → book.pending = []
  sides : book.synchronized = true → BookSide.TwoSided book.bids book.asks

/-- A book out of synchronization is coherent when it has room for what waits. -/
theorem coherent_of_not_synchronized {book : FeatureOrderBookState}
    (hpending : book.pending.length ≤ book.pendingCapacity)
    (hsynchronized : book.synchronized = false) (hsince : book.synchronizedSince = none) :
    book.Coherent where
  pending_le := hpending
  since := by rw [hsince, hsynchronized]; rfl
  idle := by simp [hsynchronized]
  sides := by simp [hsynchronized]

namespace Coherent

theorem fresh {pendingCapacity : Nat} (hcapacity : 1 ≤ pendingCapacity) :
    Coherent { pendingCapacity, pendingCapacity_pos := hcapacity } :=
  coherent_of_not_synchronized (Nat.zero_le _) rfl rfl

theorem replayPending {book : FeatureOrderBookState} (h : book.Coherent)
    (updates : List OrderBookUpdate) : (book.replayPending updates).1.Coherent := by
  induction updates generalizing book with
  | nil => exact h
  | cons update rest ih =>
    unfold FeatureOrderBookState.replayPending
    rcases book.replayOne_cases update with
      hskip | ⟨reason, hgap | hlost⟩ | ⟨hsides, happlied⟩
    · rw [hskip]
      exact ih h
    · rw [hgap]
      exact coherent_of_not_synchronized h.pending_le rfl rfl
    · rw [hlost]
      exact coherent_of_not_synchronized h.pending_le rfl rfl
    · rw [happlied]
      exact ih ⟨h.pending_le, h.since, h.idle, fun _ => hsides⟩

theorem buffer {book : FeatureOrderBookState} (update : OrderBookUpdate)
    (hsynchronized : book.synchronized = false) (hsince : book.synchronizedSince = none) :
    (book.buffer digest update).1.Coherent := by
  unfold FeatureOrderBookState.buffer
  split_ifs with hfull
  · exact coherent_of_not_synchronized (Nat.zero_le _) rfl rfl
  · have hroom : (book.pending ++ [update]).length ≤ book.pendingCapacity := by
      rw [List.length_append, List.length_singleton]
      omega
    exact coherent_of_not_synchronized hroom hsynchronized hsince

theorem applyUpdate {book : FeatureOrderBookState} (h : book.Coherent) (update : OrderBookUpdate) :
    (book.applyUpdate digest update).1.Coherent := by
  rcases book.applyUpdate_cases digest update with
    ⟨answer, -, hstale⟩ | ⟨waiting, hwaiting, hbuffer⟩ | ⟨-, hsynchronized, hnext⟩
  · rw [hstale]
    exact h
  · rw [hbuffer]
    rcases hwaiting with ⟨rfl, -⟩ | ⟨rfl, -, hsynchronized⟩ | ⟨rfl, -⟩
    · exact buffer digest update rfl rfl
    · have hsince := h.since
      rw [hsynchronized, Option.isSome_eq_false_iff, Option.isNone_iff_eq_none] at hsince
      exact buffer digest update hsynchronized hsince
    · exact buffer digest update rfl rfl
  · rw [hnext]
    rcases book.applyNext_cases digest update with ⟨reason, hlost⟩ | ⟨hsides, happlied⟩
    · rw [hlost]
      exact coherent_of_not_synchronized h.pending_le rfl rfl
    · rw [happlied]
      exact ⟨h.pending_le, h.since, h.idle, fun _ => hsides⟩

theorem applySnapshot {book : FeatureOrderBookState} (h : book.Coherent)
    (snapshot : OrderBookSnapshot) : (book.applySnapshot digest snapshot).1.Coherent := by
  rcases book.applySnapshot_cases digest snapshot with
    ⟨answer, -, hstale⟩ | ⟨-, -, ⟨reason, hcrossed⟩ | ⟨hsides, hreplay⟩⟩
  · rw [hstale]
    exact h
  · rw [hcrossed]
    have hroom : (book.installed digest snapshot).pending.length ≤
        (book.installed digest snapshot).pendingCapacity := by
      rw [(book.installed_spec digest snapshot).pending]
      exact Nat.zero_le _
    exact coherent_of_not_synchronized hroom rfl rfl
  · rw [hreplay]
    apply replayPending
    have hinstalled := book.installed_spec digest snapshot
    refine ⟨?_, ?_, fun _ => hinstalled.pending, ?_⟩
    · rw [hinstalled.pending]
      exact Nat.zero_le _
    · rw [hinstalled.since]
      cases hsynchronized : (book.installed digest snapshot).synchronized with
      | false => rfl
      | true =>
        rw [if_pos rfl]
        split_ifs with hcontinues
        · -- a continuing snapshot keeps the instant of a synchronized book
          rw [h.since]
          exact ((Bool.and_eq_true _ _).mp hcontinues).2
        · rfl
    · intro hsynchronized
      have hboth := hinstalled.synchronized
      rw [hsynchronized] at hboth
      obtain ⟨hbids, hasks⟩ := (Bool.and_eq_true _ _).mp hboth.symm
      exact BookSide.twoSided_of_not_crossed (of_decide_eq_true hbids) (of_decide_eq_true hasks)
        (hsides hsynchronized)

end Coherent

/-! ## Stored quantities -/

/-- What is stored is positive, and what waits is not negative. -/
structure PositiveLevels (book : FeatureOrderBookState) : Prop where
  bids : book.bids.Positive
  asks : book.asks.Positive
  pending : ∀ update ∈ book.pending, ∀ level ∈ update.bids ++ update.asks, 0 ≤ level.quantity

theorem positive_applySide {side : BookSide} (h : side.Positive) {levels : List OrderBookLevel}
    (hlevels : ∀ level ∈ levels, 0 ≤ level.quantity) : (applySide side levels).Positive := by
  unfold applySide
  induction levels generalizing side with
  | nil => exact h
  | cons level rest ih =>
    rw [List.foldl_cons]
    exact ih (h.put (hlevels level List.mem_cons_self) level.price) fun other hother =>
      hlevels other (List.mem_cons_of_mem _ hother)

theorem positive_snapshotSide {levels : List OrderBookLevel}
    (hlevels : ∀ level ∈ levels, 0 < level.quantity) : (snapshotSide levels).Positive := by
  unfold snapshotSide
  have hempty := BookSide.positive_empty
  revert hempty
  generalize (∅ : BookSide) = side
  intro hside
  induction levels generalizing side with
  | nil => exact hside
  | cons level rest ih =>
    rw [List.foldl_cons]
    exact ih (fun other hother => hlevels other (List.mem_cons_of_mem _ hother)) _
      (hside.insert (hlevels level List.mem_cons_self) level.price)

namespace PositiveLevels

theorem putLevels {book : FeatureOrderBookState} (h : book.PositiveLevels)
    {bids asks : List OrderBookLevel} (hlevels : ∀ level ∈ bids ++ asks, 0 ≤ level.quantity) :
    (book.putLevels bids asks).PositiveLevels where
  bids := positive_applySide h.bids fun level hlevel => hlevels level (List.mem_append_left _ hlevel)
  asks := positive_applySide h.asks fun level hlevel => hlevels level (List.mem_append_right _ hlevel)
  pending := h.pending

theorem replayPending {book : FeatureOrderBookState} (h : book.PositiveLevels)
    {updates : List OrderBookUpdate}
    (hupdates : ∀ update ∈ updates, ∀ level ∈ update.bids ++ update.asks, 0 ≤ level.quantity) :
    (book.replayPending updates).1.PositiveLevels := by
  induction updates generalizing book with
  | nil => exact h
  | cons update rest ih =>
    have hput := h.putLevels (hupdates update List.mem_cons_self)
    have hrest := fun other (hother : other ∈ rest) => hupdates other (List.mem_cons_of_mem _ hother)
    unfold FeatureOrderBookState.replayPending
    rcases book.replayOne_cases update with hskip | ⟨reason, hgap | hlost⟩ | ⟨-, happlied⟩
    · rw [hskip]
      exact ih h hrest
    · rw [hgap]
      exact ⟨h.bids, h.asks, h.pending⟩
    · rw [hlost]
      exact ⟨hput.bids, hput.asks, hput.pending⟩
    · rw [happlied]
      exact ih ⟨hput.bids, hput.asks, hput.pending⟩ hrest

theorem buffer {book : FeatureOrderBookState} (h : book.PositiveLevels) {update : OrderBookUpdate}
    (hupdate : ∀ level ∈ update.bids ++ update.asks, 0 ≤ level.quantity) :
    (book.buffer digest update).1.PositiveLevels := by
  unfold FeatureOrderBookState.buffer
  split_ifs
  · exact ⟨BookSide.positive_empty, BookSide.positive_empty, by simp [recordLineage, reset]⟩
  · refine ⟨h.bids, h.asks, ?_⟩
    intro other hother
    rcases List.mem_append.mp hother with hother | hother
    · exact h.pending other hother
    · rw [List.mem_singleton.mp hother]
      exact hupdate

theorem applyUpdate {book : FeatureOrderBookState} (h : book.PositiveLevels)
    {update : OrderBookUpdate}
    (hupdate : ∀ level ∈ update.bids ++ update.asks, 0 ≤ level.quantity) :
    (book.applyUpdate digest update).1.PositiveLevels := by
  have hempty : ∀ reason, (book.reset update.generation reason true).PositiveLevels := fun _ =>
    ⟨BookSide.positive_empty, BookSide.positive_empty, by simp [reset]⟩
  rcases book.applyUpdate_cases digest update with
    ⟨answer, -, hstale⟩ | ⟨waiting, hwaiting, hbuffer⟩ | ⟨-, -, hnext⟩
  · rw [hstale]
    exact h
  · rw [hbuffer]
    rcases hwaiting with ⟨rfl, -⟩ | ⟨rfl, -⟩ | ⟨rfl, -⟩
    · exact (hempty _).buffer digest hupdate
    · exact h.buffer digest hupdate
    · have hcleared : PositiveLevels
          { book.desynchronize "order-book update sequence gap" with pending := [] } :=
        ⟨h.bids, h.asks, fun _ hnone => absurd hnone List.not_mem_nil⟩
      exact hcleared.buffer digest hupdate
  · rw [hnext]
    have hput := h.putLevels hupdate
    rcases book.applyNext_cases digest update with ⟨reason, hlost⟩ | ⟨-, happlied⟩
    · rw [hlost]
      exact ⟨hput.bids, hput.asks, hput.pending⟩
    · rw [happlied]
      exact ⟨hput.bids, hput.asks, hput.pending⟩

theorem applySnapshot {book : FeatureOrderBookState} (h : book.PositiveLevels)
    {snapshot : OrderBookSnapshot}
    (hsnapshot : snapshot.generation < book.generation ∨ book.isStale snapshot = true ∨
      ∀ level ∈ snapshot.bids ++ snapshot.asks, 0 < level.quantity) :
    (book.applySnapshot digest snapshot).1.PositiveLevels := by
  rcases book.applySnapshot_cases digest snapshot with
    ⟨answer, -, hstale⟩ | ⟨hgeneration, hfresh, hinstalled⟩
  · rw [hstale]
    exact h
  have hlevels : ∀ level ∈ snapshot.bids ++ snapshot.asks, 0 < level.quantity := by
    rcases hsnapshot with hlt | hstale | hlevels
    · exact absurd hlt (not_lt.mpr hgeneration)
    · rw [hfresh] at hstale
      cases hstale
    · exact hlevels
  have hspec := book.installed_spec digest snapshot
  have hpositive : (book.installed digest snapshot).PositiveLevels := by
    refine ⟨?_, ?_, by simp [hspec.pending]⟩
    · rw [hspec.bids]
      exact positive_snapshotSide fun level hlevel => hlevels level (List.mem_append_left _ hlevel)
    · rw [hspec.asks]
      exact positive_snapshotSide fun level hlevel => hlevels level (List.mem_append_right _ hlevel)
  rcases hinstalled with ⟨reason, hcrossed⟩ | ⟨-, hreplay⟩
  · rw [hcrossed]
    exact ⟨hpositive.bids, hpositive.asks, hpositive.pending⟩
  · rw [hreplay]
    apply hpositive.replayPending
    intro update hupdate
    rw [replayed, List.mem_insertionSort] at hupdate
    split_ifs at hupdate
    · exact h.pending update hupdate
    · exact absurd hupdate List.not_mem_nil

end PositiveLevels

/-! ## Runs -/

/-- A book as constructed. -/
def fresh (pendingCapacity : Nat) (hcapacity : 1 ≤ pendingCapacity) : FeatureOrderBookState :=
  { pendingCapacity, pendingCapacity_pos := hcapacity }

/-- A snapshot the book does not refuse has no level of quantity zero. -/
def NoZeroLevel (book : FeatureOrderBookState) : NormalizedMarketEvent → Prop
  | .orderBookSnapshot snapshot =>
    snapshot.generation < book.generation ∨ book.isStale snapshot = true ∨
      ∀ level ∈ snapshot.bids ++ snapshot.asks, level.quantity ≠ 0
  | _ => True

/-- A book event the validators accept. -/
def ValidBookEvent : NormalizedMarketEvent → Prop
  | .orderBookSnapshot snapshot => snapshot.validate = .ok ()
  | .orderBookUpdate update => update.validate = .ok ()
  | _ => False

end FeatureOrderBookState

theorem OrderBookSnapshot.quantity_nonneg {snapshot : OrderBookSnapshot}
    (h : snapshot.validate = .ok ()) :
    ∀ level ∈ snapshot.bids ++ snapshot.asks, 0 ≤ level.quantity := by
  unfold OrderBookSnapshot.validate at h
  obtain ⟨_, hbids, hrest⟩ := bind_eq_ok_iff.mp h
  obtain ⟨_, hasks, -⟩ := bind_eq_ok_iff.mp hrest
  intro level hlevel
  rcases List.mem_append.mp hlevel with hlevel | hlevel
  · exact (forM_validate_eq_ok_iff.mp hbids level hlevel).2
  · exact (forM_validate_eq_ok_iff.mp hasks level hlevel).2

theorem OrderBookUpdate.quantity_nonneg {update : OrderBookUpdate}
    (h : update.validate = .ok ()) :
    ∀ level ∈ update.bids ++ update.asks, 0 ≤ level.quantity := by
  unfold OrderBookUpdate.validate at h
  obtain ⟨_, hbids, hrest⟩ := bind_eq_ok_iff.mp h
  obtain ⟨_, hasks, -⟩ := bind_eq_ok_iff.mp hrest
  intro level hlevel
  rcases List.mem_append.mp hlevel with hlevel | hlevel
  · exact (forM_validate_eq_ok_iff.mp hbids level hlevel).2
  · exact (forM_validate_eq_ok_iff.mp hasks level hlevel).2

namespace FeatureOrderBookState

variable (digest : SourceDigest)

theorem consume_coherent {book : FeatureOrderBookState} (h : book.Coherent)
    (event : NormalizedMarketEvent) : (book.consume digest event).Coherent := by
  cases event with
  | orderBookSnapshot snapshot => exact h.applySnapshot digest snapshot
  | orderBookUpdate update => exact h.applyUpdate digest update
  | _ => exact h

theorem consume_positive {book : FeatureOrderBookState} (h : book.PositiveLevels)
    {event : NormalizedMarketEvent} (hvalid : ValidBookEvent event)
    (hnonzero : book.NoZeroLevel event) : (book.consume digest event).PositiveLevels := by
  cases event with
  | orderBookSnapshot snapshot =>
    apply h.applySnapshot
    rcases hnonzero with hlt | hstale | hlevels
    · exact .inl hlt
    · exact .inr (.inl hstale)
    · refine .inr (.inr fun level hlevel => ?_)
      exact lt_of_le_of_ne (OrderBookSnapshot.quantity_nonneg hvalid level hlevel)
        (hlevels level hlevel).symm
  | orderBookUpdate update =>
    exact h.applyUpdate digest (OrderBookUpdate.quantity_nonneg hvalid)
  | _ => exact h

/-- No event lowers the generation. -/
theorem generation_le_consume (book : FeatureOrderBookState) (event : NormalizedMarketEvent) :
    book.generation ≤ (book.consume digest event).generation := by
  have hstep : ∀ event, event.isBook = true →
      book.generation ≤ (book.apply digest event).1.generation := by
    intro event hbook
    rcases book.apply_spec digest event hbook with ⟨-, hsame⟩ | hrecorded
    · rw [hsame]
    · rw [hrecorded.generation]
      exact hrecorded.generation_le
  cases event with
  | orderBookSnapshot snapshot => exact hstep (.orderBookSnapshot snapshot) rfl
  | orderBookUpdate update => exact hstep (.orderBookUpdate update) rfl
  | _ => exact le_rfl

theorem pendingCapacity_replayPending (book : FeatureOrderBookState)
    (updates : List OrderBookUpdate) :
    (book.replayPending updates).1.pendingCapacity = book.pendingCapacity := by
  induction updates generalizing book with
  | nil => rfl
  | cons update rest ih =>
    unfold replayPending
    rcases book.replayOne_cases update with hskip | ⟨reason, hgap | hlost⟩ | ⟨-, happlied⟩
    · rw [hskip]
      exact ih book
    · rw [hgap]
      rfl
    · rw [hlost]
      rfl
    · rw [happlied]
      exact ih _

theorem pendingCapacity_buffer (book : FeatureOrderBookState) (update : OrderBookUpdate) :
    (book.buffer digest update).1.pendingCapacity = book.pendingCapacity := by
  unfold buffer
  split_ifs <;> rfl

theorem pendingCapacity_consume (book : FeatureOrderBookState) (event : NormalizedMarketEvent) :
    (book.consume digest event).pendingCapacity = book.pendingCapacity := by
  cases event with
  | orderBookSnapshot snapshot =>
    show (book.applySnapshot digest snapshot).1.pendingCapacity = _
    have hinstalled := (book.installed_spec digest snapshot).pendingCapacity
    rcases book.applySnapshot_cases digest snapshot with
      ⟨answer, -, hstale⟩ | ⟨-, -, ⟨reason, hcrossed⟩ | ⟨-, hreplay⟩⟩
    · rw [hstale]
    · rw [hcrossed]
      exact hinstalled
    · rw [hreplay, pendingCapacity_replayPending, hinstalled]
  | orderBookUpdate update =>
    show (book.applyUpdate digest update).1.pendingCapacity = _
    rcases book.applyUpdate_cases digest update with
      ⟨answer, -, hstale⟩ | ⟨waiting, hwaiting, hbuffer⟩ | ⟨-, -, hnext⟩
    · rw [hstale]
    · rw [hbuffer, pendingCapacity_buffer]
      rcases hwaiting with ⟨rfl, -⟩ | ⟨rfl, -⟩ | ⟨rfl, -⟩ <;> rfl
    · rw [hnext]
      rcases book.applyNext_cases digest update with ⟨reason, hlost⟩ | ⟨-, happlied⟩
      · rw [hlost]
        rfl
      · rw [happlied]
        rfl
  | _ => rfl

/-- The representation of a book with room for `pendingCapacity` waiting updates. -/
structure Represented (pendingCapacity : Nat) (book : FeatureOrderBookState) : Prop where
  pending_le : book.pending.length ≤ pendingCapacity
  since : book.synchronizedSince.isSome = book.synchronized
  idle : book.synchronized = true → book.pending = []
  sides : book.synchronized = true → BookSide.TwoSided book.bids book.asks
  positive : book.synchronized = true → book.bids.Positive ∧ book.asks.Positive

/-- Along every run of valid book events in which no snapshot with a level of quantity zero is taken,
the book stays well represented and its generation never decreases. -/
theorem representation_kept_without_zero_levels {pendingCapacity : Nat}
    (hcapacity : 1 ≤ pendingCapacity) {events : List NormalizedMarketEvent}
    (hvalid : ∀ event ∈ events, ValidBookEvent event)
    (hnonzero : Admitted (consume digest) NoZeroLevel (fresh pendingCapacity hcapacity) events)
    {done : List NormalizedMarketEvent} (hdone : done <+: events) :
    Represented pendingCapacity (done.foldl (consume digest) (fresh pendingCapacity hcapacity)) ∧
      ∀ earlier, earlier <+: done →
        (earlier.foldl (consume digest) (fresh pendingCapacity hcapacity)).generation ≤
          (done.foldl (consume digest) (fresh pendingCapacity hcapacity)).generation := by
  constructor
  · obtain ⟨rest, rfl⟩ := hdone
    have hrun := (admitted_append.mp hnonzero).1.and (admitted_of_forall fun event hevent =>
      hvalid event (List.mem_append_left _ hevent))
    have hkept : ∀ (book : FeatureOrderBookState) (event : NormalizedMarketEvent),
        book.Coherent ∧ book.PositiveLevels ∧ book.pendingCapacity = pendingCapacity →
          book.NoZeroLevel event ∧ ValidBookEvent event →
            (book.consume digest event).Coherent ∧ (book.consume digest event).PositiveLevels ∧
              (book.consume digest event).pendingCapacity = pendingCapacity := by
      rintro book event ⟨hcoherent, hpositive, hroom⟩ ⟨hzero, hevent⟩
      exact ⟨consume_coherent digest hcoherent event,
        consume_positive digest hpositive hevent hzero,
        (book.pendingCapacity_consume digest event).trans hroom⟩
    obtain ⟨hcoherent, hpositive, hroom⟩ := invariant_of_admitted hkept
      ⟨.fresh hcapacity, ⟨BookSide.positive_empty, BookSide.positive_empty, by simp⟩, rfl⟩
      hrun
    exact ⟨hcoherent.pending_le.trans_eq hroom, hcoherent.since, hcoherent.idle, hcoherent.sides,
      fun _ => ⟨hpositive.bids, hpositive.asks⟩⟩
  · rintro earlier ⟨later, rfl⟩
    clear hdone hvalid hnonzero
    rw [List.foldl_append]
    induction later using List.reverseRecOn with
    | nil => exact le_rfl
    | append_singleton later event ih =>
      rw [List.foldl_append]
      exact ih.trans (generation_le_consume digest _ event)

/-! ### A level of quantity zero -/

/-- A snapshot of one bid of the given quantity. -/
def oneBidSnapshot (quantity : Decimal) : OrderBookSnapshot :=
  { exchange := .binance
    symbol := "BTC-USDT-PERP"
    exchangeTimestamp := 1000000
    localReceiveTimestamp := 1000000
    normalizationTimestamp := 1000000
    sequenceId := some (.int 1)
    bids := [⟨100, quantity⟩]
    asks := [⟨101, 1⟩]
    depth := 1 }

/-- An update from one id to another that sets the bid. -/
def bidUpdate (previous id : Int) : OrderBookUpdate :=
  { exchange := .binance
    symbol := "BTC-USDT-PERP"
    exchangeTimestamp := 1000000
    localReceiveTimestamp := 1000000
    normalizationTimestamp := 1000000
    sequenceId := some (.int id)
    previousSequenceId := some (.int previous)
    bids := [⟨100, 3⟩] }

/-- An update waits for the snapshot, the next one follows it, the third leaves a gap, and a snapshot
opens the next generation. -/
def exampleBookEvents : List NormalizedMarketEvent :=
  [.orderBookUpdate (bidUpdate 1 2), .orderBookSnapshot (oneBidSnapshot 2),
    .orderBookUpdate (bidUpdate 2 3), .orderBookUpdate (bidUpdate 5 6),
    .orderBookSnapshot { oneBidSnapshot 2 with generation := 1 }]

theorem representation_kept_without_zero_levels_gap :
    (exampleBookEvents.inits.map fun done =>
        let book := done.foldl (consume fun _ _ => 0) (fresh 1 le_rfl)
        (book.generation, book.synchronized)) =
      [(0, false), (0, false), (0, true), (0, true), (0, false), (1, true)] ∧
    ∀ done, done <+: exampleBookEvents →
      Represented 1 (done.foldl (consume fun _ _ => 0) (fresh 1 le_rfl)) ∧
        ∀ earlier, earlier <+: done →
          (earlier.foldl (consume fun _ _ => 0) (fresh 1 le_rfl)).generation ≤
            (done.foldl (consume fun _ _ => 0) (fresh 1 le_rfl)).generation := by
  refine ⟨by decide +kernel, fun done hdone => ?_⟩
  apply representation_kept_without_zero_levels (fun _ _ => 0) le_rfl _ _ hdone
  · intro event hevent
    have hcases : event = .orderBookUpdate (bidUpdate 1 2) ∨ event = .orderBookSnapshot (oneBidSnapshot 2) ∨
        event = .orderBookUpdate (bidUpdate 2 3) ∨ event = .orderBookUpdate (bidUpdate 5 6) ∨
          event = .orderBookSnapshot { oneBidSnapshot 2 with generation := 1 } := by
      simpa [exampleBookEvents] using hevent
    rcases hcases with rfl | rfl | rfl | rfl | rfl
    · show (bidUpdate 1 2).validate = .ok ()
      decide +kernel
    · show (oneBidSnapshot 2).validate = .ok ()
      decide +kernel
    · show (bidUpdate 2 3).validate = .ok ()
      decide +kernel
    · show (bidUpdate 5 6).validate = .ok ()
      decide +kernel
    · show ({ oneBidSnapshot 2 with generation := 1 } : OrderBookSnapshot).validate = .ok ()
      decide +kernel
  · have hnonzero : ∀ level ∈ (oneBidSnapshot 2).bids ++ (oneBidSnapshot 2).asks, level.quantity ≠ 0 := by
      decide +kernel
    exact ⟨trivial, .inr (.inr hnonzero), trivial, trivial, .inr (.inr hnonzero), trivial⟩

/-- The zero is stored and the book is synchronized. -/
theorem snapshot_stores_zero_level :
    ¬ ∀ (digest : SourceDigest) (pendingCapacity : Nat) (hcapacity : 1 ≤ pendingCapacity)
        (events : List NormalizedMarketEvent), (∀ event ∈ events, ValidBookEvent event) →
        ∀ done, done <+: events →
          Represented pendingCapacity
              (done.foldl (consume digest) (fresh pendingCapacity hcapacity)) ∧
            ∀ earlier, earlier <+: done →
              (earlier.foldl (consume digest) (fresh pendingCapacity hcapacity)).generation ≤
                (done.foldl (consume digest) (fresh pendingCapacity hcapacity)).generation := by
  intro hclaim
  have hvalid : ∀ event ∈ [NormalizedMarketEvent.orderBookSnapshot (oneBidSnapshot 0)],
      ValidBookEvent event := by
    intro event hevent
    rw [List.mem_singleton.mp hevent]
    show (oneBidSnapshot 0).validate = .ok ()
    decide +kernel
  have hrepresented := (hclaim (fun _ _ => 0) 1 le_rfl _ hvalid _ (List.prefix_refl _)).1
  have hsynchronized : ([NormalizedMarketEvent.orderBookSnapshot (oneBidSnapshot 0)].foldl
      (consume fun _ _ => 0) (fresh 1 le_rfl)).synchronized = true := by
    decide +kernel
  have hlookup : ([NormalizedMarketEvent.orderBookSnapshot (oneBidSnapshot 0)].foldl
      (consume fun _ _ => 0) (fresh 1 le_rfl)).bids.lookup 100 = some 0 := by
    decide +kernel
  exact lt_irrefl _ ((hrepresented.positive hsynchronized).1 100 0 hlookup)

end FeatureOrderBookState

end Cvf
