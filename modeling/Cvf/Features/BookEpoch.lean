/-
# Cvf.Features.BookEpoch — one epoch is one synchronization.

The epoch is raised when a snapshot synchronizes a book that was not, so two synchronized books of one
epoch have nothing but synchronized books between them.  The liquidity changes of a window are those
of the view's own epoch, and so are never taken from both sides of a loss of synchronization.
-/
import Cvf.Features.BookInvariant
import Cvf.Features.AsOf
import Cvf.Features.RollingQueries

namespace Cvf

open Cvf.Library

namespace FeatureOrderBookState

variable (digest : SourceDigest)

/-! ## One event -/

/-- A replay that ends synchronized started so, since the same instant. -/
theorem replayPending_synchronized {book : FeatureOrderBookState} {updates : List OrderBookUpdate}
    (h : (book.replayPending updates).1.synchronized = true) :
    book.synchronized = true ∧
      book.synchronizedSince = (book.replayPending updates).1.synchronizedSince := by
  induction updates generalizing book with
  | nil => exact ⟨h, rfl⟩
  | cons update rest ih =>
    unfold replayPending at h ⊢
    rcases book.replayOne_cases update with hskip | ⟨reason, hgap | hlost⟩ | ⟨-, happlied⟩
    · rw [hskip] at h ⊢
      exact ih h
    · rw [hgap] at h
      cases h
    · rw [hlost] at h
      cases h
    · rw [happlied] at h ⊢
      exact ih h

theorem buffer_synchronized {book : FeatureOrderBookState} (update : OrderBookUpdate)
    (h : book.synchronized = false) : (book.buffer digest update).1.synchronized = false := by
  unfold buffer
  split_ifs
  · rfl
  · exact h

/-- A snapshot that leaves the book synchronized in its epoch found it synchronized. -/
theorem applySnapshot_keeps_phase (book : FeatureOrderBookState) (snapshot : OrderBookSnapshot)
    (h : (book.applySnapshot digest snapshot).1.synchronized = true)
    (hepoch : (book.applySnapshot digest snapshot).1.epoch = book.epoch) :
    book.synchronized = true ∧
      book.synchronizedSince = (book.applySnapshot digest snapshot).1.synchronizedSince := by
  rcases book.applySnapshot_cases digest snapshot with
    ⟨answer, -, hstale⟩ | ⟨-, -, ⟨reason, hcrossed⟩ | ⟨-, hreplay⟩⟩
  · rw [hstale] at h ⊢
    exact ⟨h, rfl⟩
  · rw [hcrossed] at h
    cases h
  · rw [hreplay] at h hepoch ⊢
    obtain ⟨hinstalled, hsince⟩ := replayPending_synchronized h
    have hspec := book.installed_spec digest snapshot
    rw [((book.installed digest snapshot).replayPending_spec _).1.epoch, hspec.epoch] at hepoch
    -- without continuing the book the snapshot would have raised the epoch
    have hcontinues : book.continues snapshot = true := by
      by_contra hnot
      rw [if_neg hnot] at hepoch
      omega
    rw [hspec.since, if_pos hinstalled, if_pos hcontinues] at hsince
    exact ⟨((Bool.and_eq_true _ _).mp hcontinues).2, hsince⟩

theorem applyUpdate_keeps_phase (book : FeatureOrderBookState) (update : OrderBookUpdate)
    (h : (book.applyUpdate digest update).1.synchronized = true) :
    book.synchronized = true ∧
      book.synchronizedSince = (book.applyUpdate digest update).1.synchronizedSince := by
  rcases book.applyUpdate_cases digest update with
    ⟨answer, -, hstale⟩ | ⟨waiting, hwaiting, hbuffer⟩ | ⟨-, hsynchronized, hnext⟩
  · rw [hstale] at h ⊢
    exact ⟨h, rfl⟩
  · exfalso
    have hnot : waiting.synchronized = false := by
      rcases hwaiting with ⟨rfl, -⟩ | ⟨rfl, -, hnot⟩ | ⟨rfl, -⟩
      · rfl
      · exact hnot
      · rfl
    rw [hbuffer, buffer_synchronized digest update hnot] at h
    cases h
  · rw [hnext] at h ⊢
    rcases book.applyNext_cases digest update with ⟨reason, hlost⟩ | ⟨-, happlied⟩
    · rw [hlost] at h
      cases h
    · rw [happlied]
      exact ⟨hsynchronized, rfl⟩

theorem epoch_le_consume (book : FeatureOrderBookState) (event : NormalizedMarketEvent) :
    book.epoch ≤ (book.consume digest event).epoch := by
  have hstep : ∀ event, event.isBook = true →
      book.epoch ≤ (book.apply digest event).1.epoch := by
    intro event hbook
    rcases book.apply_spec digest event hbook with ⟨-, hsame⟩ | hrecorded
    · rw [hsame]
    · exact hrecorded.epoch_le
  cases event with
  | orderBookSnapshot snapshot => exact hstep (.orderBookSnapshot snapshot) rfl
  | orderBookUpdate update => exact hstep (.orderBookUpdate update) rfl
  | _ => exact le_rfl

/-- Along a run of book events an epoch is a phase of synchronization. -/
theorem keepsPhase_consume :
    KeepsPhase (consume digest) (·.synchronized = true) epoch synchronizedSince where
  count_le := epoch_le_consume digest
  live := by
    intro book event h hepoch
    cases event with
    | orderBookSnapshot snapshot => exact applySnapshot_keeps_phase digest book snapshot h hepoch
    | orderBookUpdate update => exact applyUpdate_keeps_phase digest book update h
    | _ => exact ⟨h, rfl⟩

end FeatureOrderBookState

/-! ## The changes of a window -/

/-- What `_order_book_values` sums over the changes of the view's generation and epoch. -/
structure OrderBookChangeValues where
  bidLiquidityChange : Decimal
  askLiquidityChange : Decimal
  addedLiquidityQuantity : Decimal
  removedLiquidityQuantity : Decimal
  orderFlowImbalance : Decimal
  deriving DecidableEq, Repr

/-- The change of a checkpoint of the view's generation and epoch. -/
def FeatureBookView.changeItem (view : FeatureBookView)
    (checkpoint : TimedValue FeatureBookCheckpoint) : Option (TimedValue BookChange) :=
  match checkpoint.value.change with
  | none => none
  | some change =>
    if checkpoint.value.view.generation = view.generation
        ∧ checkpoint.value.view.epoch = view.epoch then
      some ⟨checkpoint.timestamp, change, checkpoint.ordinal⟩
    else none

namespace VenueSymbolState

/-- `change_items` of `_order_book_values`; `none` is the error of `items_between`. -/
def changeItems (state : VenueSymbolState) (view : FeatureBookView) (start decision : Int) :
    Option (List (TimedValue BookChange)) :=
  (state.bookHistory.itemsBetween start decision).map (·.filterMap view.changeItem)

/-- The sums over `changes` in `_order_book_values`. -/
def sumChanges (changes : List BookChange) : OrderBookChangeValues :=
  { bidLiquidityChange := (changes.map (·.bidQuantityDelta)).sum
    askLiquidityChange := (changes.map (·.askQuantityDelta)).sum
    addedLiquidityQuantity :=
      (changes.map fun change => change.addedBidQuantity + change.addedAskQuantity).sum
    removedLiquidityQuantity :=
      (changes.map fun change => change.removedBidQuantity + change.removedAskQuantity).sum
    orderFlowImbalance := (changes.map (·.orderFlowImbalance)).sum }

/-- The changes part of `_order_book_values`: absent for a view without two synchronized sides. -/
def orderBookChangeValues (state : VenueSymbolState) (view : FeatureBookView)
    (start decision : Int) : Option OrderBookChangeValues :=
  if !view.synchronized ∨ view.bids = [] ∨ view.asks = [] then none
  else (state.changeItems view start decision).map fun items => sumChanges (items.map (·.value))

end VenueSymbolState

/-! ## Checkpoints and the run they were recorded in -/

section Recording

variable (digest : SourceDigest) (config : FeaturesConfig)

/-- A checkpoint shows the book a state held, synchronized when a change goes with it. -/
structure RecordedIn (checkpoint : FeatureBookCheckpoint) (state : VenueSymbolState) : Prop where
  view : checkpoint.view = state.bookView config
  change : ∀ change ∈ checkpoint.change,
    state.orderBook.synchronized = true ∧ state.orderBook.lastChange = some change

/-- An update the book accepts leaves it synchronized. -/
theorem FeatureOrderBookState.synchronized_of_applyUpdate_accepted
    {book : FeatureOrderBookState} {update : OrderBookUpdate}
    (h : (book.applyUpdate digest update).2 = .accepted) :
    (book.applyUpdate digest update).1.synchronized = true := by
  rcases book.applyUpdate_cases digest update with
    ⟨answer, hanswer, hstale⟩ | ⟨waiting, -, hbuffer⟩ | ⟨-, hsynchronized, hnext⟩
  · rw [hstale] at h
    rw [show answer = .accepted from h] at hanswer
    cases hanswer
  · exfalso
    rw [hbuffer] at h
    unfold buffer at h
    split_ifs at h
  · rw [hnext] at h ⊢
    rcases book.applyNext_cases digest update with ⟨reason, hlost⟩ | ⟨-, happlied⟩
    · rw [hlost] at h
      cases h
    · rw [happlied]
      exact hsynchronized

namespace VenueSymbolState

/-- A change goes with a book event only when the book accepted it as an update. -/
theorem applyBook_change {state : VenueSymbolState} {event : NormalizedMarketEvent}
    {change : BookChange} (h : (state.applyBook digest event).2.2 = some change) :
    (state.applyBook digest event).1.orderBook.synchronized = true ∧
      (state.applyBook digest event).1.orderBook.lastChange = some change := by
  cases event with
  | orderBookUpdate update =>
    have hbook := state.withBook_orderBook (state.orderBook.applyUpdate digest update).1
    simp only [applyBook, applyUpdate] at h ⊢
    split at h
    · rename_i haccepted
      split at h
      · rename_i lastChange hlast
        split at h
        · rename_i hstatus
          obtain rfl := Option.some.inj h
          rw [hbook] at hlast
          simp only [haccepted, hbook, hstatus]
          exact ⟨FeatureOrderBookState.synchronized_of_applyUpdate_accepted digest haccepted, hlast⟩
        · cases h
      · cases h
    · cases h
  | orderBookSnapshot snapshot =>
    simp only [applyBook, applySnapshot] at h
    split at h <;> cases h
  | _ => cases h

theorem applyBook_orderBook (state : VenueSymbolState) (event : NormalizedMarketEvent) :
    (state.applyBook digest event).1.orderBook = state.orderBook.consume digest event := by
  cases event with
  | orderBookSnapshot snapshot =>
    simp only [applyBook, applySnapshot]
    split <;> exact state.withBook_orderBook _
  | orderBookUpdate update =>
    simp only [applyBook, applyUpdate]
    split
    · split
      · split <;> exact state.withBook_orderBook _
      · exact state.withBook_orderBook _
    · exact state.withBook_orderBook _
  | _ => rfl

theorem ingestBook_orderBook (state : VenueSymbolState) (event : NormalizedMarketEvent) :
    (state.ingestBook digest config event).1.orderBook = state.orderBook ∨
      (state.ingestBook digest config event).1.orderBook =
        state.orderBook.consume digest event := by
  have happlied := applyBook_orderBook digest state event
  unfold ingestBook
  dsimp only
  split_ifs
  · exact .inl rfl
  · exact .inr happlied
  · exact .inr happlied
  · exact .inr (((state.applyBook digest event).1.recordBook_spec config event _ _).2.1.trans
      happlied)

/-- Ingesting a book event leaves the history, or appends the checkpoint of the book it leaves. -/
theorem ingestBook_history {state : VenueSymbolState} (hordered : BookWindowsOrdered state)
    {event : NormalizedMarketEvent} (hbook : event.isBook = true) :
    (state.ingestBook digest config event).1.bookHistory = state.bookHistory ∨
      ∃ checkpoint : FeatureBookCheckpoint,
        RecordedIn config checkpoint (state.ingestBook digest config event).1 ∧
          (state.ingestBook digest config event).1.bookHistory =
            (state.bookHistory.append event.base.exchangeTimestamp checkpoint).1 := by
  unfold ingestBook
  dsimp only
  split_ifs with hrefused hgeneration hsequence
  · exact .inl rfl
  all_goals
    have hadmitted := windowStatus_eq_accepted_iff.mp (not_not.mp hrefused)
    have happlied := applyBook_spec digest hordered hbook
      ((BoundedTimeWindow.admissibility_drop_iff hordered.forward).mp hadmitted)
  · exact .inl happlied.bookHistory
  · exact .inl happlied.bookHistory
  · right
    obtain ⟨-, horderBook, hhistory, -⟩ := (state.applyBook digest event).1.recordBook_spec config
      event (state.applyBook digest event).2.1 (state.applyBook digest event).2.2
    rw [happlied.bookHistory] at hhistory
    refine ⟨_, ⟨?_, ?_⟩, hhistory⟩
    · exact (bookView_congr config horderBook).symm
    · intro change hchange
      rw [horderBook]
      apply applyBook_change digest
      -- the checkpoint has a change only where the event was accepted
      unfold checkpoint at hchange
      dsimp only at hchange
      split_ifs at hchange
      · exact hchange
      · cases hchange

end VenueSymbolState

namespace MarketStateStore

/-- Every checkpoint of a run shows the book of one of the run's states. -/
theorem checkpoint_recorded (operations : List StoreOperation) (exchange : Exchange)
    (symbol : String) :
    ∀ item ∈ ((run digest config operations).lookup exchange symbol).bookHistory.items,
      ∃ done, done <+: operations ∧
        RecordedIn config item.value ((run digest config done).lookup exchange symbol) := by
  induction operations using List.reverseRecOn with
  | nil =>
    intro item hitem
    exact absurd hitem List.not_mem_nil
  | append_singleton operations operation ih =>
    have hrun : run digest config (operations ++ [operation]) =
        (run digest config operations).perform digest operation := by
      simp [run]
    have hearlier : ∀ item ∈ ((run digest config operations).lookup exchange
        symbol).bookHistory.items, ∃ done, done <+: operations ++ [operation] ∧
          RecordedIn config item.value ((run digest config done).lookup exchange symbol) := by
      intro item hitem
      obtain ⟨done, hdone, hrecorded⟩ := ih item hitem
      exact ⟨done, hdone.trans (List.prefix_append ..), hrecorded⟩
    intro item hitem
    rw [hrun] at hitem
    rcases (run digest config operations).lookup_perform digest operation exchange symbol with
      ⟨event, rfl, -, rfl, rfl, hlookup⟩ | ⟨events, channels, hlookup⟩
    · cases hbook : event.isBook with
      | false =>
        rw [hlookup, (VenueSymbolState.ingest_scalar_book digest _ _ hbook).2.1] at hitem
        exact hearlier item hitem
      | true =>
        rw [run_config, VenueSymbolState.ingest_eq_ingestBook digest config _ hbook] at hlookup
        rcases VenueSymbolState.ingestBook_history digest config
            (bookWindowsOrdered_run digest config operations _ _) hbook with
          hsame | ⟨checkpoint, hrecorded, happended⟩
        · rw [hlookup, hsame] at hitem
          exact hearlier item hitem
        · rw [hlookup, happended] at hitem
          rcases BoundedTimeWindow.append_mem hitem with hmem | rfl
          · exact hearlier item hmem
          · refine ⟨_, List.prefix_refl _, ?_⟩
            rw [hrun, hlookup]
            exact hrecorded
    · rw [hlookup] at hitem
      exact hearlier item hitem

/-- The book under a key moves only by events of that key. -/
theorem orderBook_perform (store : MarketStateStore) (operation : StoreOperation)
    (exchange : Exchange) (symbol : String) :
    ((store.perform digest operation).lookup exchange symbol).orderBook =
        (store.lookup exchange symbol).orderBook ∨
      ∃ event, ((store.perform digest operation).lookup exchange symbol).orderBook =
        (store.lookup exchange symbol).orderBook.consume digest event := by
  rcases store.lookup_perform digest operation exchange symbol with
    ⟨event, rfl, -, rfl, rfl, hlookup⟩ | ⟨events, channels, hlookup⟩
  · rw [hlookup]
    cases hbook : event.isBook with
    | false => exact .inl (VenueSymbolState.ingest_scalar_book digest _ _ hbook).1
    | true =>
      rw [VenueSymbolState.ingest_eq_ingestBook digest _ _ hbook]
      rcases VenueSymbolState.ingestBook_orderBook digest store.config
          (store.lookup event.base.exchange event.base.symbol) event with hsame | hconsumed
      · exact .inl hsame
      · exact .inr ⟨event, hconsumed⟩
  · rw [hlookup]
    exact .inl rfl

/-- Along a run of a store an epoch of a book is a phase of its synchronization. -/
theorem keepsPhase_perform (exchange : Exchange) (symbol : String) :
    KeepsPhase (perform digest) (fun store => (store.lookup exchange symbol).orderBook.synchronized)
      (fun store => (store.lookup exchange symbol).orderBook.epoch)
      (fun store => (store.lookup exchange symbol).orderBook.synchronizedSince) where
  count_le := by
    intro store operation
    rcases store.orderBook_perform digest operation exchange symbol with hsame | ⟨event, hconsumed⟩
    · rw [hsame]
    · rw [hconsumed]
      exact FeatureOrderBookState.epoch_le_consume digest _ event
  live := by
    intro store operation hlive hepoch
    rcases store.orderBook_perform digest operation exchange symbol with hsame | ⟨event, hconsumed⟩
    · rw [hsame] at hlive ⊢
      exact ⟨hlive, rfl⟩
    · rw [hconsumed] at hlive hepoch ⊢
      exact (FeatureOrderBookState.keepsPhase_consume digest).live _ event hlive hepoch

end MarketStateStore

/-- What a view shows of the synchronization of its book. -/
theorem VenueSymbolState.bookView_synchronized (state : VenueSymbolState) :
    (state.bookView config).synchronized = state.orderBook.synchronized ∧
      (state.bookView config).synchronizedSince = state.orderBook.synchronizedSince := by
  have hdepth := config.orderBookDepth_pos
  have hview := state.bookView_eq config
  rw [FeatureOrderBookState.view, if_neg (by omega)] at hview
  rw [← Option.some.inj hview]
  exact ⟨rfl, rfl⟩

/-- A view as of a decision is that of one of the run's states, when it is synchronized. -/
theorem MarketStateStore.bookViewAsOf_recorded (operations : List StoreOperation)
    (exchange : Exchange) (symbol : String) (decision : Int)
    (h : (((run digest config operations).lookup exchange symbol).bookViewAsOf config
      decision).synchronized = true) :
    ∃ shown, shown <+: operations ∧
      (((run digest config operations).lookup exchange symbol).bookViewAsOf config decision).epoch =
          ((run digest config shown).lookup exchange symbol).orderBook.epoch ∧
        ((run digest config shown).lookup exchange symbol).orderBook.synchronized = true ∧
        (((run digest config operations).lookup exchange symbol).bookViewAsOf config
            decision).synchronizedSince =
          ((run digest config shown).lookup exchange symbol).orderBook.synchronizedSince := by
  unfold VenueSymbolState.bookViewAsOf at h ⊢
  cases hlatest : ((run digest config operations).lookup exchange symbol).bookHistory.latestAtOrBefore
      decision with
  | none =>
    rw [hlatest] at h
    cases h
  | some item =>
    rw [hlatest] at h
    have hmem := List.mem_reverse.mp (List.mem_of_find?_eq_some hlatest)
    obtain ⟨shown, hshown, hrecorded⟩ :=
      checkpoint_recorded digest config operations exchange symbol item hmem
    obtain ⟨hsynchronized, hsince⟩ :=
      ((run digest config shown).lookup exchange symbol).bookView_synchronized config
    obtain ⟨-, hepoch, -⟩ :=
      ((run digest config shown).lookup exchange symbol).bookView_fields config
    rw [← hrecorded.view] at hsynchronized hsince hepoch
    exact ⟨shown, hshown, hepoch, hsynchronized.symm.trans h, hsince⟩

end Recording

/-- A change summed for a view goes with a checkpoint of the view's epoch. -/
theorem FeatureBookView.changeItem_eq_some {view : FeatureBookView}
    {checkpoint : TimedValue FeatureBookCheckpoint} {item : TimedValue BookChange}
    (h : view.changeItem checkpoint = some item) :
    checkpoint.value.change = some item.value ∧ checkpoint.value.view.epoch = view.epoch := by
  unfold changeItem at h
  split at h
  · cases h
  · rename_i change hchange
    split_ifs at h with hview
    obtain rfl := Option.some.inj h
    exact ⟨hchange, hview.2⟩

/-- Every change was left by a state of the run that one unbroken synchronization joins to the state
the view shows. -/
def OneSynchronization (reached : List MarketStateStore.StoreOperation → VenueSymbolState)
    (operations : List MarketStateStore.StoreOperation) (view : FeatureBookView)
    (items : List (TimedValue BookChange)) : Prop :=
  ∃ shown, shown <+: operations ∧ (reached shown).orderBook.synchronized = true ∧
    (reached shown).orderBook.epoch = view.epoch ∧
    ∀ item ∈ items, ∃ done, done <+: operations ∧
      (reached done).orderBook.lastChange = some item.value ∧
      ∀ between, (done <+: between ∧ between <+: shown ∨ shown <+: between ∧ between <+: done) →
        (reached between).orderBook.synchronized = true ∧
          (reached between).orderBook.synchronizedSince = view.synchronizedSince

theorem oneSynchronization_of_changeItems (digest : SourceDigest) {config : FeaturesConfig}
    {operations : List MarketStateStore.StoreOperation} {exchange : Exchange} {symbol : String}
    {start decision : Int} {items : List (TimedValue BookChange)}
    (hview : (((MarketStateStore.run digest config operations).lookup exchange symbol).bookViewAsOf
      config decision).synchronized = true)
    (hitems : ((MarketStateStore.run digest config operations).lookup exchange symbol).changeItems
      (((MarketStateStore.run digest config operations).lookup exchange symbol).bookViewAsOf config
        decision) start decision = some items) :
    OneSynchronization
      (fun done => (MarketStateStore.run digest config done).lookup exchange symbol) operations
      (((MarketStateStore.run digest config operations).lookup exchange symbol).bookViewAsOf config
        decision) items := by
  obtain ⟨shown, hshown, hepoch, hlive, hsince⟩ :=
    MarketStateStore.bookViewAsOf_recorded digest config operations exchange symbol decision hview
  refine ⟨shown, hshown, hlive, hepoch.symm, ?_⟩
  intro item hitem
  have hphase := MarketStateStore.keepsPhase_perform digest exchange symbol
  -- the item is the change of a retained checkpoint of the view's epoch
  obtain ⟨checkpoints, hbetween, rfl⟩ := Option.map_eq_some_iff.mp hitems
  obtain ⟨checkpoint, hcheckpoint, hitem⟩ := List.mem_filterMap.mp hitem
  obtain ⟨hchange, hsame⟩ := FeatureBookView.changeItem_eq_some hitem
  have hmem := BoundedTimeWindow.mem_of_mem_itemsBetween hbetween hcheckpoint
  obtain ⟨done, hdone, hrecorded⟩ := MarketStateStore.checkpoint_recorded digest config operations
    exchange symbol checkpoint hmem
  obtain ⟨hleft, hlast⟩ := hrecorded.change item.value hchange
  obtain ⟨-, hdoneEpoch, -⟩ :=
    ((MarketStateStore.run digest config done).lookup exchange symbol).bookView_fields config
  rw [← hrecorded.view] at hdoneEpoch
  have hcount : ((MarketStateStore.run digest config done).lookup exchange symbol).orderBook.epoch =
      ((MarketStateStore.run digest config shown).lookup exchange symbol).orderBook.epoch :=
    hdoneEpoch.symm.trans (hsame.trans hepoch)
  refine ⟨done, hdone, hlast, ?_⟩
  rintro between (⟨hafter, hbefore⟩ | ⟨hafter, hbefore⟩)
  · obtain ⟨hlive, htag⟩ := hphase.live_between hafter hbefore hlive hcount.symm
    exact ⟨hlive, htag.trans hsince.symm⟩
  · -- both the view's state and the one between are tagged as the state of the change
    obtain ⟨hlive, htag⟩ := hphase.live_between hafter hbefore hleft hcount
    obtain ⟨-, hshownTag⟩ := hphase.live_between (List.prefix_refl _) (hafter.trans hbefore) hleft
      hcount
    exact ⟨hlive, htag.trans (hshownTag.symm.trans hsince.symm)⟩

/-- Two synchronized states of one generation and epoch have only synchronized states between them,
all since one instant; and the changes summed for a view all belong to its own synchronization. -/
theorem epoch_is_one_synchronization (digest : SourceDigest) :
    (∀ (book : FeatureOrderBookState) (first middle last : List NormalizedMarketEvent),
      first <+: middle → middle <+: last →
      (first.foldl (FeatureOrderBookState.consume digest) book).synchronized = true →
      (last.foldl (FeatureOrderBookState.consume digest) book).synchronized = true →
      (first.foldl (FeatureOrderBookState.consume digest) book).generation =
        (last.foldl (FeatureOrderBookState.consume digest) book).generation →
      (first.foldl (FeatureOrderBookState.consume digest) book).epoch =
        (last.foldl (FeatureOrderBookState.consume digest) book).epoch →
      (middle.foldl (FeatureOrderBookState.consume digest) book).synchronized = true ∧
        (middle.foldl (FeatureOrderBookState.consume digest) book).synchronizedSince =
          (last.foldl (FeatureOrderBookState.consume digest) book).synchronizedSince) ∧
    ∀ (config : FeaturesConfig) (operations : List MarketStateStore.StoreOperation)
      (exchange : Exchange) (symbol : String) (start decision : Int)
      (values : OrderBookChangeValues),
      let reached := fun done : List MarketStateStore.StoreOperation =>
        (MarketStateStore.run digest config done).lookup exchange symbol
      let view := (reached operations).bookViewAsOf config decision
      (reached operations).orderBookChangeValues view start decision = some values →
      ∃ items, (reached operations).changeItems view start decision = some items ∧
        values = VenueSymbolState.sumChanges (items.map (·.value)) ∧
        OneSynchronization reached operations view items := by
  constructor
  · intro book first middle last hfirst hlast _ hlive _ hepoch
    exact (FeatureOrderBookState.keepsPhase_consume digest).live_between hfirst hlast hlive
      hepoch.symm
  · intro config operations exchange symbol start decision values reached view hvalues
    unfold VenueSymbolState.orderBookChangeValues at hvalues
    split_ifs at hvalues with habsent
    obtain ⟨items, hitems, rfl⟩ := Option.map_eq_some_iff.mp hvalues
    have hview : view.synchronized = true := by
      simpa using (not_or.mp habsent).1
    exact ⟨items, hitems, rfl, oneSynchronization_of_changeItems digest hview hitems⟩

/-- An update of a generation, half a second after the snapshot at five seconds. -/
def exampleFollowing : OrderBookUpdate :=
  { exampleBase 5500000 with generation := 1, bids := [⟨99, 3⟩] }

theorem epoch_is_one_synchronization_one_update :
    let operations : List MarketStateStore.StoreOperation :=
      [.ingest (.orderBookSnapshot (exampleSnapshot 5000000 1)),
        .ingest (.orderBookUpdate exampleFollowing)]
    let reached := fun done : List MarketStateStore.StoreOperation =>
      (MarketStateStore.run (fun _ _ => 0) exampleFeatures done).lookup .binance "BTC-USDT-PERP"
    let view := (reached operations).bookViewAsOf exampleFeatures 6000000
    ∃ items, (reached operations).changeItems view 0 6000000 = some items ∧
      ⟨2, 0, 2, 0, 2⟩ = VenueSymbolState.sumChanges (items.map (·.value)) ∧
      OneSynchronization reached operations view items := by
  intro operations reached view
  apply (epoch_is_one_synchronization fun _ _ => 0).2 exampleFeatures operations .binance
    "BTC-USDT-PERP" 0 6000000 ⟨2, 0, 2, 0, 2⟩
  decide +kernel

end Cvf
