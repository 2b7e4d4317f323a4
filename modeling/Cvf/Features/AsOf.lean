/-
# Cvf.Features.AsOf — the book as of a decision.

The feature engine does not read the book itself but the newest checkpoint at or before its decision.
Checkpoints are kept in event-time order while the book takes events in arrival order, and the window
that is to keep the two together is emptied on a generation change and never sees a buffered, gap or
invalidating update.  So a taken event can leave its checkpoint before an older one's.  In every run
where that does not happen, the view never runs backwards and ends at the current book.
-/
import Cvf.Features.Rejection
import Cvf.Library.Run

namespace Cvf

open Cvf.Library

/-! ## The view -/

/-- The view without any checkpoint. -/
def FeatureBookView.absent : FeatureBookView :=
  { generation := 0
    epoch := 0
    sequenceId := none
    synchronized := false
    synchronizedSince := none
    bids := []
    asks := []
    pendingUpdates := 0
    lastError := some "local feature book has no valid snapshot"
    lineage := {} }

/-- `SingleVenueFeatureEngine._book_view_as_of`. -/
def VenueSymbolState.bookViewAsOf (config : FeaturesConfig) (state : VenueSymbolState)
    (decision : Int) : FeatureBookView :=
  match state.bookHistory.latestAtOrBefore decision with
  | none => .absent
  | some checkpoint =>
    let view := checkpoint.value.view
    { view with
      bids := view.bids.take config.orderBookDepth
      asks := view.asks.take config.orderBookDepth }

/-- Two views of one book: all but the bookkeeping fields agree. -/
structure SameBook (a b : FeatureBookView) : Prop where
  generation : a.generation = b.generation
  epoch : a.epoch = b.epoch
  synchronized : a.synchronized = b.synchronized
  sequenceId : a.sequenceId = b.sequenceId
  bids : a.bids = b.bids
  asks : a.asks = b.asks

/-- `(generation, epoch)`, compared lexicographically. -/
def FeatureBookView.age (view : FeatureBookView) : Nat ×ₗ Nat :=
  toLex (view.generation, view.epoch)

namespace VenueSymbolState

variable (config : FeaturesConfig)

theorem bookView_eq (state : VenueSymbolState) :
    state.orderBook.view config.orderBookDepth = some (state.bookView config) :=
  (Option.some_get _).symm

theorem bookView_congr {a b : VenueSymbolState} (h : a.orderBook = b.orderBook) :
    a.bookView config = b.bookView config := by
  apply Option.some.inj
  rw [← bookView_eq, ← bookView_eq, h]

theorem bookView_fields (state : VenueSymbolState) :
    (state.bookView config).generation = state.orderBook.generation ∧
      (state.bookView config).epoch = state.orderBook.epoch ∧
      (state.bookView config).lineage = state.orderBook.lineage ∧
      (state.bookView config).bids.length ≤ config.orderBookDepth ∧
      (state.bookView config).asks.length ≤ config.orderBookDepth := by
  have hdepth := config.orderBookDepth_pos
  have hview := state.bookView_eq config
  rw [FeatureOrderBookState.view, if_neg (by omega)] at hview
  rw [← Option.some.inj hview]
  refine ⟨rfl, rfl, rfl, ?_, ?_⟩
  · simp
  · simp

end VenueSymbolState

/-! ## Order along a window -/

/-- A later search of a window ends at the same item or at one further on. -/
theorem find?_reverse_mono {α : Type*} {R : α → α → Prop} {items : List α} {p q : α → Bool}
    (hR : items.Pairwise R) (hpq : ∀ a, p a = true → q a = true) {a : α}
    (ha : items.reverse.find? p = some a) :
    ∃ b, items.reverse.find? q = some b ∧ (b = a ∨ R a b) := by
  induction items using List.reverseRecOn with
  | nil => simp at ha
  | append_singleton front last ih =>
    obtain ⟨hfront, -, hlast⟩ := List.pairwise_append.mp hR
    rw [List.reverse_append, List.reverse_singleton, List.singleton_append] at ha ⊢
    by_cases hq : q last = true
    · refine ⟨last, List.find?_cons_of_pos hq, ?_⟩
      by_cases hp : p last = true
      · rw [List.find?_cons_of_pos hp] at ha
        exact .inl (Option.some.inj ha)
      · rw [List.find?_cons_of_neg hp] at ha
        exact .inr (hlast a (by simpa using List.mem_of_find?_eq_some ha) last (by simp))
    · have hp : ¬ p last = true := fun hp => hq (hpq last hp)
      rw [List.find?_cons_of_neg hp] at ha
      rw [List.find?_cons_of_neg hq]
      exact ih hfront ha

namespace BoundedTimeWindow

variable {α : Type*}

/-- Every item is at or before an instant that is not before the watermark. -/
theorem latestAtOrBefore_of_watermark_le {window : BoundedTimeWindow α} {boundary : Int}
    (hmark : ∀ mark ∈ window.watermark, mark ≤ boundary) :
    window.latestAtOrBefore boundary = window.items.getLast? := by
  unfold latestAtOrBefore
  rcases List.eq_nil_or_concat window.items with hnil | ⟨front, last, hitems⟩
  · rw [hnil]
    rfl
  · have hnewest := window.retained.newest
    rw [hitems, List.concat_eq_append, List.getLast?_concat] at hnewest
    have hle : last.timestamp ≤ boundary := hmark _ hnewest
    rw [hitems, List.concat_eq_append, List.getLast?_concat, List.reverse_append,
      List.reverse_singleton, List.singleton_append, List.find?_cons_of_pos (by simpa using hle)]

/-- An append leaves the watermark or moves it to its own instant. -/
theorem append_watermark (window : BoundedTimeWindow α) (timestamp : Int) (value : α) :
    ∀ mark ∈ (window.append timestamp value).1.watermark,
      mark ∈ window.watermark ∨ timestamp = mark := by
  intro mark hmark
  by_cases haccepted : window.admissibility timestamp = .accepted
  · rw [(append_of_accepted value haccepted).2.2.1] at hmark
    obtain rfl := Option.some.inj hmark
    rcases window.forward_or_late timestamp with hforward | ⟨watermark, hwatermark, hlate⟩
    · exact .inr (advanced_of_forward hforward).symm
    · left
      have hkept : window.advanced timestamp = watermark := by
        simp only [advanced, hwatermark, if_pos hlate]
      rw [hwatermark, hkept]
      rfl
  · rw [(append_of_refused value haccepted).2.2.1] at hmark
    exact .inl hmark

/-- An append at or after the watermark: the new item is last, and what is left before it is a
suffix of what there was. -/
theorem append_forward {window : BoundedTimeWindow α} {timestamp : Int} (value : α)
    (hforward : window.watermark.all (· ≤ timestamp) = true) :
    (window.append timestamp value).1.items <:+
        window.items ++ [window.nextItem timestamp value] ∧
      (window.append timestamp value).1.items.getLast? = some (window.nextItem timestamp value) := by
  obtain ⟨-, hitems, -⟩ := append_of_accepted value (admissibility_of_forward hforward)
  have hentered : window.entered (window.nextItem timestamp value) =
      window.items ++ [window.nextItem timestamp value] := if_pos hforward
  rw [hitems, advanced_of_forward hforward, hentered]
  refine ⟨pruned_suffix .., ?_⟩
  have hlast := List.getLast?_concat (l := window.items) (a := window.nextItem timestamp value)
  exact pruned_getLast? hlast

end BoundedTimeWindow

/-! ## The history of a venue whose book only moves forward -/

/-- Checkpoints in the order the book took their events, ending at the current book. -/
structure HistoryForward (config : FeaturesConfig) (state : VenueSymbolState) : Prop where
  ordered : state.bookHistory.items.Pairwise fun a b =>
    a.value.view.generation ≤ b.value.view.generation ∧ a.value.view.epoch ≤ b.value.view.epoch
  below : ∀ item ∈ state.bookHistory.items,
    item.value.view.generation ≤ state.orderBook.generation ∧
      item.value.view.epoch ≤ state.orderBook.epoch
  current : ∀ last ∈ state.bookHistory.items.getLast?, last.value.view = state.bookView config
  fresh : state.bookHistory.items = [] → SameBook .absent (state.bookView config)

namespace HistoryForward

variable {digest : SourceDigest} {config : FeaturesConfig} {state : VenueSymbolState}

/-- Only the book and its history matter. -/
theorem congr {after : VenueSymbolState} (h : HistoryForward config state)
    (hbook : after.orderBook = state.orderBook)
    (hhistory : after.bookHistory = state.bookHistory) : HistoryForward config after where
  ordered := by rw [hhistory]; exact h.ordered
  below := by rw [hhistory, hbook]; exact h.below
  current := by
    rw [hhistory, VenueSymbolState.bookView_congr config hbook]
    exact h.current
  fresh := by
    rw [hhistory, VenueSymbolState.bookView_congr config hbook]
    exact h.fresh

theorem create (exchange : Exchange) (symbol : String) :
    HistoryForward config (.create config exchange symbol) where
  ordered := .nil
  below := by simp [VenueSymbolState.create, BoundedTimeWindow.empty]
  current := by simp [VenueSymbolState.create, BoundedTimeWindow.empty]
  fresh := by
    intro _
    have hdepth := config.orderBookDepth_pos
    have hview := (VenueSymbolState.create config exchange symbol).bookView_eq config
    rw [FeatureOrderBookState.view, if_neg (by omega)] at hview
    rw [← Option.some.inj hview]
    exact ⟨rfl, rfl, rfl, rfl, by simp [FeatureBookView.absent, VenueSymbolState.create],
      by simp [FeatureBookView.absent, VenueSymbolState.create]⟩

/-- A taken event that is not before the newest checkpoint. -/
theorem ingestBook (h : HistoryForward config state) {event : NormalizedMarketEvent}
    (htaken : BookTaken digest config state event)
    (hforward : ∀ mark ∈ state.bookHistory.watermark, mark ≤ event.base.exchangeTimestamp) :
    HistoryForward config (state.ingestBook digest config event).1 := by
  obtain ⟨checkpoint, hview, hhistory⟩ := htaken.history
  have hforwardHistory := forward_iff.mpr hforward
  obtain ⟨hsuffix, hlast⟩ := BoundedTimeWindow.append_forward checkpoint hforwardHistory
  obtain ⟨hgeneration, hepoch, -⟩ :=
    (state.ingestBook digest config event).1.bookView_fields config
  rw [← hview] at hgeneration hepoch
  -- no earlier checkpoint is ahead of the book the event leaves
  have hbelow : ∀ item ∈ state.bookHistory.items,
      item.value.view.generation ≤ checkpoint.view.generation ∧
        item.value.view.epoch ≤ checkpoint.view.epoch := by
    intro item hitem
    obtain ⟨hitemGeneration, hitemEpoch⟩ := h.below item hitem
    have hraised := htaken.recorded.generation_le
    rw [← htaken.recorded.generation] at hraised
    rw [hgeneration, hepoch]
    exact ⟨hitemGeneration.trans hraised, hitemEpoch.trans htaken.recorded.epoch_le⟩
  rw [← hhistory] at hsuffix hlast
  exact
    { ordered := by
        apply List.Pairwise.sublist hsuffix.sublist
        refine List.pairwise_append.mpr ⟨h.ordered, List.pairwise_singleton .., ?_⟩
        intro item hitem next hnext
        obtain rfl := List.mem_singleton.mp hnext
        exact hbelow item hitem
      below := by
        intro item hitem
        rw [← hgeneration, ← hepoch]
        rcases List.mem_append.mp (hsuffix.subset hitem) with hitem | hitem
        · exact hbelow item hitem
        · obtain rfl := List.mem_singleton.mp hitem
          exact ⟨le_rfl, le_rfl⟩
      current := by
        intro last hmem
        rw [hlast] at hmem
        obtain rfl := Option.some.inj hmem
        exact hview
      fresh := by
        intro hnil
        rw [hnil] at hlast
        simp at hlast }

/-- The view never runs backwards. -/
theorem age_mono (h : HistoryForward config state) {earlier later : Int} (hle : earlier ≤ later) :
    (state.bookViewAsOf config earlier).age ≤ (state.bookViewAsOf config later).age := by
  unfold VenueSymbolState.bookViewAsOf
  cases hearlier : state.bookHistory.latestAtOrBefore earlier with
  | none =>
    apply Prod.Lex.toLex_mono
    exact ⟨Nat.zero_le _, Nat.zero_le _⟩
  | some checkpoint =>
    have hsub : ∀ item : TimedValue FeatureBookCheckpoint,
        decide (item.timestamp ≤ earlier) = true → decide (item.timestamp ≤ later) = true := by
      intro item hitem
      exact decide_eq_true ((of_decide_eq_true hitem).trans hle)
    obtain ⟨next, hnext, hage⟩ := find?_reverse_mono h.ordered hsub hearlier
    have hfound : state.bookHistory.latestAtOrBefore later = some next := hnext
    rw [hfound]
    apply Prod.Lex.toLex_mono
    rcases hage with rfl | ⟨hgeneration, hepoch⟩
    · exact le_rfl
    · exact ⟨hgeneration, hepoch⟩

/-- At or after the newest checkpoint, the view is the current book's. -/
theorem asOf_current (h : HistoryForward config state) {decision : Int}
    (hmark : ∀ mark ∈ state.bookHistory.watermark, mark ≤ decision) :
    SameBook (state.bookViewAsOf config decision) (state.bookView config) := by
  unfold VenueSymbolState.bookViewAsOf
  rw [BoundedTimeWindow.latestAtOrBefore_of_watermark_le hmark]
  cases hlast : state.bookHistory.items.getLast? with
  | none => exact h.fresh (List.getLast?_eq_none_iff.mp hlast)
  | some checkpoint =>
    obtain ⟨-, -, -, hbids, hasks⟩ := state.bookView_fields config
    dsimp only
    rw [h.current checkpoint hlast]
    exact ⟨rfl, rfl, rfl, rfl, List.take_of_length_le hbids, List.take_of_length_le hasks⟩

end HistoryForward

/-! ## Every run whose book only moves forward -/

/-- The book would take the event: its window admits it, and the book does not find it stale. -/
def VenueSymbolState.Takes (digest : SourceDigest) (state : VenueSymbolState)
    (event : NormalizedMarketEvent) : Prop :=
  event.isBook = true ∧
    state.bookUpdates.admissibility event.base.exchangeTimestamp = .accepted ∧
    (state.orderBook.apply digest event).2.isStale = false

instance (digest : SourceDigest) (state : VenueSymbolState) (event : NormalizedMarketEvent) :
    Decidable (state.Takes digest event) :=
  inferInstanceAs (Decidable (_ ∧ _))

/-- An event the book takes is not before the newest checkpoint. -/
def BookMovesForward (digest : SourceDigest) (store : MarketStateStore) :
    MarketStateStore.StoreOperation → Prop
  | .ingest event =>
    let state := store.lookup event.base.exchange event.base.symbol
    state.Takes digest event →
      state.bookHistory.watermark.all (· ≤ event.base.exchangeTimestamp) = true
  | _ => True

instance (digest : SourceDigest) (store : MarketStateStore) :
    ∀ operation, Decidable (BookMovesForward digest store operation)
  | .ingest _ => inferInstanceAs (Decidable (_ → _))
  | .streamHealth _ _ => .isTrue trivial
  | .state _ _ => .isTrue trivial

namespace MarketStateStore

variable (digest : SourceDigest)

theorem updateHealth_config {store after : MarketStateStore} {health : ExchangeHealth}
    {status : StateUpdateStatus} (hupdate : store.updateHealth health = .ok (after, status)) :
    after.config = store.config := by
  unfold updateHealth at hupdate
  dsimp only at hupdate
  split_ifs at hupdate
  all_goals
    obtain ⟨rfl, -⟩ := Prod.mk.inj (Except.ok.inj hupdate)
    rfl

theorem ingest_config {store after : MarketStateStore} {event : NormalizedMarketEvent}
    {result : StateUpdateResult} (hingest : store.ingest digest event = .ok (after, result)) :
    after.config = store.config := by
  unfold ingest state at hingest
  dsimp only at hingest
  split at hingest
  · rename_i health
    cases hupdate : store.updateHealth health with
    | error e => rw [hupdate] at hingest; cases hingest
    | ok updated =>
      rw [hupdate] at hingest
      obtain ⟨rfl, -⟩ := Prod.mk.inj (Except.ok.inj hingest)
      exact updateHealth_config hupdate
  · split_ifs at hingest
    cases hingest
    rfl

theorem perform_config (store : MarketStateStore) (operation : StoreOperation) :
    (store.perform digest operation).config = store.config := by
  cases operation with
  | ingest event =>
    cases hingest : store.ingest digest event with
    | error e => rw [perform_ingest_error digest hingest]
    | ok updated =>
      have hpair : store.ingest digest event = .ok (updated.1, updated.2) := hingest
      rw [perform_ingest_ok digest hpair]
      exact ingest_config digest hingest
  | streamHealth key status =>
    simp only [perform, updateStreamHealth, state]
    split_ifs <;> rfl
  | state exchange symbol =>
    simp only [perform, state]
    split_ifs <;> rfl

theorem run_config (config : FeaturesConfig) (operations : List StoreOperation) :
    (run digest config operations).config = config := by
  unfold run
  suffices h : ∀ store : MarketStateStore,
      (operations.foldl (perform digest) store).config = store.config from h _
  induction operations with
  | nil => exact fun store => rfl
  | cons operation rest ih =>
    exact fun store => (ih _).trans (perform_config digest store operation)

end MarketStateStore

/-- What an admitted run keeps: the windows in order, and every history moving forward. -/
structure ForwardStore (config : FeaturesConfig) (store : MarketStateStore) : Prop where
  config_eq : store.config = config
  ordered : ∀ exchange symbol, BookWindowsOrdered (store.lookup exchange symbol)
  history : ∀ exchange symbol, HistoryForward config (store.lookup exchange symbol)

theorem ForwardStore.new (config : FeaturesConfig) : ForwardStore config (.new config) where
  config_eq := rfl
  ordered := fun exchange symbol => ⟨rfl, by simp [MarketStateStore.lookup, MarketStateStore.new,
    VenueSymbolState.create, BoundedTimeWindow.empty]⟩
  history := fun exchange symbol => .create exchange symbol

theorem ForwardStore.perform {digest : SourceDigest} {config : FeaturesConfig}
    {store : MarketStateStore} (h : ForwardStore config store)
    {operation : MarketStateStore.StoreOperation}
    (hforward : BookMovesForward digest store operation) :
    ForwardStore config (store.perform digest operation) where
  config_eq := (store.perform_config digest operation).trans h.config_eq
  ordered := by
    intro exchange symbol
    rcases store.lookup_perform digest operation exchange symbol with
      ⟨event, -, -, -, -, hlookup⟩ | ⟨events, channels, hlookup⟩
    · rw [hlookup]
      exact (h.ordered exchange symbol).ingest digest store.config event
    · rw [hlookup]
      exact ⟨(h.ordered exchange symbol).forward, (h.ordered exchange symbol).behind⟩
  history := by
    intro exchange symbol
    rcases store.lookup_perform digest operation exchange symbol with
      ⟨event, rfl, -, rfl, rfl, hlookup⟩ | ⟨events, channels, hlookup⟩
    · rw [hlookup, h.config_eq]
      have hstate := h.history event.base.exchange event.base.symbol
      cases hbook : event.isBook with
      | false =>
        obtain ⟨horderBook, hhistory, -⟩ := VenueSymbolState.ingest_scalar_book digest config
          (store.lookup event.base.exchange event.base.symbol) hbook
        exact hstate.congr horderBook hhistory
      | true =>
        rw [VenueSymbolState.ingest_eq_ingestBook digest config _ hbook]
        rcases VenueSymbolState.ingestBook_cases digest config
            (h.ordered event.base.exchange event.base.symbol) hbook with
          ⟨status, reason, hreject, -⟩ | htaken
        · rw [hreject]
          exact hstate.congr rfl rfl
        · apply hstate.ingestBook htaken
          have hadmitted := BoundedTimeWindow.admissibility_of_forward htaken.admitted
          have hfresh : ((store.lookup event.base.exchange event.base.symbol).orderBook.apply
              digest event).2.isStale = false := by
            have htook := htaken.recorded.taken
            revert htook
            cases ((store.lookup event.base.exchange event.base.symbol).orderBook.apply
              digest event).2 <;> simp [StateUpdateStatus.isTaken, StateUpdateStatus.isStale]
          exact forward_iff.mp (hforward ⟨hbook, hadmitted, hfresh⟩)
    · rw [hlookup]
      exact (h.history exchange symbol).congr rfl rfl

/-- The newest checkpoint of a venue is at an instant of one of its book events. -/
theorem bookHistory_mark_ingested (digest : SourceDigest) (config : FeaturesConfig)
    (operations : List MarketStateStore.StoreOperation) (exchange : Exchange) (symbol : String) :
    ∀ mark ∈ ((MarketStateStore.run digest config operations).lookup exchange
        symbol).bookHistory.watermark,
      ∃ event, .ingest event ∈ operations ∧ event.isBook = true ∧
        event.base.exchange = exchange ∧ event.base.symbol = symbol ∧
        event.base.exchangeTimestamp = mark := by
  induction operations using List.reverseRecOn with
  | nil => simp [MarketStateStore.run, MarketStateStore.lookup, MarketStateStore.new,
      VenueSymbolState.create, BoundedTimeWindow.empty]
  | append_singleton operations operation ih =>
    have hrun : MarketStateStore.run digest config (operations ++ [operation]) =
        (MarketStateStore.run digest config operations).perform digest operation := by
      simp [MarketStateStore.run]
    have hordered := bookWindowsOrdered_run digest config operations exchange symbol
    -- a mark of an earlier operation stays one of the run
    have hearlier : ∀ mark ∈ ((MarketStateStore.run digest config operations).lookup exchange
        symbol).bookHistory.watermark,
        ∃ event, MarketStateStore.StoreOperation.ingest event ∈ operations ++ [operation] ∧
          event.isBook = true ∧ event.base.exchange = exchange ∧ event.base.symbol = symbol ∧
          event.base.exchangeTimestamp = mark := by
      intro mark hmark
      obtain ⟨event, hmem, hrest⟩ := ih mark hmark
      exact ⟨event, List.mem_append_left _ hmem, hrest⟩
    rw [hrun]
    rcases (MarketStateStore.run digest config operations).lookup_perform digest operation exchange
        symbol with
      ⟨event, rfl, -, rfl, rfl, hlookup⟩ | ⟨events, channels, hlookup⟩
    · rw [hlookup]
      cases hbook : event.isBook with
      | false =>
        rw [(VenueSymbolState.ingest_scalar_book digest _ _ hbook).2.1]
        exact hearlier
      | true =>
        rw [VenueSymbolState.ingest_eq_ingestBook digest _ _ hbook]
        rcases VenueSymbolState.ingestBook_cases digest
            (MarketStateStore.run digest config operations).config hordered hbook with
          ⟨status, reason, hreject, -⟩ | htaken
        · rw [hreject]
          exact hearlier
        · obtain ⟨checkpoint, -, hhistory⟩ := htaken.history
          rw [hhistory]
          intro mark hmark
          rcases BoundedTimeWindow.append_watermark _ _ _ mark hmark with hmark | rfl
          · exact hearlier mark hmark
          · exact ⟨event, by simp, hbook, rfl, rfl, rfl⟩
    · rw [hlookup]
      exact hearlier

/-- In every run whose book events move forward, the as-of view never runs backwards, and at or
after every ingested book event it is the current book's. -/
theorem as_of_book_forward (digest : SourceDigest) (config : FeaturesConfig)
    (operations : List MarketStateStore.StoreOperation)
    (hforward : Admitted (MarketStateStore.perform digest) (BookMovesForward digest)
      (.new config) operations)
    (exchange : Exchange) (symbol : String) :
    (∀ earlier later : Int, earlier ≤ later →
      (((MarketStateStore.run digest config operations).lookup exchange symbol).bookViewAsOf config
          earlier).age ≤
        (((MarketStateStore.run digest config operations).lookup exchange symbol).bookViewAsOf config
          later).age) ∧
      ∀ decision : Int,
        (∀ event, .ingest event ∈ operations → event.isBook = true →
          event.base.exchange = exchange → event.base.symbol = symbol →
            event.base.exchangeTimestamp ≤ decision) →
        SameBook
          (((MarketStateStore.run digest config operations).lookup exchange symbol).bookViewAsOf
            config decision)
          (((MarketStateStore.run digest config operations).lookup exchange symbol).bookView
            config) := by
  have hstore : ForwardStore config (MarketStateStore.run digest config operations) :=
    invariant_of_admitted (fun store operation h hstep => h.perform hstep) (.new config) hforward
  have hhistory := hstore.history exchange symbol
  refine ⟨fun earlier later hle => hhistory.age_mono hle, fun decision hdecision => ?_⟩
  apply hhistory.asOf_current
  intro mark hmark
  obtain ⟨event, hmem, hbook, hexchange, hsymbol, rfl⟩ :=
    bookHistory_mark_ingested digest config operations exchange symbol mark hmark
  exact hdecision event hmem hbook hexchange hsymbol

/-! ### A buffered update ahead of a snapshot -/

/-- An update of the first generation at ten seconds. -/
def exampleBuffered : OrderBookUpdate :=
  { exampleBase 10000000 with generation := 1, bids := [⟨99, 2⟩] }

/-- A snapshot of a generation, at an instant. -/
def exampleSnapshot (exchangeTimestamp : Int) (generation : Nat) : OrderBookSnapshot :=
  { exampleBase exchangeTimestamp with
    bids := [⟨99, 1⟩], asks := [⟨101, 1⟩], depth := 10, generation }

theorem as_of_book_forward_two_snapshots :
    Admitted (MarketStateStore.perform fun _ _ => 0) (BookMovesForward fun _ _ => 0)
        (.new exampleFeatures)
        [.ingest (.orderBookSnapshot (exampleSnapshot 5000000 1)),
          .ingest (.orderBookSnapshot (exampleSnapshot 10000000 2))] ∧
      ∀ earlier later : Int, earlier ≤ later →
        (((MarketStateStore.run (fun _ _ => 0) exampleFeatures
            [.ingest (.orderBookSnapshot (exampleSnapshot 5000000 1)),
              .ingest (.orderBookSnapshot (exampleSnapshot 10000000 2))]).lookup .binance
                "BTC-USDT-PERP").bookViewAsOf exampleFeatures earlier).age ≤
          (((MarketStateStore.run (fun _ _ => 0) exampleFeatures
            [.ingest (.orderBookSnapshot (exampleSnapshot 5000000 1)),
              .ingest (.orderBookSnapshot (exampleSnapshot 10000000 2))]).lookup .binance
                "BTC-USDT-PERP").bookViewAsOf exampleFeatures later).age := by
  have hforward : Admitted (MarketStateStore.perform fun _ _ => 0) (BookMovesForward fun _ _ => 0)
      (.new exampleFeatures)
      [.ingest (.orderBookSnapshot (exampleSnapshot 5000000 1)),
        .ingest (.orderBookSnapshot (exampleSnapshot 10000000 2))] := by
    decide +kernel
  exact ⟨hforward, (as_of_book_forward _ exampleFeatures _ hforward _ _).1⟩

/-- The update waits at ten seconds, and the snapshot of the next generation arrives for five: both
checkpoints are kept, and the view as of ten seconds is a generation behind the view as of five. -/
theorem buffered_update_runs_view_backwards :
    let state := (MarketStateStore.run (fun _ _ => 0) exampleFeatures
      [.ingest (.orderBookUpdate exampleBuffered),
        .ingest (.orderBookSnapshot (exampleSnapshot 5000000 2))]).lookup .binance "BTC-USDT-PERP"
    state.bookHistory.items.length = 2 ∧
      (state.bookViewAsOf exampleFeatures 10000000).age <
        (state.bookViewAsOf exampleFeatures 5000000).age := by
  decide +kernel

end Cvf
