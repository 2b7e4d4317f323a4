/-
# Cvf.Okx.Books5 — the `books5` channel beside `books`.

The local books of the two channels are kept apart.  Their events are not: both channels become
`OrderBookSnapshot`s of one exchange and symbol, stamped with generations that are counted apart, and the
feature book cannot tell them from one another.  A `books5` message whose generation or sequence ids are
behind the feature book leaves it alone.  One that is not is taken for the next `books` snapshot, and
what it leaves stays until a `books` message is ahead of the feature book in turn
(`feature_book_isolated_while_free`).
-/
import Cvf.Features.BookCourse
import Cvf.Okx.Connector

namespace Cvf

open Cvf.Library

/-! ## The local book -/

structure OkxBooks5Data where
  asks : List OkxBookLevelText
  bids : List OkxBookLevelText
  instrumentId : String
  timestampMs : String
  sequenceId : Int
  deriving DecidableEq, Repr

structure OkxBooks5OrderBook where
  specification : ContractSpecification
  /-- `OKX books5 requires an OKX contract specification` -/
  isOkx : specification.exchange = .okx
  status : BookStatus := .buffering
  generation : Nat := 0
  sequenceId : Option Int := none
  bids : RawSide := ∅
  asks : RawSide := ∅

/-- What `ingest_books5` raises. -/
inductive Books5Error where
  /-- `no OKX books5 state for {instrument_id}` -/
  | noState (instrumentId : String)
  | payload (error : PayloadError)
  deriving DecidableEq, Repr

namespace OkxBooks5OrderBook

def beginResync (book : OkxBooks5OrderBook) (reason : String) :
    OkxBooks5OrderBook × BookApplyResult :=
  let book :=
    { book with
      generation := book.generation + 1
      status := .resyncRequired
      sequenceId := none
      bids := ∅
      asks := ∅ }
  (book,
    { transition := .resyncStarted
      status := book.status
      generation := book.generation
      sequenceId := none
      bufferedEvents := 0
      needsSnapshot := true
      reason := some reason })

/-- `ingest`: a whole book each time. -/
def ingest (book : OkxBooks5OrderBook) (data : OkxBooks5Data) :
    OkxBooks5OrderBook × Except Books5Error BookApplyResult :=
  if data.instrumentId ≠ book.specification.venueSymbol then (book, .error (.noState data.instrumentId))
  else
    match rawSide data.bids with
    | .error e => (book, .error (.payload e))
    | .ok bids =>
      match rawSide data.asks with
      | .error e => ({ book with bids }, .error (.payload e))
      | .ok asks =>
        let book := { book with bids, asks, sequenceId := some data.sequenceId, status := .live }
        (book,
          .ok
            { transition := .snapshotApplied
              status := book.status
              generation := book.generation
              sequenceId := book.sequenceId
              bufferedEvents := 0
              needsSnapshot := false })

theorem ingest_generation (book : OkxBooks5OrderBook) (data : OkxBooks5Data) :
    ∀ result, (book.ingest data).2 = .ok result →
      (book.ingest data).1.generation = book.generation ∧ result.generation = book.generation := by
  intro result h
  unfold ingest at h ⊢
  split at h
  · cases h
  · rename_i hinstrument
    rw [if_neg hinstrument]
    split at h
    · cases h
    · split at h
      · cases h
      · obtain rfl := Except.ok.inj h
        exact ⟨rfl, rfl⟩

/-- `ingest_books5`: the entries in turn; an entry that raises ends the message. -/
def ingestBooks5 (book : OkxBooks5OrderBook) :
    List OkxBooks5Data → OkxBooks5OrderBook × Except Books5Error (List BookApplyResult)
  | [] => (book, .ok [])
  | data :: rest =>
    match book.ingest data with
    | (book, .error e) => (book, .error e)
    | (book, .ok result) => ((ingestBooks5 book rest).1, (ingestBooks5 book rest).2.map (result :: ·))

/-- Entries leave the generation, and are answered one by one. -/
theorem ingestBooks5_generation (book : OkxBooks5OrderBook) (entries : List OkxBooks5Data) :
    ∀ results, (book.ingestBooks5 entries).2 = .ok results →
      results.length = entries.length ∧ ∀ result ∈ results, result.generation = book.generation := by
  induction entries generalizing book with
  | nil =>
    intro results h
    obtain rfl := Except.ok.inj h
    exact ⟨rfl, by simp⟩
  | cons data rest ih =>
    intro results h
    have hone := book.ingest_generation data
    unfold ingestBooks5 at h
    generalize book.ingest data = ingested at hone h
    obtain ⟨after, answer⟩ := ingested
    cases answer with
    | error e => cases h
    | ok result =>
      obtain ⟨hafter, hresult⟩ := hone result rfl
      obtain ⟨later, hlater, rfl⟩ : ∃ later, (after.ingestBooks5 rest).2 = .ok later ∧
          result :: later = results := by
        dsimp only at h
        cases hrest : (after.ingestBooks5 rest).2 with
        | error e =>
          rw [hrest] at h
          cases h
        | ok later =>
          rw [hrest] at h
          exact ⟨later, rfl, Except.ok.inj h⟩
      -- no entry moves the generation, so the later results carry the first one too
      obtain ⟨hlength, hgeneration⟩ := ih after later hlater
      refine ⟨by rw [List.length_cons, List.length_cons, hlength], ?_⟩
      intro other hother
      rcases List.mem_cons.mp hother with rfl | hother
      · exact hresult
      · rw [hgeneration other hother, hafter]

end OkxBooks5OrderBook

namespace OkxNormalizer

/-- One entry of the `books5` branch of `normalize`. -/
def normalizeBooks5Entry (specification : ContractSpecification) (symbol : String) (receipt : Receipt)
    (data : OkxBooks5Data) : Except NormalizationError OrderBookSnapshot :=
  match timestampFromMilliseconds data.timestampMs with
  | .error e => .error (.payload e)
  | .ok exchangeTimestamp =>
    match levels specification data.bids, levels specification data.asks with
    | .error e, _ => .error e
    | _, .error e => .error e
    | .ok bids, .ok asks =>
      let event : OrderBookSnapshot :=
        { exchange := .okx
          symbol
          exchangeTimestamp
          localReceiveTimestamp := receipt.receivedAt
          normalizationTimestamp := receipt.normalizedAt
          sequenceId := some (.int data.sequenceId)
          rawPayloadReference := receipt.rawPayloadReference
          bids
          asks
          depth := 5 }
      match event.validate with
      | .error message => .error (.validation message)
      | .ok () => .ok event

theorem sequenceId_of_normalizeBooks5Entry {specification : ContractSpecification} {symbol : String}
    {receipt : Receipt} {data : OkxBooks5Data} {event : OrderBookSnapshot}
    (h : normalizeBooks5Entry specification symbol receipt data = .ok event) :
    event.sequenceId = some (.int data.sequenceId) := by
  unfold normalizeBooks5Entry at h
  split at h
  · cases h
  · split at h
    · cases h
    · cases h
    · dsimp only at h
      split at h
      · cases h
      · obtain rfl := Except.ok.inj h
        rfl

/-- The `books5` branch of `normalize`. -/
def normalizeBooks5 (specification : ContractSpecification) (symbol : String) (receipt : Receipt)
    (entries : List OkxBooks5Data) : Except NormalizationError (List OrderBookSnapshot) :=
  entries.mapM (normalizeBooks5Entry specification symbol receipt)

end OkxNormalizer

/-! ## The connector with both channels -/

/-- The configured channels that have a book. -/
inductive OkxBookChannel where
  | books
  | books5
  deriving DecidableEq, Repr

/-- The connector's state for one symbol, with the books of both channels. -/
structure OkxTwoBooksConnector extends OkxMarketDataConnector where
  books5 : OkxBooks5OrderBook
  channels : List OkxBookChannel

namespace OkxTwoBooksConnector

/-- One channel of `_begin_book_resync`. -/
def resync (connector : OkxTwoBooksConnector) : OkxBookChannel → OkxTwoBooksConnector
  | .books => { connector with toOkxMarketDataConnector := connector.handleConnected }
  | .books5 =>
    { connector with
      books5 := (connector.books5.beginResync "OKX connection generation awaiting snapshot").1 }

/-- `_begin_book_resync`. -/
def beginBookResync (connector : OkxTwoBooksConnector) : OkxTwoBooksConnector :=
  connector.channels.foldl resync connector

/-- `_handle_websocket_message` on a `books5` message. -/
def handleBooks5 (connector : OkxTwoBooksConnector) (entries : List OkxBooks5Data) (receipt : Receipt) :
    OkxTwoBooksConnector × List NormalizedMarketEvent :=
  match connector.books5.ingestBooks5 entries with
  | (books5, .error _) => ({ connector with books5 }, [])
  | (books5, .ok results) =>
    match OkxNormalizer.normalizeBooks5 books5.specification connector.canonicalSymbol receipt
        entries with
    | .error _ => ({ connector with books5 }, [])
    | .ok snapshots =>
      let events := snapshots.map NormalizedMarketEvent.orderBookSnapshot
      let events :=
        match results.getLast? with
        | none => events
        | some result => events.map (·.withGeneration result.generation)
      let (dedupe, emitted) := connector.dedupe.emitEvents receipt.monotonicNow events
      ({ connector with books5, dedupe }, emitted)

end OkxTwoBooksConnector

/-- What the connector handles. -/
inductive OkxTwoBooksInput where
  | connected
  | books (action : OkxBookAction) (entries : List OkxBookData) (receipt : Receipt)
  | books5 (entries : List OkxBooks5Data) (receipt : Receipt)
  deriving DecidableEq

/-- The connector, the feature book fed with all its book events, and one fed with those of the `books`
messages only. -/
structure OkxTwoBooksPipeline where
  connector : OkxTwoBooksConnector
  feature : FeatureOrderBookState
  booksOnly : FeatureOrderBookState

/-! ## What a stale snapshot does -/

namespace FeatureOrderBookState

variable (digest : SourceDigest)

/-- Two books with one synchronized flag, generation, sequence id and levels. -/
structure SameBook (book other : FeatureOrderBookState) : Prop where
  synchronized : book.synchronized = other.synchronized
  generation : book.generation = other.generation
  sequenceId : book.sequenceId = other.sequenceId
  bids : book.bids = other.bids
  asks : book.asks = other.asks

/-- The guards of `apply_snapshot`: of an older generation, or not ahead of a synchronized book. -/
def Disregards (book : FeatureOrderBookState) (snapshot : OrderBookSnapshot) : Prop :=
  snapshot.generation < book.generation ∨ book.isStale snapshot = true

instance (book : FeatureOrderBookState) (snapshot : OrderBookSnapshot) :
    Decidable (book.Disregards snapshot) :=
  inferInstanceAs (Decidable (_ ∨ _))

theorem SameBook.refl (book : FeatureOrderBookState) : book.SameBook book := ⟨rfl, rfl, rfl, rfl, rfl⟩

theorem applySnapshot_of_disregards {book : FeatureOrderBookState} {snapshot : OrderBookSnapshot}
    (h : book.Disregards snapshot) : (book.applySnapshot digest snapshot).1 = book := by
  unfold applySnapshot
  by_cases hstale : snapshot.generation < book.generation
  · rw [if_pos hstale]
  · rw [if_neg hstale, if_pos (h.resolve_left hstale)]

/-- Snapshots that a book disregards, one after the other. -/
theorem consume_of_disregards {book : FeatureOrderBookState} {events : List NormalizedMarketEvent}
    (h : ∀ event ∈ events, ∃ snapshot, event = .orderBookSnapshot snapshot ∧ book.Disregards snapshot) :
    events.foldl (consume digest) book = book := by
  induction events with
  | nil => rfl
  | cons event rest ih =>
    obtain ⟨snapshot, rfl, hdisregards⟩ := h event List.mem_cons_self
    have hsame : book.consume digest (.orderBookSnapshot snapshot) = book :=
      applySnapshot_of_disregards digest hdisregards
    rw [List.foldl_cons, hsame]
    exact ih fun other hother => h other (List.mem_cons_of_mem _ hother)

/-- A snapshot that a book with nothing waiting does not disregard becomes its generation and sequence
id. -/
theorem applySnapshot_of_heeded {book : FeatureOrderBookState} (hpending : book.pending = [])
    {snapshot : OrderBookSnapshot} (h : ¬ book.Disregards snapshot) :
    (book.applySnapshot digest snapshot).1.generation = snapshot.generation ∧
      (book.applySnapshot digest snapshot).1.sequenceId = sequenceNumber snapshot.sequenceId := by
  obtain ⟨hnotBehind, hnotStale⟩ := not_or.mp h
  have hinstalled := book.installed_spec digest snapshot
  unfold applySnapshot
  rw [if_neg hnotBehind, if_neg hnotStale, hpending, ite_self]
  dsimp only
  split
  · exact ⟨hinstalled.generation, hinstalled.sequenceId⟩
  · exact ⟨hinstalled.generation, hinstalled.sequenceId⟩

/-- A synchronized book is the same after a snapshot only if it disregards it. -/
theorem sameBook_applySnapshot_iff {book : FeatureOrderBookState} (h : book.Coherent)
    (hsynchronized : book.synchronized = true) {snapshot : OrderBookSnapshot} {s : Int}
    (hs : sequenceNumber snapshot.sequenceId = some s) :
    (book.applySnapshot digest snapshot).1.SameBook book ↔ book.Disregards snapshot := by
  constructor
  · intro hsame
    by_contra hheeded
    obtain ⟨hgeneration, hsequence⟩ := applySnapshot_of_heeded digest (h.idle hsynchronized) hheeded
    rw [hsame.generation] at hgeneration
    rw [hsame.sequenceId, hs] at hsequence
    -- the snapshot is the book's own generation and sequence id: stale
    apply hheeded
    right
    simp [isStale, hgeneration, hsynchronized, hs, hsequence]
  · intro hdisregards
    rw [applySnapshot_of_disregards digest hdisregards]
    exact .refl book

end FeatureOrderBookState

/-! ## Runs -/

/-- What reaches the sink is of the batch, in its order. -/
theorem BoundedTTLDeduplicator.emitEvents_sublist (dedupe : BoundedTTLDeduplicator) (now : Int)
    (events : List NormalizedMarketEvent) : (dedupe.emitEvents now events).2.Sublist events := by
  induction events generalizing dedupe with
  | nil => exact List.Sublist.refl _
  | cons event rest ih =>
    unfold emitEvents
    split
    · exact List.nil_sublist _
    · exact (ih _).cons event
    · exact (ih _).cons_cons event

/-! ### What a `books` message emits -/

/-- An entry that is taken leaves the generation. -/
theorem OkxLocalOrderBook.ingest_generation {book : OkxLocalOrderBook} {action : OkxBookAction}
    {data : OkxBookData} {result : BookApplyResult} (h : (book.ingest action data).2 = .ok result)
    (htaken : result.refused = false) :
    (book.ingest action data).1.generation = book.generation ∧ result.generation = book.generation := by
  cases action with
  | snapshot =>
    simp only [ingest] at h ⊢
    unfold ingestSnapshot at h ⊢
    split at h
    · cases h
    · split at h
      · cases h
      · dsimp only at h ⊢
        split at h
        · obtain rfl := Except.ok.inj h
          rename_i hvalid
          rw [if_pos hvalid]
          exact ⟨rfl, rfl⟩
        · obtain rfl := Except.ok.inj h
          cases htaken
  | update =>
    simp only [ingest] at h ⊢
    split at h
    · split_ifs at h with hgap
      · obtain rfl := Except.ok.inj h
        cases htaken
      · rw [if_neg hgap]
        unfold applyUpdate at h ⊢
        split at h
        · cases h
        · split at h
          · cases h
          · dsimp only at h ⊢
            split at h
            · obtain rfl := Except.ok.inj h
              rename_i hvalid
              rw [if_pos hvalid]
              exact ⟨rfl, rfl⟩
            · obtain rfl := Except.ok.inj h
              cases htaken
    · obtain rfl := Except.ok.inj h
      cases htaken

/-- The results of a message that is not refused are of the generation before it. -/
theorem OkxLocalOrderBook.ingestBooks_generation {book : OkxLocalOrderBook} {action : OkxBookAction}
    {entries : List OkxBookData} {results : List BookApplyResult}
    (h : (book.ingestBooks action entries).2 = .ok results)
    (htaken : results.any BookApplyResult.refused = false) :
    results.length = entries.length ∧ ∀ result ∈ results, result.generation = book.generation := by
  induction entries generalizing book results with
  | nil =>
    obtain rfl := Except.ok.inj h
    exact ⟨rfl, by simp⟩
  | cons data rest ih =>
    have hone := @ingest_generation book action data
    unfold ingestBooks at h
    generalize book.ingest action data = ingested at hone h
    obtain ⟨after, answer⟩ := ingested
    cases answer with
    | error e => cases h
    | ok result =>
      dsimp only at h
      cases hrest : (after.ingestBooks action rest).2 with
      | error e =>
        rw [hrest] at h
        cases h
      | ok later =>
        rw [hrest] at h
        obtain rfl := Except.ok.inj h
        obtain ⟨hresult, hlater⟩ := Bool.or_eq_false_iff.mp htaken
        obtain ⟨hafter, hgeneration⟩ := hone rfl hresult
        obtain ⟨hlength, hrests⟩ := ih hrest hlater
        refine ⟨by rw [List.length_cons, List.length_cons, hlength], ?_⟩
        intro other hother
        rcases List.mem_cons.mp hother with rfl | hother
        · exact hgeneration
        · exact (hrests other hother).trans hafter

/-- The event of an entry: what the action of its message says, in a generation. -/
def OkxBookData.Announced (data : OkxBookData) (generation : Nat) (action : OkxBookAction) :
    NormalizedMarketEvent → Prop
  | .orderBookSnapshot e =>
    action = .snapshot ∧ e.generation = generation ∧ e.sequenceId = some (.int data.sequenceId)
  | .orderBookUpdate e => action = .update ∧ e.generation = generation
  | _ => False

theorem OkxNormalizer.announced_of_normalizeEntry {specification : ContractSpecification}
    {symbol : String} {action : OkxBookAction} {receipt : Receipt} {data : OkxBookData}
    {event : NormalizedMarketEvent}
    (h : normalizeEntry specification symbol action receipt data = .ok (some event)) (generation : Nat) :
    data.Announced generation action (event.withGeneration generation) := by
  unfold normalizeEntry at h
  split at h
  · cases h
  · cases action with
    | snapshot =>
      dsimp only at h
      split at h
      · cases h
      · cases h
      · split at h
        · cases h
        · obtain rfl := Option.some.inj (Except.ok.inj h)
          exact ⟨rfl, rfl, rfl⟩
    | update =>
      dsimp only at h
      split_ifs at h
      · cases h
      · split at h
        · cases h
        · cases h
        · split at h
          · cases h
          · obtain rfl := Option.some.inj (Except.ok.inj h)
            exact ⟨rfl, rfl⟩

theorem OkxNormalizer.mem_normalize {specification : ContractSpecification} {symbol : String}
    {action : OkxBookAction} {receipt : Receipt} {entries : List OkxBookData}
    {events : List NormalizedMarketEvent}
    (h : normalize specification symbol action receipt entries = .ok events)
    {event : NormalizedMarketEvent} (hevent : event ∈ events) :
    ∃ entry ∈ entries, normalizeEntry specification symbol action receipt entry = .ok (some event) := by
  induction entries generalizing events with
  | nil =>
    obtain rfl := Except.ok.inj h
    cases hevent
  | cons data rest ih =>
    unfold normalize at h
    split at h
    · cases h
    · rename_i first hfirst
      split at h
      · cases h
      · rename_i later hlater
        obtain rfl := Except.ok.inj h
        rcases List.mem_append.mp hevent with hevent | hevent
        · rw [Option.mem_toList] at hevent
          obtain rfl := hevent
          exact ⟨data, List.mem_cons_self, hfirst⟩
        · obtain ⟨entry, hentry, hnormalized⟩ := ih hlater hevent
          exact ⟨entry, List.mem_cons_of_mem _ hentry, hnormalized⟩

/-- A `books` message emits events of its entries in the generation of the book before it. -/
theorem OkxMarketDataConnector.mem_handleBooks {connector : OkxMarketDataConnector}
    {action : OkxBookAction} {entries : List OkxBookData} {receipt : Receipt}
    {event : NormalizedMarketEvent} (hevent : event ∈ (connector.handleBooks action entries receipt).2) :
    ∃ entry ∈ entries, entry.Announced connector.book.generation action event := by
  have hingested := @OkxLocalOrderBook.ingestBooks_generation connector.book action entries
  unfold handleBooks at hevent
  generalize connector.book.ingestBooks action entries = ingested at hingested hevent
  obtain ⟨book, answer⟩ := ingested
  cases answer with
  | error e => cases hevent
  | ok results =>
    dsimp only at hevent
    split at hevent
    · cases hevent
    · rename_i htaken
      split at hevent
      · cases hevent
      · rename_i events hevents
        obtain ⟨hlength, hgeneration⟩ := hingested rfl (Bool.eq_false_iff.mpr htaken)
        have hemitted := (BoundedTTLDeduplicator.emitEvents_sublist _ _ _).subset hevent
        split at hemitted
        -- without a last result there are no entries
        · rename_i hnone
          rw [List.getLast?_eq_none_iff.mp hnone] at hlength
          obtain rfl := List.length_eq_zero_iff.mp hlength.symm
          obtain rfl := Except.ok.inj hevents
          cases hemitted
        · rename_i result hlast
          obtain ⟨normalized, hnormalized, rfl⟩ := List.mem_map.mp hemitted
          obtain ⟨entry, hentry, hentryEvent⟩ := OkxNormalizer.mem_normalize hevents hnormalized
          rw [hgeneration result (List.mem_of_getLast? hlast)]
          exact ⟨entry, hentry, OkxNormalizer.announced_of_normalizeEntry hentryEvent _⟩

/-! ### What a `books5` message emits -/

namespace OkxTwoBooksConnector

/-- The event of an entry, in a generation. -/
def Announces (generation : Nat) (entry : OkxBooks5Data) (event : NormalizedMarketEvent) : Prop :=
  ∃ snapshot, event = .orderBookSnapshot snapshot ∧ snapshot.generation = generation ∧
    snapshot.sequenceId = some (.int entry.sequenceId)

/-- A `books5` message emits nothing, or events of its entries in the generation of its book. -/
theorem handleBooks5_announces (connector : OkxTwoBooksConnector) (entries : List OkxBooks5Data)
    (receipt : Receipt) :
    (connector.handleBooks5 entries receipt).2 = [] ∨
      ∃ events, (connector.handleBooks5 entries receipt).2.Sublist events ∧
        List.Forall₂ (Announces connector.books5.generation) entries events := by
  have hingested := connector.books5.ingestBooks5_generation entries
  unfold handleBooks5
  generalize connector.books5.ingestBooks5 entries = ingested at hingested ⊢
  obtain ⟨books5, answer⟩ := ingested
  cases answer with
  | error e => exact .inl rfl
  | ok results =>
    obtain ⟨hlength, hgeneration⟩ := hingested results rfl
    dsimp only
    split
    · exact .inl rfl
    · rename_i snapshots hsnapshots
      refine .inr ⟨_, BoundedTTLDeduplicator.emitEvents_sublist _ _ _, ?_⟩
      split
      -- without a last result there are no entries
      · rename_i hnone
        rw [List.getLast?_eq_none_iff.mp hnone] at hlength
        obtain rfl := List.length_eq_zero_iff.mp hlength.symm
        obtain rfl := mapM_nil_eq_ok.mp hsnapshots
        exact List.Forall₂.nil
      · rename_i result hlast
        rw [List.map_map, List.forall₂_map_right_iff]
        refine (mapM_eq_ok_iff_forall₂.mp hsnapshots).imp fun entry snapshot hnormalized => ?_
        have hid : snapshot.sequenceId = some (.int entry.sequenceId) :=
          OkxNormalizer.sequenceId_of_normalizeBooks5Entry hnormalized
        exact ⟨{ snapshot with generation := result.generation }, rfl,
          hgeneration result (List.mem_of_getLast? hlast), hid⟩

theorem mem_handleBooks5 {connector : OkxTwoBooksConnector} {entries : List OkxBooks5Data}
    {receipt : Receipt} {event : NormalizedMarketEvent}
    (hevent : event ∈ (connector.handleBooks5 entries receipt).2) :
    ∃ entry ∈ entries, Announces connector.books5.generation entry event := by
  rcases connector.handleBooks5_announces entries receipt with hnone | ⟨events, hsublist, hevents⟩
  · rw [hnone] at hevent
    cases hevent
  · exact exists_of_mem_forall₂_right hevents (hsublist.subset hevent)

theorem handleBooks5_singleton {connector : OkxTwoBooksConnector} {entry : OkxBooks5Data}
    {receipt : Receipt} (h : (connector.handleBooks5 [entry] receipt).2 ≠ []) :
    ∃ event, (connector.handleBooks5 [entry] receipt).2 = [event] ∧
      Announces connector.books5.generation entry event := by
  rcases connector.handleBooks5_announces [entry] receipt with hnone | ⟨events, hsublist, hevents⟩
  · exact absurd hnone h
  · obtain ⟨event, later, hevent, hlater, rfl⟩ := List.forall₂_cons_left_iff.mp hevents
    obtain rfl := List.forall₂_nil_left_iff.mp hlater
    exact ⟨event, (List.sublist_singleton.mp hsublist).resolve_left h, hevent⟩

end OkxTwoBooksConnector

namespace OkxTwoBooksPipeline

open FeatureOrderBookState

variable (digest : SourceDigest)

def step (p : OkxTwoBooksPipeline) : OkxTwoBooksInput → OkxTwoBooksPipeline
  | .connected => { p with connector := p.connector.beginBookResync }
  | .books action entries receipt =>
    let (connector, events) := p.connector.handleBooks action entries receipt
    { connector := { p.connector with toOkxMarketDataConnector := connector }
      feature := events.foldl (consume digest) p.feature
      booksOnly := events.foldl (consume digest) p.booksOnly }
  | .books5 entries receipt =>
    let (connector, events) := p.connector.handleBooks5 entries receipt
    { p with connector, feature := events.foldl (consume digest) p.feature }

/-- The pipeline as constructed. -/
def fresh (specification : ContractSpecification) (isOkx : specification.exchange = .okx)
    (validateNonzeroChecksum : Bool) (canonicalSymbol : String) (channels : List OkxBookChannel)
    (dedupeCapacity : Nat) (hdedupe : 1 ≤ dedupeCapacity) (ttl : Int) (httl : 0 < ttl)
    (pendingCapacity : Nat) (hpending : 1 ≤ pendingCapacity) : OkxTwoBooksPipeline :=
  { connector :=
      { canonicalSymbol
        book := OkxLocalOrderBook.new specification isOkx validateNonzeroChecksum
        dedupe := { capacity := dedupeCapacity, ttl, capacity_pos := hdedupe, ttl_pos := httl }
        books5 := { specification, isOkx }
        channels }
    feature := { pendingCapacity, pendingCapacity_pos := hpending }
    booksOnly := { pendingCapacity, pendingCapacity_pos := hpending } }

/-- An entry of `books5` is behind the feature book: by the generation of its book, or in the feature
book's generation by its sequence id. -/
def Behind (p : OkxTwoBooksPipeline) (entry : OkxBooks5Data) : Prop :=
  p.connector.books5.generation < p.feature.generation ∨
    p.connector.books5.generation = p.feature.generation ∧ p.feature.synchronized = true ∧
      p.feature.sequenceId.any (entry.sequenceId ≤ ·) = true

instance (p : OkxTwoBooksPipeline) (entry : OkxBooks5Data) : Decidable (p.Behind entry) :=
  inferInstanceAs (Decidable (_ ∨ _))

/-- An entry of `books` is ahead of a feature book: by the generation of its book, or as a snapshot in the
feature book's generation by its sequence id, while no update waits. -/
def Ahead (p : OkxTwoBooksPipeline) (action : OkxBookAction) (entry : OkxBookData)
    (feature : FeatureOrderBookState) : Prop :=
  feature.generation < p.connector.book.generation ∨
    action = .snapshot ∧ feature.generation = p.connector.book.generation ∧ feature.pending = [] ∧
      (feature.synchronized = true → ∀ current ∈ feature.sequenceId, current < entry.sequenceId)

instance (p : OkxTwoBooksPipeline) (action : OkxBookAction) (entry : OkxBookData)
    (feature : FeatureOrderBookState) : Decidable (p.Ahead action entry feature) :=
  inferInstanceAs (Decidable (_ ∨ _))

/-- Whether nothing of `books5` is left in the feature book behind an input, where `free` says whether
anything was before it. -/
def staysFree (p : OkxTwoBooksPipeline) (free : Bool) : OkxTwoBooksInput → Bool
  | .connected => free
  | .books action entries receipt =>
    free || !(p.connector.handleBooks action entries receipt).2.isEmpty &&
      entries.all fun entry => p.Ahead action entry p.feature ∧ p.Ahead action entry p.booksOnly
  | .books5 entries receipt =>
    free && ((p.connector.handleBooks5 entries receipt).2.isEmpty || entries.all (p.Behind ·))

/-- Whether nothing of `books5` is left in the feature book behind a run. -/
def freeOfBooks5 (p : OkxTwoBooksPipeline) (free : Bool) : List OkxTwoBooksInput → Bool
  | [] => free
  | input :: later => freeOfBooks5 (step digest p input) (p.staysFree free input) later

theorem disregards_iff_behind {p : OkxTwoBooksPipeline} {entry : OkxBooks5Data}
    {snapshot : OrderBookSnapshot} (hgeneration : snapshot.generation = p.connector.books5.generation)
    (hsequence : snapshot.sequenceId = some (.int entry.sequenceId)) :
    p.feature.Disregards snapshot ↔ p.Behind entry := by
  unfold Disregards Behind isStale
  rw [hgeneration, hsequence]
  cases p.feature.sequenceId <;> simp [sequenceNumber, and_assoc]

/-- What an entry ahead of a feature book announces starts that book anew. -/
theorem startsAnew_of_ahead {p : OkxTwoBooksPipeline} {action : OkxBookAction} {entry : OkxBookData}
    {feature : FeatureOrderBookState} (h : p.Ahead action entry feature) {event : NormalizedMarketEvent}
    (hevent : entry.Announced p.connector.book.generation action event) : feature.StartsAnew event := by
  cases event with
  | orderBookSnapshot snapshot =>
    obtain ⟨-, hgeneration, hsequence⟩ := hevent
    dsimp only [StartsAnew]
    rw [hgeneration, hsequence]
    refine h.imp_right fun ⟨_, hsame, hpending, hahead⟩ => ⟨hsame, hpending, ?_⟩
    intro hsynchronized current hcurrent sequence hnumber
    obtain rfl := Option.some.inj hnumber
    exact hahead hsynchronized current hcurrent
  | orderBookUpdate update =>
    obtain ⟨haction, hgeneration⟩ := hevent
    dsimp only [StartsAnew]
    rw [hgeneration]
    refine h.resolve_right fun ⟨hsnapshot, _⟩ => ?_
    rw [haction] at hsnapshot
    cases hsnapshot
  | _ => exact hevent.elim

/-- A message that emits, and whose entries are all ahead of two feature books of one capacity, brings
them together. -/
theorem course_of_ahead {p : OkxTwoBooksPipeline}
    (hcapacity : p.feature.pendingCapacity = p.booksOnly.pendingCapacity) {action : OkxBookAction}
    {entries : List OkxBookData} {receipt : Receipt}
    (hemitted : (p.connector.handleBooks action entries receipt).2 ≠ [])
    (hahead : ∀ entry ∈ entries, p.Ahead action entry p.feature ∧ p.Ahead action entry p.booksOnly) :
    (step digest p (.books action entries receipt)).feature.course =
      (step digest p (.books action entries receipt)).booksOnly.course := by
  show (List.foldl _ p.feature (p.connector.handleBooks action entries receipt).2).course =
    (List.foldl _ p.booksOnly (p.connector.handleBooks action entries receipt).2).course
  obtain ⟨event, later, hevents⟩ := List.exists_cons_of_ne_nil hemitted
  have hevent : event ∈ (p.connector.handleBooks action entries receipt).2 := by
    rw [hevents]
    exact List.mem_cons_self
  obtain ⟨entry, hentry, hannounced⟩ := OkxMarketDataConnector.mem_handleBooks hevent
  obtain ⟨hfeature, hbooksOnly⟩ := hahead entry hentry
  rw [hevents]
  -- the first event makes the courses equal, whatever was left
  exact course_foldl digest (course_of_startsAnew digest hcapacity
    (startsAnew_of_ahead hfeature hannounced) (startsAnew_of_ahead hbooksOnly hannounced)) later

/-- Entries that are behind the feature book leave it as it is. -/
theorem feature_of_behind {p : OkxTwoBooksPipeline} {entries : List OkxBooks5Data}
    (h : ∀ entry ∈ entries, p.Behind entry) (receipt : Receipt) :
    (step digest p (.books5 entries receipt)).feature = p.feature := by
  apply consume_of_disregards
  intro event hevent
  obtain ⟨entry, hentry, snapshot, rfl, hgeneration, hsequence⟩ :=
    OkxTwoBooksConnector.mem_handleBooks5 hevent
  exact ⟨snapshot, rfl, (disregards_iff_behind hgeneration hsequence).mpr (h entry hentry)⟩

/-! ### What a run keeps -/

theorem coherent_foldl {book : FeatureOrderBookState} (h : book.Coherent)
    (events : List NormalizedMarketEvent) : (events.foldl (consume digest) book).Coherent := by
  induction events generalizing book with
  | nil => exact h
  | cons event rest ih => exact ih (consume_coherent digest h event)

theorem pendingCapacity_foldl (book : FeatureOrderBookState) (events : List NormalizedMarketEvent) :
    (events.foldl (consume digest) book).pendingCapacity = book.pendingCapacity := by
  induction events generalizing book with
  | nil => rfl
  | cons event rest ih => rw [List.foldl_cons, ih, pendingCapacity_consume]

/-- The two feature books, while `free` says whether anything of `books5` is left in the first. -/
structure Kept (p : OkxTwoBooksPipeline) (free : Bool) : Prop where
  capacity : p.feature.pendingCapacity = p.booksOnly.pendingCapacity
  coherent : p.feature.Coherent
  course : free = true → p.feature.course = p.booksOnly.course

theorem Kept.step {p : OkxTwoBooksPipeline} {free : Bool} (h : p.Kept free) (input : OkxTwoBooksInput) :
    (step digest p input).Kept (p.staysFree free input) := by
  cases input with
  | connected => exact ⟨h.capacity, h.coherent, h.course⟩
  | books action entries receipt =>
    refine ⟨?_, coherent_foldl digest h.coherent _, fun hfree => ?_⟩
    · show (List.foldl _ p.feature _).pendingCapacity = (List.foldl _ p.booksOnly _).pendingCapacity
      rw [pendingCapacity_foldl, pendingCapacity_foldl]
      exact h.capacity
    · rcases Bool.or_eq_true_iff.mp hfree with hfree | hrenews
      · exact course_foldl digest (h.course hfree) _
      · obtain ⟨hemitted, hahead⟩ := Bool.and_eq_true_iff.mp hrenews
        refine course_of_ahead digest h.capacity (by simpa using hemitted) ?_
        intro entry hentry
        exact of_decide_eq_true (List.all_eq_true.mp hahead entry hentry)
  | books5 entries receipt =>
    refine ⟨?_, coherent_foldl digest h.coherent _, fun hfree => ?_⟩
    · show (List.foldl _ p.feature _).pendingCapacity = p.booksOnly.pendingCapacity
      rw [pendingCapacity_foldl]
      exact h.capacity
    · obtain ⟨hfree, hleft⟩ := Bool.and_eq_true_iff.mp hfree
      have hsame : (OkxTwoBooksPipeline.step digest p (.books5 entries receipt)).feature = p.feature := by
        rcases Bool.or_eq_true_iff.mp hleft with hsilent | hbehind
        · show List.foldl _ p.feature (p.connector.handleBooks5 entries receipt).2 = p.feature
          rw [List.isEmpty_iff.mp hsilent]
          rfl
        · exact feature_of_behind digest (by simpa using hbehind) receipt
      rw [hsame]
      exact h.course hfree

theorem Kept.run {p : OkxTwoBooksPipeline} {free : Bool} (h : p.Kept free)
    (inputs : List OkxTwoBooksInput) :
    (inputs.foldl (OkxTwoBooksPipeline.step digest) p).Kept (freeOfBooks5 digest p free inputs) := by
  induction inputs generalizing p free with
  | nil => exact h
  | cons input later ih => exact ih (h.step digest input)

theorem sameBook_of_course {book other : FeatureOrderBookState} (h : book.course = other.course) :
    book.SameBook other := by
  obtain ⟨-, -, hbids, hasks, hgeneration, hsequence, hsynchronized⟩ := course_eq_iff.mp h
  exact ⟨hsynchronized, hgeneration, hsequence, hbids, hasks⟩

theorem sameBook_congr_right {book other third : FeatureOrderBookState} (h : other.SameBook third) :
    book.SameBook other ↔ book.SameBook third := by
  constructor
  · intro hsame
    exact ⟨hsame.synchronized.trans h.synchronized, hsame.generation.trans h.generation,
      hsame.sequenceId.trans h.sequenceId, hsame.bids.trans h.bids, hsame.asks.trans h.asks⟩
  · intro hsame
    exact ⟨hsame.synchronized.trans h.synchronized.symm, hsame.generation.trans h.generation.symm,
      hsame.sequenceId.trans h.sequenceId.symm, hsame.bids.trans h.bids.symm,
      hsame.asks.trans h.asks.symm⟩

/-- **Isolation, with its condition.**  In every state that connects, `books` messages and `books5`
messages reach, in whatever order they come, the feature book is the book fed with `books` alone as long
as nothing of `books5` is left in it.  Where it is synchronized then, a `books5` message that is emitted
leaves something in it exactly if its entry is not behind. -/
theorem feature_book_isolated_while_free (specification : ContractSpecification)
    (isOkx : specification.exchange = .okx) (validateNonzeroChecksum : Bool) (canonicalSymbol : String)
    (channels : List OkxBookChannel) (dedupeCapacity : Nat) (hdedupe : 1 ≤ dedupeCapacity) (ttl : Int)
    (httl : 0 < ttl) (pendingCapacity : Nat) (hpending : 1 ≤ pendingCapacity)
    {inputs : List OkxTwoBooksInput}
    (hfree : freeOfBooks5 digest
      (fresh specification isOkx validateNonzeroChecksum canonicalSymbol channels dedupeCapacity hdedupe
        ttl httl pendingCapacity hpending) true inputs = true) :
    let p := inputs.foldl (step digest)
      (fresh specification isOkx validateNonzeroChecksum canonicalSymbol channels dedupeCapacity hdedupe
        ttl httl pendingCapacity hpending)
    p.feature.SameBook p.booksOnly ∧
      (p.feature.synchronized = true → ∀ (entry : OkxBooks5Data) (receipt : Receipt),
        (p.connector.handleBooks5 [entry] receipt).2 ≠ [] →
          ((step digest p (.books5 [entry] receipt)).feature.SameBook p.booksOnly ↔
            p.Behind entry)) := by
  intro p
  have hstart : (fresh specification isOkx validateNonzeroChecksum canonicalSymbol channels
      dedupeCapacity hdedupe ttl httl pendingCapacity hpending).Kept true :=
    ⟨rfl, Coherent.fresh hpending, fun _ => rfl⟩
  have hkept := hstart.run digest inputs
  have hsame := sameBook_of_course (hkept.course hfree)
  refine ⟨hsame, fun hsynchronized entry receipt hemitted => ?_⟩
  obtain ⟨event, hevents, snapshot, rfl, hgeneration, hsequence⟩ :=
    OkxTwoBooksConnector.handleBooks5_singleton hemitted
  have hstep : (step digest p (.books5 [entry] receipt)).feature =
      (p.feature.applySnapshot digest snapshot).1 := by
    show List.foldl _ p.feature (p.connector.handleBooks5 [entry] receipt).2 = _
    rw [hevents]
    rfl
  have hnumbered : sequenceNumber snapshot.sequenceId = some entry.sequenceId := by
    rw [hsequence]
    rfl
  rw [← sameBook_congr_right hsame, hstep, ← disregards_iff_behind hgeneration hsequence]
  exact sameBook_applySnapshot_iff digest hkept.coherent hsynchronized hnumbered

/-! ### A `books5` snapshot over a `books` book -/

def exampleStart : OkxTwoBooksPipeline :=
  fresh OkxLocalOrderBook.exampleSpecification OkxLocalOrderBook.exampleSpecification_okx true
    "BTC-USDT-PERP" [.books, .books5] 8 exampleDedupeCapacity_pos 1000 exampleTtl_pos 4
    examplePendingCapacity_pos

def exampleBooks (sequenceId now : Int) : OkxTwoBooksInput :=
  .books .snapshot
    [{ bids := [⟨"100", "2", "0", "1"⟩], asks := [⟨"101", "3", "0", "1"⟩], timestampMs := "1"
       checksum := 0, sequenceId, previousSequenceId := -1 }] (.instant now)

/-- A `books5` snapshot with another best bid. -/
def exampleBooks5 (sequenceId now : Int) : OkxTwoBooksInput :=
  .books5
    [{ bids := [⟨"99", "2", "0", "1"⟩], asks := [⟨"101", "3", "0", "1"⟩]
       instrumentId := "BTC-USDT-SWAP", timestampMs := "2", sequenceId }] (.instant now)

/-- A snapshot on both channels, that of `books5` one sequence id on. -/
def exampleInputs : List OkxTwoBooksInput := [.connected, exampleBooks 10 1, exampleBooks5 11 2]

/-- The feature book goes on at the sequence id and the levels of `books5`. -/
theorem books5_replaces_books :
    ¬ ∀ (digest : SourceDigest) (inputs : List OkxTwoBooksInput),
      (inputs.foldl (step digest) exampleStart).feature.SameBook
        (inputs.foldl (step digest) exampleStart).booksOnly := by
  intro hclaim
  have hsame := (hclaim noDigest exampleInputs).sequenceId
  have hmixed : (exampleInputs.foldl (step noDigest) exampleStart).feature.sequenceId = some 11 := by
    decide +kernel
  have halone : (exampleInputs.foldl (step noDigest) exampleStart).booksOnly.sequenceId = some 10 := by
    decide +kernel
  rw [hmixed, halone] at hsame
  cases hsame

/-- `books5` comes first and is overtaken by `books`; what it sends then is behind, also behind a
reconnect. -/
def exampleInputsFree : List OkxTwoBooksInput :=
  [.connected, exampleBooks5 9 1, exampleBooks 10 2, exampleBooks5 8 3, .connected, exampleBooks 12 4,
    exampleBooks5 11 5]

theorem feature_book_isolated_while_free_overtaken :
    let p := exampleInputsFree.foldl (step noDigest) exampleStart
    p.feature.SameBook p.booksOnly ∧
      (p.feature.synchronized = true → ∀ (entry : OkxBooks5Data) (receipt : Receipt),
        (p.connector.handleBooks5 [entry] receipt).2 ≠ [] →
          ((step noDigest p (.books5 [entry] receipt)).feature.SameBook p.booksOnly ↔
            p.Behind entry)) := by
  have hfree : freeOfBooks5 noDigest exampleStart true exampleInputsFree = true := by
    decide +kernel
  exact feature_book_isolated_while_free noDigest OkxLocalOrderBook.exampleSpecification rfl true
    "BTC-USDT-PERP" [.books, .books5] 8 exampleDedupeCapacity_pos 1000 exampleTtl_pos 4
    examplePendingCapacity_pos hfree

end OkxTwoBooksPipeline

end Cvf
