/-
# Cvf.Okx.Agreement — the OKX local book and the feature book, and the reset that parts them.

The local book accepts any update whose `prevSeqId` is the current id, the documented maintenance
reset (`seqId < prevSeqId`) included; the feature book calls every event at or behind its sequence id
stale, and gets no event at all for an update without levels.  The two agree on messages whose
sequence ids move forward (`live_copy_is_current`), and part on the reset
(`maintenance_reset_disagrees`).
-/
import Cvf.Library.Run
import Cvf.Okx.FeatureBook

namespace Cvf

open Cvf.Library

/-! ## Messages -/

/-- A snapshot with two sides, best price first, positive and uncrossed. -/
def OkxBookData.SnapshotListed (data : OkxBookData) : Prop :=
  ∃ bids asks, data.bids.mapM OkxBookLevelText.parse = .ok bids ∧
    data.asks.mapM OkxBookLevelText.parse = .ok asks ∧ bids ≠ [] ∧ asks ≠ [] ∧
    (∀ l ∈ bids ++ asks, 0 < l.price ∧ 0 < l.quantityContracts) ∧
    (bids.Pairwise fun l r => r.price < l.price) ∧ (asks.Pairwise fun l r => l.price < r.price) ∧
    ∀ b ∈ bids, ∀ a ∈ asks, b.price < a.price

/-- An update with at least one level, at positive prices and no negative quantity. -/
def OkxBookData.UpdateListed (data : OkxBookData) : Prop :=
  ∃ bids asks, data.bids.mapM OkxBookLevelText.parse = .ok bids ∧
    data.asks.mapM OkxBookLevelText.parse = .ok asks ∧ (bids ≠ [] ∨ asks ≠ []) ∧
    ∀ l ∈ bids ++ asks, 0 < l.price ∧ 0 ≤ l.quantityContracts

/-- An update without levels. -/
def OkxBookData.Empty (data : OkxBookData) : Prop := data.bids = [] ∧ data.asks = []

instance (data : OkxBookData) : Decidable data.Empty := inferInstanceAs (Decidable (_ ∧ _))

/-- The `books` entries OKX sends: snapshots, updates with levels, empty keepalives and maintenance
resets. -/
def OkxBookData.Documented (data : OkxBookData) : OkxBookAction → Prop
  | .snapshot => data.SnapshotListed ∧ 0 < data.sequenceId
  | .update =>
    (data.UpdateListed ∧ data.previousSequenceId < data.sequenceId) ∨
      (data.Empty ∧ data.sequenceId = data.previousSequenceId) ∨
      ((data.Empty ∨ data.UpdateListed) ∧ 0 < data.sequenceId ∧
        data.sequenceId < data.previousSequenceId)

namespace OkxLocalOrderBook

/-- The book takes an entry. -/
def Accepts (book : OkxLocalOrderBook) (action : OkxBookAction) (data : OkxBookData) : Prop :=
  ∃ result, (book.ingest action data).2 = .ok result ∧ result.refused = false

/-- The entry moves the sequence ids forward: a snapshot into a live book is newer than it, and an
update is no maintenance reset. -/
def Forward (book : OkxLocalOrderBook) (action : OkxBookAction) (data : OkxBookData) : Prop :=
  match action with
  | .snapshot => ∀ n, book.status = .live → book.sequenceId = some n → n < data.sequenceId
  | .update => data.previousSequenceId ≤ data.sequenceId

/-- What one entry of an accepted message meets. -/
structure EntryFits (action : OkxBookAction) (book : OkxLocalOrderBook) (data : OkxBookData) :
    Prop where
  accepted : book.Accepts action data
  documented : data.Documented action
  forward : book.Forward action data
  timestamp : ∃ t, timestampFromMilliseconds data.timestampMs = .ok t

/-- The book after one entry. -/
def after (action : OkxBookAction) (book : OkxLocalOrderBook) (data : OkxBookData) :
    OkxLocalOrderBook :=
  (book.ingest action data).1

/-- What an accepted snapshot leaves. -/
theorem ingest_snapshot_accepted {book : OkxLocalOrderBook} {data : OkxBookData}
    (h : book.Accepts .snapshot data) :
    ∃ bids asks result, rawSide data.bids = .ok bids ∧ rawSide data.asks = .ok asks ∧
      book.ingest .snapshot data =
        ({ book with bids, asks, sequenceId := some data.sequenceId, status := .live },
          .ok result) ∧
      result.refused = false ∧ result.generation = book.generation := by
  obtain ⟨result, hresult, hrefused⟩ := h
  simp only [ingest, ingestSnapshot] at hresult ⊢
  cases hb : rawSide data.bids with
  | error e => simp [hb] at hresult
  | ok bids =>
      cases ha : rawSide data.asks with
      | error e => simp [hb, ha] at hresult
      | ok asks =>
          simp only [hb, ha] at hresult ⊢
          split at hresult
          · rename_i hvalid
            simp only [Except.ok.injEq] at hresult
            subst hresult
            rw [if_pos hvalid]
            exact ⟨bids, asks, _, rfl, rfl, rfl, hrefused, rfl⟩
          · simp only [Except.ok.injEq] at hresult
            subst hresult
            simp [checksumFailure, result, BookApplyResult.refused] at hrefused

/-- What an accepted update needs and leaves. -/
theorem ingest_update_accepted {book : OkxLocalOrderBook} {data : OkxBookData}
    (h : book.Accepts .update data) :
    book.status = .live ∧ book.sequenceId = some data.previousSequenceId ∧
      ∃ result, book.ingest .update data =
          ({ book with
              bids := (applyRawSide book.bids data.bids).1
              asks := (applyRawSide book.asks data.asks).1
              sequenceId := some data.sequenceId }, .ok result) ∧
        result.refused = false ∧ result.generation = book.generation := by
  obtain ⟨result, hresult, hrefused⟩ := h
  by_cases hlive : book.status = .live
  · cases hseq : book.sequenceId with
    | none =>
        simp only [ingest, hlive, hseq, Except.ok.injEq] at hresult
        subst hresult
        simp [OkxLocalOrderBook.result, BookApplyResult.refused] at hrefused
    | some previous =>
        simp only [ingest, hlive, hseq] at hresult ⊢
        split at hresult
        · simp only [Except.ok.injEq] at hresult
          subst hresult
          simp [OkxLocalOrderBook.result, BookApplyResult.refused] at hrefused
        · rename_i hprevious
          obtain rfl : data.previousSequenceId = previous := by simpa using hprevious
          refine ⟨trivial, rfl, ?_⟩
          simp only [ne_eq, not_true_eq_false, if_false]
          simp only [applyUpdate] at hresult ⊢
          rcases hb : applyRawSide book.bids data.bids with ⟨bids, _ | e⟩
          · rcases ha : applyRawSide book.asks data.asks with ⟨asks, _ | e⟩
            · simp only [hb, ha] at hresult ⊢
              split at hresult
              · rename_i hvalid
                simp only [Except.ok.injEq] at hresult
                subst hresult
                rw [if_pos hvalid]
                exact ⟨_, by simp only [hlive], hrefused, rfl⟩
              · simp only [Except.ok.injEq] at hresult
                subst hresult
                simp [checksumFailure, OkxLocalOrderBook.result, BookApplyResult.refused]
                  at hrefused
            · simp [hb, ha] at hresult
          · simp [hb] at hresult
  · rw [ingest_update_of_not_live hlive] at hresult
    simp only [Except.ok.injEq] at hresult
    subst hresult
    simp [OkxLocalOrderBook.result, BookApplyResult.refused] at hrefused

/-- An accepted entry leaves a live book in the same generation. -/
theorem after_accepted {book : OkxLocalOrderBook} {action : OkxBookAction} {data : OkxBookData}
    (h : book.Accepts action data) :
    (after action book data).generation = book.generation ∧
      (after action book data).status = .live ∧
      (after action book data).sequenceId = some data.sequenceId ∧
      (after action book data).specification = book.specification := by
  cases action with
  | snapshot =>
      obtain ⟨bids, asks, result, -, -, heq, -⟩ := ingest_snapshot_accepted h
      simp only [after, heq]
      exact ⟨trivial, trivial, trivial, trivial⟩
  | update =>
      obtain ⟨hlive, -, result, heq, -⟩ := ingest_update_accepted h
      simp only [after, heq]
      exact ⟨trivial, hlive, trivial, trivial⟩

theorem result_accepted {book : OkxLocalOrderBook} {action : OkxBookAction} {data : OkxBookData}
    (h : book.Accepts action data) :
    ∃ result, book.ingest action data = (after action book data, .ok result) ∧
      result.refused = false ∧ result.generation = book.generation := by
  cases action with
  | snapshot =>
      obtain ⟨bids, asks, result, -, -, heq, hrefused, hgen⟩ := ingest_snapshot_accepted h
      exact ⟨result, by simp only [after, heq], hrefused, hgen⟩
  | update =>
      obtain ⟨-, -, result, heq, hrefused, hgen⟩ := ingest_update_accepted h
      exact ⟨result, by simp only [after, heq], hrefused, hgen⟩

/-- What a refused entry leaves: a lost book, or a mark on one that was not live. -/
theorem ingest_refused {book : OkxLocalOrderBook} {action : OkxBookAction} {data : OkxBookData}
    (hdata : data.WellFormed) (hlive : book.status = .live → ∃ n, book.sequenceId = some n)
    {result : BookApplyResult} (hresult : (book.ingest action data).2 = .ok result)
    (hrefused : result.refused = true) :
    (book.ingest action data).1 = book.invalidate ∨
      (book.status ≠ .live ∧
        (book.ingest action data).1 = { book with status := .resyncRequired }) := by
  cases action with
  | snapshot =>
      rcases ingestSnapshot_cases book hdata with ⟨bids, asks, -, -, heq⟩ | ⟨r, heq, -⟩
      · simp only [ingest, heq, Except.ok.injEq] at hresult
        subst hresult
        simp [OkxLocalOrderBook.result, BookApplyResult.refused] at hrefused
      · exact Or.inl (by simp only [ingest, heq])
  | update =>
      by_cases hstatus : book.status = .live
      · obtain ⟨n, hn⟩ := hlive hstatus
        left
        simp only [ingest, hstatus, hn] at hresult ⊢
        split
        · rfl
        · rename_i hprevious
          rw [if_neg hprevious] at hresult
          rcases applyUpdate_cases book hdata with ⟨r, heq, htransition⟩ | ⟨r, heq, -⟩
          · simp only [heq, Except.ok.injEq] at hresult
            subst hresult
            simp [BookApplyResult.refused, htransition] at hrefused
          · rw [heq]
      · exact Or.inr ⟨hstatus, by rw [ingest_update_of_not_live hstatus]⟩

end OkxLocalOrderBook

/-! ## Normalization of an entry -/

/-- A listed snapshot normalizes to the event that carries it. -/
theorem normalizeEntry_snapshot (specification : ContractSpecification) (symbol : String)
    (receipt : Receipt) {data : OkxBookData} (hdata : data.SnapshotListed)
    (ht : ∃ t, timestampFromMilliseconds data.timestampMs = .ok t) :
    ∃ e bids asks, OkxNormalizer.normalizeEntry specification symbol .snapshot receipt data =
        .ok (some (.orderBookSnapshot e)) ∧
      e.sequenceId = some (.int data.sequenceId) ∧
      data.bids.mapM OkxBookLevelText.parse = .ok bids ∧
      data.asks.mapM OkxBookLevelText.parse = .ok asks ∧
      (∀ l ∈ bids, 0 < l.quantityContracts) ∧ (∀ l ∈ asks, 0 < l.quantityContracts) ∧
      e.bids = bids.map (RawLevel.normalized specification) ∧
      e.asks = asks.map (RawLevel.normalized specification) := by
  obtain ⟨t, ht⟩ := ht
  obtain ⟨bids, asks, hbids, hasks, hbidsNe, hasksNe, hpositive, hbidsSort, hasksSort,
    huncrossed⟩ := hdata
  simp only [OkxNormalizer.normalizeEntry, ht, levels_of_parsed hbids, levels_of_parsed hasks]
  rw [OrderBookSnapshot.validate_ok]
  · exact ⟨_, bids, asks, rfl, rfl, hbids, hasks, fun l hl => (hpositive l (by simp [hl])).2,
      fun l hl => (hpositive l (by simp [hl])).2, rfl, rfl⟩
  · intro l hl
    rw [← List.map_append] at hl
    obtain ⟨raw, hraw, rfl⟩ := List.mem_map.mp hl
    exact (hpositive raw hraw).1
  · intro l hl
    rw [← List.map_append] at hl
    obtain ⟨raw, hraw, rfl⟩ := List.mem_map.mp hl
    exact ((specification.contractsToBase_pos _).mpr (hpositive raw hraw).2).le
  · simpa using hbidsNe
  · simpa using hasksNe
  · exact List.pairwise_map.mpr hbidsSort
  · exact List.pairwise_map.mpr hasksSort
  · intro b hb a ha
    simp only [List.head?_map, Option.mem_def, Option.map_eq_some_iff] at hb ha
    obtain ⟨b, hb, rfl⟩ := hb
    obtain ⟨a, ha, rfl⟩ := ha
    exact huncrossed b (List.mem_of_head? hb) a (List.mem_of_head? ha)
  · simp [length_of_mapM_eq_ok hbids]
  · simp [length_of_mapM_eq_ok hasks]

/-- A listed update normalizes to the event that carries it. -/
theorem normalizeEntry_update (specification : ContractSpecification) (symbol : String)
    (receipt : Receipt) {data : OkxBookData} (hdata : data.UpdateListed)
    (ht : ∃ t, timestampFromMilliseconds data.timestampMs = .ok t) :
    ∃ u bids asks, OkxNormalizer.normalizeEntry specification symbol .update receipt data =
        .ok (some (.orderBookUpdate u)) ∧
      u.sequenceId = some (.int data.sequenceId) ∧
      u.previousSequenceId = some (.int data.previousSequenceId) ∧
      data.bids.mapM OkxBookLevelText.parse = .ok bids ∧
      data.asks.mapM OkxBookLevelText.parse = .ok asks ∧
      u.bids = bids.map (RawLevel.normalized specification) ∧
      u.asks = asks.map (RawLevel.normalized specification) := by
  obtain ⟨t, ht⟩ := ht
  obtain ⟨bids, asks, hbids, hasks, hne, hpositive⟩ := hdata
  have hlevels : ¬ (data.bids = [] ∧ data.asks = []) := by
    rintro ⟨hb, ha⟩
    rw [hb] at hbids
    rw [ha] at hasks
    rcases hne with hne | hne
    · exact hne (mapM_nil_eq_ok.mp hbids)
    · exact hne (mapM_nil_eq_ok.mp hasks)
  simp only [OkxNormalizer.normalizeEntry, ht, if_neg hlevels, levels_of_parsed hbids,
    levels_of_parsed hasks]
  rw [OrderBookUpdate.validate_ok]
  · exact ⟨_, bids, asks, rfl, rfl, rfl, hbids, hasks, rfl, rfl⟩
  · intro l hl
    rw [← List.map_append] at hl
    obtain ⟨raw, hraw, rfl⟩ := List.mem_map.mp hl
    exact (hpositive raw hraw).1
  · intro l hl
    rw [← List.map_append] at hl
    obtain ⟨raw, hraw, rfl⟩ := List.mem_map.mp hl
    exact mul_nonneg (hpositive raw hraw).2 specification.baseUnitsPerContract_pos.le
  · simpa using hne

theorem normalizeEntry_empty (specification : ContractSpecification) (symbol : String)
    (receipt : Receipt) {data : OkxBookData} (hdata : data.Empty)
    (ht : ∃ t, timestampFromMilliseconds data.timestampMs = .ok t) :
    OkxNormalizer.normalizeEntry specification symbol .update receipt data = .ok none := by
  obtain ⟨t, ht⟩ := ht
  have hempty : data.bids = [] ∧ data.asks = [] := hdata
  simp only [OkxNormalizer.normalizeEntry, ht, if_pos hempty]

/-! ## The pipeline -/

/-- The connector and the feature book behind its sink. -/
structure OkxPipeline where
  connector : OkxMarketDataConnector
  feature : FeatureOrderBookState

/-- What the connector handles. -/
inductive OkxInput where
  | connected
  | books (action : OkxBookAction) (entries : List OkxBookData) (receipt : Receipt)
  deriving DecidableEq

namespace OkxPipeline

open OkxLocalOrderBook

variable (digest : SourceDigest)

def step (p : OkxPipeline) : OkxInput → OkxPipeline
  | .connected => { p with connector := p.connector.handleConnected }
  | .books action entries receipt =>
    let (connector, events) := p.connector.handleBooks action entries receipt
    { connector, feature := events.foldl (FeatureOrderBookState.consume digest) p.feature }

/-- A connector and a feature book as constructed. -/
def fresh (specification : ContractSpecification) (isOkx : specification.exchange = .okx)
    (validateNonzeroChecksum : Bool) (canonicalSymbol : String) (dedupeCapacity : Nat)
    (hdedupe : 1 ≤ dedupeCapacity) (ttl : Int) (httl : 0 < ttl) (pendingCapacity : Nat)
    (hpending : 1 ≤ pendingCapacity) : OkxPipeline :=
  { connector :=
      { canonicalSymbol
        book := OkxLocalOrderBook.new specification isOkx validateNonzeroChecksum
        dedupe :=
          { capacity := dedupeCapacity, ttl, capacity_pos := hdedupe, ttl_pos := httl } }
    feature := { pendingCapacity, pendingCapacity_pos := hpending } }

/-- A live two-sided uncrossed local book: a synchronized feature book has its sequence id and its
levels in base units. -/
def Agree (p : OkxPipeline) : Prop :=
  p.connector.book.status = .live → p.connector.book.bids ≠ ∅ → p.connector.book.asks ≠ ∅ →
    (∀ b ∈ p.connector.book.bids.keys, ∀ a ∈ p.connector.book.asks.keys, b < a) →
    p.feature.synchronized = true →
    p.feature.sequenceId = p.connector.book.sequenceId ∧
      Copies p.connector.book.specification p.connector.book.bids p.feature.bids ∧
      Copies p.connector.book.specification p.connector.book.asks p.feature.asks

/-- The run's premise: a message the local book accepts entry by entry, made of documented entries,
or one it refuses. -/
def Genuine (p : OkxPipeline) : OkxInput → Prop
  | .connected => True
  | .books action entries receipt =>
    (∀ t, p.connector.dedupe.lastNow = some t → t ≤ receipt.monotonicNow) ∧
      (Admitted (after action) (fun book data => book.Accepts action data ∧
          data.Documented action ∧ ∃ t, timestampFromMilliseconds data.timestampMs = .ok t)
          p.connector.book entries ∨
        ∃ data result, entries = [data] ∧ data.WellFormed ∧
          (p.connector.book.ingest action data).2 = .ok result ∧ result.refused = true)

/-- Every entry of an accepted message moves the sequence ids forward. -/
def MovesForward (p : OkxPipeline) : OkxInput → Prop
  | .connected => True
  | .books action entries _ =>
    Admitted (after action) (fun book data => book.Accepts action data → book.Forward action data)
      p.connector.book entries

def Admits (p : OkxPipeline) (input : OkxInput) : Prop := p.Genuine input ∧ p.MovesForward input

/-! ## The invariant -/

/-- An event of generation `g` and sequence id `n` is still remembered. -/
def SeenAt (p : OkxPipeline) (g : Nat) (n : Int) : Prop :=
  (∃ e, NormalizedMarketEvent.orderBookSnapshot e ∈ p.connector.dedupe.identities ∧
    e.generation = g ∧ e.sequenceId = some (.int n)) ∨
  ∃ u, NormalizedMarketEvent.orderBookUpdate u ∈ p.connector.dedupe.identities ∧
    u.generation = g ∧ u.sequenceId = some (.int n)

/-- The feature book of a live local book at sequence id `n`. -/
structure Current (p : OkxPipeline) (n : Int) : Prop where
  sequence : p.connector.book.sequenceId = some n
  positive : 0 < n
  generation : p.feature.generation = p.connector.book.generation
  pending : ∀ u ∈ p.feature.pending, ∃ s, u.sequenceId = some (.int s) ∧ s ≤ n
  copy : p.feature.synchronized = true → p.feature.sequenceId = some n ∧
    Copies p.connector.book.specification p.connector.book.bids p.feature.bids ∧
    Copies p.connector.book.specification p.connector.book.asks p.feature.asks

/-- A live book is current; a book that is not live has opened a generation the feature book has not
seen, or nothing has happened yet; and what is remembered is behind the book. -/
structure Invariant (p : OkxPipeline) : Prop where
  generation_le : p.feature.generation ≤ p.connector.book.generation
  live : p.connector.book.status = .live → ∃ n, p.Current n
  notLive : p.connector.book.status ≠ .live →
    p.feature.generation < p.connector.book.generation ∨
      (p.feature.synchronized = false ∧ p.feature.pending = [])
  seen : ∀ g n, p.SeenAt g n → g < p.connector.book.generation ∨
    (g = p.connector.book.generation ∧ p.connector.book.status = .live ∧
      ∃ m, p.connector.book.sequenceId = some m ∧ n ≤ m)

theorem agree_of_invariant {p : OkxPipeline} (hp : p.Invariant) : p.Agree := by
  intro hlive _ _ _ hsync
  obtain ⟨n, hn⟩ := hp.live hlive
  rw [hn.sequence]
  exact hn.copy hsync

/-- Losing the book leaves the feature book a generation behind. -/
theorem invariant_invalidated {p p' : OkxPipeline} (hp : p.Invariant)
    (hbook : p'.connector.book = p.connector.book.invalidate)
    (hdedupe : p'.connector.dedupe = p.connector.dedupe) (hfeature : p'.feature = p.feature) :
    p'.Invariant := by
  have hlt : p.feature.generation < p.connector.book.generation + 1 :=
    Nat.lt_succ_of_le hp.generation_le
  refine ⟨?_, ?_, ?_, ?_⟩
  · rw [hbook, hfeature]
    exact hlt.le
  · intro h
    rw [hbook] at h
    simp [invalidate] at h
  · intro _
    rw [hbook, hfeature]
    exact Or.inl hlt
  · intro g n hseen
    have hold : p.SeenAt g n := by
      unfold SeenAt at hseen ⊢
      rwa [hdedupe] at hseen
    left
    rw [hbook]
    rcases hp.seen g n hold with h | ⟨rfl, -⟩
    · exact Nat.lt_succ_of_lt h
    · exact Nat.lt_succ_self _

/-- An update before any snapshot only marks the book. -/
theorem invariant_marked {p p' : OkxPipeline} (hp : p.Invariant)
    (hnot : p.connector.book.status ≠ .live)
    (hbook : p'.connector.book = { p.connector.book with status := .resyncRequired })
    (hdedupe : p'.connector.dedupe = p.connector.dedupe) (hfeature : p'.feature = p.feature) :
    p'.Invariant := by
  refine ⟨?_, ?_, ?_, ?_⟩
  · rw [hbook, hfeature]
    exact hp.generation_le
  · intro h
    simp [hbook] at h
  · intro _
    rw [hbook, hfeature]
    exact hp.notLive hnot
  · intro g n hseen
    have hold : p.SeenAt g n := by
      unfold SeenAt at hseen ⊢
      rwa [hdedupe] at hseen
    rw [hbook]
    rcases hp.seen g n hold with h | ⟨-, h, -⟩
    · exact Or.inl h
    · exact absurd h hnot

/-! ## One entry -/

/-- An entry and its event, one after the other. -/
structure EntryStep (p p' : OkxPipeline) (action : OkxBookAction) (data : OkxBookData)
    (event : Option NormalizedMarketEvent) (now : Int) : Prop where
  book : p'.connector.book = after action p.connector.book data
  dedupe : p'.connector.dedupe = (p.connector.dedupe.emitEvents now event.toList).1
  feature : p'.feature =
    (p.connector.dedupe.emitEvents now event.toList).2.foldl
      (FeatureOrderBookState.consume digest) p.feature

/-- An event ahead of everything remembered reaches the feature book. -/
theorem EntryStep.reaches {p p' : OkxPipeline} {action : OkxBookAction} {data : OkxBookData}
    {event : NormalizedMarketEvent} {now : Int}
    (hstep : EntryStep digest p p' action data (some event) now)
    (hclock : ∀ t, p.connector.dedupe.lastNow = some t → t ≤ now)
    (hnew : normalizedEventIdentity event ∉ p.connector.dedupe.identities) :
    p'.feature = p.feature.consume digest event ∧
      (∀ i ∈ p'.connector.dedupe.identities,
        i = normalizedEventIdentity event ∨ i ∈ p.connector.dedupe.identities) ∧
      p'.connector.dedupe.lastNow = some now := by
  obtain ⟨dedupe', hlast, hkept, hemit | ⟨hseen, -⟩⟩ :=
    BoundedTTLDeduplicator.emitEvents_cons hclock event []
  · have hdedupe := hstep.dedupe
    have hfeature := hstep.feature
    simp only [Option.toList_some, hemit] at hdedupe hfeature
    rw [hdedupe, hfeature]
    exact ⟨rfl, hkept, hlast⟩
  · exact absurd hseen hnew

/-- After a snapshot that moves forward the feature book is current. -/
theorem invariant_snapshotEntry {p p' : OkxPipeline} (hp : p.Invariant) {data : OkxBookData}
    (hfits : EntryFits .snapshot p.connector.book data) {event : NormalizedMarketEvent} {now : Int}
    {e : OrderBookSnapshot} {bids asks : List RawLevel}
    (hevent : event = .orderBookSnapshot { e with generation := p.connector.book.generation })
    (hseq : e.sequenceId = some (.int data.sequenceId))
    (hbids : data.bids.mapM OkxBookLevelText.parse = .ok bids)
    (hasks : data.asks.mapM OkxBookLevelText.parse = .ok asks)
    (hbidsPos : ∀ l ∈ bids, 0 < l.quantityContracts)
    (hasksPos : ∀ l ∈ asks, 0 < l.quantityContracts)
    (hebids : e.bids = bids.map (RawLevel.normalized p.connector.book.specification))
    (heasks : e.asks = asks.map (RawLevel.normalized p.connector.book.specification))
    (hstep : EntryStep digest p p' .snapshot data (some event) now)
    (hclock : ∀ t, p.connector.dedupe.lastNow = some t → t ≤ now) :
    p'.Invariant ∧ p'.connector.dedupe.lastNow = some now := by
  obtain ⟨rawBids, rawAsks, result, hrawBids, hrawAsks, heq, -⟩ :=
    ingest_snapshot_accepted hfits.accepted
  have hbook := hstep.book
  simp only [after, heq] at hbook
  have hpositive : 0 < data.sequenceId := hfits.documented.2
  have hforward : ∀ n, p.connector.book.status = .live → p.connector.book.sequenceId = some n →
      n < data.sequenceId := hfits.forward
  have hnew : normalizedEventIdentity event ∉ p.connector.dedupe.identities := by
    intro hseen
    have hat : p.SeenAt p.connector.book.generation data.sequenceId := by
      rw [hevent] at hseen
      exact Or.inl ⟨_, hseen, rfl, hseq⟩
    rcases hp.seen _ _ hat with h | ⟨-, hlive, m, hm, hle⟩
    · exact absurd h (lt_irrefl _)
    · have := hforward m hlive hm
      omega
  obtain ⟨hfeature, hkept, hlast⟩ := hstep.reaches digest hclock hnew
  rw [hevent] at hfeature
  have hmoved := @FeatureOrderBookState.applySnapshot_forward digest p.feature
    { e with generation := p.connector.book.generation } data.sequenceId hseq hp.generation_le
    (by
      intro hsame hsync
      by_cases hlive : p.connector.book.status = .live
      · obtain ⟨n, hn⟩ := hp.live hlive
        exact ⟨n, (hn.copy hsync).1, hforward n hlive hn.sequence⟩
      · rcases hp.notLive hlive with h | ⟨h, -⟩
        · exact absurd hsame h.ne'
        · simp [h] at hsync)
    (by
      intro hsame u hu
      by_cases hlive : p.connector.book.status = .live
      · obtain ⟨n, hn⟩ := hp.live hlive
        obtain ⟨s, hs, hle⟩ := hn.pending u hu
        exact ⟨s, hs, hle.trans (hforward n hlive hn.sequence).le⟩
      · rcases hp.notLive hlive with h | ⟨-, h⟩
        · exact absurd hsame h.ne'
        · simp [h] at hu)
  have hconsumed : p'.feature = (p.feature.applySnapshot digest
      { e with generation := p.connector.book.generation }).1 := hfeature
  rw [← hconsumed] at hmoved
  obtain ⟨hgen, hpending, hcopy⟩ := hmoved
  refine ⟨⟨?_, ?_, ?_, ?_⟩, hlast⟩
  · rw [hgen, hbook]
  · intro _
    refine ⟨data.sequenceId, ?_⟩
    exact
      { sequence := by rw [hbook]
        positive := hpositive
        generation := by rw [hgen, hbook]
        pending := by simp [hpending]
        copy := by
          intro hsync
          obtain ⟨hs, hb, ha⟩ := hcopy hsync
          rw [hs, hb, ha, hbook, hebids, heasks]
          exact ⟨rfl, copies_snapshotSide hbids hbidsPos hrawBids,
            copies_snapshotSide hasks hasksPos hrawAsks⟩ }
  · intro h
    simp [hbook] at h
  · intro g n hseen
    rw [hbook]
    have hsplit : p.SeenAt g n ∨ (g = p.connector.book.generation ∧ n = data.sequenceId) := by
      rcases hseen with ⟨e', he', hg, hn⟩ | ⟨u, hu, hg, hn⟩
      · rcases hkept _ he' with h | h
        · rw [hevent] at h
          simp only [normalizedEventIdentity, NormalizedMarketEvent.withBase,
            NormalizedMarketEvent.orderBookSnapshot.injEq] at h
          subst h
          right
          rw [hseq, Option.some.injEq, SequenceId.int.injEq] at hn
          exact ⟨hg.symm, hn.symm⟩
        · exact Or.inl (Or.inl ⟨e', h, hg, hn⟩)
      · rcases hkept _ hu with h | h
        · rw [hevent] at h
          simp [normalizedEventIdentity, NormalizedMarketEvent.withBase] at h
        · exact Or.inl (Or.inr ⟨u, h, hg, hn⟩)
    rcases hsplit with hold | ⟨rfl, rfl⟩
    · rcases hp.seen g n hold with h | ⟨rfl, hlive, m, hm, hle⟩
      · exact Or.inl h
      · have := hforward m hlive hm
        exact Or.inr ⟨rfl, rfl, data.sequenceId, rfl, by omega⟩
    · exact Or.inr ⟨rfl, rfl, data.sequenceId, rfl, le_rfl⟩

/-- After an update with levels that moves forward the feature book is current, waiting or stopped. -/
theorem invariant_updateEntry {p p' : OkxPipeline} (hp : p.Invariant) {data : OkxBookData}
    (hfits : EntryFits .update p.connector.book data)
    (hlt : data.previousSequenceId < data.sequenceId) {event : NormalizedMarketEvent} {now : Int}
    {u : OrderBookUpdate} {bids asks : List RawLevel}
    (hevent : event = .orderBookUpdate { u with generation := p.connector.book.generation })
    (hseq : u.sequenceId = some (.int data.sequenceId))
    (hprevious : u.previousSequenceId = some (.int data.previousSequenceId))
    (hbids : data.bids.mapM OkxBookLevelText.parse = .ok bids)
    (hasks : data.asks.mapM OkxBookLevelText.parse = .ok asks)
    (hubids : u.bids = bids.map (RawLevel.normalized p.connector.book.specification))
    (huasks : u.asks = asks.map (RawLevel.normalized p.connector.book.specification))
    (hstep : EntryStep digest p p' .update data (some event) now)
    (hclock : ∀ t, p.connector.dedupe.lastNow = some t → t ≤ now) :
    p'.Invariant ∧ p'.connector.dedupe.lastNow = some now := by
  obtain ⟨hlive, hsequence, result, heq, -⟩ := ingest_update_accepted hfits.accepted
  have hbook := hstep.book
  simp only [after, heq] at hbook
  obtain ⟨n, hn⟩ := hp.live hlive
  obtain rfl : n = data.previousSequenceId := by
    have := hn.sequence
    rw [hsequence, Option.some.injEq] at this
    exact this.symm
  have hpositive : 0 < data.sequenceId := hn.positive.trans hlt
  have hnew : normalizedEventIdentity event ∉ p.connector.dedupe.identities := by
    intro hseen
    have hat : p.SeenAt p.connector.book.generation data.sequenceId := by
      rw [hevent] at hseen
      exact Or.inr ⟨_, hseen, rfl, hseq⟩
    rcases hp.seen _ _ hat with h | ⟨-, -, m, hm, hle⟩
    · exact absurd h (lt_irrefl _)
    · rw [hsequence, Option.some.injEq] at hm
      omega
  obtain ⟨hfeature, hkept, hlast⟩ := hstep.reaches digest hclock hnew
  rw [hevent] at hfeature
  have hmoved := @FeatureOrderBookState.applyUpdate_forward digest p.feature
    { u with generation := p.connector.book.generation } data.sequenceId data.previousSequenceId
    hseq hprevious hn.generation.symm hpositive hlt (fun hsync => (hn.copy hsync).1)
  have hconsumed : p'.feature = (p.feature.applyUpdate digest
      { u with generation := p.connector.book.generation }).1 := hfeature
  rw [← hconsumed] at hmoved
  obtain ⟨hgen, hpending, hcopy⟩ := hmoved
  refine ⟨⟨?_, ?_, ?_, ?_⟩, hlast⟩
  · rw [hgen, hbook]
    exact hp.generation_le
  · intro _
    refine ⟨data.sequenceId, ?_⟩
    exact
      { sequence := by rw [hbook]
        positive := hpositive
        generation := by
          rw [hgen, hbook]
          exact hn.generation
        pending := by
          intro v hv
          rcases hpending v hv with rfl | hold
          · exact ⟨data.sequenceId, hseq, le_rfl⟩
          · obtain ⟨m, hm, hle⟩ := hn.pending v hold
            exact ⟨m, hm, hle.trans hlt.le⟩
        copy := by
          intro hsync
          obtain ⟨hwas, hs, hb, ha⟩ := hcopy hsync
          obtain ⟨-, hcopyBids, hcopyAsks⟩ := hn.copy hwas
          rw [hs, hb, ha, hbook]
          refine ⟨rfl, ?_, ?_⟩
          · rw [hubids]
            exact copies_applySide hbids hcopyBids
          · rw [huasks]
            exact copies_applySide hasks hcopyAsks }
  · intro h
    simp [hbook, hlive] at h
  · intro g m hseen
    rw [hbook]
    have hsplit : p.SeenAt g m ∨ (g = p.connector.book.generation ∧ m = data.sequenceId) := by
      rcases hseen with ⟨e', he', hg, hm⟩ | ⟨v, hv, hg, hm⟩
      · rcases hkept _ he' with h | h
        · rw [hevent] at h
          simp [normalizedEventIdentity, NormalizedMarketEvent.withBase] at h
        · exact Or.inl (Or.inl ⟨e', h, hg, hm⟩)
      · rcases hkept _ hv with h | h
        · rw [hevent] at h
          simp only [normalizedEventIdentity, NormalizedMarketEvent.withBase,
            NormalizedMarketEvent.orderBookUpdate.injEq] at h
          subst h
          right
          rw [hseq, Option.some.injEq, SequenceId.int.injEq] at hm
          exact ⟨hg.symm, hm.symm⟩
        · exact Or.inl (Or.inr ⟨v, h, hg, hm⟩)
    rcases hsplit with hold | ⟨rfl, rfl⟩
    · rcases hp.seen g m hold with h | ⟨rfl, -, k, hk, hle⟩
      · exact Or.inl h
      · rw [hsequence, Option.some.injEq] at hk
        exact Or.inr ⟨rfl, hlive, data.sequenceId, rfl, by omega⟩
    · exact Or.inr ⟨rfl, hlive, data.sequenceId, rfl, le_rfl⟩

/-- An empty keepalive changes neither book. -/
theorem invariant_emptyEntry {p p' : OkxPipeline} (hp : p.Invariant) {data : OkxBookData}
    (hfits : EntryFits .update p.connector.book data) (hempty : data.Empty)
    (hsame : data.sequenceId = data.previousSequenceId) {now : Int}
    (hstep : EntryStep digest p p' .update data none now) :
    p'.Invariant ∧ p'.connector.dedupe = p.connector.dedupe := by
  obtain ⟨hlive, hsequence, result, heq, -⟩ := ingest_update_accepted hfits.accepted
  obtain ⟨hnoBids, hnoAsks⟩ := hempty
  have hbook : p'.connector.book = p.connector.book := by
    rw [hstep.book, after, heq, hnoBids, hnoAsks, hsame, ← hsequence]
    rfl
  have hdedupe : p'.connector.dedupe = p.connector.dedupe := hstep.dedupe
  have hfeature : p'.feature = p.feature := hstep.feature
  have hconnector : p'.connector.book = p.connector.book ∧
      p'.connector.dedupe = p.connector.dedupe := ⟨hbook, hdedupe⟩
  refine ⟨⟨?_, ?_, ?_, ?_⟩, hdedupe⟩
  · rw [hbook, hfeature]
    exact hp.generation_le
  · intro _
    obtain ⟨n, hn⟩ := hp.live hlive
    refine ⟨n, ?_⟩
    exact
      { sequence := hbook ▸ hn.sequence
        positive := hn.positive
        generation := by
          rw [hbook, hfeature]
          exact hn.generation
        pending := hfeature ▸ hn.pending
        copy := by
          rw [hbook, hfeature]
          exact hn.copy }
  · intro h
    rw [hbook] at h
    exact absurd hlive h
  · intro g n hseen
    have hold : p.SeenAt g n := by
      unfold SeenAt at hseen ⊢
      rwa [hdedupe] at hseen
    rw [hbook]
    exact hp.seen g n hold

/-! ## Messages, entry by entry -/

/-- The event of an entry, stamped with the book's generation. -/
def entryEvent (p : OkxPipeline) (action : OkxBookAction) (receipt : Receipt)
    (data : OkxBookData) : Option NormalizedMarketEvent :=
  match OkxNormalizer.normalizeEntry p.connector.book.specification p.connector.canonicalSymbol
      action receipt data with
  | .error _ => none
  | .ok event => event.map (·.withGeneration p.connector.book.generation)

/-- An entry and its event, one after the other. -/
def entryStep (action : OkxBookAction) (receipt : Receipt) (p : OkxPipeline) (data : OkxBookData) :
    OkxPipeline :=
  let emitted := p.connector.dedupe.emitEvents receipt.monotonicNow
    (p.entryEvent action receipt data).toList
  { connector :=
      { p.connector with book := after action p.connector.book data, dedupe := emitted.1 }
    feature := emitted.2.foldl (FeatureOrderBookState.consume digest) p.feature }

/-- One entry that fits keeps the invariant and normalizes. -/
theorem invariant_entryStep {p : OkxPipeline} (hp : p.Invariant) {action : OkxBookAction}
    {data : OkxBookData} {receipt : Receipt}
    (hfits : EntryFits action p.connector.book data)
    (hclock : ∀ t, p.connector.dedupe.lastNow = some t → t ≤ receipt.monotonicNow) :
    (p.entryStep digest action receipt data).Invariant ∧
      (∀ t, (p.entryStep digest action receipt data).connector.dedupe.lastNow = some t →
        t ≤ receipt.monotonicNow) ∧
      ∃ event, OkxNormalizer.normalizeEntry p.connector.book.specification
        p.connector.canonicalSymbol action receipt data = .ok event := by
  have hnow : ∀ {q : OkxPipeline}, q.connector.dedupe.lastNow = some receipt.monotonicNow →
      ∀ t, q.connector.dedupe.lastNow = some t → t ≤ receipt.monotonicNow := by
    intro q hq t ht
    rw [hq, Option.some.injEq] at ht
    exact ht.ge
  cases action with
  | snapshot =>
      obtain ⟨e, bids, asks, hnormalized, hseq, hbids, hasks, hbidsPos, hasksPos, hebids, heasks⟩ :=
        normalizeEntry_snapshot p.connector.book.specification p.connector.canonicalSymbol receipt
          hfits.documented.1 hfits.timestamp
      have hevent : p.entryEvent .snapshot receipt data =
          some (.orderBookSnapshot { e with generation := p.connector.book.generation }) := by
        simp only [entryEvent, hnormalized]
        rfl
      have hstep : EntryStep digest p (p.entryStep digest .snapshot receipt data) .snapshot data
          (some (.orderBookSnapshot { e with generation := p.connector.book.generation }))
          receipt.monotonicNow := ⟨rfl, by rw [← hevent]; rfl, by rw [← hevent]; rfl⟩
      obtain ⟨hinv, hlast⟩ := invariant_snapshotEntry digest hp hfits rfl hseq hbids hasks hbidsPos
        hasksPos hebids heasks hstep hclock
      exact ⟨hinv, hnow hlast, _, hnormalized⟩
  | update =>
      rcases hfits.documented with ⟨hlisted, hlt⟩ | ⟨hempty, hsame⟩ | ⟨-, -, hreset⟩
      · obtain ⟨u, bids, asks, hnormalized, hseq, hprevious, hbids, hasks, hubids, huasks⟩ :=
          normalizeEntry_update p.connector.book.specification p.connector.canonicalSymbol receipt
            hlisted hfits.timestamp
        have hevent : p.entryEvent .update receipt data =
            some (.orderBookUpdate { u with generation := p.connector.book.generation }) := by
          simp only [entryEvent, hnormalized]
          rfl
        have hstep : EntryStep digest p (p.entryStep digest .update receipt data) .update data
            (some (.orderBookUpdate { u with generation := p.connector.book.generation }))
            receipt.monotonicNow := ⟨rfl, by rw [← hevent]; rfl, by rw [← hevent]; rfl⟩
        obtain ⟨hinv, hlast⟩ := invariant_updateEntry digest hp hfits hlt rfl hseq hprevious hbids
          hasks hubids huasks hstep hclock
        exact ⟨hinv, hnow hlast, _, hnormalized⟩
      · have hnormalized := normalizeEntry_empty p.connector.book.specification
          p.connector.canonicalSymbol receipt hempty hfits.timestamp
        have hevent : p.entryEvent .update receipt data = none := by
          simp only [entryEvent, hnormalized]
          rfl
        have hstep : EntryStep digest p (p.entryStep digest .update receipt data) .update data none
            receipt.monotonicNow := ⟨rfl, by rw [← hevent]; rfl, by rw [← hevent]; rfl⟩
        obtain ⟨hinv, hdedupe⟩ := invariant_emptyEntry digest hp hfits hempty hsame hstep
        exact ⟨hinv, by rw [hdedupe]; exact hclock, _, hnormalized⟩
      · have hforward : data.previousSequenceId ≤ data.sequenceId := hfits.forward
        omega

/-- The invariant along the entries of a message, each of which normalizes. -/
theorem invariant_entries {action : OkxBookAction} {receipt : Receipt} {entries : List OkxBookData}
    {p : OkxPipeline} (hp : p.Invariant)
    (hfits : Admitted (after action) (EntryFits action) p.connector.book entries)
    (hclock : ∀ t, p.connector.dedupe.lastNow = some t → t ≤ receipt.monotonicNow) :
    (entries.foldl (entryStep digest action receipt) p).Invariant ∧
      ∃ events, OkxNormalizer.normalize p.connector.book.specification
        p.connector.canonicalSymbol action receipt entries = .ok events := by
  induction entries generalizing p with
  | nil => exact ⟨hp, [], rfl⟩
  | cons data entries ih =>
      obtain ⟨hinv, hclock', event, hevent⟩ := invariant_entryStep digest hp hfits.1 hclock
      obtain ⟨-, -, -, hspecification⟩ := after_accepted hfits.1.accepted
      obtain ⟨hrest, events, hevents⟩ := ih hinv hfits.2 hclock'
      refine ⟨hrest, event.toList ++ events, ?_⟩
      have hevents' : OkxNormalizer.normalize p.connector.book.specification
          p.connector.canonicalSymbol action receipt entries = .ok events := by
        rw [← hspecification]
        exact hevents
      simp only [OkxNormalizer.normalize, hevent, hevents']

/-- A message whose entries are all accepted: the book takes them all, and the batch of events has
the effect of the events one by one. -/
theorem entries_eq_batch {action : OkxBookAction} {receipt : Receipt} {entries : List OkxBookData}
    {events : List NormalizedMarketEvent} {p : OkxPipeline}
    (haccepted : Admitted (after action) (fun book data => book.Accepts action data)
      p.connector.book entries)
    (hevents : OkxNormalizer.normalize p.connector.book.specification p.connector.canonicalSymbol
      action receipt entries = .ok events) :
    (∃ results, p.connector.book.ingestBooks action entries =
        (entries.foldl (after action) p.connector.book, .ok results) ∧
      results.any BookApplyResult.refused = false ∧
      results.length = entries.length ∧
      ∀ r ∈ results, r.generation = p.connector.book.generation) ∧
    (entries.foldl (after action) p.connector.book).specification =
      p.connector.book.specification ∧
    entries.foldl (entryStep digest action receipt) p =
      { connector :=
          { p.connector with
            book := entries.foldl (after action) p.connector.book
            dedupe := (p.connector.dedupe.emitEvents receipt.monotonicNow
              (events.map (·.withGeneration p.connector.book.generation))).1 }
        feature := (p.connector.dedupe.emitEvents receipt.monotonicNow
          (events.map (·.withGeneration p.connector.book.generation))).2.foldl
            (FeatureOrderBookState.consume digest) p.feature } := by
  induction entries generalizing p events with
  | nil =>
      obtain rfl : [] = events := by simpa [OkxNormalizer.normalize] using hevents
      exact ⟨⟨[], rfl, rfl, rfl, by simp⟩, rfl, rfl⟩
  | cons data entries ih =>
      obtain ⟨hgen, -, -, hspecification⟩ := after_accepted haccepted.1
      obtain ⟨result, hingest, hrefused, hresultGen⟩ := result_accepted haccepted.1
      rw [OkxNormalizer.normalize] at hevents
      cases hentry : OkxNormalizer.normalizeEntry p.connector.book.specification
          p.connector.canonicalSymbol action receipt data with
      | error e => simp [hentry] at hevents
      | ok event =>
          cases hrest : OkxNormalizer.normalize p.connector.book.specification
              p.connector.canonicalSymbol action receipt entries with
          | error e => simp [hentry, hrest] at hevents
          | ok others =>
              simp only [hentry, hrest, Except.ok.injEq] at hevents
              subst hevents
              have hrest' : OkxNormalizer.normalize
                  (p.entryStep digest action receipt data).connector.book.specification
                  (p.entryStep digest action receipt data).connector.canonicalSymbol action receipt
                  entries = .ok others := by
                rw [← hrest, ← hspecification]
                rfl
              obtain ⟨⟨results, hresults, hany, hlength, hall⟩, hspec', hfold⟩ :=
                ih haccepted.2 hrest'
              refine ⟨⟨result :: results, ?_, ?_, by simp [hlength], ?_⟩, ?_, ?_⟩
              · have hresults' : (after action p.connector.book data).ingestBooks action entries =
                    (entries.foldl (after action) (after action p.connector.book data),
                      .ok results) := hresults
                simp only [ingestBooks, hingest, hresults', List.foldl_cons, Except.map]
              · simp [hrefused, hany]
              · intro r hr
                rcases List.mem_cons.mp hr with rfl | hr
                · exact hresultGen
                · exact (hall r hr).trans hgen
              · exact hspec'.trans hspecification
              · have hevent : p.entryEvent action receipt data =
                    event.map (·.withGeneration p.connector.book.generation) := by
                  simp only [entryEvent, hentry]
                have hlist : (event.toList ++ others).map
                    (·.withGeneration p.connector.book.generation) =
                    (p.entryEvent action receipt data).toList ++
                      others.map (·.withGeneration p.connector.book.generation) := by
                  rw [hevent]
                  cases event <;> simp
                rw [List.foldl_cons, hfold, hlist, BoundedTTLDeduplicator.emitEvents_append]
                simp only [entryStep, hgen, List.foldl_cons, List.foldl_append]

/-- A fully accepted message is its entries one by one. -/
theorem step_books_accepted {p : OkxPipeline} (hp : p.Invariant) {action : OkxBookAction}
    {entries : List OkxBookData} {receipt : Receipt}
    (hfits : Admitted (after action) (EntryFits action) p.connector.book entries)
    (hclock : ∀ t, p.connector.dedupe.lastNow = some t → t ≤ receipt.monotonicNow) :
    p.step digest (.books action entries receipt) =
      entries.foldl (entryStep digest action receipt) p := by
  obtain ⟨-, events, hevents⟩ := invariant_entries digest hp hfits hclock
  have haccepted : Admitted (after action) (fun book data => book.Accepts action data)
      p.connector.book entries :=
    hfits.imp fun _ _ h => h.accepted
  obtain ⟨⟨results, hresults, hany, hlength, hall⟩, hspec, hfold⟩ :=
    entries_eq_batch digest haccepted hevents
  rw [hfold]
  simp only [step, OkxMarketDataConnector.handleBooks, hresults, hany, Bool.false_eq_true, if_false,
    hspec, hevents]
  cases hlast : results.getLast? with
  | none =>
      obtain rfl : results = [] := List.getLast?_eq_none_iff.mp hlast
      obtain rfl : entries = [] := List.eq_nil_of_length_eq_zero hlength.symm
      obtain rfl : [] = events := by simpa [OkxNormalizer.normalize] using hevents
      rfl
  | some result => simp only [hall result (List.mem_of_getLast? hlast)]

/-! ## Runs -/

theorem invariant_step (p : OkxPipeline) (input : OkxInput) (hp : p.Invariant)
    (hinput : p.Admits input) : (p.step digest input).Invariant := by
  cases input with
  | connected => exact invariant_invalidated hp rfl rfl rfl
  | books action entries receipt =>
      obtain ⟨⟨hclock, haccepted | ⟨data, result, rfl, hwell, hresult, hrefused⟩⟩, hforward⟩ :=
        hinput
      · have hfits : Admitted (after action) (EntryFits action) p.connector.book entries := by
          exact (haccepted.and hforward).imp fun _ _ h =>
            ⟨h.1.1, h.1.2.1, h.2 h.1.1, h.1.2.2⟩
        rw [step_books_accepted digest hp hfits hclock]
        exact (invariant_entries digest hp hfits hclock).1
      · have hstep : p.step digest (.books action [data] receipt) =
            { p with connector :=
                { p.connector with book := (p.connector.book.ingest action data).1 } } := by
          have hsplit : p.connector.book.ingest action data =
              ((p.connector.book.ingest action data).1, .ok result) := Prod.ext rfl hresult
          have hbooks : p.connector.book.ingestBooks action [data] =
              ((p.connector.book.ingest action data).1, .ok [result]) := by
            rw [ingestBooks, hsplit]
            rfl
          simp [step, OkxMarketDataConnector.handleBooks, hbooks, hrefused]
        rcases ingest_refused hwell (fun h => (hp.live h).imp fun _ hn => hn.sequence) hresult hrefused
          with hlost | ⟨hnot, hmarked⟩
        · exact invariant_invalidated hp (by rw [hstep, hlost]) (by rw [hstep]) (by rw [hstep])
        · exact invariant_marked hp hnot (by rw [hstep, hmarked]) (by rw [hstep]) (by rw [hstep])

theorem invariant_fresh (specification : ContractSpecification)
    (isOkx : specification.exchange = .okx) (validateNonzeroChecksum : Bool)
    (canonicalSymbol : String) (dedupeCapacity : Nat) (hdedupe : 1 ≤ dedupeCapacity) (ttl : Int)
    (httl : 0 < ttl) (pendingCapacity : Nat) (hpending : 1 ≤ pendingCapacity) :
    (fresh specification isOkx validateNonzeroChecksum canonicalSymbol dedupeCapacity hdedupe ttl
      httl pendingCapacity hpending).Invariant where
  generation_le := le_rfl
  live := fun h => by simp [fresh, OkxLocalOrderBook.new] at h
  notLive := fun _ => Or.inr ⟨rfl, rfl⟩
  seen := by
    rintro g n (⟨e, he, -⟩ | ⟨u, hu, -⟩)
    · simp [fresh, BoundedTTLDeduplicator.identities] at he
    · simp [fresh, BoundedTTLDeduplicator.identities] at hu

/-- **Agreement.**  In every state of a run of documented messages whose sequence ids move forward, a
synchronized feature book is the live local book in base units. -/
theorem live_copy_is_current (specification : ContractSpecification)
    (isOkx : specification.exchange = .okx) (validateNonzeroChecksum : Bool)
    (canonicalSymbol : String) (dedupeCapacity : Nat) (hdedupe : 1 ≤ dedupeCapacity) (ttl : Int)
    (httl : 0 < ttl) (pendingCapacity : Nat) (hpending : 1 ≤ pendingCapacity)
    (inputs : List OkxInput)
    (hinputs : Admitted (step digest) Admits
      (fresh specification isOkx validateNonzeroChecksum canonicalSymbol dedupeCapacity hdedupe ttl
        httl pendingCapacity hpending) inputs) :
    ∀ n, ((inputs.take n).foldl (step digest)
      (fresh specification isOkx validateNonzeroChecksum canonicalSymbol dedupeCapacity hdedupe ttl
        httl pendingCapacity hpending)).Agree := by
  intro n
  rw [← List.take_append_drop n inputs, admitted_append] at hinputs
  exact agree_of_invariant (invariant_of_admitted (invariant_step digest)
    (invariant_fresh specification isOkx validateNonzeroChecksum canonicalSymbol dedupeCapacity
      hdedupe ttl httl pendingCapacity hpending) hinputs.1)

/-! ## Two runs -/

section Examples

def exampleStart : OkxPipeline :=
  fresh exampleSpecification exampleSpecification_okx true "BTC-USDT-PERP" 8
    exampleDedupeCapacity_pos 1000 exampleTtl_pos 4 examplePendingCapacity_pos

def exampleSnapshot : OkxBookData :=
  { bids := [⟨"100", "2", "0", "1"⟩], asks := [⟨"101", "3", "0", "1"⟩], timestampMs := "1"
    checksum := 0, sequenceId := 10, previousSequenceId := -1 }

theorem exampleSnapshot_listed : exampleSnapshot.SnapshotListed :=
  ⟨[⟨100, 2, "100", "2"⟩], [⟨101, 3, "101", "3"⟩], by decide +kernel, by decide +kernel, by simp,
    by simp, by decide +kernel, List.pairwise_singleton _ _, List.pairwise_singleton _ _,
    by decide +kernel⟩

/-- An update without levels whose sequence id goes back. -/
def exampleReset : OkxBookData :=
  { bids := [], asks := [], timestampMs := "2", checksum := 0, sequenceId := 3
    previousSequenceId := 10 }

def resetRun : List OkxInput :=
  [.books .snapshot [exampleSnapshot] (.instant 1),
    .books .update [exampleReset] (.instant 2)]

/-- The maintenance reset: the local book goes on at sequence id 3, the feature book is synchronized at
sequence id 10. -/
theorem maintenance_reset_disagrees :
    Admitted (step noDigest) Genuine exampleStart resetRun ∧
      ¬ (resetRun.foldl (step noDigest) exampleStart).Agree := by
  refine ⟨⟨⟨by decide +kernel, Or.inl ⟨⟨⟨_, rfl, by decide +kernel⟩,
      ⟨exampleSnapshot_listed, by decide +kernel⟩, 1000, by decide +kernel⟩, trivial⟩⟩,
    ⟨⟨by decide +kernel, Or.inl ⟨⟨?_, Or.inr (Or.inr ⟨Or.inl (by decide), by decide, by decide⟩),
      2000, by decide +kernel⟩, trivial⟩⟩, trivial⟩⟩, ?_⟩
  · have haccepted : ((step noDigest exampleStart
        (.books .snapshot [exampleSnapshot] (.instant 1))).connector.book.ingest .update
          exampleReset).2 = .ok (result { (step noDigest exampleStart
            (.books .snapshot [exampleSnapshot] (.instant 1))).connector.book with
              sequenceId := some 3 } .updateApplied false) := by decide +kernel
    exact ⟨_, haccepted, rfl⟩
  · intro hagree
    have hlive : (resetRun.foldl (step noDigest) exampleStart).connector.book.status =
        .live := by decide +kernel
    have hbids : (resetRun.foldl (step noDigest) exampleStart).connector.book.bids ≠ ∅ := by
      decide +kernel
    have hasks : (resetRun.foldl (step noDigest) exampleStart).connector.book.asks ≠ ∅ := by
      decide +kernel
    have huncrossed : ∀ b ∈ (resetRun.foldl (step noDigest)
          exampleStart).connector.book.bids.keys,
        ∀ a ∈ (resetRun.foldl (step noDigest) exampleStart).connector.book.asks.keys,
          b < a := by decide +kernel
    have hsync : (resetRun.foldl (step noDigest) exampleStart).feature.synchronized =
        true := by decide +kernel
    have hparted : (resetRun.foldl (step noDigest) exampleStart).feature.sequenceId ≠
        (resetRun.foldl (step noDigest) exampleStart).connector.book.sequenceId := by
      decide +kernel
    exact hparted (hagree hlive hbids hasks huncrossed hsync).1

/-- An update with a level that continues the snapshot. -/
def exampleUpdate : OkxBookData :=
  { bids := [⟨"99", "1", "0", "1"⟩], asks := [], timestampMs := "2", checksum := 0
    sequenceId := 12, previousSequenceId := 10 }

def forwardRun : List OkxInput :=
  [.connected, .books .snapshot [exampleSnapshot] (.instant 1),
    .books .update [exampleUpdate] (.instant 2)]

theorem forwardRun_admitted :
    Admitted (step noDigest) Admits exampleStart forwardRun := by
  have hupdate : exampleUpdate.UpdateListed :=
    ⟨[⟨99, 1, "99", "1"⟩], [], by decide +kernel, by decide +kernel, Or.inl (by simp),
      by decide +kernel⟩
  have hsnapshotForward : ∀ book : OkxLocalOrderBook, book.sequenceId = none →
      book.Forward .snapshot exampleSnapshot := by
    intro book hnone n _ hn
    simp [hnone] at hn
  refine ⟨⟨trivial, trivial⟩,
    ⟨⟨by decide +kernel, Or.inl ⟨⟨⟨_, rfl, by decide +kernel⟩,
      ⟨exampleSnapshot_listed, by decide +kernel⟩, 1000, by decide +kernel⟩, trivial⟩⟩,
      ⟨fun _ => hsnapshotForward _ (by decide +kernel), trivial⟩⟩,
    ⟨⟨by decide +kernel, Or.inl ⟨⟨?_, Or.inl ⟨hupdate, by decide⟩, 2000, by decide +kernel⟩,
      trivial⟩⟩, ⟨fun _ => by simp [OkxLocalOrderBook.Forward, exampleUpdate], trivial⟩⟩, trivial⟩
  have haccepted : ((step noDigest (step noDigest exampleStart .connected)
      (.books .snapshot [exampleSnapshot] (.instant 1))).connector.book.ingest .update
        exampleUpdate).2 = .ok (result { (step noDigest (step noDigest exampleStart
          .connected) (.books .snapshot [exampleSnapshot] (.instant 1))).connector.book with
            sequenceId := some 12 } .updateApplied false) := by decide +kernel
  exact ⟨_, haccepted, rfl⟩

theorem live_copy_is_current_forward :
    (forwardRun.foldl (step noDigest) exampleStart).feature.synchronized = true ∧
      (forwardRun.foldl (step noDigest) exampleStart).feature.sequenceId = some 12 ∧
      ∀ n, ((forwardRun.take n).foldl (step noDigest) exampleStart).Agree :=
  ⟨by decide +kernel, by decide +kernel,
    live_copy_is_current noDigest exampleSpecification rfl true "BTC-USDT-PERP" 8
      (by decide) 1000 (by decide) 4 (by decide) forwardRun forwardRun_admitted⟩

end Examples

end OkxPipeline

end Cvf
