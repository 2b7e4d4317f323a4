/-
# Cvf.Binance.FeatureBook — the feature book fed with genuine Binance events.

What the feature book does with a normalized diff or snapshot of a venue, stated against the venue's
true book: a diff that continues the book moves it to its final id, a diff that does not is buffered,
and a snapshot is installed and the pending diffs replayed onto it.  These are the feature book's half
of the agreement with the local book.
-/
import Cvf.Binance.Exchange
import Cvf.Binance.Connector
import Cvf.Features.Book

namespace Cvf

open Cvf.Library

/-- The venue's book at an id has both sides and is not crossed. -/
def Venue.TwoSided (x : Venue) (n : Int) : Prop :=
  x.book .bid n ≠ ∅ ∧ x.book .ask n ≠ ∅ ∧
    BookSide.crossed (x.book .bid n) (x.book .ask n) = false

/-- A depth frame of the stream: at least one level, positive ids and prices. -/
structure GenuineFrame {x : Venue} (stream : DiffStream x) (d : BinanceDepthUpdatePayload) :
    Prop where
  inStream : ∃ i, d = stream.diff i
  nonempty : d.bids ≠ [] ∨ d.asks ≠ []
  positiveId : 0 < d.finalUpdateId
  positivePrices : ∀ side parsed, (d.levels side).mapM BinanceLocalOrderBook.parseLevel =
    .ok parsed → ∀ l ∈ parsed, 0 < l.1

/-- A REST snapshot of the venue, listed best price first. -/
structure GenuineRest (x : Venue) (s : BinanceDepthSnapshotPayload) : Prop where
  snapshot : GenuineSnapshot x s
  positivePrices : ∀ side parsed, (s.levels side).mapM BinanceLocalOrderBook.parseLevel =
    .ok parsed → ∀ l ∈ parsed, 0 < l.1
  bidsDescend : ∀ parsed, s.bids.mapM BinanceLocalOrderBook.parseLevel = .ok parsed →
    parsed.Pairwise fun l r => r.1 < l.1
  asksAscend : ∀ parsed, s.asks.mapM BinanceLocalOrderBook.parseLevel = .ok parsed →
    parsed.Pairwise fun l r => l.1 < r.1

theorem GenuineFrame.genuine {x : Venue} {stream : DiffStream x} {d : BinanceDepthUpdatePayload}
    (h : GenuineFrame stream d) : GenuineDiff x d := by
  obtain ⟨i, rfl⟩ := h.inStream
  exact stream.genuine i

/-! ## Normalized events -/

def OrderBookUpdate.levels (u : OrderBookUpdate) : Side → List OrderBookLevel
  | .bid => u.bids
  | .ask => u.asks

def OrderBookSnapshot.levels (s : OrderBookSnapshot) : Side → List OrderBookLevel
  | .bid => s.bids
  | .ask => s.asks

/-- The levels of an event are the decimals of the payload's texts. -/
def SameLevels (texts : List BookLevelText) (levels : List OrderBookLevel) : Prop :=
  ∃ parsed, texts.mapM BinanceLocalOrderBook.parseLevel = .ok parsed ∧
    levels = parsed.map fun l => ⟨l.1, l.2⟩

/-- `u` is the normalized event of the diff `d`, in some generation. -/
structure Normalizes (d : BinanceDepthUpdatePayload) (u : OrderBookUpdate) : Prop where
  sequence : u.sequenceId = some (.int d.finalUpdateId)
  previous : u.previousSequenceId = some (.int d.previousFinalUpdateId)
  levels : ∀ side, SameLevels (d.levels side) (u.levels side)

/-- `e` is the normalized event of the snapshot `s`. -/
structure NormalizesSnapshot (s : BinanceDepthSnapshotPayload) (e : OrderBookSnapshot) :
    Prop where
  sequence : e.sequenceId = some (.int s.lastUpdateId)
  generation : e.generation = 0
  levels : ∀ side, SameLevels (s.levels side) (e.levels side)

theorem levels_ok {texts : List BookLevelText} {parsed : List (Decimal × Decimal)}
    (h : texts.mapM BinanceLocalOrderBook.parseLevel = .ok parsed) :
    BinanceNormalizer.levels texts = .ok (parsed.map fun l => ⟨l.1, l.2⟩) := by
  simp only [BinanceNormalizer.levels, h]

theorem Venue.quantityAt_nonneg (x : Venue) (side : Side) (n : Int) (p : Decimal) :
    0 ≤ (x.book side n).quantityAt p := by
  unfold BookSide.quantityAt
  cases h : (x.book side n).lookup p with
  | none => simp
  | some q => simpa using (x.positive side n p q h).le

/-- A genuine frame normalizes to the event that carries it. -/
theorem GenuineFrame.normalizeUpdate_ok {x : Venue} {stream : DiffStream x}
    {d : BinanceDepthUpdatePayload} (h : GenuineFrame stream d) (symbol : String)
    (receipt : Receipt) :
    ∃ u, BinanceNormalizer.normalizeUpdate symbol d receipt = .ok u ∧ Normalizes d u := by
  obtain ⟨bids, hbids, hbfinal, -⟩ := h.genuine.lists .bid
  obtain ⟨asks, hasks, hafinal, -⟩ := h.genuine.lists .ask
  have hbprice := h.positivePrices .bid bids hbids
  have haprice := h.positivePrices .ask asks hasks
  simp only [BinanceDepthUpdatePayload.levels] at hbids hasks
  simp only [BinanceNormalizer.normalizeUpdate, levels_ok hbids, levels_ok hasks]
  rw [OrderBookUpdate.validate_ok]
  · refine ⟨_, rfl, ⟨rfl, rfl, fun side => ?_⟩⟩
    cases side with
    | bid => exact ⟨bids, hbids, rfl⟩
    | ask => exact ⟨asks, hasks, rfl⟩
  · intro l hl
    simp only [List.mem_append, List.mem_map] at hl
    rcases hl with ⟨l, hl, rfl⟩ | ⟨l, hl, rfl⟩
    · exact hbprice l hl
    · exact haprice l hl
  · intro l hl
    simp only [List.mem_append, List.mem_map] at hl
    rcases hl with ⟨l, hl, rfl⟩ | ⟨l, hl, rfl⟩
    · exact hbfinal l hl ▸ x.quantityAt_nonneg .bid _ _
    · exact hafinal l hl ▸ x.quantityAt_nonneg .ask _ _
  · refine h.nonempty.imp (fun hne hnil => ?_) fun hne hnil => ?_
    · rw [List.map_eq_nil_iff] at hnil
      rw [hnil] at hbids
      exact hne (List.eq_nil_of_length_eq_zero (length_of_mapM_eq_ok hbids).symm)
    · rw [List.map_eq_nil_iff] at hnil
      rw [hnil] at hasks
      exact hne (List.eq_nil_of_length_eq_zero (length_of_mapM_eq_ok hasks).symm)

/-- On a two-sided uncrossed book every bid is below every ask. -/
theorem Venue.TwoSided.bid_lt_ask {x : Venue} {n : Int} (h : x.TwoSided n) {b a qb qa : Decimal}
    (hb : (x.book .bid n).lookup b = some qb) (ha : (x.book .ask n).lookup a = some qa) :
    b < a := by
  have hcrossed := h.2.2
  have hbmem : b ∈ (x.book .bid n).keys :=
    Finmap.mem_keys.mpr (Finmap.mem_of_lookup_eq_some hb)
  have hamem : a ∈ (x.book .ask n).keys :=
    Finmap.mem_keys.mpr (Finmap.mem_of_lookup_eq_some ha)
  obtain ⟨mb, hmb⟩ := Finset.max_of_mem hbmem
  obtain ⟨ma, hma⟩ := Finset.min_of_mem hamem
  have hble := Finset.le_max_of_eq hbmem hmb
  have hale := Finset.min_le_of_eq hamem hma
  unfold BookSide.crossed BookSide.maxPrice BookSide.minPrice at hcrossed
  rw [hmb, hma] at hcrossed
  simp only [decide_eq_false_iff_not, not_le] at hcrossed
  exact hble.trans_lt (hcrossed.trans_le hale)

/-- A non-empty side is listed. -/
theorem ne_nil_of_lists {side : BookSide} {parsed : List (Decimal × Decimal)}
    (hlists : ∀ p q, (p, q) ∈ parsed ↔ side.lookup p = some q) (hside : side ≠ ∅) :
    parsed ≠ [] := by
  rintro rfl
  refine hside (Finmap.ext_lookup fun p => ?_)
  cases hp : side.lookup p with
  | none => simp
  | some q => simpa using (hlists p q).mpr hp

/-- A genuine two-sided REST snapshot normalizes to the event that carries it. -/
theorem GenuineRest.normalizeSnapshot_ok {x : Venue} {s : BinanceDepthSnapshotPayload}
    (h : GenuineRest x s) (hsides : x.TwoSided s.lastUpdateId) (symbol : String)
    (receipt : Receipt) :
    ∃ e, BinanceNormalizer.normalizeSnapshot symbol s receipt = .ok e ∧ NormalizesSnapshot s e := by
  obtain ⟨bids, hbids, hblist⟩ := h.snapshot.lists .bid
  obtain ⟨asks, hasks, halist⟩ := h.snapshot.lists .ask
  have hbprice := h.positivePrices .bid bids hbids
  have haprice := h.positivePrices .ask asks hasks
  have hbsort := h.bidsDescend bids hbids
  have hasort := h.asksAscend asks hasks
  simp only [BinanceDepthSnapshotPayload.levels] at hbids hasks
  simp only [BinanceNormalizer.normalizeSnapshot, levels_ok hbids, levels_ok hasks]
  rw [OrderBookSnapshot.validate_ok]
  · refine ⟨_, rfl, ⟨rfl, rfl, fun side => ?_⟩⟩
    cases side with
    | bid => exact ⟨bids, hbids, rfl⟩
    | ask => exact ⟨asks, hasks, rfl⟩
  · intro l hl
    simp only [List.mem_append, List.mem_map] at hl
    rcases hl with ⟨l, hl, rfl⟩ | ⟨l, hl, rfl⟩
    · exact hbprice l hl
    · exact haprice l hl
  · intro l hl
    simp only [List.mem_append, List.mem_map] at hl
    rcases hl with ⟨l, hl, rfl⟩ | ⟨l, hl, rfl⟩
    · exact (x.positive .bid _ _ _ ((hblist l.1 l.2).mp hl)).le
    · exact (x.positive .ask _ _ _ ((halist l.1 l.2).mp hl)).le
  · simpa using ne_nil_of_lists hblist hsides.1
  · simpa using ne_nil_of_lists halist hsides.2.1
  · exact List.pairwise_map.mpr hbsort
  · exact List.pairwise_map.mpr hasort
  · intro b hb a ha
    simp only [List.head?_map, Option.mem_def, Option.map_eq_some_iff] at hb ha
    obtain ⟨b, hb, rfl⟩ := hb
    obtain ⟨a, ha, rfl⟩ := ha
    exact hsides.bid_lt_ask ((hblist b.1 b.2).mp (List.mem_of_head? hb))
      ((halist a.1 a.2).mp (List.mem_of_head? ha))
  · simp [length_of_mapM_eq_ok hbids]
  · simp [length_of_mapM_eq_ok hasks]

/-! ## Chains of diffs -/

/-- Where a replay from id `n` gets to: diffs behind the current id are skipped, and each other one
must not start after it.  `none` is a gap. -/
def reach (n : Int) : List BinanceDepthUpdatePayload → Option Int
  | [] => some n
  | d :: rest =>
    if d.finalUpdateId ≤ n then reach n rest
    else if d.previousFinalUpdateId ≤ n then reach d.finalUpdateId rest
    else none

/-- Final ids increase along the list. -/
def Ascending (ds : List BinanceDepthUpdatePayload) : Prop :=
  ds.Pairwise fun d e => d.finalUpdateId < e.finalUpdateId

theorem reach_append (n : Int) (ds es : List BinanceDepthUpdatePayload) :
    reach n (ds ++ es) = (reach n ds).bind fun m => reach m es := by
  induction ds generalizing n with
  | nil => rfl
  | cons d ds ih =>
      simp only [List.cons_append, reach]
      split
      · exact ih n
      · split
        · exact ih d.finalUpdateId
        · rfl

/-- Diffs behind the start of the replay do not matter. -/
theorem reach_dropWhile (n : Int) (ds : List BinanceDepthUpdatePayload) :
    reach n (ds.dropWhile fun d => d.finalUpdateId < n) = reach n ds := by
  induction ds with
  | nil => rfl
  | cons d ds ih =>
      by_cases hd : d.finalUpdateId < n
      · rw [List.dropWhile_cons_of_pos (by simpa using hd), ih, reach, if_pos hd.le]
      · rw [List.dropWhile_cons_of_neg (by simpa using hd)]

/-- A replay that meets no gap ends at the last diff, unless it started beyond it. -/
theorem reach_eq_last {n m : Int} {ds : List BinanceDepthUpdatePayload}
    {last : BinanceDepthUpdatePayload} (hds : Ascending (ds ++ [last]))
    (hn : n ≤ last.finalUpdateId) (h : reach n (ds ++ [last]) = some m) :
    m = last.finalUpdateId := by
  induction ds generalizing n with
  | nil =>
      simp only [List.nil_append, reach] at h
      split at h
      · cases h
        omega
      · split at h
        · cases h
          rfl
        · cases h
  | cons d ds ih =>
      simp only [List.cons_append, reach] at h
      have hds' : Ascending (ds ++ [last]) := (List.pairwise_cons.mp hds).2
      split at h
      · exact ih hds' hn h
      · split at h
        · have hlast := (List.pairwise_cons.mp hds).1 last (by simp)
          exact ih hds' hlast.le h
        · cases h

/-! ## The feature book at an id of the venue -/

namespace FeatureOrderBookState

/-- The feature book is synchronized and holds the venue's book at id `n`. -/
structure At (x : Venue) (n : Int) (book : FeatureOrderBookState) : Prop where
  synchronized : book.synchronized = true
  sequence : book.sequenceId = some n
  bids : book.bids = x.book .bid n
  asks : book.asks = x.book .ask n

theorem applySide_normalized {x : Venue} {d : BinanceDepthUpdatePayload} (hd : GenuineDiff x d)
    (side : Side) {n : Int} (hn : n ≤ d.finalUpdateId) (hcover : d.previousFinalUpdateId ≤ n)
    {levels : List OrderBookLevel} (hlevels : SameLevels (d.levels side) levels) :
    applySide (x.book side n) levels = x.book side d.finalUpdateId := by
  obtain ⟨parsed, hparsed, rfl⟩ := hlevels
  have happlied := hd.applySide_eq side hn (Or.inl hcover)
  rw [BinanceLocalOrderBook.applySide_of_parsed hparsed, Prod.mk.injEq] at happlied
  rw [applySide, List.foldl_map]
  exact happlied.1

/-- A diff that covers the book's id moves both sides to its final id. -/
theorem applyLevels_normalized {x : Venue} {d : BinanceDepthUpdatePayload} (hd : GenuineDiff x d)
    (hsides : x.TwoSided d.finalUpdateId) {u : OrderBookUpdate} (hu : Normalizes d u)
    {book : FeatureOrderBookState} {n : Int} (hbids : book.bids = x.book .bid n)
    (hasks : book.asks = x.book .ask n) (hn : n ≤ d.finalUpdateId)
    (hcover : d.previousFinalUpdateId ≤ n) :
    book.applyLevels u.bids u.asks =
      ({ book with bids := x.book .bid d.finalUpdateId, asks := x.book .ask d.finalUpdateId },
        true) := by
  have hb : applySide (x.book .bid n) u.bids = _ :=
    applySide_normalized hd .bid hn hcover (hu.levels .bid)
  have ha : applySide (x.book .ask n) u.asks = _ :=
    applySide_normalized hd .ask hn hcover (hu.levels .ask)
  simp only [applyLevels, hbids, hasks, hb, ha]
  rw [if_neg (by simp [hsides.1, hsides.2.1]), hsides.2.2]
  rfl

theorem orDefault_of_pos {n : Int} (hn : 0 < n) (default : Option Int) :
    orDefault (some n) default = some n := by
  simp [orDefault, hn.ne']

/-! ### One update -/

/-- What a replay step does with a normalized diff. -/
theorem replayOne_normalized {x : Venue} {d : BinanceDepthUpdatePayload} (hd : GenuineDiff x d)
    (hpos : 0 < d.finalUpdateId) (hsides : x.TwoSided d.finalUpdateId) {u : OrderBookUpdate}
    (hu : Normalizes d u) {book : FeatureOrderBookState} {n : Int} (hbook : book.At x n) :
    (d.finalUpdateId ≤ n ∧ book.replayOne u = (book, true)) ∨
    (n < d.finalUpdateId ∧ d.previousFinalUpdateId ≤ n ∧
      ∃ book', book.replayOne u = (book', true) ∧ book'.At x d.finalUpdateId ∧
        book'.generation = book.generation ∧ book'.pending = book.pending) ∨
    (n < d.finalUpdateId ∧ n < d.previousFinalUpdateId) := by
  by_cases hstale : d.finalUpdateId ≤ n
  · refine Or.inl ⟨hstale, ?_⟩
    simp [replayOne, hu.sequence, hbook.sequence, sequenceNumber, hstale]
  by_cases hgap : d.previousFinalUpdateId ≤ n
  · refine Or.inr (Or.inl ⟨by omega, hgap, ?_⟩)
    have hnot : ¬ n < d.previousFinalUpdateId := by omega
    simp only [replayOne, hu.sequence, hu.previous, hbook.sequence, sequenceNumber,
      Option.any_some, decide_eq_true_eq, if_neg hstale, if_neg hnot,
      applyLevels_normalized hd hsides hu hbook.bids hbook.asks (by omega) hgap,
      orDefault_of_pos hpos]
    exact ⟨_, rfl, ⟨hbook.synchronized, rfl, rfl, rfl⟩, rfl, rfl⟩
  · exact Or.inr (Or.inr ⟨by omega, by omega⟩)

/-- A replay without a gap leaves the book where the chain gets to. -/
theorem replayPending_normalized {x : Venue} {ds : List BinanceDepthUpdatePayload}
    (hds : ∀ d ∈ ds, GenuineDiff x d ∧ 0 < d.finalUpdateId ∧ x.TwoSided d.finalUpdateId)
    {us : List OrderBookUpdate} (hus : List.Forall₂ Normalizes ds us)
    {book : FeatureOrderBookState} {n m : Int} (hbook : book.At x n)
    (hreach : reach n ds = some m) :
    (book.replayPending us).1.At x m ∧
      (book.replayPending us).1.generation = book.generation ∧
      (book.replayPending us).1.pending = book.pending := by
  induction hus generalizing book n with
  | nil =>
      simp only [reach, Option.some.injEq] at hreach
      subst hreach
      exact ⟨hbook, rfl, rfl⟩
  | cons hu hus ih =>
      rename_i d u ds us
      obtain ⟨hgenuine, hpos, hsides⟩ := hds d (by simp)
      have hds' := fun d' hd' => hds d' (List.mem_cons_of_mem d hd')
      rw [reach] at hreach
      rcases replayOne_normalized hgenuine hpos hsides hu hbook with
        ⟨hstale, hone⟩ | ⟨hnew, hcover, book', hone, hat, hgen, hpend⟩ | ⟨hnew, hgap⟩
      · rw [if_pos hstale] at hreach
        simpa only [replayPending, hone] using ih hds' hbook hreach
      · rw [if_neg (by omega), if_pos hcover] at hreach
        simpa only [replayPending, hone, hgen, hpend] using ih hds' hat hreach
      · rw [if_neg (by omega), if_neg (by omega)] at hreach
        cases hreach

/-! ### The operations -/

variable (digest : SourceDigest)

/-- What `apply_update` does on a synchronized book with a normalized diff of its generation. -/
theorem applyUpdate_at {x : Venue} {d : BinanceDepthUpdatePayload} (hd : GenuineDiff x d)
    (hpos : 0 < d.finalUpdateId) (hsides : x.TwoSided d.finalUpdateId) {u : OrderBookUpdate}
    (hu : Normalizes d u) {book : FeatureOrderBookState} (hgen : u.generation = book.generation)
    {n : Int} (hbook : book.At x n) :
    (d.finalUpdateId ≤ n ∧ (book.applyUpdate digest u).1 = book) ∨
    (n < d.finalUpdateId ∧ d.previousFinalUpdateId = n ∧
      (book.applyUpdate digest u).1.At x d.finalUpdateId ∧
      (book.applyUpdate digest u).1.generation = book.generation ∧
      (book.applyUpdate digest u).1.pending = book.pending) ∨
    (n < d.finalUpdateId ∧ d.previousFinalUpdateId ≠ n ∧
      (book.applyUpdate digest u).1.synchronized = false ∧
      (book.applyUpdate digest u).1.generation = book.generation ∧
      (book.applyUpdate digest u).1.pending = [u]) := by
  by_cases hstale : d.finalUpdateId ≤ n
  · refine Or.inl ⟨hstale, ?_⟩
    simp [applyUpdate, hgen, hbook.synchronized, hu.sequence, hbook.sequence, sequenceNumber,
      hstale]
  by_cases hnext : d.previousFinalUpdateId = n
  · refine Or.inr (Or.inl ⟨by omega, hnext, ?_⟩)
    have happlied := applyLevels_normalized hd hsides hu
      (show (book.recordLineage digest (.orderBookUpdate u)).bids = _ from hbook.bids) hbook.asks
      (by omega) hnext.le
    simp only [applyUpdate, hgen, lt_irrefl, if_false, hbook.synchronized, Bool.not_true,
      Bool.false_eq_true, hu.sequence, hu.previous, hbook.sequence, sequenceNumber, if_neg hstale,
      Option.any_some, hnext, ne_eq, not_true_eq_false, decide_false, applyNext, happlied,
      orDefault_of_pos hpos]
    exact ⟨⟨hbook.synchronized, rfl, rfl, rfl⟩, rfl, rfl⟩
  · refine Or.inr (Or.inr ⟨by omega, hnext, ?_⟩)
    have hroom : ¬ book.pendingCapacity ≤ 0 := not_le.mpr book.pendingCapacity_pos
    simp only [applyUpdate, hgen, lt_irrefl, if_false, hbook.synchronized, Bool.not_true,
      Bool.false_eq_true, hu.sequence, hu.previous, hbook.sequence, sequenceNumber, if_neg hstale,
      Option.any_some, ne_eq, hnext, not_false_eq_true, decide_true, if_true, buffer,
      desynchronize, List.length_nil, if_neg hroom]
    exact ⟨rfl, rfl, rfl⟩

/-- An update that finds the book waiting for a snapshot is kept behind the others. -/
theorem applyUpdate_waiting {book : FeatureOrderBookState} {u : OrderBookUpdate}
    (hgen : u.generation = book.generation) (hsync : book.synchronized = false)
    (hroom : book.pending.length < book.pendingCapacity) :
    (book.applyUpdate digest u).1.synchronized = false ∧
      (book.applyUpdate digest u).1.generation = book.generation ∧
      (book.applyUpdate digest u).1.pending = book.pending ++ [u] := by
  simp only [applyUpdate, hgen, lt_irrefl, if_false, hsync, Bool.not_false, if_true, buffer,
    if_neg (not_le.mpr hroom)]
  exact ⟨rfl, rfl, rfl⟩

theorem snapshotSide_normalized {x : Venue} {s : BinanceDepthSnapshotPayload}
    (hs : GenuineSnapshot x s) (side : Side) {levels : List OrderBookLevel}
    (hlevels : SameLevels (s.levels side) levels) :
    snapshotSide levels = x.book side s.lastUpdateId := by
  obtain ⟨parsed, hparsed, rfl⟩ := hlevels
  obtain ⟨parsed', hparsed', hlists⟩ := hs.lists side
  obtain rfl : parsed = parsed' := by
    rw [hparsed] at hparsed'
    exact Except.ok.inj hparsed'
  have hbuilt := hs.snapshotSide_eq side
  rw [BinanceLocalOrderBook.snapshotSide_of_parsed hparsed, Except.ok.injEq] at hbuilt
  rw [← hbuilt, snapshotSide, List.foldl_map]
  refine List.foldl_ext _ _ _ fun side' l hl => ?_
  rw [if_pos (x.positive side s.lastUpdateId l.1 l.2 ((hlists l.1 l.2).mp hl))]

/-- The book `apply_snapshot` installs is the venue's at the snapshot's id. -/
theorem installed_at {x : Venue} {s : BinanceDepthSnapshotPayload} (hs : GenuineSnapshot x s)
    (hsides : x.TwoSided s.lastUpdateId) {e : OrderBookSnapshot} (he : NormalizesSnapshot s e)
    (book : FeatureOrderBookState) : (book.installed digest e).At x s.lastUpdateId := by
  have hb : snapshotSide e.bids = _ := snapshotSide_normalized hs .bid (he.levels .bid)
  have ha : snapshotSide e.asks = _ := snapshotSide_normalized hs .ask (he.levels .ask)
  refine ⟨?_, ?_, hb, ha⟩
  · simp [installed, hb, ha, hsides.1, hsides.2.1]
  · simp [installed, he.sequence, sequenceNumber]

/-- Diffs in stream order are already in replay order. -/
theorem insertionSort_normalized {ds : List BinanceDepthUpdatePayload}
    (hpos : ∀ d ∈ ds, 0 < d.finalUpdateId) (hds : Ascending ds) {us : List OrderBookUpdate}
    (hus : List.Forall₂ Normalizes ds us) :
    us.insertionSort (fun u v => replayKey u ≤ replayKey v) = us := by
  have hkey : ∀ {d u}, Normalizes d u → 0 < d.finalUpdateId → replayKey u = d.finalUpdateId := by
    intro d u hu hd
    simp [replayKey, hu.sequence, sequenceNumber, orDefault_of_pos hd]
  refine List.Pairwise.insertionSort_eq ?_
  induction hus with
  | nil => exact List.Pairwise.nil
  | cons hu hus ih =>
      rename_i d u ds us
      have hsorted := List.pairwise_cons.mp hds
      refine List.pairwise_cons.mpr
        ⟨fun v hv => ?_, ih (fun d' hd' => hpos d' (List.mem_cons_of_mem d hd')) hsorted.2⟩
      obtain ⟨e, he, hev⟩ : ∃ e ∈ ds, Normalizes e v := by
        clear ih hsorted hds hpos
        induction hus with
        | nil => cases hv
        | cons hev _ ih =>
            rcases List.mem_cons.mp hv with rfl | hv
            · exact ⟨_, by simp, hev⟩
            · obtain ⟨e, he, hev⟩ := ih hv
              exact ⟨e, List.mem_cons_of_mem _ he, hev⟩
      rw [hkey hu (hpos d (by simp)), hkey hev (hpos e (by simp [he]))]
      exact (hsorted.1 e he).le

/-- A snapshot behind a synchronized book changes nothing. -/
theorem applySnapshot_stale {x : Venue} {s : BinanceDepthSnapshotPayload} {e : OrderBookSnapshot}
    (he : NormalizesSnapshot s e) {book : FeatureOrderBookState} (hgen : book.generation = 0)
    {n : Int} (hbook : book.At x n) (hstale : s.lastUpdateId ≤ n) :
    (book.applySnapshot digest e).1 = book := by
  simp [applySnapshot, isStale, he.generation, hgen, hbook.synchronized, he.sequence,
    sequenceNumber, hbook.sequence, hstale]

/-- Any other snapshot is installed and what was pending replayed onto it. -/
theorem applySnapshot_installs {x : Venue} {s : BinanceDepthSnapshotPayload}
    (hs : GenuineSnapshot x s) (hsides : x.TwoSided s.lastUpdateId) {e : OrderBookSnapshot}
    (he : NormalizesSnapshot s e) {book : FeatureOrderBookState} (hgen : book.generation = 0)
    (hfresh : book.isStale e = false) {ds : List BinanceDepthUpdatePayload}
    (hds : ∀ d ∈ ds, GenuineDiff x d ∧ 0 < d.finalUpdateId ∧ x.TwoSided d.finalUpdateId)
    (hascending : Ascending ds) (hpending : List.Forall₂ Normalizes ds book.pending) {m : Int}
    (hreach : reach s.lastUpdateId ds = some m) :
    (book.applySnapshot digest e).1.At x m ∧
      (book.applySnapshot digest e).1.generation = 0 ∧
      (book.applySnapshot digest e).1.pending = [] := by
  have hat := installed_at digest hs hsides he book
  have hcrossed :
      BookSide.crossed (book.installed digest e).bids (book.installed digest e).asks = false := by
    rw [hat.bids, hat.asks]
    exact hsides.2.2
  have hsame : e.generation = book.generation := he.generation.trans hgen.symm
  have hreplayed := replayPending_normalized hds hpending hat hreach
  have hgeneration : (book.installed digest e).generation = 0 := by
    simp [installed, reset, recordLineage, hsame, hgen]
  have hemptied : (book.installed digest e).pending = [] := by
    simp [installed, reset, recordLineage, hsame]
  rw [hgeneration, hemptied] at hreplayed
  simp only [applySnapshot, hsame, lt_irrefl, if_false, hfresh, Bool.false_eq_true, hcrossed,
    Bool.and_false, if_true,
    insertionSort_normalized (fun d hd => (hds d hd).2.1) hascending hpending]
  exact hreplayed

end FeatureOrderBookState

end Cvf
