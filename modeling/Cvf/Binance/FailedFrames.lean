/-
# Cvf.Binance.FailedFrames — what a frame that fails leaves of the local book.

A depth frame and a REST snapshot go through the local book first and through the normalizer after it,
and the normalizer refuses more: a price of zero, a negative quantity, an empty frame, a one-sided or
crossed snapshot, a time that is no date.  `handled` is both steps with the error of either.
`every_failure_leaves_book_iff` says of every run when no failure leaves a trace in the book: each
snapshot is one the normalizer accepts, and each frame is one it accepts or one that cannot reach the
book's contents (`Spared`).
-/
import Cvf.Binance.Pipeline
import Cvf.Binance.Invariant

namespace Cvf

open Cvf.Library

/-! ## Handling one payload -/

/-- The milliseconds that are a date of the years 1 to 9999; `datetime.fromtimestamp` raises on the
others. -/
def Datable (milliseconds : Int) : Prop :=
  -62135596800000 ≤ milliseconds ∧ milliseconds < 253402300800000

instance (milliseconds : Int) : Decidable (Datable milliseconds) :=
  inferInstanceAs (Decidable (_ ∧ _))

/-- The time a snapshot brings itself; without one it has the time of its receipt, a date already. -/
def BinanceDepthSnapshotPayload.ownMilliseconds (s : BinanceDepthSnapshotPayload) : Option Int :=
  (s.transactionTimeMs.filter (· ≠ 0)).or (s.eventTimeMs.filter (· ≠ 0))

/-- What handling a payload raises, or catches. -/
inductive HandlingError where
  | book (error : BookError)
  | timestamp
  | normalization (error : NormalizationError)
  deriving Repr

namespace BinanceLocalOrderBook

/-- `_handle_websocket_message` on a depth frame, from `ingest` to the event it hands on. -/
def handleUpdate (symbol : String) (book : BinanceLocalOrderBook)
    (update : BinanceDepthUpdatePayload) (receipt : Receipt) :
    BinanceLocalOrderBook × Except HandlingError OrderBookUpdate :=
  match book.ingest update with
  | (book, .error e) => (book, .error (.book e))
  | (book, .ok _) =>
    if Datable (millisecondsOr update.transactionTimeMs update.eventTimeMs) then
      match BinanceNormalizer.normalizeUpdate symbol update receipt with
      | .error e => (book, .error (.normalization e))
      | .ok event => (book, .ok { event with generation := book.generation })
    else (book, .error .timestamp)

/-- `_refresh_depth_snapshot` on a parsed response, from `install_snapshot` to the event. -/
def handleSnapshot (symbol : String) (book : BinanceLocalOrderBook)
    (snapshot : BinanceDepthSnapshotPayload) (receipt : Receipt) :
    BinanceLocalOrderBook × Except HandlingError OrderBookSnapshot :=
  match book.installSnapshot snapshot with
  | (book, .error e) => (book, .error (.book e))
  | (book, .ok _) =>
    if ∀ milliseconds ∈ snapshot.ownMilliseconds, Datable milliseconds then
      match BinanceNormalizer.normalizeSnapshot symbol snapshot receipt with
      | .error e => (book, .error (.normalization e))
      | .ok event => (book, .ok event)
    else (book, .error .timestamp)

/-- The book an input leaves behind. -/
def handle (symbol : String) (book : BinanceLocalOrderBook) :
    ConnectorInput → BinanceLocalOrderBook
  | .connected =>
    (book.beginResync "Binance WebSocket connection requires a fresh REST snapshot").1
  | .depthUpdate update receipt => (book.handleUpdate symbol update receipt).1
  | .depthSnapshot snapshot receipt => (book.handleSnapshot symbol snapshot receipt).1

/-- Handling the input ends in an error. -/
def Fails (symbol : String) (book : BinanceLocalOrderBook) : ConnectorInput → Prop
  | .connected => False
  | .depthUpdate update receipt => ∃ e, (book.handleUpdate symbol update receipt).2 = .error e
  | .depthSnapshot snapshot receipt => ∃ e, (book.handleSnapshot symbol snapshot receipt).2 = .error e

/-- The call on the book that an input is. -/
def callOf : ConnectorInput → Call
  | .connected => .beginResync "Binance WebSocket connection requires a fresh REST snapshot"
  | .depthUpdate update _ => .ingest update
  | .depthSnapshot snapshot _ => .installSnapshot snapshot

theorem handleUpdate_fst (symbol : String) (book : BinanceLocalOrderBook)
    (update : BinanceDepthUpdatePayload) (receipt : Receipt) :
    (book.handleUpdate symbol update receipt).1 = (book.ingest update).1 := by
  unfold handleUpdate
  obtain ⟨after, answer⟩ := book.ingest update
  cases answer with
  | error e => rfl
  | ok r =>
      dsimp only
      split_ifs with hdated
      · cases BinanceNormalizer.normalizeUpdate symbol update receipt <;> rfl
      · rfl

theorem handleSnapshot_fst (symbol : String) (book : BinanceLocalOrderBook)
    (snapshot : BinanceDepthSnapshotPayload) (receipt : Receipt) :
    (book.handleSnapshot symbol snapshot receipt).1 = (book.installSnapshot snapshot).1 := by
  unfold handleSnapshot
  obtain ⟨after, answer⟩ := book.installSnapshot snapshot
  cases answer with
  | error e => rfl
  | ok r =>
      dsimp only
      split_ifs with hdated
      · cases BinanceNormalizer.normalizeSnapshot symbol snapshot receipt <;> rfl
      · rfl

/-- The normalizer does not touch the book. -/
theorem handle_eq_call (symbol : String) (book : BinanceLocalOrderBook) (input : ConnectorInput) :
    book.handle symbol input = book.call (callOf input) := by
  cases input with
  | connected => rfl
  | depthUpdate update receipt => exact handleUpdate_fst symbol book update receipt
  | depthSnapshot snapshot receipt => exact handleSnapshot_fst symbol book snapshot receipt

/-! ## What the normalizer accepts -/

/-- The texts parse as levels of a positive price and no negative quantity. -/
def Acceptable (texts : List BookLevelText) (parsed : List (Decimal × Decimal)) : Prop :=
  texts.mapM parseLevel = .ok parsed ∧ ∀ l ∈ parsed, 0 < l.1 ∧ 0 ≤ l.2

structure AcceptsUpdate (u : BinanceDepthUpdatePayload) : Prop where
  dated : Datable (millisecondsOr u.transactionTimeMs u.eventTimeMs)
  bids : ∃ parsed, Acceptable u.bids parsed
  asks : ∃ parsed, Acceptable u.asks parsed
  nonempty : u.bids ≠ [] ∨ u.asks ≠ []

/-- Two-sided, best price first, uncrossed. -/
structure AcceptsSnapshot (s : BinanceDepthSnapshotPayload) : Prop where
  dated : ∀ milliseconds ∈ s.ownMilliseconds, Datable milliseconds
  levels : ∃ bids asks, Acceptable s.bids bids ∧ Acceptable s.asks asks ∧
    (bids.Pairwise fun l r => r.1 < l.1) ∧ (asks.Pairwise fun l r => l.1 < r.1) ∧
    ∃ b ∈ bids.head?, ∃ a ∈ asks.head?, b.1 < a.1

theorem AcceptsUpdate.readable {u : BinanceDepthUpdatePayload} (h : AcceptsUpdate u) :
    ReadableDiff u := by
  obtain ⟨bids, hbids, -⟩ := h.bids
  obtain ⟨asks, hasks, -⟩ := h.asks
  exact ⟨⟨bids, hbids⟩, asks, hasks⟩

theorem AcceptsSnapshot.readable {s : BinanceDepthSnapshotPayload} (h : AcceptsSnapshot s) :
    ReadableSnapshot s := by
  obtain ⟨bids, asks, hbids, hasks, -⟩ := h.levels
  exact ⟨⟨bids, hbids.1⟩, asks, hasks.1⟩

/-- The normalizer's levels are acceptable texts' decimals. -/
theorem acceptable_iff {texts : List BookLevelText} {parsed : List (Decimal × Decimal)}
    (hparsed : texts.mapM parseLevel = .ok parsed) :
    Acceptable texts parsed ↔
      ∀ l ∈ parsed.map fun l => (⟨l.1, l.2⟩ : OrderBookLevel), 0 < l.price ∧ 0 ≤ l.quantity := by
  rw [List.forall_mem_map]
  exact and_iff_right hparsed

theorem exists_acceptable_iff {texts : List BookLevelText} {parsed : List (Decimal × Decimal)}
    (hparsed : texts.mapM parseLevel = .ok parsed) :
    (∃ parsed, Acceptable texts parsed) ↔ Acceptable texts parsed := by
  refine ⟨?_, fun h => ⟨parsed, h⟩⟩
  rintro ⟨parsed', hparsed', hall⟩
  obtain rfl := Except.ok.inj (hparsed.symm.trans hparsed')
  exact ⟨hparsed, hall⟩

theorem parsed_ne_nil_iff {texts : List BookLevelText} {parsed : List (Decimal × Decimal)}
    (hparsed : texts.mapM parseLevel = .ok parsed) :
    (parsed.map fun l => (⟨l.1, l.2⟩ : OrderBookLevel)) ≠ [] ↔ texts ≠ [] := by
  rw [ne_eq, ne_eq, List.map_eq_nil_iff, ← List.length_eq_zero_iff, ← List.length_eq_zero_iff,
    length_of_mapM_eq_ok hparsed]

theorem normalizeUpdate_ok_iff (symbol : String) (u : BinanceDepthUpdatePayload) (receipt : Receipt) :
    (∃ event, BinanceNormalizer.normalizeUpdate symbol u receipt = .ok event) ↔
      (∃ parsed, Acceptable u.bids parsed) ∧ (∃ parsed, Acceptable u.asks parsed) ∧
        (u.bids ≠ [] ∨ u.asks ≠ []) := by
  unfold BinanceNormalizer.normalizeUpdate BinanceNormalizer.levels
  cases hbids : u.bids.mapM parseLevel with
  | error e =>
      refine iff_of_false (fun h => by cases h.choose_spec) ?_
      rintro ⟨⟨parsed, hparsed, -⟩, -⟩
      rw [hbids] at hparsed
      cases hparsed
  | ok bids =>
      cases hasks : u.asks.mapM parseLevel with
      | error e =>
          refine iff_of_false (fun h => by cases h.choose_spec) ?_
          rintro ⟨-, ⟨parsed, hparsed, -⟩, -⟩
          rw [hasks] at hparsed
          cases hparsed
      | ok asks =>
          rw [exists_acceptable_iff hbids, exists_acceptable_iff hasks, acceptable_iff hbids,
            acceptable_iff hasks, ← parsed_ne_nil_iff hbids, ← parsed_ne_nil_iff hasks]
          dsimp only
          constructor
          · rintro ⟨event, hevent⟩
            split at hevent
            · cases hevent
            · rename_i hvalid
              exact OrderBookUpdate.validate_eq_ok_iff.mp hvalid
          · intro h
            rw [OrderBookUpdate.validate_eq_ok_iff.mpr h]
            exact ⟨_, rfl⟩

theorem normalizeSnapshot_ok_iff (symbol : String) (s : BinanceDepthSnapshotPayload)
    (receipt : Receipt) :
    (∃ event, BinanceNormalizer.normalizeSnapshot symbol s receipt = .ok event) ↔
      ∃ bids asks, Acceptable s.bids bids ∧ Acceptable s.asks asks ∧
        (bids.Pairwise fun l r => r.1 < l.1) ∧ (asks.Pairwise fun l r => l.1 < r.1) ∧
        ∃ b ∈ bids.head?, ∃ a ∈ asks.head?, b.1 < a.1 := by
  unfold BinanceNormalizer.normalizeSnapshot BinanceNormalizer.levels
  cases hbids : s.bids.mapM parseLevel with
  | error e =>
      refine iff_of_false (fun h => by cases h.choose_spec) ?_
      rintro ⟨bids, asks, ⟨hparsed, -⟩, -⟩
      rw [hbids] at hparsed
      cases hparsed
  | ok bids =>
      cases hasks : s.asks.mapM parseLevel with
      | error e =>
          refine iff_of_false (fun h => by cases h.choose_spec) ?_
          rintro ⟨bids', asks, -, ⟨hparsed, -⟩, -⟩
          rw [hasks] at hparsed
          cases hparsed
      | ok asks =>
          have hbidDepth : ((bids.map fun l => (⟨l.1, l.2⟩ : OrderBookLevel)).length : Int) ≤
              max (s.bids.length : Int) s.asks.length := by
            rw [List.length_map, length_of_mapM_eq_ok hbids]
            exact le_max_left _ _
          have haskDepth : ((asks.map fun l => (⟨l.1, l.2⟩ : OrderBookLevel)).length : Int) ≤
              max (s.bids.length : Int) s.asks.length := by
            rw [List.length_map, length_of_mapM_eq_ok hasks]
            exact le_max_right _ _
          dsimp only
          constructor
          · rintro ⟨event, hevent⟩
            split at hevent
            · cases hevent
            · rename_i hvalid
              obtain ⟨hbidsOk, hasksOk, hdescending, hascending, b, hb, a, ha, hba⟩ :=
                (OrderBookSnapshot.validate_eq_ok_iff hbidDepth haskDepth).mp hvalid
              rw [List.head?_map, Option.mem_def, Option.map_eq_some_iff] at hb ha
              obtain ⟨b, hb, rfl⟩ := hb
              obtain ⟨a, ha, rfl⟩ := ha
              exact ⟨bids, asks, (acceptable_iff hbids).mpr hbidsOk, (acceptable_iff hasks).mpr hasksOk,
                by simpa [List.pairwise_map] using hdescending,
                by simpa [List.pairwise_map] using hascending, b, hb, a, ha, hba⟩
          · rintro ⟨bids', asks', hbidsOk, hasksOk, hdescending, hascending, b, hb, a, ha, hba⟩
            obtain rfl := Except.ok.inj (hbids.symm.trans hbidsOk.1)
            obtain rfl := Except.ok.inj (hasks.symm.trans hasksOk.1)
            have hbest : ∀ {parsed : List (Decimal × Decimal)} {l}, l ∈ parsed.head? →
                (⟨l.1, l.2⟩ : OrderBookLevel) ∈
                  (parsed.map fun l => (⟨l.1, l.2⟩ : OrderBookLevel)).head? := by
              intro parsed l hl
              rw [List.head?_map, Option.mem_def.mp hl]
              rfl
            rw [(OrderBookSnapshot.validate_eq_ok_iff hbidDepth haskDepth).mpr
              ⟨(acceptable_iff hbids).mp hbidsOk, (acceptable_iff hasks).mp hasksOk,
                by simpa [List.pairwise_map] using hdescending,
                by simpa [List.pairwise_map] using hascending, _, hbest hb, _, hbest ha, hba⟩]
            exact ⟨_, rfl⟩

/-- A frame fails in the book or in the normalizer. -/
theorem fails_depthUpdate_iff (symbol : String) (book : BinanceLocalOrderBook)
    (u : BinanceDepthUpdatePayload) (receipt : Receipt) :
    book.Fails symbol (.depthUpdate u receipt) ↔
      (∃ e, (book.ingest u).2 = .error e) ∨ ¬ AcceptsUpdate u := by
  have hnormalizes := normalizeUpdate_ok_iff symbol u receipt
  show (∃ e, (book.handleUpdate symbol u receipt).2 = .error e) ↔ _
  unfold handleUpdate
  obtain ⟨after, answer⟩ := book.ingest u
  cases answer with
  | error e => exact iff_of_true ⟨_, rfl⟩ (Or.inl ⟨e, rfl⟩)
  | ok r =>
      dsimp only
      split_ifs with hdated
      · cases hevent : BinanceNormalizer.normalizeUpdate symbol u receipt with
        | error e =>
            refine iff_of_true ⟨_, rfl⟩ (Or.inr fun haccepts => ?_)
            obtain ⟨event, hok⟩ := hnormalizes.mpr ⟨haccepts.bids, haccepts.asks, haccepts.nonempty⟩
            rw [hevent] at hok
            cases hok
        | ok event =>
            obtain ⟨hbids, hasks, hnonempty⟩ := hnormalizes.mp ⟨event, hevent⟩
            refine iff_of_false (fun h => by cases h.choose_spec) ?_
            rintro (⟨e, he⟩ | hrefused)
            · cases he
            · exact hrefused ⟨hdated, hbids, hasks, hnonempty⟩
      · exact iff_of_true ⟨_, rfl⟩ (Or.inr fun haccepts => hdated haccepts.dated)

theorem fails_depthSnapshot_iff (symbol : String) (book : BinanceLocalOrderBook)
    (s : BinanceDepthSnapshotPayload) (receipt : Receipt) :
    book.Fails symbol (.depthSnapshot s receipt) ↔
      (∃ e, (book.installSnapshot s).2 = .error e) ∨ ¬ AcceptsSnapshot s := by
  have hnormalizes := normalizeSnapshot_ok_iff symbol s receipt
  show (∃ e, (book.handleSnapshot symbol s receipt).2 = .error e) ↔ _
  unfold handleSnapshot
  obtain ⟨after, answer⟩ := book.installSnapshot s
  cases answer with
  | error e => exact iff_of_true ⟨_, rfl⟩ (Or.inl ⟨e, rfl⟩)
  | ok r =>
      dsimp only
      split_ifs with hdated
      · cases hevent : BinanceNormalizer.normalizeSnapshot symbol s receipt with
        | error e =>
            refine iff_of_true ⟨_, rfl⟩ (Or.inr fun haccepts => ?_)
            obtain ⟨event, hok⟩ := hnormalizes.mpr haccepts.levels
            rw [hevent] at hok
            cases hok
        | ok event =>
            refine iff_of_false (fun h => by cases h.choose_spec) ?_
            rintro (⟨e, he⟩ | hrefused)
            · cases he
            · exact hrefused ⟨hdated, hnormalizes.mp ⟨event, hevent⟩⟩
      · exact iff_of_true ⟨_, rfl⟩ (Or.inr fun haccepts => hdated haccepts.dated)

/-! ## Failures that leave no trace -/

/-- The levels in front of the first that does not parse. -/
def readBefore : List BookLevelText → List (Decimal × Decimal)
  | [] => []
  | level :: rest =>
    match parseLevel level with
    | .error _ => []
    | .ok parsed => parsed :: readBefore rest

/-- Putting the levels on the side changes nothing. -/
def PutsNothing (side : BookSide) (levels : List (Decimal × Decimal)) : Prop :=
  levels.foldl (fun side l => side.put l.1 l.2) side = side

theorem applySide_fst (side : BookSide) (levels : List BookLevelText) :
    (applySide side levels).1 = (readBefore levels).foldl (fun side l => side.put l.1 l.2) side := by
  induction levels generalizing side with
  | nil => rfl
  | cons level rest ih =>
      unfold applySide readBefore
      cases parseLevel level with
      | error e => rfl
      | ok parsed => exact ih _

/-- A level of the diff does not parse, and the levels in front of it change nothing. -/
def StopsShort (book : BinanceLocalOrderBook) (u : BinanceDepthUpdatePayload) : Prop :=
  ¬ ReadableDiff u ∧ PutsNothing book.bids (readBefore u.bids) ∧
    (Readable u.bids → PutsNothing book.asks (readBefore u.asks))

/-- The frame does not reach the book's contents: it is another symbol's, it is behind a live book or
behind the snapshot that an empty buffer waits with, or it would be applied at once and stops short. -/
def Spared (book : BinanceLocalOrderBook) (u : BinanceDepthUpdatePayload) : Prop :=
  u.venueSymbol.toUpper ≠ book.venueSymbol ∨
    (book.status = .live ∧ ∃ n ∈ book.sequenceId,
      u.finalUpdateId ≤ n ∨ (u.previousFinalUpdateId = n ∧ book.StopsShort u)) ∨
    (book.status ≠ .live ∧ book.buffer = [] ∧ ∃ s ∈ book.pendingSnapshot,
      u.finalUpdateId < s.lastUpdateId ∨ (bridges s.lastUpdateId u = true ∧ book.StopsShort u))

/-- The input fails nowhere, or where it fails it leaves no trace. -/
def Harmless (book : BinanceLocalOrderBook) : ConnectorInput → Prop
  | .connected => True
  | .depthUpdate u _ => AcceptsUpdate u ∨ book.Spared u
  | .depthSnapshot s _ => AcceptsSnapshot s

/-- What harmless inputs keep. -/
structure Clean (book : BinanceLocalOrderBook) : Prop where
  held : book.Held
  buffered : ∀ d ∈ book.buffer, ReadableDiff d
  pending : ∀ s ∈ book.pendingSnapshot, AcceptsSnapshot s

theorem stopsShort_iff {book : BinanceLocalOrderBook} {u : BinanceDepthUpdatePayload}
    (hunread : ¬ ReadableDiff u) : book.StopsShort u ↔ (book.applyUpdate u).1 = book := by
  have hbids := applySide_fst book.bids u.bids
  have hasks := applySide_fst book.asks u.asks
  have hbidsRead := applySide_eq_none_iff book.bids u.bids
  have hasksRead := applySide_eq_none_iff book.asks u.asks
  unfold StopsShort PutsNothing applyUpdate
  rw [← hbids, ← hasks]
  generalize applySide book.bids u.bids = applied at hbids hbidsRead ⊢
  obtain ⟨bids, eb⟩ := applied
  cases eb with
  | some e =>
      have hno : ¬ Readable u.bids := fun hread => by cases hbidsRead.mpr hread
      refine ⟨?_, fun h => ⟨hunread, congrArg BinanceLocalOrderBook.bids h, fun hread => absurd hread hno⟩⟩
      rintro ⟨-, hsame, -⟩
      dsimp only at hsame ⊢
      rw [hsame]
  | none =>
      have hyes : Readable u.bids := hbidsRead.mp rfl
      generalize applySide book.asks u.asks = applied at hasks hasksRead ⊢
      obtain ⟨asks, ea⟩ := applied
      cases ea with
      | none => exact absurd ⟨hyes, hasksRead.mp rfl⟩ hunread
      | some e =>
          refine ⟨?_, fun h => ⟨hunread, congrArg BinanceLocalOrderBook.bids h,
            fun _ => congrArg BinanceLocalOrderBook.asks h⟩⟩
          rintro ⟨-, hsame, hsameAsks⟩
          replace hsameAsks := hsameAsks hyes
          dsimp only at hsame hsameAsks ⊢
          rw [hsame, hsameAsks]

/-- A diff put on a buffer that is not empty stays on it, whatever is dropped in front. -/
theorem kept_append_ne {buffer : List BinanceDepthUpdatePayload} (hbuffer : buffer ≠ [])
    (u : BinanceDepthUpdatePayload) (lastUpdateId : Int) :
    kept (buffer ++ [u]) lastUpdateId ≠ buffer := by
  obtain ⟨x, xs, rfl⟩ := List.exists_cons_of_ne_nil hbuffer
  unfold kept
  intro hsame
  rw [List.cons_append, List.dropWhile_cons] at hsame
  split_ifs at hsame with hbehind
  · -- then the head of what is kept would have been dropped
    have hhead := List.head?_dropWhile_not (fun u => decide (u.finalUpdateId < lastUpdateId)) (xs ++ [u])
    rw [hsame] at hhead
    simp only [List.head?_cons] at hhead
    rw [hbehind] at hhead
    cases hhead
  · have hlength := congrArg List.length hsame
    simp at hlength

theorem kept_singleton (u : BinanceDepthUpdatePayload) (lastUpdateId : Int) :
    kept [u] lastUpdateId = if u.finalUpdateId < lastUpdateId then [] else [u] := by
  unfold kept
  rw [List.dropWhile_cons]
  simp

/-- A diff a book buffers, in terms of the activation it is followed by. -/
theorem ingest_fst_of_room {book : BinanceLocalOrderBook} {u : BinanceDepthUpdatePayload}
    (hsymbol : u.venueSymbol.toUpper = book.venueSymbol) (hstatus : book.status ≠ .live)
    (hroom : book.buffer.length < book.maxBufferEvents) :
    (book.ingest u).1 = (tryActivateSnapshot { book with buffer := book.buffer ++ [u] }).1 := by
  have hown : ¬ u.venueSymbol.toUpper ≠ book.venueSymbol := not_not.mpr hsymbol
  unfold ingest bufferUpdate
  rw [if_neg hown, if_pos hstatus, if_neg (not_le.mpr hroom)]
  generalize tryActivateSnapshot { book with buffer := book.buffer ++ [u] } = activated
  obtain ⟨after, answer⟩ := activated
  cases answer with
  | error e => rfl
  | ok r => cases r <;> rfl

/-- A diff that continues a live book, in terms of the update it is applied with. -/
theorem ingest_fst_of_next {book : BinanceLocalOrderBook} {u : BinanceDepthUpdatePayload}
    (hsymbol : u.venueSymbol.toUpper = book.venueSymbol) (hstatus : book.status = .live) {n : Int}
    (hsequence : book.sequenceId = some n) (hnew : n < u.finalUpdateId)
    (hnext : u.previousFinalUpdateId = n) : (book.ingest u).1 = (book.applyUpdate u).1 := by
  have hown : ¬ u.venueSymbol.toUpper ≠ book.venueSymbol := not_not.mpr hsymbol
  have hlive : ¬ book.status ≠ .live := not_not.mpr hstatus
  unfold ingest
  rw [if_neg hown, if_neg hlive, hsequence]
  dsimp only
  rw [if_neg (not_le.mpr hnew), if_neg (not_not.mpr hnext)]
  generalize book.applyUpdate u = applied
  obtain ⟨after, error⟩ := applied
  cases error <;> rfl

theorem ingest_fst_of_stale {book : BinanceLocalOrderBook} {u : BinanceDepthUpdatePayload}
    (hsymbol : u.venueSymbol.toUpper = book.venueSymbol) (hstatus : book.status = .live) {n : Int}
    (hsequence : book.sequenceId = some n) (hstale : u.finalUpdateId ≤ n) :
    (book.ingest u).1 = book := by
  have hown : ¬ u.venueSymbol.toUpper ≠ book.venueSymbol := not_not.mpr hsymbol
  have hlive : ¬ book.status ≠ .live := not_not.mpr hstatus
  unfold ingest
  rw [if_neg hown, if_neg hlive, hsequence]
  dsimp only
  rw [if_pos hstale]

/-- The sides do not depend on the buffer. -/
theorem applyUpdate_setBuffer (book : BinanceLocalOrderBook) (u : BinanceDepthUpdatePayload)
    (buffer : List BinanceDepthUpdatePayload) :
    { (applyUpdate { book with buffer } u).1 with buffer := book.buffer } =
      (book.applyUpdate u).1 := by
  unfold applyUpdate
  generalize applySide book.bids u.bids = applied
  obtain ⟨bids, eb⟩ := applied
  cases eb with
  | some e => rfl
  | none =>
      dsimp only
      generalize applySide book.asks u.asks = applied
      obtain ⟨asks, ea⟩ := applied
      cases ea <;> rfl

theorem ingest_fst_of_spared {book : BinanceLocalOrderBook} (h : book.Held)
    {u : BinanceDepthUpdatePayload} (hspared : book.Spared u) : (book.ingest u).1 = book := by
  by_cases hsymbol : u.venueSymbol.toUpper = book.venueSymbol
  swap
  · unfold ingest
    rw [if_pos hsymbol]
  rcases hspared with hother | ⟨hstatus, n, hsequence, hcases⟩ | ⟨hstatus, hbuffer, s, hpending, hcases⟩
  · exact absurd hsymbol hother
  · by_cases hstale : u.finalUpdateId ≤ n
    · exact ingest_fst_of_stale hsymbol hstatus hsequence hstale
    · obtain ⟨hnext, hshort⟩ := hcases.resolve_left hstale
      rw [ingest_fst_of_next hsymbol hstatus hsequence (not_le.mp hstale) hnext]
      exact (stopsShort_iff hshort.1).mp hshort
  · have hroom : book.buffer.length < book.maxBufferEvents := by
      rw [hbuffer]
      exact book.maxBufferEvents_pos
    rw [ingest_fst_of_room hsymbol hstatus hroom, hbuffer, List.nil_append]
    unfold tryActivateSnapshot
    rw [show book.pendingSnapshot = some s from hpending]
    dsimp only
    rw [show ([u].dropWhile fun u => decide (u.finalUpdateId < s.lastUpdateId)) =
      kept [u] s.lastUpdateId from rfl, kept_singleton]
    by_cases hbehind : u.finalUpdateId < s.lastUpdateId
    · rw [if_pos hbehind]
      show { book with buffer := [], pendingSnapshot := some s } = book
      rw [← hbuffer, ← show book.pendingSnapshot = some s from hpending]
    · obtain ⟨hbridges, hshort⟩ := hcases.resolve_left hbehind
      have hfirst : ([u].dropWhile fun u => !bridges s.lastUpdateId u) = [u] := by
        simp [hbridges]
      have hbase : ({ book with buffer := [u], pendingSnapshot := some s } : BinanceLocalOrderBook) =
          { book with buffer := [u] } := by
        rw [← show book.pendingSnapshot = some s from hpending]
      obtain ⟨bids, asks, sequenceId, -, -, -, ⟨-, -, hread⟩ | ⟨⟨e, he⟩, -, -⟩⟩ :=
        @applyUpdate_outcome { book with buffer := [u] } h.nonzero u
      · exact absurd hread hshort.1
      rw [if_neg hbehind, hfirst]
      dsimp only
      rw [hbase]
      unfold activateFrom
      rw [show applyUpdate { book with buffer := [u] } u =
        ((applyUpdate { book with buffer := [u] } u).1, some e) from Prod.ext rfl he]
      dsimp only
      rw [← hbuffer, applyUpdate_setBuffer]
      exact (stopsShort_iff hshort.1).mp hshort

/-- And only such frames leave no trace. -/
theorem spared_of_unchanged {book : BinanceLocalOrderBook} (h : book.Clean)
    {u : BinanceDepthUpdatePayload} (hsame : (book.ingest u).1 = book) : book.Spared u := by
  by_cases hsymbol : u.venueSymbol.toUpper = book.venueSymbol
  swap
  · exact Or.inl hsymbol
  have hown : ¬ u.venueSymbol.toUpper ≠ book.venueSymbol := not_not.mpr hsymbol
  have hgeneration : ∀ {after : BinanceLocalOrderBook}, book.generation < after.generation →
      after ≠ book := by
    rintro after hlt rfl
    exact lt_irrefl _ hlt
  by_cases hstatus : book.status = .live
  · obtain ⟨n, hsequence⟩ := Option.isSome_iff_exists.mp (h.held.sequenceId (Or.inr hstatus))
    refine Or.inr (Or.inl ⟨hstatus, n, hsequence, ?_⟩)
    by_contra hneither
    obtain ⟨hnew, hcases⟩ := not_or.mp hneither
    by_cases hnext : u.previousFinalUpdateId = n
    · rw [ingest_fst_of_next hsymbol hstatus hsequence (not_le.mp hnew) hnext] at hsame
      by_cases hread : ReadableDiff u
      · obtain ⟨bids, asks, sequenceId, happlied, -, -, ⟨-, rfl, -⟩ | ⟨-, -, hunread⟩⟩ :=
          applyUpdate_outcome h.held.nonzero u
        · have hmoved := congrArg BinanceLocalOrderBook.sequenceId (happlied.symm.trans hsame)
          rw [hsequence] at hmoved
          exact hnew (Option.some.inj hmoved).le
        · exact hunread hread
      · exact hcases ⟨hnext, (stopsShort_iff hread).mpr hsame⟩
    · refine hgeneration ?_ hsame
      have hlive : ¬ book.status ≠ .live := not_not.mpr hstatus
      unfold ingest
      rw [if_neg hown, if_neg hlive, hsequence]
      dsimp only
      rw [if_neg hnew, if_pos hnext]
      exact Nat.lt_succ_self _
  · refine Or.inr (Or.inr ⟨hstatus, ?_⟩)
    by_cases hroom : book.buffer.length < book.maxBufferEvents
    swap
    · refine absurd hsame (hgeneration ?_)
      unfold ingest bufferUpdate
      rw [if_neg hown, if_pos hstatus, if_pos (not_lt.mp hroom)]
      exact Nat.lt_succ_self _
    rw [ingest_fst_of_room hsymbol hstatus hroom] at hsame
    -- what is left on the buffer when the book goes on waiting, or asks for another snapshot
    have hwaiting : ∀ n, kept (book.buffer ++ [u]) n = book.buffer →
        book.buffer = [] ∧ u.finalUpdateId < n := by
      intro n hkept
      by_cases hbuffer : book.buffer = []
      · refine ⟨hbuffer, ?_⟩
        by_contra hahead
        rw [hbuffer, List.nil_append, kept_singleton, if_neg hahead] at hkept
        cases hkept
      · exact absurd hkept (kept_append_ne hbuffer u n)
    rcases Option.eq_none_or_eq_some book.pendingSnapshot with hnone | ⟨s, hpending⟩
    · have hbuffer := congrArg (fun b => b.buffer.length) hsame
      unfold tryActivateSnapshot at hbuffer
      rw [hnone] at hbuffer
      simp at hbuffer
    have houtcome := @tryActivateSnapshot_outcome { book with buffer := book.buffer ++ [u] } s hpending
      (h.held.sequenceId (Or.inl (by rw [hpending]; rfl))) h.held.nonzero
    rcases houtcome with ⟨-, -, hafter⟩ | ⟨-, hafter, -⟩ |
      ⟨-, first, rest, hsuffix, hbridges, ⟨r, -, hlive | hlost⟩ | ⟨-, hstopped⟩⟩
    · obtain ⟨hbuffer, hbehind⟩ := hwaiting s.lastUpdateId
        (congrArg BinanceLocalOrderBook.buffer (hafter.symm.trans hsame))
      exact ⟨hbuffer, s, hpending, Or.inl hbehind⟩
    · obtain ⟨hbuffer, hbehind⟩ := hwaiting s.lastUpdateId
        (congrArg BinanceLocalOrderBook.buffer (hafter.symm.trans hsame))
      exact ⟨hbuffer, s, hpending, Or.inl hbehind⟩
    · rw [hsame] at hlive
      exact absurd hlive.status hstatus
    · rw [hsame] at hlost
      exact absurd hlost.buffered.2.2 (lt_irrefl _)
    · have hlength := hsuffix.length_le
      rw [List.length_append, List.length_singleton, List.length_cons] at hlength
      by_cases hread : ReadableDiff first
      · obtain ⟨htail, d, hd, -⟩ := hstopped.behind hread
        have hshorter := htail.length_le
        rw [hsame, List.length_tail] at hshorter
        have hpositive := List.length_pos_of_mem hd
        omega
      · have hafter := hstopped.atFirst hread
        rw [hsame] at hafter
        have hrest : rest = book.buffer :=
          (congrArg BinanceLocalOrderBook.buffer hafter).symm
        have hall : first :: rest = book.buffer ++ [u] :=
          hsuffix.eq_of_length (by rw [hrest]; simp)
        have hbuffer : book.buffer = [] := by
          by_contra hne
          obtain ⟨x, xs, hxs⟩ := List.exists_cons_of_ne_nil hne
          rw [hxs, List.cons_append] at hall
          refine hread (h.buffered first ?_)
          rw [hxs, (List.cons.inj hall).1]
          exact List.mem_cons_self
        have hu : first = u := by
          rw [hbuffer] at hall
          exact (List.cons.inj hall).1
        rw [hu] at hbridges hread hafter
        refine ⟨hbuffer, s, hpending, Or.inr ⟨hbridges, (stopsShort_iff hread).mpr ?_⟩⟩
        rw [hrest] at hafter
        rw [← applyUpdate_setBuffer book u (book.buffer ++ [u])]
        exact hafter.symm

/-! ## Runs -/

/-- A call raises only on a faulty payload. -/
theorem faulty_of_error {book : BinanceLocalOrderBook} (h : book.Held) {c : Call} {e : BookError}
    (he : book.answer c = .error e) : c.Faulty book := by
  rcases (call_ends h c).outcome with
    ⟨-, hretried⟩ | ⟨-, ⟨t, -, source, hlength, hlost⟩ | hlive | hkept⟩
  · obtain ⟨reason, hresult⟩ := hretried.result_eq
    cases he.symm.trans hresult
  · obtain ⟨-, -, -, reason, hresult⟩ := hlost.spec hlength
    cases he.symm.trans hresult
  · cases he.symm.trans hlive.result_eq
  · exact hkept.faulty e he

theorem clean_new (venueSymbol : String) (maxBufferEvents : Nat) (h : 1 ≤ maxBufferEvents) :
    (new venueSymbol maxBufferEvents h).Clean where
  held := held_new venueSymbol maxBufferEvents h
  buffered := nofun
  pending := nofun

theorem clean_handle {symbol : String} {book : BinanceLocalOrderBook} {input : ConnectorInput}
    (h : book.Clean) (hinput : book.Harmless input) : (book.handle symbol input).Clean := by
  rw [handle_eq_call]
  cases input with
  | connected => exact ⟨held_call h.held _, nofun, nofun⟩
  | depthUpdate u receipt =>
      rcases hinput with haccepts | hspared
      · have hends := call_ends h.held (.ingest u)
        refine ⟨held_call h.held _, fun d hd => ?_, fun s hs => ?_⟩
        · rcases hends.buffered d hd with hd | hu
          · exact h.buffered d hd
          · injection hu with hu
            rw [← hu]
            exact haccepts.readable
        · rcases hends.pending s hs with hs | hno
          · exact h.pending s hs
          · cases hno
      · rw [show book.call (callOf (.depthUpdate u receipt)) = (book.ingest u).1 from rfl,
          ingest_fst_of_spared h.held hspared]
        exact h
  | depthSnapshot s receipt =>
      have hends := call_ends h.held (.installSnapshot s)
      refine ⟨held_call h.held _, fun d hd => ?_, fun s' hs' => ?_⟩
      · rcases hends.buffered d hd with hd | hno
        · exact h.buffered d hd
        · cases hno
      · rcases hends.pending s' hs' with hs' | hself
        · exact h.pending s' hs'
        · injection hself with hself
          rw [← hself]
          exact hinput

/-- If handling the input fails, the book is as it was before. -/
def LeavesIntact (symbol : String) (book : BinanceLocalOrderBook) (input : ConnectorInput) : Prop :=
  book.Fails symbol input → book.handle symbol input = book

theorem leavesIntact_iff {symbol : String} {book : BinanceLocalOrderBook} (h : book.Clean)
    (input : ConnectorInput) : LeavesIntact symbol book input ↔ book.Harmless input := by
  unfold LeavesIntact
  rw [handle_eq_call]
  cases input with
  | connected => exact iff_of_true nofun trivial
  | depthUpdate u receipt =>
      rw [fails_depthUpdate_iff]
      constructor
      · intro hintact
        by_cases haccepts : AcceptsUpdate u
        · exact Or.inl haccepts
        · exact Or.inr (spared_of_unchanged h (hintact (Or.inr haccepts)))
      · rintro hharmless hfails
        refine ingest_fst_of_spared h.held ?_
        rcases hharmless with haccepts | hspared
        · -- the book takes an accepted frame, unless it is another symbol's
          obtain ⟨e, he⟩ := hfails.resolve_right (not_not.mpr haccepts)
          rcases faulty_of_error h.held (c := .ingest u) he with hother | hunread | ⟨d, hd, hunread⟩
          · exact Or.inl hother
          · exact absurd haccepts.readable hunread
          · exact absurd (h.buffered d hd) hunread
        · exact hspared
  | depthSnapshot s receipt =>
      rw [fails_depthSnapshot_iff]
      constructor
      · intro hintact
        by_contra hrefused
        have hsame := hintact (Or.inr hrefused)
        have hends := (call_ends h.held (.installSnapshot s)).installed s rfl
        rw [show book.call (.installSnapshot s) = book from hsame] at hends
        rcases hends with hpending | hgeneration | ⟨hne, hnil⟩
        · exact hrefused (h.pending s hpending)
        · exact lt_irrefl _ hgeneration
        · exact hne hnil
      · rintro haccepts (⟨e, he⟩ | hrefused)
        · rcases faulty_of_error h.held (c := .installSnapshot s) he with hunread | ⟨d, hd, hunread⟩
          · exact absurd haccepts.readable hunread
          · exact absurd (h.buffered d hd) hunread
        · exact absurd haccepts hrefused

theorem admitted_leavesIntact_iff {symbol : String} {book : BinanceLocalOrderBook} (h : book.Clean)
    (inputs : List ConnectorInput) :
    Admitted (handle symbol) (LeavesIntact symbol) book inputs ↔
      Admitted (handle symbol) Harmless book inputs := by
  induction inputs generalizing book with
  | nil => exact Iff.rfl
  | cons input inputs ih =>
      unfold Admitted
      rw [leavesIntact_iff h]
      exact and_congr_right fun hharmless => ih (clean_handle h hharmless)

/-- Of every run from a fresh book: each input that fails leaves the book as it was, if and only if each
input is harmless in the state it is taken in. -/
theorem every_failure_leaves_book_iff (symbol venueSymbol : String) (maxBufferEvents : Nat)
    (hmax : 1 ≤ maxBufferEvents) (inputs : List ConnectorInput) :
    Admitted (handle symbol) (LeavesIntact symbol) (new venueSymbol maxBufferEvents hmax) inputs ↔
      Admitted (handle symbol) Harmless (new venueSymbol maxBufferEvents hmax) inputs :=
  admitted_leavesIntact_iff (clean_new venueSymbol maxBufferEvents hmax) inputs

theorem every_failure_leaves_book_iff_bridged :
    Admitted (handle "BTC-USDT") (LeavesIntact "BTC-USDT") (new "BTCUSDT" 2 (by decide))
      [.depthUpdate (oneBid 4 6 3) (Receipt.instant 0),
        .depthSnapshot (oneLevel 5) (Receipt.instant 0)] := by
  have hbids : [("2", "1.5")].mapM parseLevel = .ok [(2, 3 / 2)] := by decide +kernel
  have hbid : [("2", "1")].mapM parseLevel = .ok [(2, 1)] := by decide +kernel
  have hask : [("3", "1")].mapM parseLevel = .ok [(3, 1)] := by decide +kernel
  refine (every_failure_leaves_book_iff "BTC-USDT" "BTCUSDT" 2 (by decide) _).mpr
    ⟨Or.inl ⟨by decide, ⟨_, hbids, ?_⟩, ⟨[], rfl, nofun⟩, Or.inl (by decide)⟩,
      ⟨nofun, _, _, ⟨hbid, ?_⟩, ⟨hask, ?_⟩, List.pairwise_singleton _ _,
        List.pairwise_singleton _ _, _, rfl, _, rfl, ?_⟩, trivial⟩
  · norm_num
  · norm_num
  · norm_num
  · norm_num

/-- A snapshot whose ask does not parse is left half installed. -/
theorem unreadable_snapshot_stays :
    ¬ Admitted (handle "BTC-USDT") (LeavesIntact "BTC-USDT") (new "BTCUSDT" 2 (by decide))
      [.depthSnapshot { oneLevel 5 with asks := [("x", "1")] } (Receipt.instant 0)] := by
  have hask : ([("x", "1")].mapM parseLevel).toOption = none := by decide +kernel
  rintro ⟨hintact, -⟩
  have haccepts := (leavesIntact_iff (clean_new "BTCUSDT" 2 (by decide)) _).mp hintact
  obtain ⟨parsed, hparsed⟩ := haccepts.readable.2
  rw [show [("x", "1")].mapM parseLevel = .ok parsed from hparsed] at hask
  cases hask

end BinanceLocalOrderBook

end Cvf
