/-
# Cvf.Binance.Exchange — the exchange's own book, and that the local book reconstructs it.

`Venue` is the abstract side: a true book that evolves by numbered updates, each update touching a
set of prices.  `DiffStream` is the depth stream of that venue, chained by `pu = previous u`, and
`GenuineSnapshot` its REST endpoint.  The local book of `Cvf.Binance.Book` is then related to the
venue by `Tracks`, an invariant of every operation, whatever is lost, duplicated or reordered on the
way; its consequence `live_book_is_true_book` is the reconstruction theorem.

The invariant never speaks of the order in which payloads arrive.  What carries it is one fact about
a single diff (`GenuineDiff.applyUpdate_eq`): applied to the true book at any id it covers, a genuine
diff yields the true book at its final id.
-/
import Cvf.Library.Run
import Cvf.Library.Parsed
import Cvf.Binance.Book

namespace Cvf

open Cvf.Library

inductive Side where
  | bid
  | ask
  deriving DecidableEq, Repr

def BinanceDepthUpdatePayload.levels (u : BinanceDepthUpdatePayload) : Side → List BookLevelText
  | .bid => u.bids
  | .ask => u.asks

def BinanceDepthSnapshotPayload.levels (s : BinanceDepthSnapshotPayload) :
    Side → List BookLevelText
  | .bid => s.bids
  | .ask => s.asks

/-! ## The true book -/

/-- A matching engine seen from outside: the book after each numbered update, and the prices each
update touches.  An update changes only the prices it touches, and a resting quantity is positive. -/
structure Venue where
  book : Side → Int → BookSide
  touched : Side → Int → Set Decimal
  frame : ∀ side n p, p ∉ touched side n → (book side n).lookup p = (book side (n - 1)).lookup p
  positive : ∀ side n p q, (book side n).lookup p = some q → 0 < q

/-- The quantity resting at a price, zero when the price is not in the book. -/
def BookSide.quantityAt (side : BookSide) (p : Decimal) : Decimal := (side.lookup p).getD 0

namespace Venue

variable (x : Venue)

/-- A price untouched by the updates `m+1 … n` rests at the same quantity after `m` and after `n`. -/
theorem lookup_eq_of_untouched (side : Side) (p : Decimal) {m n : Int} (hmn : m ≤ n)
    (h : ∀ k, m < k → k ≤ n → p ∉ x.touched side k) :
    (x.book side n).lookup p = (x.book side m).lookup p := by
  induction n, hmn using Int.leInduction with
  | base => rfl
  | succ n hn ih =>
      rw [x.frame side (n + 1) p (h (n + 1) (by omega) (by omega)), Int.add_sub_cancel]
      exact ih fun k hk hkn => h k hk (by omega)

/-- What a listed level has to carry for the book to end up right. -/
theorem lookup_eq_of_quantityAt (side : Side) (n : Int) (p q : Decimal)
    (h : q = (x.book side n).quantityAt p) :
    (x.book side n).lookup p = if q = 0 then none else some q := by
  unfold BookSide.quantityAt at h
  cases hl : (x.book side n).lookup p with
  | none => simp [h, hl]
  | some v =>
      have hv := x.positive side n p v hl
      simp [h, hl, hv.ne']

end Venue

/-! ## Genuine payloads -/

/-- A diff lists, for every price touched in `U … u`, the final quantity at `u`. -/
def ListsFinalQuantities (x : Venue) (d : BinanceDepthUpdatePayload) : Prop :=
  ∀ side, ∃ parsed, (d.levels side).mapM BinanceLocalOrderBook.parseLevel = .ok parsed ∧
    (∀ l ∈ parsed, l.2 = (x.book side d.finalUpdateId).quantityAt l.1) ∧
    ∀ n p, d.firstUpdateId ≤ n → n ≤ d.finalUpdateId → p ∈ x.touched side n →
      p ∈ parsed.map Prod.fst

/-- The depth stream of a venue: diffs `(U, u, pu)` with increasing ids, chained by
`pu = previous u`, that between them carry every update of the book since the stream began. -/
structure DiffStream (x : Venue) where
  diff : Nat → BinanceDepthUpdatePayload
  ordered : ∀ i, (diff i).firstUpdateId ≤ (diff i).finalUpdateId
  advances : ∀ i, (diff i).previousFinalUpdateId < (diff i).firstUpdateId
  chained : ∀ i, (diff (i + 1)).previousFinalUpdateId = (diff i).finalUpdateId
  lists : ∀ i, ListsFinalQuantities x (diff i)
  carries : ∀ side n p, (diff 0).previousFinalUpdateId < n → p ∈ x.touched side n →
    ∃ i, (diff i).firstUpdateId ≤ n ∧ n ≤ (diff i).finalUpdateId

/-- What one diff of a stream satisfies on its own: no update between `pu` and `U` touches the
book. -/
structure GenuineDiff (x : Venue) (d : BinanceDepthUpdatePayload) : Prop where
  ordered : d.firstUpdateId ≤ d.finalUpdateId
  chained : ∀ side n, d.previousFinalUpdateId < n → n < d.firstUpdateId → x.touched side n = ∅
  lists : ListsFinalQuantities x d

/-- A REST snapshot of the venue: exactly the levels of the full book at `lastUpdateId`. -/
structure GenuineSnapshot (x : Venue) (s : BinanceDepthSnapshotPayload) : Prop where
  lists : ∀ side, ∃ parsed, (s.levels side).mapM BinanceLocalOrderBook.parseLevel = .ok parsed ∧
    ∀ p q, (p, q) ∈ parsed ↔ (x.book side s.lastUpdateId).lookup p = some q

namespace DiffStream

variable {x : Venue} (stream : DiffStream x)

theorem finalUpdateId_lt_succ (i : Nat) :
    (stream.diff i).finalUpdateId < (stream.diff (i + 1)).finalUpdateId := by
  have hadvances := stream.advances (i + 1)
  have hordered := stream.ordered (i + 1)
  rw [stream.chained i] at hadvances
  omega

theorem finalUpdateId_strictMono : StrictMono fun i => (stream.diff i).finalUpdateId :=
  strictMono_nat_of_lt_succ stream.finalUpdateId_lt_succ

theorem finalUpdateId_lt_firstUpdateId {i j : Nat} (h : i < j) :
    (stream.diff i).finalUpdateId < (stream.diff j).firstUpdateId := by
  obtain ⟨k, rfl⟩ : ∃ k, j = k + 1 := ⟨j - 1, by omega⟩
  have hle : (stream.diff i).finalUpdateId ≤ (stream.diff k).finalUpdateId :=
    stream.finalUpdateId_strictMono.monotone (by omega)
  have hadvances := stream.advances (k + 1)
  rw [stream.chained k] at hadvances
  omega

/-- An id between `pu` and `U` belongs to no diff: the earlier ones end at `pu` or before, the later
ones start at `U` or after. -/
theorem genuine (i : Nat) : GenuineDiff x (stream.diff i) where
  ordered := stream.ordered i
  lists := stream.lists i
  chained := by
    intro side n hpu hU
    rw [Set.eq_empty_iff_forall_notMem]
    intro p hp
    have hstart : (stream.diff 0).previousFinalUpdateId < n := by
      cases i with
      | zero => exact hpu
      | succ k =>
          have h0 := stream.advances 0
          have h1 := stream.ordered 0
          have hle : (stream.diff 0).finalUpdateId ≤ (stream.diff k).finalUpdateId :=
            stream.finalUpdateId_strictMono.monotone (Nat.zero_le k)
          rw [stream.chained k] at hpu
          omega
    obtain ⟨j, hUj, huj⟩ := stream.carries side n p hstart hp
    rcases Nat.lt_trichotomy j i with hji | rfl | hij
    · obtain ⟨k, rfl⟩ : ∃ k, i = k + 1 := ⟨i - 1, by omega⟩
      have hle : (stream.diff j).finalUpdateId ≤ (stream.diff k).finalUpdateId :=
        stream.finalUpdateId_strictMono.monotone (by omega)
      rw [stream.chained k] at hpu
      omega
    · omega
    · have hlt := stream.finalUpdateId_lt_firstUpdateId hij
      have hordered := stream.ordered i
      omega

end DiffStream

/-! ## Applying levels -/

namespace BinanceLocalOrderBook

theorem applySide_of_parsed {levels : List BookLevelText} {parsed : List (Decimal × Decimal)}
    (h : levels.mapM parseLevel = .ok parsed) (side : BookSide) :
    applySide side levels = (parsed.foldl (fun s l => s.put l.1 l.2) side, none) := by
  induction levels generalizing parsed side with
  | nil =>
      rw [mapM_nil_eq_ok.mp h]
      rfl
  | cons level rest ih =>
      obtain ⟨l, ls, hl, hr, rfl⟩ := mapM_cons_eq_ok.mp h
      simp only [applySide, hl, List.foldl_cons]
      exact ih hr _

theorem snapshotSide_of_parsed {levels : List BookLevelText} {parsed : List (Decimal × Decimal)}
    (h : levels.mapM parseLevel = .ok parsed) :
    snapshotSide levels =
      .ok (parsed.foldl (fun s l => if 0 < l.2 then s.insert l.1 l.2 else s) ∅) :=
  foldlM_of_mapM_eq_ok (fun s x l hl => by simp only [hl]; rfl) h ∅

end BinanceLocalOrderBook

/-- Putting levels that carry the target's quantities onto a side that agrees with the target
everywhere else yields the target. -/
theorem foldl_put_eq {target : BookSide} {levels : List (Decimal × Decimal)}
    (hlisted : ∀ l ∈ levels, target.lookup l.1 = if l.2 = 0 then none else some l.2)
    {side : BookSide} (hrest : ∀ p, p ∉ levels.map Prod.fst → side.lookup p = target.lookup p) :
    levels.foldl (fun s l => s.put l.1 l.2) side = target := by
  induction levels generalizing side with
  | nil => exact Finmap.ext_lookup fun p => hrest p (by simp)
  | cons l levels ih =>
      rw [List.foldl_cons]
      refine ih (fun l' hl' => hlisted l' (by simp [hl'])) fun p hp => ?_
      rw [BookSide.lookup_put]
      by_cases hpl : p = l.1
      · rw [if_pos hpl, hpl, hlisted l (by simp)]
      · rw [if_neg hpl]
        exact hrest p (by simpa [hpl] using hp)

/-- Inserting exactly the levels of a side with positive quantities rebuilds the side. -/
theorem foldl_insert_eq {target : BookSide} {levels : List (Decimal × Decimal)}
    (hpos : ∀ l ∈ levels, 0 < l.2) (hlisted : ∀ l ∈ levels, target.lookup l.1 = some l.2)
    {side : BookSide} (hrest : ∀ p, p ∉ levels.map Prod.fst → side.lookup p = target.lookup p) :
    levels.foldl (fun s l => if 0 < l.2 then s.insert l.1 l.2 else s) side = target := by
  induction levels generalizing side with
  | nil => exact Finmap.ext_lookup fun p => hrest p (by simp)
  | cons l levels ih =>
      rw [List.foldl_cons, if_pos (hpos l (by simp))]
      refine ih (fun l' hl' => hpos l' (by simp [hl'])) (fun l' hl' => hlisted l' (by simp [hl']))
        fun p hp => ?_
      by_cases hpl : p = l.1
      · rw [hpl, Finmap.lookup_insert, hlisted l (by simp)]
      · rw [Finmap.lookup_insert_of_ne _ hpl]
        exact hrest p (by simpa [hpl] using hp)

/-- The snapshot side the local book builds is the true side. -/
theorem GenuineSnapshot.snapshotSide_eq {x : Venue} {s : BinanceDepthSnapshotPayload}
    (h : GenuineSnapshot x s) (side : Side) :
    BinanceLocalOrderBook.snapshotSide (s.levels side) = .ok (x.book side s.lastUpdateId) := by
  obtain ⟨parsed, hparsed, hlists⟩ := h.lists side
  rw [BinanceLocalOrderBook.snapshotSide_of_parsed hparsed]
  congr 1
  refine foldl_insert_eq (fun l hl => ?_) (fun l hl => (hlists l.1 l.2).mp hl) fun p hp => ?_
  · exact x.positive side s.lastUpdateId l.1 l.2 ((hlists l.1 l.2).mp hl)
  · cases hq : (x.book side s.lastUpdateId).lookup p with
    | none => simp
    | some q =>
        refine absurd (List.mem_map.mpr ⟨(p, q), (hlists p q).mpr hq, rfl⟩) hp

/-- Applied to the true side at any id the diff covers, a genuine diff yields the true side at its
final id. -/
theorem GenuineDiff.applySide_eq {x : Venue} {d : BinanceDepthUpdatePayload}
    (h : GenuineDiff x d) (side : Side) {n : Int} (hn : n ≤ d.finalUpdateId)
    (hcover : d.previousFinalUpdateId ≤ n ∨ d.firstUpdateId ≤ n) :
    BinanceLocalOrderBook.applySide (x.book side n) (d.levels side) =
      (x.book side d.finalUpdateId, none) := by
  obtain ⟨parsed, hparsed, hfinal, htouched⟩ := h.lists side
  rw [BinanceLocalOrderBook.applySide_of_parsed hparsed]
  congr 1
  refine foldl_put_eq (fun l hl => ?_) fun p hp => ?_
  · exact x.lookup_eq_of_quantityAt side _ _ _ (hfinal l hl)
  · refine (x.lookup_eq_of_untouched side p hn fun k hk hku => ?_).symm
    -- an untouched id lies in the gap before `U`; any other touched price is listed
    by_cases hkU : d.firstUpdateId ≤ k
    · exact fun hmem => hp (htouched k p hkU hku hmem)
    · rw [h.chained side k (by omega) (by omega)]
      exact Set.notMem_empty p

/-! ## The invariant -/

namespace BinanceLocalOrderBook

/-- The book moved to the venue's book at id `n`. -/
def atUpdate (x : Venue) (n : Int) (book : BinanceLocalOrderBook) : BinanceLocalOrderBook :=
  { book with
    bids := x.book .bid n
    asks := x.book .ask n
    sequenceId := some n }

/-- The book holds the venue's book at id `n`. -/
def HoldsAt (x : Venue) (n : Int) (book : BinanceLocalOrderBook) : Prop :=
  book.sequenceId = some n ∧ book.bids = x.book .bid n ∧ book.asks = x.book .ask n

/-- What every operation preserves: buffered diffs are genuine, a pending snapshot is the book's
content, and a live book holds the venue's book at its sequence id. -/
structure Tracks (x : Venue) (book : BinanceLocalOrderBook) : Prop where
  buffered : ∀ d ∈ book.buffer, GenuineDiff x d
  pending : ∀ s, book.pendingSnapshot = some s → book.HoldsAt x s.lastUpdateId
  live : book.status = .live → book.pendingSnapshot = none ∧ ∃ n, book.HoldsAt x n

theorem holdsAt_atUpdate (x : Venue) (n : Int) (book : BinanceLocalOrderBook) :
    (book.atUpdate x n).HoldsAt x n :=
  ⟨rfl, rfl, rfl⟩

theorem applyUpdate_eq {x : Venue} {d : BinanceDepthUpdatePayload} (hd : GenuineDiff x d)
    {book : BinanceLocalOrderBook} {n : Int} (hbook : book.HoldsAt x n)
    (hn : n ≤ d.finalUpdateId)
    (hcover : d.previousFinalUpdateId ≤ n ∨ d.firstUpdateId ≤ n) :
    book.applyUpdate d = (book.atUpdate x d.finalUpdateId, none) := by
  obtain ⟨-, hbids, hasks⟩ := hbook
  have hb := hd.applySide_eq .bid hn hcover
  have ha := hd.applySide_eq .ask hn hcover
  simp only [BinanceDepthUpdatePayload.levels] at hb ha
  simp only [applyUpdate, hbids, hasks, hb, ha, atUpdate]

theorem tracks_invalidate (x : Venue) (book : BinanceLocalOrderBook)
    {buffer : List BinanceDepthUpdatePayload} (hbuffer : ∀ d ∈ buffer, GenuineDiff x d) :
    (book.invalidate buffer).Tracks x where
  buffered := hbuffer
  pending := by simp [invalidate]
  live := by simp [invalidate]

/-- Replaying the rest of the buffer onto a book that holds the venue's book keeps tracking it. -/
theorem tracks_replayBuffered {x : Venue} {rest : List BinanceDepthUpdatePayload}
    (hrest : ∀ d ∈ rest, GenuineDiff x d) {book : BinanceLocalOrderBook} {n : Int}
    (hbook : book.HoldsAt x n) : (book.replayBuffered rest).1.Tracks x := by
  induction rest generalizing book n with
  | nil =>
      refine ⟨by simp [replayBuffered], by simp [replayBuffered], fun _ => ⟨rfl, n, ?_⟩⟩
      exact hbook
  | cons d rest ih =>
      have hd := hrest d (by simp)
      have hrest' : ∀ d' ∈ rest, GenuineDiff x d' := fun d' hd' => hrest d' (by simp [hd'])
      simp only [replayBuffered, hbook.1]
      split
      · exact ih hrest' hbook
      · split
        · exact tracks_invalidate x book hrest
        · rename_i hstale hchain
          have hpu : d.previousFinalUpdateId = n := by simpa using hchain
          rw [applyUpdate_eq hd hbook (by omega) (Or.inl hpu.le)]
          exact ih hrest' (holdsAt_atUpdate x _ book)

/-- The replay starts from a bridging diff, which covers the snapshot's id. -/
theorem tracks_tryActivateSnapshot {x : Venue} {book : BinanceLocalOrderBook}
    (hbook : book.Tracks x) (hstatus : book.status ≠ .live) :
    book.tryActivateSnapshot.1.Tracks x := by
  unfold tryActivateSnapshot
  split
  · exact hbook
  · rename_i s hp
    have hheld := hbook.pending s hp
    set kept : BinanceLocalOrderBook :=
      { book with
        buffer := book.buffer.dropWhile fun u => u.finalUpdateId < s.lastUpdateId } with hkept
    have hgenuine : ∀ d ∈ kept.buffer, GenuineDiff x d := fun d hd =>
      hbook.buffered d ((List.dropWhile_sublist _).subset hd)
    have htracks : kept.Tracks x := ⟨hgenuine, hbook.pending, fun h => absurd h hstatus⟩
    have hkeptHeld : kept.HoldsAt x s.lastUpdateId := hheld
    simp only []
    split
    · simp only [unbridged]
      split
      · exact htracks
      · split
        · exact ⟨hgenuine, hbook.pending, by simp⟩
        · exact htracks
    · rename_i first rest hb
      have hsub : ∀ d ∈ first :: rest, GenuineDiff x d := fun d hd =>
        hgenuine d ((List.dropWhile_sublist _).subset (hb ▸ hd))
      have hbridge : bridges s.lastUpdateId first = true := by
        have := List.head?_dropWhile_not (fun u => !bridges s.lastUpdateId u) kept.buffer
        simpa [hb] using this
      simp only [bridges, Bool.and_eq_true, decide_eq_true_eq] at hbridge
      rw [activateFrom, applyUpdate_eq (hsub first (by simp)) hkeptHeld hbridge.2
        (Or.inr hbridge.1)]
      exact tracks_replayBuffered (fun d hd => hsub d (by simp [hd])) (holdsAt_atUpdate x _ kept)

theorem tracks_bufferUpdate {x : Venue} {book : BinanceLocalOrderBook} (hbook : book.Tracks x)
    (hstatus : book.status ≠ .live) {d : BinanceDepthUpdatePayload} (hd : GenuineDiff x d) :
    (book.bufferUpdate d).1.Tracks x := by
  unfold bufferUpdate
  split
  · exact tracks_invalidate x book (by simpa using hd)
  · have happended : ({ book with buffer := book.buffer ++ [d] } : BinanceLocalOrderBook).Tracks x :=
      { buffered := by
          intro d' hd'
          rcases List.mem_append.mp hd' with h | h
          · exact hbook.buffered d' h
          · rw [List.mem_singleton.mp h]
            exact hd
        pending := hbook.pending
        live := fun h => absurd h hstatus }
    have hactivated := tracks_tryActivateSnapshot happended hstatus
    split <;> simp_all

theorem tracks_ingest {x : Venue} {book : BinanceLocalOrderBook} (hbook : book.Tracks x)
    {d : BinanceDepthUpdatePayload} (hd : GenuineDiff x d) : (book.ingest d).1.Tracks x := by
  unfold ingest
  split
  · exact hbook
  · split
    · rename_i hstatus
      exact tracks_bufferUpdate hbook hstatus hd
    · rename_i hstatus
      obtain ⟨hnone, n, hheld⟩ := hbook.live (by simpa using hstatus)
      rw [hheld.1]
      simp only
      split
      · exact hbook
      · split
        · exact tracks_invalidate x book (by simpa using hd)
        · rename_i hstale hchain
          have hpu : d.previousFinalUpdateId = n := by simpa using hchain
          rw [applyUpdate_eq hd hheld (by omega) (Or.inl hpu.le)]
          refine ⟨hbook.buffered, ?_, fun _ => ⟨hnone, _, holdsAt_atUpdate x _ book⟩⟩
          intro s hs
          simp [atUpdate, hnone] at hs

theorem tracks_installSnapshot {x : Venue} {book : BinanceLocalOrderBook} (hbook : book.Tracks x)
    {s : BinanceDepthSnapshotPayload} (hs : GenuineSnapshot x s) :
    (book.installSnapshot s).1.Tracks x := by
  have hb := hs.snapshotSide_eq .bid
  have ha := hs.snapshotSide_eq .ask
  simp only [BinanceDepthSnapshotPayload.levels] at hb ha
  simp only [installSnapshot, hb, ha]
  set installed : BinanceLocalOrderBook :=
    { book with
      pendingSnapshot := some s
      sequenceId := some s.lastUpdateId
      bids := x.book .bid s.lastUpdateId
      asks := x.book .ask s.lastUpdateId
      status := .buffering } with hinstalled
  have htracks : installed.Tracks x :=
    { buffered := hbook.buffered
      pending := by
        intro s' hs'
        obtain rfl : s = s' := by simpa [hinstalled] using hs'
        exact ⟨rfl, rfl, rfl⟩
      live := by simp [hinstalled] }
  have hactivated := tracks_tryActivateSnapshot htracks (by simp [hinstalled])
  split <;> simp_all

/-! ## Runs -/

/-- A call on the local book. -/
inductive Call where
  | beginResync (reason : String)
  | ingest (update : BinanceDepthUpdatePayload)
  | installSnapshot (snapshot : BinanceDepthSnapshotPayload)
  deriving DecidableEq, Repr

/-- The book a call leaves behind, whether it returns or raises. -/
def call (book : BinanceLocalOrderBook) : Call → BinanceLocalOrderBook
  | .beginResync reason => (book.beginResync reason).1
  | .ingest update => (book.ingest update).1
  | .installSnapshot snapshot => (book.installSnapshot snapshot).1

/-- The payload of a call comes from the venue: some diff of its stream, or a snapshot. -/
def Call.Genuine {x : Venue} (stream : DiffStream x) : Call → Prop
  | .beginResync _ => True
  | .ingest update => ∃ i, update = stream.diff i
  | .installSnapshot snapshot => GenuineSnapshot x snapshot

/-- A freshly constructed book. -/
def new (venueSymbol : String) (maxBufferEvents : Nat) (h : 1 ≤ maxBufferEvents) :
    BinanceLocalOrderBook :=
  { venueSymbol := venueSymbol.toUpper, maxBufferEvents, maxBufferEvents_pos := h }

theorem tracks_new (x : Venue) (venueSymbol : String) (maxBufferEvents : Nat)
    (h : 1 ≤ maxBufferEvents) : (new venueSymbol maxBufferEvents h).Tracks x where
  buffered := by simp [new]
  pending := by simp [new]
  live := by simp [new]

theorem tracks_call {x : Venue} {stream : DiffStream x} (book : BinanceLocalOrderBook) (c : Call)
    (hbook : book.Tracks x) (hc : c.Genuine stream) : (book.call c).Tracks x := by
  cases c with
  | beginResync reason => exact tracks_invalidate x book (by simp)
  | ingest update =>
      obtain ⟨i, rfl⟩ := hc
      exact tracks_ingest hbook (stream.genuine i)
  | installSnapshot snapshot => exact tracks_installSnapshot hbook hc

/-- **Reconstruction.**  Whatever diffs of the stream and snapshots reach a fresh book, in whatever
order and however often, a live book is the venue's book at its sequence id. -/
theorem live_book_is_true_book (x : Venue) (stream : DiffStream x) (venueSymbol : String)
    (maxBufferEvents : Nat) (hmax : 1 ≤ maxBufferEvents) (calls : List Call)
    (hcalls : ∀ c ∈ calls, c.Genuine stream)
    (hlive : (calls.foldl call (new venueSymbol maxBufferEvents hmax)).status = .live) :
    ∃ n, (calls.foldl call (new venueSymbol maxBufferEvents hmax)).sequenceId = some n ∧
      (calls.foldl call (new venueSymbol maxBufferEvents hmax)).bids = x.book .bid n ∧
      (calls.foldl call (new venueSymbol maxBufferEvents hmax)).asks = x.book .ask n := by
  have hadmitted : Admitted call (fun _ c => c.Genuine stream)
      (new venueSymbol maxBufferEvents hmax) calls := admitted_of_forall hcalls
  have htracks : Tracks x (calls.foldl call (new venueSymbol maxBufferEvents hmax)) :=
    invariant_of_admitted tracks_call (tracks_new x venueSymbol maxBufferEvents hmax) hadmitted
  exact (htracks.live hlive).2

/-- A venue whose best bid changes size at every update and whose ask rests untouched. -/
def pulsingVenue : Venue where
  book
    | .bid, n => (∅ : BookSide).insert 1 (if n % 2 = 0 then 2 else 1)
    | .ask, _ => (∅ : BookSide).insert 3 1
  touched
    | .bid, _ => {1}
    | .ask, _ => ∅
  frame := by
    intro side n p hp
    cases side with
    | bid =>
        have hp' : p ≠ 1 := by simpa using hp
        simp only [Finmap.lookup_insert_of_ne _ hp']
    | ask => rfl
  positive := by
    intro side n p q h
    cases side with
    | bid =>
        by_cases hp : p = 1
        · subst hp
          rw [Finmap.lookup_insert, Option.some.injEq] at h
          rw [← h]
          split <;> norm_num
        · simp [Finmap.lookup_insert_of_ne _ hp] at h
    | ask =>
        by_cases hp : p = 3
        · subst hp
          rw [Finmap.lookup_insert, Option.some.injEq] at h
          rw [← h]
          norm_num
        · simp [Finmap.lookup_insert_of_ne _ hp] at h

/-- One diff per update of `pulsingVenue`. -/
def pulsingDiff (i : Nat) : BinanceDepthUpdatePayload :=
  { eventTimeMs := i
    venueSymbol := "BTCUSDT"
    firstUpdateId := i + 1
    finalUpdateId := i + 1
    previousFinalUpdateId := i
    bids := [("1", if (i + 1) % 2 = 0 then "2" else "1")]
    asks := [] }

theorem pulsingDiff_lists (i : Nat) : ListsFinalQuantities pulsingVenue (pulsingDiff i) := by
  have hone : parseLevel ("1", "1") = .ok (1, 1) := by decide +kernel
  have htwo : parseLevel ("1", "2") = .ok (1, 2) := by decide +kernel
  intro side
  cases side with
  | bid =>
      refine ⟨[(1, if (i + 1) % 2 = 0 then 2 else 1)], ?_, ?_, ?_⟩
      · simp only [BinanceDepthUpdatePayload.levels, pulsingDiff]
        split <;> simp [hone, htwo, pure, Except.pure, bind, Except.bind]
      · intro l hl
        rw [List.mem_singleton.mp hl]
        simp only [pulsingVenue, pulsingDiff, BookSide.quantityAt, Finmap.lookup_insert,
          Option.getD_some]
        norm_cast
      · intro n p _ _ hp
        simpa [pulsingVenue] using hp
  | ask => exact ⟨[], rfl, by simp, by simp [pulsingVenue]⟩

def pulsingStream : DiffStream pulsingVenue where
  diff := pulsingDiff
  ordered := by simp [pulsingDiff]
  advances := by simp [pulsingDiff]
  chained := by simp [pulsingDiff]
  lists := pulsingDiff_lists
  carries := by
    intro side n p hn _
    simp only [pulsingDiff] at hn ⊢
    exact ⟨(n - 1).toNat, by omega, by omega⟩

def pulsingSnapshot : BinanceDepthSnapshotPayload :=
  { lastUpdateId := 1, bids := [("1", "1")], asks := [("3", "1")] }

theorem pulsingSnapshot_genuine : GenuineSnapshot pulsingVenue pulsingSnapshot where
  lists := by
    have hbid : parseLevel ("1", "1") = .ok (1, 1) := by decide +kernel
    have hask : parseLevel ("3", "1") = .ok (3, 1) := by decide +kernel
    intro side
    cases side with
    | bid =>
        refine ⟨[(1, 1)], by simp [BinanceDepthSnapshotPayload.levels, pulsingSnapshot, hbid],
          fun p q => ?_⟩
        by_cases hp : p = 1
        · subst hp
          simp [pulsingVenue, pulsingSnapshot, eq_comm]
        · simp [hp, pulsingVenue, Finmap.lookup_insert_of_ne]
    | ask =>
        refine ⟨[(3, 1)], by simp [BinanceDepthSnapshotPayload.levels, pulsingSnapshot, hask],
          fun p q => ?_⟩
        by_cases hp : p = 3
        · subst hp
          simp [pulsingVenue, eq_comm]
        · simp [hp, pulsingVenue, Finmap.lookup_insert_of_ne]

/-- Resynchronise, receive two diffs out of order around a snapshot, lose one and see another
twice. -/
def pulsingCalls : List Call :=
  [.beginResync "connected", .ingest (pulsingDiff 0), .ingest (pulsingDiff 1),
    .installSnapshot pulsingSnapshot, .ingest (pulsingDiff 2), .ingest (pulsingDiff 1)]

theorem pulsingCalls_genuine : ∀ c ∈ pulsingCalls, c.Genuine pulsingStream := by
  have hdiff : ∀ i, Call.Genuine pulsingStream (.ingest (pulsingDiff i)) := fun i => ⟨i, rfl⟩
  have hsnapshot : Call.Genuine pulsingStream (.installSnapshot pulsingSnapshot) :=
    pulsingSnapshot_genuine
  have hresync : Call.Genuine pulsingStream (.beginResync "connected") := trivial
  unfold pulsingCalls
  intro c hc
  rcases List.mem_cons.mp hc with rfl | hc
  · exact hresync
  rcases List.mem_cons.mp hc with rfl | hc
  · exact hdiff 0
  rcases List.mem_cons.mp hc with rfl | hc
  · exact hdiff 1
  rcases List.mem_cons.mp hc with rfl | hc
  · exact hsnapshot
  rcases List.mem_cons.mp hc with rfl | hc
  · exact hdiff 2
  · rw [List.mem_singleton.mp hc]
    exact hdiff 1

theorem live_book_is_true_book_pulsing :
    ∃ n, (pulsingCalls.foldl call (new "BTCUSDT" 2 (by decide))).sequenceId = some n ∧
      (pulsingCalls.foldl call (new "BTCUSDT" 2 (by decide))).bids = pulsingVenue.book .bid n ∧
      (pulsingCalls.foldl call (new "BTCUSDT" 2 (by decide))).asks = pulsingVenue.book .ask n := by
  have hlive : (pulsingCalls.foldl call (new "BTCUSDT" 2 (by decide))).status = .live := by
    decide +kernel
  exact live_book_is_true_book pulsingVenue pulsingStream "BTCUSDT" 2 (by decide) pulsingCalls
    pulsingCalls_genuine hlive

end BinanceLocalOrderBook

end Cvf
