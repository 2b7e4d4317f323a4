/-
# Cvf.Binance.Pipeline — the connector with a feature book behind its event sink.

A `Pipeline` is the Binance connector and the feature book that consumes what it emits.  Both books
see the same stream, the feature book only through the events.  `Invariant` says how the two are
related in the local book's first generation, and that beyond it the local book cannot go live
without a snapshot; this module proves that depth frames and reconnects keep it.
-/
import Cvf.Binance.Activation

namespace Cvf

open Cvf.Library

/-! ## Emission -/

namespace BinanceMarketDataConnector

/-- What `emit` does when the monotonic clock has not gone back: the event reaches the sink unless
its identity is still remembered. -/
theorem emit_spec (connector : BinanceMarketDataConnector) (event : NormalizedMarketEvent)
    (receipt : Receipt) (hclock : ∀ t, connector.dedupe.lastNow = some t → t ≤ receipt.monotonicNow) :
    (connector.emit event receipt).1.book = connector.book ∧
      (∀ i ∈ (connector.emit event receipt).1.dedupe.identities,
        i = normalizedEventIdentity event ∨ i ∈ connector.dedupe.identities) ∧
      ((connector.emit event receipt).2 = [event] ∨
        (connector.emit event receipt).2 = [] ∧
          normalizedEventIdentity event ∈ connector.dedupe.identities) := by
  obtain ⟨dedupe', -, hkept, hemit | ⟨hseen, hemit⟩⟩ :=
    BoundedTTLDeduplicator.emitEvents_cons hclock event []
  · simp only [emit, hemit]
    exact ⟨trivial, hkept, Or.inl rfl⟩
  · simp only [emit, hemit]
    exact ⟨trivial, hkept, Or.inr ⟨rfl, hseen⟩⟩

/-- A frame reaches the book whatever happens to its event. -/
theorem handleDepthUpdate_book (connector : BinanceMarketDataConnector)
    (payload : BinanceDepthUpdatePayload) (receipt : Receipt) :
    (connector.handleDepthUpdate payload receipt).1.book = (connector.book.ingest payload).1 := by
  unfold handleDepthUpdate
  split
  · rename_i book e h
    rw [h]
  · rename_i book r h
    rw [h]
    split
    · rfl
    · rfl

/-- A genuine frame the book takes is emitted in the book's new generation. -/
theorem handleDepthUpdate_spec {x : Venue} {stream : DiffStream x}
    (connector : BinanceMarketDataConnector) {d : BinanceDepthUpdatePayload}
    (hd : GenuineFrame stream d) {receipt : Receipt}
    (hclock : ∀ t, connector.dedupe.lastNow = some t → t ≤ receipt.monotonicNow)
    (hok : ∃ r, (connector.book.ingest d).2 = .ok r) :
    ∃ u, Normalizes d u ∧ u.generation = (connector.book.ingest d).1.generation ∧
      (∀ i ∈ (connector.handleDepthUpdate d receipt).1.dedupe.identities,
        i = normalizedEventIdentity (.orderBookUpdate u) ∨ i ∈ connector.dedupe.identities) ∧
      ((connector.handleDepthUpdate d receipt).2 = [.orderBookUpdate u] ∨
        (connector.handleDepthUpdate d receipt).2 = [] ∧
          normalizedEventIdentity (.orderBookUpdate u) ∈ connector.dedupe.identities) := by
  obtain ⟨r, hr⟩ := hok
  obtain ⟨u, hu, hnormalizes⟩ := hd.normalizeUpdate_ok connector.canonicalSymbol receipt
  have hsplit : connector.book.ingest d = ((connector.book.ingest d).1, .ok r) := Prod.ext rfl hr
  refine ⟨{ u with generation := (connector.book.ingest d).1.generation },
    ⟨hnormalizes.sequence, hnormalizes.previous, fun side => ?_⟩, rfl, ?_⟩
  · cases side with
    | bid => exact hnormalizes.levels .bid
    | ask => exact hnormalizes.levels .ask
  · unfold handleDepthUpdate
    rw [hsplit]
    simp only [hu]
    exact (emit_spec { connector with book := (connector.book.ingest d).1 } _ receipt hclock).2

/-- A genuine snapshot the book takes is emitted in generation zero. -/
theorem handleDepthSnapshot_spec {x : Venue} (connector : BinanceMarketDataConnector)
    {s : BinanceDepthSnapshotPayload} (hs : GenuineRest x s) (hsides : x.TwoSided s.lastUpdateId)
    {receipt : Receipt}
    (hclock : ∀ t, connector.dedupe.lastNow = some t → t ≤ receipt.monotonicNow)
    (hok : ∃ r, (connector.book.installSnapshot s).2 = .ok r) :
    (connector.handleDepthSnapshot s receipt).1.book = (connector.book.installSnapshot s).1 ∧
      ∃ e, NormalizesSnapshot s e ∧
        (∀ i ∈ (connector.handleDepthSnapshot s receipt).1.dedupe.identities,
          i = normalizedEventIdentity (.orderBookSnapshot e) ∨ i ∈ connector.dedupe.identities) ∧
        ((connector.handleDepthSnapshot s receipt).2 = [.orderBookSnapshot e] ∨
          (connector.handleDepthSnapshot s receipt).2 = [] ∧
            normalizedEventIdentity (.orderBookSnapshot e) ∈ connector.dedupe.identities) := by
  obtain ⟨r, hr⟩ := hok
  obtain ⟨e, he, hnormalizes⟩ := hs.normalizeSnapshot_ok hsides connector.canonicalSymbol receipt
  have hsplit : connector.book.installSnapshot s =
      ((connector.book.installSnapshot s).1, .ok r) := Prod.ext rfl hr
  unfold handleDepthSnapshot
  rw [hsplit]
  simp only [he]
  obtain ⟨hbook, hrest⟩ := emit_spec
    { connector with book := (connector.book.installSnapshot s).1 } (.orderBookSnapshot e) receipt
    hclock
  exact ⟨hbook, e, hnormalizes, hrest⟩

end BinanceMarketDataConnector

/-! ## The pipeline -/

/-- The connector, the feature book behind its sink, and the newest final id of the depth frames
handled so far. -/
structure Pipeline where
  connector : BinanceMarketDataConnector
  feature : FeatureOrderBookState
  handled : Option Int := none

/-- What the connector handles. -/
inductive ConnectorInput where
  | connected
  | depthUpdate (payload : BinanceDepthUpdatePayload) (receipt : Receipt)
  | depthSnapshot (payload : BinanceDepthSnapshotPayload) (receipt : Receipt)
  deriving DecidableEq

namespace Pipeline

variable (digest : SourceDigest)

def step (p : Pipeline) : ConnectorInput → Pipeline
  | .connected => { p with connector := p.connector.handleConnected }
  | .depthUpdate payload receipt =>
    let (connector, events) := p.connector.handleDepthUpdate payload receipt
    { connector
      feature := events.foldl (FeatureOrderBookState.consume digest) p.feature
      handled := maxOption p.handled (some payload.finalUpdateId) }
  | .depthSnapshot payload receipt =>
    let (connector, events) := p.connector.handleDepthSnapshot payload receipt
    { p with
      connector
      feature := events.foldl (FeatureOrderBookState.consume digest) p.feature }

/-- A connector and a feature book as constructed. -/
def fresh (venueSymbol canonicalSymbol : String) (maxBufferEvents : Nat)
    (hbuffer : 1 ≤ maxBufferEvents) (dedupeCapacity : Nat) (hdedupe : 1 ≤ dedupeCapacity)
    (ttl : Int) (httl : 0 < ttl) (pendingCapacity : Nat) (hpending : 1 ≤ pendingCapacity) :
    Pipeline :=
  { connector :=
      { canonicalSymbol
        book := BinanceLocalOrderBook.new venueSymbol maxBufferEvents hbuffer
        dedupe :=
          { capacity := dedupeCapacity, ttl, capacity_pos := hdedupe, ttl_pos := httl } }
    feature := { pendingCapacity, pendingCapacity_pos := hpending } }

/-- The agreement: a live, two-sided, uncrossed local book has the synchronized feature book as its
copy. -/
def Agree (p : Pipeline) : Prop :=
  p.connector.book.status = .live → p.connector.book.bids ≠ ∅ → p.connector.book.asks ≠ ∅ →
    BookSide.crossed p.connector.book.bids p.connector.book.asks = false →
    p.feature.synchronized = true ∧ p.feature.generation = p.connector.book.generation ∧
      p.feature.sequenceId = p.connector.book.sequenceId ∧
      p.feature.bids = p.connector.book.bids ∧ p.feature.asks = p.connector.book.asks

/-- The payload of an input is the venue's, for the connector's symbol, at a monotonic instant. -/
def Genuine {x : Venue} (stream : DiffStream x) (p : Pipeline) : ConnectorInput → Prop
  | .connected => True
  | .depthUpdate d receipt =>
    GenuineFrame stream d ∧ d.venueSymbol.toUpper = p.connector.book.venueSymbol ∧
      ∀ t, p.connector.dedupe.lastNow = some t → t ≤ receipt.monotonicNow
  | .depthSnapshot s receipt =>
    GenuineRest x s ∧ ∀ t, p.connector.dedupe.lastNow = some t → t ≤ receipt.monotonicNow

/-- In the first generation a frame comes in stream order (or finds a live book), leaves a two-sided
book, does not straddle the pending snapshot and finds room in the feature book. -/
structure FrameFits (x : Venue) (p : Pipeline) (d : BinanceDepthUpdatePayload) : Prop where
  inTurn : p.connector.book.status = .live ∨ ∀ h, p.handled = some h → h < d.finalUpdateId
  twoSided : x.TwoSided d.finalUpdateId
  noStraddle : ∀ s, p.connector.book.pendingSnapshot = some s →
    ¬ (d.firstUpdateId ≤ s.lastUpdateId ∧ s.lastUpdateId < d.finalUpdateId)
  room : p.feature.pending.length < p.feature.pendingCapacity

/-- A snapshot comes in the first generation, is two-sided, does not replace a newer one still
waiting for diffs, and is not too old for the buffered diffs while the feature book waits for it. -/
structure SnapshotFits (x : Venue) (p : Pipeline) (s : BinanceDepthSnapshotPayload) : Prop where
  generation : p.connector.book.generation = 0
  twoSided : x.TwoSided s.lastUpdateId
  newer : ∀ s', p.connector.book.pendingSnapshot = some s' →
    s'.lastUpdateId ≤ s.lastUpdateId ∨ ∃ h, p.handled = some h ∧ s'.lastUpdateId ≤ h
  notTooOld : p.feature.synchronized = true ∨
    ∀ d, (p.connector.book.buffer.dropWhile fun d => d.finalUpdateId < s.lastUpdateId).head? =
      some d → d.firstUpdateId ≤ s.lastUpdateId

def Admits {x : Venue} (stream : DiffStream x) (p : Pipeline) (input : ConnectorInput) : Prop :=
  p.Genuine stream input ∧
    match input with
    | .connected => True
    | .depthUpdate d _ => p.connector.book.generation = 0 → p.FrameFits x d
    | .depthSnapshot s _ => p.SnapshotFits x s

/-! ## The invariant of the first generation -/

/-- Ids of snapshots the feature book has seen or will never see again: the one pending in the local
book and those whose events are still remembered. -/
def Processed (p : Pipeline) (n : Int) : Prop :=
  (∃ s, p.connector.book.pendingSnapshot = some s ∧ s.lastUpdateId = n) ∨
    ∃ e, NormalizedMarketEvent.orderBookSnapshot e ∈ p.connector.dedupe.identities ∧
      e.sequenceId = some (.int n)

/-- The feature book holds the true book at `m`, the newest id either book knows of. -/
structure Following (x : Venue) (p : Pipeline) (m : Int) : Prop where
  at_ : p.feature.At x m
  pending : p.feature.pending = []
  handled_le : ∀ h, p.handled = some h → h ≤ m
  source : p.handled = some m ∨ ∃ s, p.connector.book.pendingSnapshot = some s ∧
    s.lastUpdateId = m ∧ p.connector.book.buffer = []
  live : p.connector.book.status = .live → p.connector.book.sequenceId = some m
  processed : ∀ n, p.Processed n → n ≤ m

/-- The feature book waits with the newest part `ps` of the local buffer; the older part `pre` is cut
off from it by a gap. -/
structure WaitingWith (p : Pipeline) (pre ps : List BinanceDepthUpdatePayload) : Prop where
  synchronized : p.feature.synchronized = false
  status : p.connector.book.status ≠ .live
  buffer : p.connector.book.buffer = pre ++ ps
  pending : List.Forall₂ Normalizes ps p.feature.pending
  empty : ps = [] → pre = [] ∧ p.handled = none
  gap : ∀ a ∈ pre.getLast?, ∀ b ∈ ps.head?, a.finalUpdateId < b.previousFinalUpdateId
  processed : ∀ n, p.Processed n → ps ≠ [] ∧ ∀ d ∈ ps, n < d.firstUpdateId

/-- Both books in the first generation. -/
structure FirstGeneration {x : Venue} (stream : DiffStream x) (p : Pipeline) : Prop where
  generation : p.connector.book.generation = 0
  featureGeneration : p.feature.generation = 0
  tracks : p.connector.book.Tracks x
  inOrder : stream.InOrder p.connector.book.buffer
  fits : ∀ d ∈ p.connector.book.buffer, 0 < d.finalUpdateId ∧ x.TwoSided d.finalUpdateId
  handledInStream : ∀ h, p.handled = some h → ∃ i, h = (stream.diff i).finalUpdateId
  newest : ∀ d, p.connector.book.buffer.getLast? = some d → p.handled = some d.finalUpdateId
  behind : ∀ s, p.connector.book.pendingSnapshot = some s → p.connector.book.buffer = [] ∨
    ∀ d ∈ p.connector.book.buffer, s.lastUpdateId < d.firstUpdateId
  liveEmpty : p.connector.book.status = .live → p.connector.book.buffer = []
  updatesSeen : ∀ u, NormalizedMarketEvent.orderBookUpdate u ∈ p.connector.dedupe.identities →
    u.generation = 0 → ∀ n, u.sequenceId = some (.int n) → ∃ h, p.handled = some h ∧ n ≤ h
  books : (∃ m, p.Following x m) ∨ ∃ pre ps, p.WaitingWith pre ps

/-- The local book is beyond its first generation without a snapshot, or both books are in it. -/
def Invariant {x : Venue} (stream : DiffStream x) (p : Pipeline) : Prop :=
  p.connector.book.Dormant ∨ p.FirstGeneration stream

theorem agree_of_invariant {x : Venue} {stream : DiffStream x} {p : Pipeline}
    (h : p.Invariant stream) : p.Agree := by
  intro hlive _ _ _
  rcases h with hdormant | hfirst
  · exact absurd hlive hdormant.status
  rcases hfirst.books with ⟨m, hm⟩ | ⟨pre, ps, hwaiting⟩
  · obtain ⟨-, n, hseq, hbids, hasks⟩ := hfirst.tracks.live hlive
    obtain rfl : n = m := by simpa [hseq] using hm.live hlive
    refine ⟨hm.at_.synchronized, by rw [hfirst.featureGeneration, hfirst.generation], ?_, ?_, ?_⟩
    · rw [hm.at_.sequence, hseq]
    · rw [hm.at_.bids, hbids]
    · rw [hm.at_.asks, hasks]
  · exact absurd hlive hwaiting.status

theorem FirstGeneration.le_handled {x : Venue} {stream : DiffStream x} {p : Pipeline}
    (h : p.FirstGeneration stream) {d : BinanceDepthUpdatePayload}
    (hd : d ∈ p.connector.book.buffer) : ∃ n, p.handled = some n ∧ d.finalUpdateId ≤ n := by
  obtain ⟨init, last, hbuffer⟩ : ∃ init last, p.connector.book.buffer = init ++ [last] := by
    have hne : p.connector.book.buffer ≠ [] := List.ne_nil_of_mem hd
    exact ⟨_, _, (List.dropLast_append_getLast hne).symm⟩
  refine ⟨last.finalUpdateId, h.newest last (by simp [hbuffer]), ?_⟩
  have hascending := h.inOrder.ascending
  rw [hbuffer] at hd hascending
  rcases List.mem_append.mp hd with hd | hd
  · exact ((List.pairwise_append.mp hascending).2.2 d hd last (by simp)).le
  · rw [List.mem_singleton.mp hd]

/-! ### One depth frame -/

/-- What a step on a frame does to everything but the local book. -/
structure FrameStep (p p' : Pipeline) (d : BinanceDepthUpdatePayload) : Prop where
  book : p'.connector.book = (p.connector.book.ingest d).1
  handled : p'.handled = maxOption p.handled (some d.finalUpdateId)
  snapshots : ∀ e, NormalizedMarketEvent.orderBookSnapshot e ∈ p'.connector.dedupe.identities →
    NormalizedMarketEvent.orderBookSnapshot e ∈ p.connector.dedupe.identities
  updates : ∀ u, NormalizedMarketEvent.orderBookUpdate u ∈ p'.connector.dedupe.identities →
    NormalizedMarketEvent.orderBookUpdate u ∈ p.connector.dedupe.identities ∨
      u.sequenceId = some (.int d.finalUpdateId)
  feature : ∃ u, Normalizes d u ∧ u.generation = p'.connector.book.generation ∧
    (p'.feature = (p.feature.applyUpdate digest u).1 ∨
      p'.feature = p.feature ∧
        ∃ v, NormalizedMarketEvent.orderBookUpdate v ∈ p.connector.dedupe.identities ∧
          v.generation = u.generation ∧ v.sequenceId = some (.int d.finalUpdateId))

theorem frameStep {x : Venue} {stream : DiffStream x} {p : Pipeline}
    {d : BinanceDepthUpdatePayload} {receipt : Receipt}
    (hgenuine : p.Genuine stream (.depthUpdate d receipt))
    (hok : ∃ r, (p.connector.book.ingest d).2 = .ok r) :
    FrameStep digest p (p.step digest (.depthUpdate d receipt)) d := by
  have hbook := p.connector.handleDepthUpdate_book d receipt
  obtain ⟨u, hu, hgeneration, hkept, hevents⟩ :=
    p.connector.handleDepthUpdate_spec hgenuine.1 hgenuine.2.2 hok
  rw [← hbook] at hgeneration
  refine ⟨hbook, rfl, fun e he => ?_, fun v hv => ?_, u, hu, hgeneration, ?_⟩
  · rcases hkept _ he with h | h
    · simp [normalizedEventIdentity, NormalizedMarketEvent.withBase] at h
    · exact h
  · rcases hkept _ hv with h | h
    · right
      simp only [normalizedEventIdentity, NormalizedMarketEvent.withBase,
        NormalizedMarketEvent.orderBookUpdate.injEq] at h
      rw [h]
      exact hu.sequence
    · exact Or.inl h
  · rcases hevents with hevents | ⟨hevents, hseen⟩
    · left
      simp only [step, hevents]
      rfl
    · right
      refine ⟨by simp only [step, hevents]; rfl, _, hseen, rfl, hu.sequence⟩

theorem maxOption_of_lt {h : Option Int} {n : Int} (hlt : ∀ m, h = some m → m < n) :
    maxOption h (some n) = some n := by
  cases h with
  | none => rfl
  | some m => simp [maxOption, (hlt m rfl).le]

/-- A frame in turn is never taken for a duplicate. -/
theorem FrameStep.applied {x : Venue} {stream : DiffStream x} {p p' : Pipeline}
    {d : BinanceDepthUpdatePayload} (hstep : FrameStep digest p p' d)
    (hp : p.FirstGeneration stream) (hturn : ∀ h, p.handled = some h → h < d.finalUpdateId)
    (hgeneration : p'.connector.book.generation = 0) :
    ∃ u, Normalizes d u ∧ u.generation = p.feature.generation ∧
      p'.feature = (p.feature.applyUpdate digest u).1 := by
  obtain ⟨u, hu, hgen, hfeature⟩ := hstep.feature
  refine ⟨u, hu, by rw [hgen, hgeneration, hp.featureGeneration], ?_⟩
  rcases hfeature with hfeature | ⟨-, v, hv, hvgen, hvseq⟩
  · exact hfeature
  · obtain ⟨h, hh, hle⟩ := hp.updatesSeen v hv (by rw [hvgen, hgen, hgeneration]) _ hvseq
    exact absurd (hturn h hh) (by omega)

theorem FrameStep.processed {p p' : Pipeline} {d : BinanceDepthUpdatePayload}
    (hstep : FrameStep digest p p' d)
    (hpending : p'.connector.book.pendingSnapshot = p.connector.book.pendingSnapshot ∨
      p'.connector.book.pendingSnapshot = none) {n : Int} (hn : p'.Processed n) :
    p.Processed n := by
  rcases hn with ⟨s, hs, hsn⟩ | ⟨e, he, hen⟩
  · rcases hpending with h | h
    · exact Or.inl ⟨s, h ▸ hs, hsn⟩
    · simp [h] at hs
  · exact Or.inr ⟨e, hstep.snapshots e he, hen⟩

/-- The part of the invariant that does not depend on what the feature book did with a frame in
turn. -/
theorem FrameStep.firstGeneration {x : Venue} {stream : DiffStream x} {p p' : Pipeline}
    {d : BinanceDepthUpdatePayload} (hstep : FrameStep digest p p' d)
    (hp : p.FirstGeneration stream) (hd : GenuineFrame stream d)
    (hsides : x.TwoSided d.finalUpdateId) (hturn : ∀ h, p.handled = some h → h < d.finalUpdateId)
    (hgeneration : p'.connector.book.generation = 0) (hfeature : p'.feature.generation = 0)
    (hbuffer : p'.connector.book.buffer = p.connector.book.buffer ++ [d] ∨
      p'.connector.book.buffer = [])
    (hbehind : ∀ s, p'.connector.book.pendingSnapshot = some s → p'.connector.book.buffer = [] ∨
      ∀ e ∈ p'.connector.book.buffer, s.lastUpdateId < e.firstUpdateId)
    (hlive : p'.connector.book.status = .live → p'.connector.book.buffer = [])
    (hbooks : (∃ m, p'.Following x m) ∨ ∃ pre ps, p'.WaitingWith pre ps) :
    p'.FirstGeneration stream where
  generation := hgeneration
  featureGeneration := hfeature
  tracks := by
    rw [hstep.book]
    exact BinanceLocalOrderBook.tracks_ingest hp.tracks hd.genuine
  inOrder := by
    rcases hbuffer with h | h
    · rw [h]
      refine hp.inOrder.append_singleton hd.inStream fun e he => ?_
      obtain ⟨n, hn, hle⟩ := hp.le_handled he
      have := hturn n hn
      omega
    · rw [h]
      exact DiffStream.InOrder.nil
  fits := by
    intro e he
    rcases hbuffer with h | h
    · rw [h] at he
      rcases List.mem_append.mp he with he | he
      · exact hp.fits e he
      · rw [List.mem_singleton.mp he]
        exact ⟨hd.positiveId, hsides⟩
    · simp [h] at he
  handledInStream := by
    intro h hh
    rw [hstep.handled, maxOption_of_lt hturn, Option.some.injEq] at hh
    obtain ⟨i, rfl⟩ := hd.inStream
    exact ⟨i, hh.symm⟩
  newest := by
    intro e he
    rw [hstep.handled, maxOption_of_lt hturn]
    rcases hbuffer with h | h
    · obtain rfl : d = e := by simpa [h] using he
      rfl
    · simp [h] at he
  behind := hbehind
  liveEmpty := hlive
  updatesSeen := by
    intro u hu hgen n hn
    rw [hstep.handled, maxOption_of_lt hturn]
    refine ⟨d.finalUpdateId, rfl, ?_⟩
    rcases hstep.updates u hu with hold | hnew
    · obtain ⟨h, hh, hle⟩ := hp.updatesSeen u hold hgen n hn
      have := hturn h hh
      omega
    · rw [hnew, Option.some.injEq, SequenceId.int.injEq] at hn
      omega
  books := hbooks

/-- A frame behind a live book changes nothing that matters. -/
theorem firstGeneration_stale {x : Venue} {stream : DiffStream x} {p p' : Pipeline}
    {d : BinanceDepthUpdatePayload} (hstep : FrameStep digest p p' d)
    (hp : p.FirstGeneration stream) (hd : GenuineFrame stream d)
    (hsides : x.TwoSided d.finalUpdateId) {m : Int} (hm : p.Following x m)
    (hhandled : p.handled = some m) (hstale : d.finalUpdateId ≤ m)
    (hbook : p'.connector.book = p.connector.book) : p'.FirstGeneration stream := by
  have hhandled' : p'.handled = p.handled := by
    rw [hstep.handled, hhandled, maxOption, max_eq_left hstale]
  have hfeature : p'.feature = p.feature := by
    obtain ⟨u, hu, hgen, happlied | ⟨hsame, -⟩⟩ := hstep.feature
    · rw [hbook, hp.generation, ← hp.featureGeneration] at hgen
      rcases FeatureOrderBookState.applyUpdate_at digest hd.genuine hd.positiveId hsides hu hgen
        hm.at_ with ⟨-, h⟩ | ⟨h, -⟩ | ⟨h, -⟩
      · rw [happlied, h]
      · omega
      · omega
    · exact hsame
  have hprocessed : ∀ n, p'.Processed n → n ≤ m := fun n hn =>
    hm.processed n (hstep.processed digest (Or.inl (by rw [hbook])) hn)
  exact
    { generation := hbook ▸ hp.generation
      featureGeneration := hfeature ▸ hp.featureGeneration
      tracks := hbook ▸ hp.tracks
      inOrder := hbook ▸ hp.inOrder
      fits := hbook ▸ hp.fits
      handledInStream := hhandled' ▸ hp.handledInStream
      newest := by
        rw [hbook, hhandled']
        exact hp.newest
      behind := hbook ▸ hp.behind
      liveEmpty := hbook ▸ hp.liveEmpty
      updatesSeen := by
        intro u hu hgen n hn
        rw [hhandled']
        rcases hstep.updates u hu with hold | hnew
        · exact hp.updatesSeen u hold hgen n hn
        · rw [hnew, Option.some.injEq, SequenceId.int.injEq] at hn
          exact ⟨m, hhandled, by omega⟩
      books := Or.inl ⟨m,
        { at_ := hfeature ▸ hm.at_
          pending := hfeature ▸ hm.pending
          handled_le := hhandled' ▸ hm.handled_le
          source := Or.inl (hhandled'.trans hhandled)
          live := hbook ▸ hm.live
          processed := hprocessed }⟩ }

/-- A frame that continues a live book moves both books to its final id. -/
theorem firstGeneration_next {x : Venue} {stream : DiffStream x} {p p' : Pipeline}
    {d : BinanceDepthUpdatePayload} (hstep : FrameStep digest p p' d)
    (hp : p.FirstGeneration stream) (hd : GenuineFrame stream d)
    (hsides : x.TwoSided d.finalUpdateId) (hlive : p.connector.book.status = .live) {m : Int}
    (hm : p.Following x m) (hhandled : p.handled = some m) (hnew : m < d.finalUpdateId)
    (hnext : d.previousFinalUpdateId = m)
    (hbook : p'.connector.book = p.connector.book.atUpdate x d.finalUpdateId) :
    p'.FirstGeneration stream := by
  have hturn : ∀ h, p.handled = some h → h < d.finalUpdateId := by
    intro h hh
    rw [hhandled, Option.some.injEq] at hh
    omega
  have hgeneration : p'.connector.book.generation = 0 := by
    rw [hbook]
    exact hp.generation
  have hempty : p'.connector.book.buffer = [] := by
    rw [hbook]
    exact hp.liveEmpty hlive
  have hpending : p'.connector.book.pendingSnapshot = none := by
    rw [hbook]
    exact (hp.tracks.live hlive).1
  obtain ⟨u, hu, hgen, happlied⟩ := hstep.applied digest hp hturn hgeneration
  rcases FeatureOrderBookState.applyUpdate_at digest hd.genuine hd.positiveId hsides hu hgen
    hm.at_ with ⟨h, -⟩ | ⟨-, -, hat, hfgen, hfpending⟩ | ⟨-, h, -⟩
  · omega
  · rw [← happlied] at hat hfgen hfpending
    refine hstep.firstGeneration digest hp hd hsides hturn hgeneration
      (hfgen.trans hp.featureGeneration) (Or.inr hempty) (fun s hs => by simp [hpending] at hs)
      (fun _ => hempty) (Or.inl ⟨d.finalUpdateId, ?_⟩)
    have hhandled' : p'.handled = some d.finalUpdateId := by
      rw [hstep.handled, maxOption_of_lt hturn]
    exact
      { at_ := hat
        pending := hfpending.trans hm.pending
        handled_le := by simp [hhandled']
        source := Or.inl hhandled'
        live := fun _ => by rw [hbook]; rfl
        processed := fun n hn =>
          (hm.processed n (hstep.processed digest (Or.inr hpending) hn)).trans hnew.le }
  · exact absurd hnext h

/-- A frame put behind the local buffer: the feature book applies it, or starts or goes on
waiting. -/
theorem firstGeneration_appended {x : Venue} {stream : DiffStream x} {p p' : Pipeline}
    {d : BinanceDepthUpdatePayload} (hstep : FrameStep digest p p' d)
    (hp : p.FirstGeneration stream) (hd : GenuineFrame stream d) (hfits : p.FrameFits x d)
    (hturn : ∀ h, p.handled = some h → h < d.finalUpdateId) {status : BookStatus}
    (hstatus : status ≠ .live)
    (hbook : p'.connector.book =
      { p.connector.book with buffer := p.connector.book.buffer ++ [d], status })
    (hafter : ∀ s, p.connector.book.pendingSnapshot = some s → s.lastUpdateId < d.firstUpdateId) :
    p'.FirstGeneration stream := by
  have hgeneration : p'.connector.book.generation = 0 := by
    rw [hbook]
    exact hp.generation
  have hbuffer : p'.connector.book.buffer = p.connector.book.buffer ++ [d] := by rw [hbook]
  have hnotLive : p'.connector.book.status ≠ .live := by
    rw [hbook]
    exact hstatus
  have hpending : p'.connector.book.pendingSnapshot = p.connector.book.pendingSnapshot := by
    rw [hbook]
  have hbehind : ∀ s, p'.connector.book.pendingSnapshot = some s →
      p'.connector.book.buffer = [] ∨
        ∀ e ∈ p'.connector.book.buffer, s.lastUpdateId < e.firstUpdateId := by
    intro s hs
    rw [hpending] at hs
    refine Or.inr fun e he => ?_
    rw [hbuffer] at he
    rcases List.mem_append.mp he with he | he
    · exact ((hp.behind s hs).resolve_left (List.ne_nil_of_mem he)) e he
    · rw [List.mem_singleton.mp he]
      exact hafter s hs
  have hhandled' : p'.handled = some d.finalUpdateId := by
    rw [hstep.handled, maxOption_of_lt hturn]
  obtain ⟨u, hu, hgen, happlied⟩ := hstep.applied digest hp hturn hgeneration
  have hprocessed : ∀ {n}, p'.Processed n → p.Processed n :=
    fun hn => hstep.processed digest (Or.inl hpending) hn
  -- a diff of the stream at or before the last frame is before the start of this one
  have hstart : ∀ e, (∃ i, e = stream.diff i) → e.finalUpdateId < d.finalUpdateId →
      e.finalUpdateId < d.firstUpdateId := fun e he hlt =>
    firstUpdateId_gt_of_before he hd.inStream hlt
  rcases hp.books with ⟨m, hm⟩ | ⟨pre, ps, hwaiting⟩
  · rcases FeatureOrderBookState.applyUpdate_at digest hd.genuine hd.positiveId hfits.twoSided hu
      hgen hm.at_ with ⟨hstale, -⟩ | ⟨hnew, hnext, hat, hfgen, hfpending⟩ |
      ⟨hnew, hgap, hsync, hfgen, hfpending⟩
    · -- behind the feature book: only a snapshot can have taken it there, and then this frame
      -- starts after the snapshot
      rcases hm.source with h | ⟨s, hs, rfl, -⟩
      · have := hturn m h
        omega
      · have h1 := hafter s hs
        have h2 := hd.genuine.ordered
        omega
    · rw [← happlied] at hat hfgen hfpending
      refine hstep.firstGeneration digest hp hd hfits.twoSided hturn hgeneration
        (hfgen.trans hp.featureGeneration) (Or.inl hbuffer) hbehind
        (fun h => absurd h hnotLive) (Or.inl ⟨d.finalUpdateId, ?_⟩)
      exact
        { at_ := hat
          pending := hfpending.trans hm.pending
          handled_le := by simp [hhandled']
          source := Or.inl hhandled'
          live := fun h => absurd h hnotLive
          processed := fun n hn => (hm.processed n (hprocessed hn)).trans hnew.le }
    · rw [← happlied] at hsync hfgen hfpending
      have hmU : m < d.firstUpdateId := by
        rcases hm.source with h | ⟨s, hs, rfl, -⟩
        · obtain ⟨i, rfl⟩ := hp.handledInStream m h
          exact hstart (stream.diff i) ⟨i, rfl⟩ hnew
        · exact hafter s hs
      refine hstep.firstGeneration digest hp hd hfits.twoSided hturn hgeneration
        (hfgen.trans hp.featureGeneration) (Or.inl hbuffer) hbehind
        (fun h => absurd h hnotLive) (Or.inr ⟨p.connector.book.buffer, [d], ?_⟩)
      exact
        { synchronized := hsync
          status := hnotLive
          buffer := hbuffer
          pending := by
            rw [hfpending]
            exact List.Forall₂.cons hu List.Forall₂.nil
          empty := by simp
          gap := by
            intro a ha b hb
            obtain rfl : d = b := by simpa using hb
            have hlast : p.connector.book.buffer.getLast? = some a := ha
            have hmem := List.mem_of_getLast? hlast
            have hhandled := hp.newest a hlast
            have hne : a.finalUpdateId ≠ d.previousFinalUpdateId := by
              rcases hm.source with h | ⟨-, -, -, hnil⟩
              · rw [h, Option.some.injEq] at hhandled
                omega
              · simp [hnil] at hmem
            obtain ⟨i, rfl⟩ := hp.inOrder.inStream a hmem
            obtain ⟨j, rfl⟩ := hd.inStream
            have := stream.finalUpdateId_le_previous (hturn _ hhandled)
            omega
          processed := by
            intro n hn
            have := hm.processed n (hprocessed hn)
            refine ⟨by simp, fun e he => ?_⟩
            rw [List.mem_singleton.mp he]
            omega }
  · obtain ⟨hsync, hfgen, hfpending⟩ := FeatureOrderBookState.applyUpdate_waiting digest hgen
      hwaiting.synchronized hfits.room
    rw [← happlied] at hsync hfgen hfpending
    refine hstep.firstGeneration digest hp hd hfits.twoSided hturn hgeneration
      (hfgen.trans hp.featureGeneration) (Or.inl hbuffer) hbehind
      (fun h => absurd h hnotLive) (Or.inr ⟨pre, ps ++ [d], ?_⟩)
    exact
      { synchronized := hsync
        status := hnotLive
        buffer := by rw [hbuffer, hwaiting.buffer, List.append_assoc]
        pending := by
          rw [hfpending]
          exact List.rel_append hwaiting.pending (List.Forall₂.cons hu List.Forall₂.nil)
        empty := by simp
        gap := by
          intro a ha b hb
          cases ps with
          | nil =>
              have hnil := (hwaiting.empty rfl).1
              simp [hnil] at ha
          | cons b' ps => exact hwaiting.gap a ha b (by simpa using hb)
        processed := by
          intro n hn
          obtain ⟨hne, hall⟩ := hwaiting.processed n (hprocessed hn)
          refine ⟨by simp, fun e he => ?_⟩
          rcases List.mem_append.mp he with he | he
          · exact hall e he
          · rw [List.mem_singleton.mp he]
            obtain ⟨a, ha⟩ := List.exists_mem_of_ne_nil _ hne
            have hmem : a ∈ p.connector.book.buffer := by simp [hwaiting.buffer, ha]
            obtain ⟨h, hh, hle⟩ := hp.le_handled hmem
            have h1 := hturn h hh
            have h2 := hstart a (hp.inOrder.inStream a hmem) (by omega)
            have h3 := hall a ha
            have h4 := (hp.inOrder.genuine a hmem).ordered
            omega }

/-- With a snapshot pending and nothing buffered, the feature book follows, and a frame that ends at
or before the snapshot is behind it. -/
theorem following_of_pending {x : Venue} {stream : DiffStream x} {p : Pipeline}
    (hp : p.FirstGeneration stream) {s : BinanceDepthSnapshotPayload}
    (hs : p.connector.book.pendingSnapshot = some s) (hempty : p.connector.book.buffer = [])
    {n : Int} (hturn : ∀ h, p.handled = some h → h < n) (hn : n ≤ s.lastUpdateId) :
    p.Following x s.lastUpdateId := by
  have hprocessed : p.Processed s.lastUpdateId := Or.inl ⟨s, hs, rfl⟩
  rcases hp.books with ⟨m, hm⟩ | ⟨pre, ps, hwaiting⟩
  · have hle := hm.processed _ hprocessed
    rcases hm.source with h | ⟨s', hs', rfl, -⟩
    · have := hturn m h
      omega
    · obtain rfl : s = s' := by simpa [hs] using hs'
      exact hm
  · have hnil : pre ++ ps = [] := by rw [← hwaiting.buffer, hempty]
    exact absurd (List.append_eq_nil_iff.mp hnil).2 (hwaiting.processed _ hprocessed).1

/-- A frame that ends at or before the pending snapshot: the feature book has it already, and the
local book drops it or goes live on it. -/
theorem firstGeneration_covered {x : Venue} {stream : DiffStream x} {p p' : Pipeline}
    {d : BinanceDepthUpdatePayload} (hstep : FrameStep digest p p' d)
    (hp : p.FirstGeneration stream) (hd : GenuineFrame stream d)
    (hsides : x.TwoSided d.finalUpdateId) (hturn : ∀ h, p.handled = some h → h < d.finalUpdateId)
    {s : BinanceDepthSnapshotPayload} (hs : p.connector.book.pendingSnapshot = some s)
    (hempty : p.connector.book.buffer = [])
    (hbook : (d.finalUpdateId < s.lastUpdateId ∧ p.connector.book.status ≠ .live ∧
        p'.connector.book = p.connector.book) ∨
      (d.finalUpdateId = s.lastUpdateId ∧
        p'.connector.book = p.connector.book.liveAt x d.finalUpdateId)) :
    p'.FirstGeneration stream := by
  have hle : d.finalUpdateId ≤ s.lastUpdateId := by
    rcases hbook with ⟨h, -⟩ | ⟨h, -⟩ <;> omega
  have hm := following_of_pending hp hs hempty hturn hle
  have hgeneration : p'.connector.book.generation = 0 := by
    rcases hbook with ⟨-, -, h⟩ | ⟨-, h⟩
    · rw [h]
      exact hp.generation
    · rw [h]
      exact hp.generation
  have hempty' : p'.connector.book.buffer = [] := by
    rcases hbook with ⟨-, -, h⟩ | ⟨-, h⟩
    · rw [h, hempty]
    · rw [h]
      rfl
  have hpending : p'.connector.book.pendingSnapshot = p.connector.book.pendingSnapshot ∨
      p'.connector.book.pendingSnapshot = none := by
    rcases hbook with ⟨-, -, h⟩ | ⟨-, h⟩
    · exact Or.inl (by rw [h])
    · exact Or.inr (by rw [h]; rfl)
  have hhandled' : p'.handled = some d.finalUpdateId := by
    rw [hstep.handled, maxOption_of_lt hturn]
  have hfeature : p'.feature = p.feature := by
    obtain ⟨u, hu, hgen, happlied⟩ := hstep.applied digest hp hturn hgeneration
    rcases FeatureOrderBookState.applyUpdate_at digest hd.genuine hd.positiveId hsides hu hgen
      hm.at_ with ⟨-, h⟩ | ⟨h, -⟩ | ⟨h, -⟩
    · rw [happlied, h]
    · omega
    · omega
  refine hstep.firstGeneration digest hp hd hsides hturn hgeneration
    (hfeature ▸ hp.featureGeneration) (Or.inr hempty') (fun _ _ => Or.inl hempty')
    (fun _ => hempty') (Or.inl ⟨s.lastUpdateId, ?_⟩)
  exact
    { at_ := hfeature ▸ hm.at_
      pending := hfeature ▸ hm.pending
      handled_le := by
        intro h hh
        rw [hhandled', Option.some.injEq] at hh
        omega
      source := by
        rcases hbook with ⟨-, -, h⟩ | ⟨h, -⟩
        · exact Or.inr ⟨s, by rw [h, hs], rfl, hempty'⟩
        · exact Or.inl (by rw [hhandled', h])
      live := by
        rcases hbook with ⟨-, hstatus, h⟩ | ⟨heq, h⟩
        · intro hlive
          exact absurd (h ▸ hlive) hstatus
        · intro _
          rw [h, ← heq]
          rfl
      processed := fun n hn => hm.processed n (hstep.processed digest hpending hn) }

theorem invariant_depthUpdate {x : Venue} {stream : DiffStream x} {p : Pipeline}
    (hp : p.FirstGeneration stream) {d : BinanceDepthUpdatePayload} {receipt : Receipt}
    (hgenuine : p.Genuine stream (.depthUpdate d receipt)) (hfits : p.FrameFits x d) :
    (p.step digest (.depthUpdate d receipt)).Invariant stream := by
  have hd := hgenuine.1
  have hbook := p.connector.handleDepthUpdate_book d receipt
  by_cases hlive : p.connector.book.status = .live
  · obtain ⟨hnone, n, hheld⟩ := hp.tracks.live hlive
    obtain ⟨m, hm⟩ : ∃ m, p.Following x m := by
      rcases hp.books with h | ⟨pre, ps, hwaiting⟩
      · exact h
      · exact absurd hlive hwaiting.status
    obtain rfl : n = m := by simpa [hheld.1] using hm.live hlive
    have hhandled : p.handled = some n := by
      rcases hm.source with h | ⟨s, hs, -⟩
      · exact h
      · simp [hnone] at hs
    obtain ⟨hok, hcases⟩ :=
      BinanceLocalOrderBook.ingest_live hd.genuine hgenuine.2.1 hlive hheld
    have hstep := frameStep digest hgenuine hok
    rcases hcases with ⟨hstale, h⟩ | ⟨hnew, hnext, h⟩ | hdormant
    · exact Or.inr (firstGeneration_stale digest hstep hp hd hfits.twoSided hm hhandled hstale
        (hbook.trans h))
    · exact Or.inr (firstGeneration_next digest hstep hp hd hfits.twoSided hlive hm hhandled hnew
        hnext (hbook.trans h))
    · exact Or.inl (hbook ▸ hdormant)
  · have hturn := hfits.inTurn.resolve_left hlive
    have hingest := BinanceLocalOrderBook.ingest_not_live hgenuine.2.1 hlive
    have horder : stream.InOrder (p.connector.book.buffer ++ [d]) := by
      refine hp.inOrder.append_singleton hd.inStream fun e he => ?_
      obtain ⟨h, hh, hle⟩ := hp.le_handled he
      have := hturn h hh
      omega
    obtain ⟨hok, hcases⟩ :=
      BinanceLocalOrderBook.bufferUpdate_cases hp.tracks hlive horder hp.behind
    rw [← hingest] at hok hcases
    have hstep := frameStep digest hgenuine hok
    rcases hcases with hdormant | ⟨status, hstatus, h, hafter⟩ | ⟨s, hs, hempty, hlt, h⟩ |
      ⟨s, hs, hempty, hU, hu, h⟩
    · exact Or.inl (hbook ▸ hdormant)
    · exact Or.inr (firstGeneration_appended digest hstep hp hd hfits hturn hstatus
        (hbook.trans h) hafter)
    · exact Or.inr (firstGeneration_covered digest hstep hp hd hfits.twoSided hturn hs hempty
        (Or.inl ⟨hlt, hlive, hbook.trans h⟩))
    · have heq : d.finalUpdateId = s.lastUpdateId := by
        have := hfits.noStraddle s hs
        omega
      exact Or.inr (firstGeneration_covered digest hstep hp hd hfits.twoSided hturn hs hempty
        (Or.inr ⟨heq, hbook.trans h⟩))

/-! ### Beyond the first generation -/

theorem dormant_ingest {book : BinanceLocalOrderBook} (h : book.Dormant)
    (d : BinanceDepthUpdatePayload) : (book.ingest d).1.Dormant := by
  unfold BinanceLocalOrderBook.ingest
  split
  · exact h
  · rw [if_pos h.status, BinanceLocalOrderBook.bufferUpdate]
    split
    · exact BinanceLocalOrderBook.dormant_invalidate book [d]
    · simp only [BinanceLocalOrderBook.tryActivateSnapshot, h.pendingSnapshot]
      exact ⟨h.generation, h.status, rfl⟩

theorem invariant_connected {x : Venue} {stream : DiffStream x} (p : Pipeline) :
    (p.step digest .connected).Invariant stream :=
  Or.inl (BinanceLocalOrderBook.dormant_invalidate p.connector.book [])

end Pipeline

end Cvf
