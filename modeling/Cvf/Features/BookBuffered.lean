/-
# Cvf.Features.BookBuffered — waiting first and following after give one book.

Updates that arrive before their snapshot wait in arrival order and are sorted when it comes; updates
that arrive after it are taken one by one.  Along one chain of increasing ids the two runs hold the
same book at every update, so the arrival order is forgotten.
-/
import Cvf.Features.BookReplay

namespace Cvf

open Cvf.Library

namespace BookSide

theorem TwoSided.ne_empty {bids asks : BookSide} (h : TwoSided bids asks) :
    bids ≠ ∅ ∧ asks ≠ ∅ := by
  obtain ⟨bestBid, bestAsk, hbid, hask, -⟩ := h
  constructor
  · rintro rfl
    cases hbid
  · rintro rfl
    cases hask

theorem TwoSided.not_crossed {bids asks : BookSide} (h : TwoSided bids asks) :
    crossed bids asks = false := by
  obtain ⟨bestBid, bestAsk, hbid, hask, hlt⟩ := h
  unfold crossed
  rw [hbid, hask]
  exact decide_eq_false (not_le.mpr hlt)

end BookSide

namespace FeatureOrderBookState

variable (digest : SourceDigest)

/-- The sides a snapshot holds after updates are put on it. -/
def sidesAfter (snapshot : OrderBookSnapshot) (updates : List OrderBookUpdate) :
    BookSide × BookSide :=
  (updates.foldl (fun side update => applySide side update.bids) (snapshotSide snapshot.bids),
    updates.foldl (fun side update => applySide side update.asks) (snapshotSide snapshot.asks))

/-- A chain of updates of a snapshot's generation: those it has passed, and those that follow it. -/
structure ChainAround (snapshot : OrderBookSnapshot) (passed following : List OrderBookUpdate) :
    Prop where
  generation : ∀ update ∈ passed ++ following, update.generation = snapshot.generation
  positive : ∀ update ∈ passed ++ following, ∃ s, update.sequence = some s ∧ 0 < s
  linked : (passed ++ following).IsChain fun u v => v.previous = u.sequence
  /-- The snapshot stands at the previous id of the first update, or at an id of the chain. -/
  position : ∃ c, sequenceNumber snapshot.sequenceId = some c ∧
    (passed = [] ∧ (∃ first ∈ following.head?, first.previous = some c) ∨
      ∃ last ∈ passed.getLast?, last.sequence = some c)
  /-- No book on the way is empty on a side or crossed. -/
  sound : ∀ done, done <+: following →
    BookSide.TwoSided (sidesAfter snapshot done).1 (sidesAfter snapshot done).2

/-- The ids of the chain increase, from the snapshot's on when the chain begins at it. -/
structure Increasing (snapshot : OrderBookSnapshot) (passed following : List OrderBookUpdate) :
    Prop where
  along : (passed ++ following).IsChain fun u v => ∀ s ∈ u.sequence, ∀ t ∈ v.sequence, s < t
  start : passed = [] → ∀ first ∈ following.head?, ∀ s ∈ first.sequence,
    ∀ c ∈ sequenceNumber snapshot.sequenceId, c < s

/-- Two books with the same synchronization and the same levels. -/
structure SameSynchronization (a b : FeatureOrderBookState) : Prop where
  synchronized : a.synchronized = b.synchronized
  sequenceId : a.sequenceId = b.sequenceId
  since : a.synchronizedSince = b.synchronizedSince
  bids : a.bids = b.bids
  asks : a.asks = b.asks

/-- Updates that continue a book standing at an id, one after the other. -/
def FollowsFrom : Int → List OrderBookUpdate → Prop
  | _, [] => True
  | c, update :: rest =>
    ∃ s, update.sequence = some s ∧ c < s ∧ s ≠ 0 ∧ update.previous = some c ∧ FollowsFrom s rest

/-! ## One continuing update -/

theorem orDefault_some {s : Int} (hzero : s ≠ 0) (default : Option Int) :
    orDefault (some s) default = some s := if_neg hzero

theorem applyLevels_of_twoSided {book : FeatureOrderBookState} {bids asks : List OrderBookLevel}
    (h : BookSide.TwoSided (applySide book.bids bids) (applySide book.asks asks)) :
    book.applyLevels bids asks = (book.putLevels bids asks, true) := by
  unfold applyLevels
  dsimp only
  rw [if_neg (not_or.mpr h.ne_empty), if_neg (Bool.eq_false_iff.mp h.not_crossed)]
  rfl

/-- The replay of an update that continues the book. -/
theorem replayOne_follows {book : FeatureOrderBookState} {update : OrderBookUpdate} {c s : Int}
    (hcurrent : book.sequenceId = some c) (hs : update.sequence = some s) (hlt : c < s)
    (hzero : s ≠ 0) (hprevious : update.previous = some c)
    (hsides : BookSide.TwoSided (applySide book.bids update.bids)
      (applySide book.asks update.asks)) :
    book.replayOne update =
      ({ book.putLevels update.bids update.asks with
          lastChange := some (book.measureChange update), sequenceId := some s }, true) := by
  have hskip : update.overtaken book.sequenceId = false := by
    simp [OrderBookUpdate.overtaken, hs, hcurrent, hlt]
  have hgap : update.gapped book.sequenceId = false := by
    simp [OrderBookUpdate.gapped, hs, hcurrent, hprevious]
  rw [replayOne_eq, hskip, hgap]
  unfold applyReplayed
  rw [applyLevels_of_twoSided hsides]
  dsimp only
  rw [hs, orDefault_some hzero]
  rfl

/-- The same update live. -/
theorem applyUpdate_follows {book : FeatureOrderBookState} {update : OrderBookUpdate} {c s : Int}
    (hgeneration : book.generation = update.generation) (hsynchronized : book.synchronized = true)
    (hcurrent : book.sequenceId = some c) (hs : update.sequence = some s) (hlt : c < s)
    (hzero : s ≠ 0) (hprevious : update.previous = some c)
    (hsides : BookSide.TwoSided (applySide book.bids update.bids)
      (applySide book.asks update.asks)) :
    (book.applyUpdate digest update).1 =
      { (book.recordLineage digest (.orderBookUpdate update)).putLevels update.bids update.asks with
          lastChange := some (book.measureChange update), sequenceId := some s } := by
  unfold OrderBookUpdate.sequence at hs
  unfold OrderBookUpdate.previous at hprevious
  have hput : (book.recordLineage digest (.orderBookUpdate update)).applyLevels update.bids
      update.asks =
        ((book.recordLineage digest (.orderBookUpdate update)).putLevels update.bids update.asks,
          true) :=
    applyLevels_of_twoSided hsides
  unfold applyUpdate
  rw [if_neg (by omega), if_neg (by omega), if_neg (by simp [hsynchronized]), hs, hcurrent]
  dsimp only
  rw [if_neg (not_le.mpr hlt), hprevious, if_neg (by simp)]
  unfold applyNext
  dsimp only
  rw [hput, hs]
  dsimp only
  rw [orDefault_some hzero]

/-! ## The chain -/

/-- What follows a chain's beginning at an id continues a book that stands there. -/
theorem followsFrom_of_chain {following : List OrderBookUpdate} {c : Int}
    (hpositive : ∀ update ∈ following, ∃ s, update.sequence = some s ∧ 0 < s)
    (hlinked : following.IsChain fun u v => v.previous = u.sequence)
    (halong : following.IsChain fun u v => ∀ s ∈ u.sequence, ∀ t ∈ v.sequence, s < t)
    (hfirst : ∀ first ∈ following.head?, first.previous = some c ∧ ∀ s ∈ first.sequence, c < s) :
    FollowsFrom c following := by
  induction following generalizing c with
  | nil => trivial
  | cons update rest ih =>
    obtain ⟨s, hs, hpos⟩ := hpositive update List.mem_cons_self
    obtain ⟨hprevious, hlt⟩ := hfirst update rfl
    obtain ⟨hnext, hlinked⟩ := List.isChain_cons.mp hlinked
    obtain ⟨hlater, halong⟩ := List.isChain_cons.mp halong
    refine ⟨s, hs, hlt s hs, hpos.ne', hprevious, ?_⟩
    apply ih (fun other hother => hpositive other (List.mem_cons_of_mem _ hother)) hlinked halong
    intro first hmem
    exact ⟨(hnext first hmem).trans hs, hlater first hmem s hs⟩

namespace ChainAround

variable {digest} {snapshot : OrderBookSnapshot} {passed following : List OrderBookUpdate}

/-- The replay sorts the updates of the chain by their ids. -/
theorem sequence_eq (h : ChainAround snapshot passed following) :
    ∀ update ∈ passed ++ following, update.sequence = some (replayKey update) := by
  intro update hupdate
  obtain ⟨s, hs, hpos⟩ := h.positive update hupdate
  have hkey : replayKey update = s := by
    unfold OrderBookUpdate.sequence at hs
    rw [replayKey, hs, orDefault_some hpos.ne', Option.getD_some]
  rw [hs, hkey]

/-- Ids along the whole chain increase. -/
theorem pairwise (h : ChainAround snapshot passed following)
    (hincreasing : Increasing snapshot passed following) :
    (passed ++ following).Pairwise fun u v => replayKey u < replayKey v := by
  have hkey := h.sequence_eq
  have hchain : (passed ++ following).IsChain fun u v => replayKey u < replayKey v :=
    isChain_of_and hincreasing.along hincreasing.along fun u v hu hv hlt _ =>
      hlt _ (hkey u hu) _ (hkey v hv)
  exact List.isChain_iff_pairwise.mp hchain

/-- The updates a snapshot has passed are overtaken by its id. -/
theorem overtaken (h : ChainAround snapshot passed following)
    (hincreasing : Increasing snapshot passed following) :
    ∀ update ∈ passed, update.overtaken (sequenceNumber snapshot.sequenceId) = true := by
  intro update hupdate
  obtain ⟨c, hc, ⟨rfl, -⟩ | ⟨last, hlast, hid⟩⟩ := h.position
  · exact absurd hupdate List.not_mem_nil
  · have hs := h.sequence_eq update (List.mem_append_left _ hupdate)
    have hlastId := h.sequence_eq last (List.mem_append_left _ (List.mem_of_getLast? hlast))
    rw [hid] at hlastId
    have hle : replayKey update ≤ c := by
      obtain ⟨front, rfl⟩ := List.getLast?_eq_some_iff.mp hlast
      rw [Option.some.inj hlastId]
      rcases List.mem_append.mp hupdate with hmem | hmem
      · have hpassed := (List.pairwise_append.mp (h.pairwise hincreasing)).1
        exact ((List.pairwise_append.mp hpassed).2.2 update hmem last (by simp)).le
      · rw [List.mem_singleton.mp hmem]
    unfold OrderBookUpdate.overtaken
    rw [hs, hc]
    exact decide_eq_true hle

/-- The updates that follow a snapshot continue a book that stands at its id. -/
theorem follows (h : ChainAround snapshot passed following)
    (hincreasing : Increasing snapshot passed following) :
    ∃ c, sequenceNumber snapshot.sequenceId = some c ∧ FollowsFrom c following := by
  obtain ⟨c, hc, hposition⟩ := h.position
  refine ⟨c, hc, ?_⟩
  obtain ⟨-, hlinked, hjoin⟩ := List.isChain_append.mp h.linked
  obtain ⟨-, halong, hjump⟩ := List.isChain_append.mp hincreasing.along
  apply followsFrom_of_chain
    (fun update hupdate => h.positive update (List.mem_append_right _ hupdate)) hlinked halong
  intro first hfirst
  rcases hposition with ⟨rfl, head, hhead, hprevious⟩ | ⟨last, hlast, hid⟩
  · obtain rfl := Option.some.inj (hfirst.symm.trans hhead)
    exact ⟨hprevious, fun s hs => hincreasing.start rfl first hfirst s hs c hc⟩
  · exact ⟨(hjoin last hlast first hfirst).trans hid,
      fun s hs => hjump last hlast first hfirst c hid s hs⟩

/-- Whatever the arrival order, the replay order is the chain's. -/
theorem insertionSort_eq (h : ChainAround snapshot passed following)
    (hincreasing : Increasing snapshot passed following) {arrived : List OrderBookUpdate}
    (harrived : arrived.Perm (passed ++ following)) :
    (arrived.insertionSort fun u v => replayKey u ≤ replayKey v) = passed ++ following := by
  have hstrict := h.pairwise hincreasing
  have hperm := (List.perm_insertionSort (fun u v => replayKey u ≤ replayKey v) arrived).trans
    harrived
  -- no two keys are equal, so the sorted order is strict as well
  have hdistinct := hperm.symm.pairwise (hstrict.imp fun hlt => hlt.ne) fun hne => hne.symm
  have hsorted := ((List.pairwise_insertionSort (fun u v => replayKey u ≤ replayKey v)
    arrived).and hdistinct).imp fun ⟨hle, hne⟩ => lt_of_le_of_ne hle hne
  exact hperm.eq_of_pairwise (fun u v _ _ huv hvu => absurd huv hvu.asymm) hsorted hstrict

end ChainAround

/-! ## The two runs -/

theorem replayPending_overtaken {book : FeatureOrderBookState} {passed : List OrderBookUpdate}
    (h : ∀ update ∈ passed, update.overtaken book.sequenceId = true)
    (rest : List OrderBookUpdate) :
    book.replayPending (passed ++ rest) = book.replayPending rest := by
  induction passed with
  | nil => rfl
  | cons update passed ih =>
    rw [List.cons_append, replayPending, replayOne_eq, if_pos (h update List.mem_cons_self)]
    exact ih fun other hother => h other (List.mem_cons_of_mem _ hother)

theorem applyUpdate_overtaken {book : FeatureOrderBookState} {update : OrderBookUpdate}
    (hgeneration : book.generation = update.generation) (hsynchronized : book.synchronized = true)
    (h : update.overtaken book.sequenceId = true) :
    (book.applyUpdate digest update).1 = book := by
  unfold OrderBookUpdate.overtaken OrderBookUpdate.sequence at h
  unfold applyUpdate
  rw [if_neg (by omega), if_neg (by omega), if_neg (by simp [hsynchronized])]
  cases hs : sequenceNumber update.sequenceId with
  | none =>
    rw [hs] at h
    cases h
  | some s =>
    cases hc : book.sequenceId with
    | none =>
      rw [hs, hc] at h
      cases h
    | some c =>
      rw [hs, hc] at h
      have hle : s ≤ c := of_decide_eq_true h
      dsimp only
      rw [if_pos hle]

/-- Passed updates leave a synchronized book as it is. -/
theorem foldl_overtaken {book : FeatureOrderBookState} {passed : List OrderBookUpdate}
    (hgeneration : ∀ update ∈ passed, update.generation = book.generation)
    (hsynchronized : book.synchronized = true)
    (h : ∀ update ∈ passed, update.overtaken book.sequenceId = true) :
    (passed.map NormalizedMarketEvent.orderBookUpdate).foldl (consume digest) book = book := by
  induction passed with
  | nil => rfl
  | cons update passed ih =>
    have hfirst : book.consume digest (.orderBookUpdate update) = book :=
      applyUpdate_overtaken digest (hgeneration update List.mem_cons_self).symm hsynchronized
        (h update List.mem_cons_self)
    rw [List.map_cons, List.foldl_cons, hfirst]
    exact ih (fun other hother => hgeneration other (List.mem_cons_of_mem _ hother))
      fun other hother => h other (List.mem_cons_of_mem _ hother)

/-- Replayed and taken live, the updates that follow leave the same levels. -/
theorem replay_eq_live {waited live : FeatureOrderBookState} {following : List OrderBookUpdate}
    {c : Int} (hsame : SameSynchronization waited live) (hsynchronized : live.synchronized = true)
    (hgeneration : ∀ update ∈ following, update.generation = live.generation)
    (hcurrent : live.sequenceId = some c) (hfollows : FollowsFrom c following)
    (hsound : ∀ done, done <+: following →
      BookSide.TwoSided
        (done.foldl (fun side update => applySide side update.bids) live.bids)
        (done.foldl (fun side update => applySide side update.asks) live.asks)) :
    SameSynchronization (waited.replayPending following).1
      ((following.map NormalizedMarketEvent.orderBookUpdate).foldl (consume digest) live) := by
  induction following generalizing waited live c with
  | nil => exact hsame
  | cons update rest ih =>
    obtain ⟨s, hs, hlt, hzero, hprevious, hrest⟩ := hfollows
    have hsides : BookSide.TwoSided (applySide live.bids update.bids)
        (applySide live.asks update.asks) := hsound [update] (List.prefix_append [update] rest)
    have hwaited : BookSide.TwoSided (applySide waited.bids update.bids)
        (applySide waited.asks update.asks) := by
      rw [hsame.bids, hsame.asks]
      exact hsides
    have hlive := applyUpdate_follows digest (hgeneration update List.mem_cons_self).symm
      hsynchronized hcurrent hs hlt hzero hprevious hsides
    unfold replayPending
    rw [replayOne_follows (hsame.sequenceId.trans hcurrent) hs hlt hzero hprevious hwaited]
    show SameSynchronization _ ((rest.map NormalizedMarketEvent.orderBookUpdate).foldl (consume digest)
      (live.applyUpdate digest update).1)
    rw [hlive]
    refine ih ?_ hsynchronized
      (fun other hother => hgeneration other (List.mem_cons_of_mem _ hother)) rfl hrest
      fun done hdone => hsound (update :: done) (List.cons_prefix_cons.mpr ⟨rfl, hdone⟩)
    · refine ⟨hsame.synchronized, rfl, hsame.since, ?_, ?_⟩
      · show applySide waited.bids update.bids = applySide live.bids update.bids
        rw [hsame.bids]
      · show applySide waited.asks update.asks = applySide live.asks update.asks
        rw [hsame.asks]

/-- A book out of synchronization keeps the updates of its generation in arrival order. -/
structure Waiting (pendingCapacity generation : Nat) (updates : List OrderBookUpdate)
    (book : FeatureOrderBookState) : Prop where
  pendingCapacity : book.pendingCapacity = pendingCapacity
  generation : book.generation = generation
  synchronized : book.synchronized = false
  pending : book.pending = updates

theorem buffer_waiting {pendingCapacity generation : Nat} {updates : List OrderBookUpdate}
    {book : FeatureOrderBookState} (h : Waiting pendingCapacity generation updates book)
    (update : OrderBookUpdate) (hroom : updates.length < pendingCapacity) :
    Waiting pendingCapacity generation (updates ++ [update]) (book.buffer digest update).1 := by
  have hfree : ¬ book.pendingCapacity ≤ book.pending.length := by
    rw [h.pendingCapacity, h.pending]
    exact not_le.mpr hroom
  unfold buffer
  rw [if_neg hfree]
  exact ⟨h.pendingCapacity, h.generation, h.synchronized, congrArg (· ++ [update]) h.pending⟩

theorem foldl_waiting {pendingCapacity generation : Nat} {before updates : List OrderBookUpdate}
    {book : FeatureOrderBookState} (h : Waiting pendingCapacity generation before book)
    (hgeneration : ∀ update ∈ updates, update.generation = generation)
    (hroom : before.length + updates.length ≤ pendingCapacity) :
    Waiting pendingCapacity generation (before ++ updates)
      ((updates.map NormalizedMarketEvent.orderBookUpdate).foldl (consume digest) book) := by
  induction updates generalizing before book with
  | nil =>
    rw [List.append_nil]
    exact h
  | cons update rest ih =>
    rw [List.length_cons] at hroom
    have hown := hgeneration update List.mem_cons_self
    have hbuffer : book.consume digest (.orderBookUpdate update) =
        (book.buffer digest update).1 := by
      show (book.applyUpdate digest update).1 = _
      have hbook := h.generation
      unfold applyUpdate
      rw [if_neg (by omega), if_neg (by omega), if_pos (by simp [h.synchronized])]
    rw [List.map_cons, List.foldl_cons, hbuffer, List.append_cons]
    apply ih (buffer_waiting digest h update (by omega))
      fun other hother => hgeneration other (List.mem_cons_of_mem _ hother)
    rw [List.length_append, List.length_singleton]
    omega

/-- A fresh book waits with the updates of one generation, whatever that generation is. -/
theorem fresh_waiting {pendingCapacity generation : Nat} (hcapacity : 1 ≤ pendingCapacity)
    {updates : List OrderBookUpdate} (hnonempty : updates ≠ [])
    (hgeneration : ∀ update ∈ updates, update.generation = generation)
    (hroom : updates.length ≤ pendingCapacity) :
    Waiting pendingCapacity generation updates
      ((updates.map NormalizedMarketEvent.orderBookUpdate).foldl (consume digest)
        (fresh pendingCapacity hcapacity)) := by
  obtain ⟨update, rest, rfl⟩ := List.exists_cons_of_ne_nil hnonempty
  have hown := hgeneration update List.mem_cons_self
  rw [List.length_cons] at hroom
  have hfirst : Waiting pendingCapacity generation [update]
      ((fresh pendingCapacity hcapacity).consume digest (.orderBookUpdate update)) := by
    show Waiting pendingCapacity generation [update]
      ((fresh pendingCapacity hcapacity).applyUpdate digest update).1
    have hstale : ¬ update.generation < (fresh pendingCapacity hcapacity).generation :=
      Nat.not_lt_zero _
    unfold applyUpdate
    rw [if_neg hstale]
    by_cases hnewer : (fresh pendingCapacity hcapacity).generation < update.generation
    · -- a first update of a later generation empties the book, which is empty anyway
      have hempty : Waiting pendingCapacity generation []
          ((fresh pendingCapacity hcapacity).reset update.generation
            (some "book generation changed before snapshot") true) := ⟨rfl, hown, rfl, rfl⟩
      rw [if_pos hnewer]
      exact buffer_waiting digest hempty update hcapacity
    · have hzero : update.generation = 0 := Nat.eq_zero_of_not_pos hnewer
      have hempty : Waiting pendingCapacity generation [] (fresh pendingCapacity hcapacity) :=
        ⟨rfl, hzero.symm.trans hown, rfl, rfl⟩
      have hwaits : (!(fresh pendingCapacity hcapacity).synchronized) = true := rfl
      rw [if_neg hnewer, if_pos hwaits]
      exact buffer_waiting digest hempty update hcapacity
  rw [List.map_cons, List.foldl_cons]
  apply foldl_waiting digest hfirst
    fun other hother => hgeneration other (List.mem_cons_of_mem _ hother)
  rw [List.length_singleton]
  omega

/-- A snapshot of two sides replays what waits onto a book out of synchronization. -/
theorem applySnapshot_waiting {book : FeatureOrderBookState} {snapshot : OrderBookSnapshot}
    (hgeneration : book.generation ≤ snapshot.generation) (hsynchronized : book.synchronized = false)
    (hsides : BookSide.TwoSided (snapshotSide snapshot.bids) (snapshotSide snapshot.asks)) :
    book.applySnapshot digest snapshot =
      (book.installed digest snapshot).replayPending (book.replayed snapshot) := by
  have hspec := book.installed_spec digest snapshot
  have hstale : book.isStale snapshot = false := by simp [isStale, hsynchronized]
  have hcrossed : BookSide.crossed (book.installed digest snapshot).bids
      (book.installed digest snapshot).asks = false := by
    rw [hspec.bids, hspec.asks]
    exact hsides.not_crossed
  unfold applySnapshot
  rw [if_neg (not_lt.mpr hgeneration), hstale, if_neg Bool.false_ne_true]
  dsimp only
  rw [hcrossed, Bool.and_false, if_neg Bool.false_ne_true]
  rfl

/-- What a snapshot of two sides installs in a book out of synchronization. -/
theorem installed_waiting (book : FeatureOrderBookState) {snapshot : OrderBookSnapshot}
    (hsynchronized : book.synchronized = false)
    (hsides : BookSide.TwoSided (snapshotSide snapshot.bids) (snapshotSide snapshot.asks)) :
    (book.installed digest snapshot).synchronized = true ∧
      (book.installed digest snapshot).synchronizedSince = some snapshot.exchangeTimestamp := by
  have hspec := book.installed_spec digest snapshot
  obtain ⟨hbids, hasks⟩ := hsides.ne_empty
  have hlive : (book.installed digest snapshot).synchronized = true := by
    rw [hspec.synchronized, hspec.bids, hspec.asks]
    simp [hbids, hasks]
  refine ⟨hlive, ?_⟩
  rw [hspec.since, if_pos hlive, continues, hsynchronized, Bool.and_false,
    if_neg Bool.false_ne_true]

/-- Starting fresh, a chain of increasing ids that arrives before its snapshot, in any order and within
the capacity, leaves the same synchronization and levels as one that follows the snapshot in order. -/
theorem buffered_replay_equals_live {pendingCapacity : Nat} (hcapacity : 1 ≤ pendingCapacity)
    {snapshot : OrderBookSnapshot} {passed following arrived : List OrderBookUpdate}
    (hchain : ChainAround snapshot passed following)
    (hincreasing : Increasing snapshot passed following)
    (harrived : arrived.Perm (passed ++ following)) (hroom : arrived.length ≤ pendingCapacity) :
    SameSynchronization
      ((arrived.map NormalizedMarketEvent.orderBookUpdate ++
          [NormalizedMarketEvent.orderBookSnapshot snapshot]).foldl
        (consume digest) (fresh pendingCapacity hcapacity))
      ((NormalizedMarketEvent.orderBookSnapshot snapshot ::
          (passed ++ following).map NormalizedMarketEvent.orderBookUpdate).foldl
        (consume digest) (fresh pendingCapacity hcapacity)) := by
  have hnonempty : arrived ≠ [] := by
    rintro rfl
    obtain ⟨c, -, ⟨-, first, hfirst, -⟩ | ⟨last, hlast, -⟩⟩ := hchain.position
    · exact absurd (harrived.symm.subset (List.mem_append_right _ (List.mem_of_mem_head? hfirst)))
        List.not_mem_nil
    · exact absurd (harrived.symm.subset (List.mem_append_left _ (List.mem_of_getLast? hlast)))
        List.not_mem_nil
  have hsides : BookSide.TwoSided (snapshotSide snapshot.bids) (snapshotSide snapshot.asks) :=
    hchain.sound [] (List.nil_prefix)
  obtain ⟨c, hc, hfollows⟩ := hchain.follows hincreasing
  -- all updates wait, and the snapshot replays them in the chain's order
  have hwaiting := fresh_waiting digest hcapacity hnonempty
    (fun update hupdate => hchain.generation update (harrived.subset hupdate)) hroom
  rw [List.foldl_append, List.foldl_cons]
  generalize (arrived.map NormalizedMarketEvent.orderBookUpdate).foldl (consume digest)
    (fresh pendingCapacity hcapacity) = waited at hwaiting ⊢
  have hwaited : (waited.applySnapshot digest snapshot).1 =
      ((waited.installed digest snapshot).replayPending (passed ++ following)).1 := by
    have hreplayed : waited.replayed snapshot = passed ++ following := by
      rw [replayed, if_pos hwaiting.generation.symm, hwaiting.pending]
      exact hchain.insertionSort_eq hincreasing harrived
    rw [applySnapshot_waiting digest hwaiting.generation.le hwaiting.synchronized hsides, hreplayed]
  -- the snapshot alone finds nothing to replay
  have hfresh : ((fresh pendingCapacity hcapacity).applySnapshot digest snapshot).1 =
      (fresh pendingCapacity hcapacity).installed digest snapshot := by
    have hreplayed : (fresh pendingCapacity hcapacity).replayed snapshot = [] := by
      unfold replayed
      split_ifs <;> rfl
    rw [applySnapshot_waiting digest (Nat.zero_le _) rfl hsides, hreplayed]
    rfl
  have hspec := waited.installed_spec digest snapshot
  have hspec' := (fresh pendingCapacity hcapacity).installed_spec digest snapshot
  obtain ⟨hlive, hsince⟩ := waited.installed_waiting digest hwaiting.synchronized hsides
  obtain ⟨hlive', hsince'⟩ :=
    (fresh pendingCapacity hcapacity).installed_waiting digest rfl hsides
  have hsame : SameSynchronization (waited.installed digest snapshot)
      ((fresh pendingCapacity hcapacity).installed digest snapshot) :=
    ⟨hlive.trans hlive'.symm, hspec.sequenceId.trans hspec'.sequenceId.symm,
      hsince.trans hsince'.symm, hspec.bids.trans hspec'.bids.symm,
      hspec.asks.trans hspec'.asks.symm⟩
  show SameSynchronization (waited.applySnapshot digest snapshot).1
    (((passed ++ following).map NormalizedMarketEvent.orderBookUpdate).foldl (consume digest)
      ((fresh pendingCapacity hcapacity).applySnapshot digest snapshot).1)
  have hpassed := hchain.overtaken hincreasing
  rw [hwaited, hfresh, List.map_append, List.foldl_append, replayPending_overtaken,
    foldl_overtaken digest _ hlive']
  · apply replay_eq_live digest hsame hlive' _ (hspec'.sequenceId.trans hc) hfollows
    · rw [hspec'.bids, hspec'.asks]
      exact hchain.sound
    · intro update hupdate
      rw [hspec'.generation]
      exact hchain.generation update (List.mem_append_right _ hupdate)
  · rw [hspec'.sequenceId]
    exact hpassed
  · intro update hupdate
    rw [hspec'.generation]
    exact hchain.generation update (List.mem_append_left _ hupdate)
  · rw [hspec.sequenceId]
    exact hpassed

/-- Two linked updates behind the snapshot at id ten. -/
theorem chainAround_two (second : Int) (hpositive : 0 < second) :
    ChainAround tenthSnapshot [] [bidUpdate 10 12, bidUpdate 12 second] where
  generation := by
    intro update hupdate
    rcases List.mem_cons.mp hupdate with rfl | hupdate
    · rfl
    · rw [List.mem_singleton.mp hupdate]
      rfl
  positive := by
    intro update hupdate
    rcases List.mem_cons.mp hupdate with rfl | hupdate
    · exact ⟨12, rfl, by norm_num⟩
    · rw [List.mem_singleton.mp hupdate]
      exact ⟨second, rfl, hpositive⟩
  linked := List.isChain_pair.mpr rfl
  position := ⟨10, rfl, .inl ⟨rfl, bidUpdate 10 12, rfl, rfl⟩⟩
  sound := by
    intro done hdone
    have hinits : done ∈ [bidUpdate 10 12, bidUpdate 12 second].inits := (List.mem_inits ..).mpr hdone
    have hcases : done = [] ∨ done = [bidUpdate 10 12] ∨
        done = [bidUpdate 10 12, bidUpdate 12 second] := by
      simpa [List.inits] using hinits
    rcases hcases with rfl | rfl | rfl
    · exact BookSide.twoSided_of_not_crossed (by decide +kernel) (by decide +kernel)
        (by decide +kernel)
    · exact BookSide.twoSided_of_not_crossed (by decide +kernel) (by decide +kernel)
        (by decide +kernel)
    · -- the ids play no part in the levels
      show BookSide.TwoSided
        (sidesAfter tenthSnapshot [bidUpdate 10 12, bidUpdate 12 13]).1
        (sidesAfter tenthSnapshot [bidUpdate 10 12, bidUpdate 12 13]).2
      exact BookSide.twoSided_of_not_crossed (by decide +kernel) (by decide +kernel)
        (by decide +kernel)

/-- The two updates arrive in the wrong order before the snapshot. -/
theorem buffered_replay_equals_live_two :
    SameSynchronization
      (([bidUpdate 12 13, bidUpdate 10 12].map NormalizedMarketEvent.orderBookUpdate ++
          [NormalizedMarketEvent.orderBookSnapshot tenthSnapshot]).foldl
        (consume fun _ _ => 0) (fresh 2 one_le_two))
      ((NormalizedMarketEvent.orderBookSnapshot tenthSnapshot ::
          ([] ++ [bidUpdate 10 12, bidUpdate 12 13]).map
            NormalizedMarketEvent.orderBookUpdate).foldl
        (consume fun _ _ => 0) (fresh 2 one_le_two)) := by
  have hincreasing : Increasing tenthSnapshot [] [bidUpdate 10 12, bidUpdate 12 13] := by
    refine ⟨List.isChain_pair.mpr ?_, ?_⟩
    · intro s hs t ht
      obtain rfl := Option.some.inj hs
      obtain rfl := Option.some.inj ht
      norm_num
    · intro _ first hfirst s hs c hc
      obtain rfl := Option.some.inj hfirst
      obtain rfl := Option.some.inj hs
      obtain rfl := Option.some.inj hc
      norm_num
  exact buffered_replay_equals_live (fun _ _ => 0) one_le_two
    (chainAround_two 13 (by norm_num)) hincreasing (List.Perm.swap ..) le_rfl

/-- The second update steps back from twelve to eleven: live it is stale, waiting it is sorted first
and ends the replay with a gap. -/
theorem stepping_back_replayed_otherwise :
    ¬ ∀ (digest : SourceDigest) (pendingCapacity : Nat) (hcapacity : 1 ≤ pendingCapacity)
        (snapshot : OrderBookSnapshot) (passed following arrived : List OrderBookUpdate),
        ChainAround snapshot passed following → arrived.Perm (passed ++ following) →
        arrived.length ≤ pendingCapacity →
        SameSynchronization
          ((arrived.map NormalizedMarketEvent.orderBookUpdate ++
              [NormalizedMarketEvent.orderBookSnapshot snapshot]).foldl
            (consume digest) (fresh pendingCapacity hcapacity))
          ((NormalizedMarketEvent.orderBookSnapshot snapshot ::
              (passed ++ following).map NormalizedMarketEvent.orderBookUpdate).foldl
            (consume digest) (fresh pendingCapacity hcapacity)) := by
  intro hclaim
  have hsame := (hclaim (fun _ _ => 0) 2 one_le_two tenthSnapshot []
    [bidUpdate 10 12, bidUpdate 12 11] [bidUpdate 10 12, bidUpdate 12 11]
    (chainAround_two 11 (by norm_num)) (List.Perm.refl _) le_rfl).synchronized
  revert hsame
  decide +kernel

end FeatureOrderBookState

end Cvf
