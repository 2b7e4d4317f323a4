/-
# Cvf.Binance.Outcome — how a call on the local book ends.

Every path through `ingest` and `install_snapshot` ends in one of a few ways: the book is lost to the
next generation, it goes live with an empty buffer, a level that does not parse leaves it where it was
in the protocol, or it goes on waiting.  `tryActivateSnapshot_outcome` says so for activation and
`call_ends` for every call, on any payload; what holds of the book in every run is read off it.

One ending does not fit: a snapshot older than everything buffered makes the book ask for another in
the generation it is in (`Call.Misses`).
-/
import Cvf.Binance.Exchange

namespace Cvf

open Cvf.Library

namespace BinanceLocalOrderBook

/-- What a call returns or raises. -/
def answer (book : BinanceLocalOrderBook) : Call → Except BookError BookApplyResult
  | .beginResync reason => .ok (book.beginResync reason).2
  | .ingest update => (book.ingest update).2
  | .installSnapshot snapshot => (book.installSnapshot snapshot).2

/-- The texts of the levels parse. -/
def Readable (levels : List BookLevelText) : Prop := ∃ parsed, levels.mapM parseLevel = .ok parsed

def ReadableDiff (d : BinanceDepthUpdatePayload) : Prop := Readable d.bids ∧ Readable d.asks

def ReadableSnapshot (s : BinanceDepthSnapshotPayload) : Prop := Readable s.bids ∧ Readable s.asks

def Call.WellFormed : Call → Prop
  | .beginResync _ => True
  | .ingest update => ReadableDiff update
  | .installSnapshot snapshot => ReadableSnapshot snapshot

/-! ## Stored quantities -/

/-- No stored quantity is zero. -/
def NonzeroSide (side : BookSide) : Prop := ∀ p, side.lookup p ≠ some 0

theorem nonzeroSide_empty : NonzeroSide ∅ := by
  intro p
  simp

theorem nonzeroSide_put {side : BookSide} (h : NonzeroSide side) (price quantity : Decimal) :
    NonzeroSide (side.put price quantity) := by
  intro p
  rw [BookSide.lookup_put]
  split_ifs with hp hq
  · simp
  · intro hzero
    exact hq (Option.some.inj hzero)
  · exact h p

/-- Also where a level does not parse. -/
theorem nonzeroSide_applySide {side : BookSide} (h : NonzeroSide side) (levels : List BookLevelText) :
    NonzeroSide (applySide side levels).1 := by
  induction levels generalizing side with
  | nil => exact h
  | cons level rest ih =>
      unfold applySide
      cases hlevel : parseLevel level with
      | error e => exact h
      | ok parsed => exact ih (nonzeroSide_put h parsed.1 parsed.2)

/-- A side takes the levels exactly when they parse. -/
theorem applySide_eq_none_iff (side : BookSide) (levels : List BookLevelText) :
    (applySide side levels).2 = none ↔ Readable levels := by
  induction levels generalizing side with
  | nil => exact iff_of_true rfl ⟨[], mapM_nil_eq_ok.mpr rfl⟩
  | cons level rest ih =>
      unfold applySide
      cases hlevel : parseLevel level with
      | error e =>
          apply iff_of_false
          · intro hnone
            cases hnone
          rintro ⟨parsed, hparsed⟩
          obtain ⟨l, ls, hl, -⟩ := mapM_cons_eq_ok.mp hparsed
          rw [hlevel] at hl
          cases hl
      | ok l =>
          refine (ih _).trans ⟨?_, ?_⟩
          · rintro ⟨ls, hls⟩
            exact ⟨l :: ls, mapM_cons_eq_ok.mpr ⟨l, ls, hlevel, hls, rfl⟩⟩
          · rintro ⟨parsed, hparsed⟩
            obtain ⟨l', ls, -, hls, -⟩ := mapM_cons_eq_ok.mp hparsed
            exact ⟨ls, hls⟩

theorem readable_of_snapshotSide {levels : List BookLevelText} {side : BookSide}
    (h : snapshotSide levels = .ok side) : Readable levels := by
  unfold snapshotSide at h
  generalize (∅ : BookSide) = start at h
  induction levels generalizing start with
  | nil => exact ⟨[], mapM_nil_eq_ok.mpr rfl⟩
  | cons level rest ih =>
      rw [List.foldlM_cons] at h
      obtain ⟨next, hnext, hrest⟩ := bind_eq_ok_iff.mp h
      obtain ⟨parsed, hparsed, -⟩ := bind_eq_ok_iff.mp hnext
      obtain ⟨others, hothers⟩ := ih next hrest
      exact ⟨_, mapM_cons_eq_ok.mpr ⟨parsed, others, hparsed, hothers, rfl⟩⟩

theorem nonzeroSide_snapshotSide {levels : List BookLevelText} {parsed : List (Decimal × Decimal)}
    (h : levels.mapM parseLevel = .ok parsed) :
    ∃ side, snapshotSide levels = .ok side ∧ NonzeroSide side := by
  refine ⟨_, snapshotSide_of_parsed h, ?_⟩
  suffices hfold : ∀ (ls : List (Decimal × Decimal)) (side : BookSide), NonzeroSide side →
      NonzeroSide (ls.foldl (fun s l => if 0 < l.2 then s.insert l.1 l.2 else s) side) from
    hfold parsed ∅ nonzeroSide_empty
  intro ls
  induction ls with
  | nil => exact fun side hside => hside
  | cons l ls ih =>
      intro side hside
      rw [List.foldl_cons]
      apply ih
      split_ifs with hpositive
      · intro p
        by_cases hp : p = l.1
        · rw [hp, Finmap.lookup_insert]
          intro hzero
          exact hpositive.ne' (Option.some.inj hzero)
        · rw [Finmap.lookup_insert_of_ne _ hp]
          exact hside p
      · exact hside

def Nonzero (book : BinanceLocalOrderBook) : Prop := NonzeroSide book.bids ∧ NonzeroSide book.asks

/-! ## How an operation ends -/

/-- Same symbol, bound and generation. -/
structure SameGeneration (book after : BinanceLocalOrderBook) : Prop where
  venueSymbol : after.venueSymbol = book.venueSymbol
  maxBufferEvents : after.maxBufferEvents = book.maxBufferEvents
  generation : after.generation = book.generation

theorem SameGeneration.refl (book : BinanceLocalOrderBook) : SameGeneration book book :=
  ⟨rfl, rfl, rfl⟩

theorem SameGeneration.trans {book middle after : BinanceLocalOrderBook}
    (h : SameGeneration book middle) (h' : SameGeneration middle after) : SameGeneration book after :=
  ⟨h'.venueSymbol.trans h.venueSymbol, h'.maxBufferEvents.trans h.maxBufferEvents,
    h'.generation.trans h.generation⟩

/-- The book was lost with a tail of `source` in its buffer, and the result says so. -/
def Lost (book after : BinanceLocalOrderBook) (transition : BookTransition)
    (source : List BinanceDepthUpdatePayload) (result : Except BookError BookApplyResult) : Prop :=
  ∃ (before : BinanceLocalOrderBook) (buffer : List BinanceDepthUpdatePayload)
    (reason : Option String), SameGeneration book before ∧ buffer <:+ source ∧
      after = before.invalidate buffer ∧ result = .ok (after.result transition true reason)

/-- The book went live from its pending snapshot. -/
structure WentLive (book after : BinanceLocalOrderBook)
    (result : Except BookError BookApplyResult) : Prop where
  same : SameGeneration book after
  status : after.status = .live
  pendingSnapshot : after.pendingSnapshot = none
  buffer : after.buffer = []
  sequenceId : after.sequenceId.isSome
  nonzero : after.Nonzero
  result_eq : result = .ok (after.result .snapshotApplied false)

/-- The book is where it was in the protocol, with a tail of `source` left. -/
structure Stayed (book after : BinanceLocalOrderBook) (source : List BinanceDepthUpdatePayload) :
    Prop where
  same : SameGeneration book after
  status : after.status = book.status
  pendingSnapshot : after.pendingSnapshot = book.pendingSnapshot
  buffer : after.buffer <:+ source
  sequenceId : after.sequenceId.isSome
  nonzero : after.Nonzero

/-- An update changes the sides and, when its levels parse, the sequence id. -/
theorem applyUpdate_outcome {book : BinanceLocalOrderBook} (h : book.Nonzero)
    (update : BinanceDepthUpdatePayload) :
    ∃ bids asks sequenceId,
      (book.applyUpdate update).1 = { book with bids, asks, sequenceId } ∧
        NonzeroSide bids ∧ NonzeroSide asks ∧
        ((book.applyUpdate update).2 = none ∧ sequenceId = some update.finalUpdateId ∧
            ReadableDiff update ∨
          (∃ e, (book.applyUpdate update).2 = some e) ∧ sequenceId = book.sequenceId ∧
            ¬ ReadableDiff update) := by
  have hbids := nonzeroSide_applySide h.1 update.bids
  have hasks := nonzeroSide_applySide h.2 update.asks
  have hbidsRead := applySide_eq_none_iff book.bids update.bids
  have hasksRead := applySide_eq_none_iff book.asks update.asks
  unfold applyUpdate ReadableDiff
  generalize applySide book.bids update.bids = applied at hbids hbidsRead ⊢
  obtain ⟨bids, eb⟩ := applied
  cases eb with
  | some e =>
      refine ⟨bids, book.asks, book.sequenceId, rfl, hbids, h.2, Or.inr ⟨⟨e, rfl⟩, rfl, ?_⟩⟩
      intro hread
      cases hbidsRead.mpr hread.1
  | none =>
      generalize applySide book.asks update.asks = applied at hasks hasksRead ⊢
      obtain ⟨asks, ea⟩ := applied
      cases ea with
      | some e =>
          refine ⟨bids, asks, book.sequenceId, rfl, hbids, hasks, Or.inr ⟨⟨e, rfl⟩, rfl, ?_⟩⟩
          intro hread
          cases hasksRead.mpr hread.2
      | none =>
          exact ⟨bids, asks, _, rfl, hbids, hasks,
            Or.inl ⟨rfl, rfl, hbidsRead.mp rfl, hasksRead.mp rfl⟩⟩

/-- The second loop: live, lost to a gap in the buffered chain, or stopped by a level, with the diff it
is in off the buffer. -/
theorem replayBuffered_outcome (rest : List BinanceDepthUpdatePayload)
    {book : BinanceLocalOrderBook} (hsequence : book.sequenceId.isSome) (hnonzero : book.Nonzero) :
    WentLive book (book.replayBuffered rest).1 (book.replayBuffered rest).2 ∨
      Lost book (book.replayBuffered rest).1 .sequenceGap rest (book.replayBuffered rest).2 ∨
      Stayed book (book.replayBuffered rest).1 rest.tail ∧
        (∃ e, (book.replayBuffered rest).2 = .error (.payload e)) ∧ ∃ d ∈ rest, ¬ ReadableDiff d := by
  induction rest generalizing book with
  | nil => exact Or.inl ⟨⟨rfl, rfl, rfl⟩, rfl, rfl, rfl, hsequence, hnonzero, rfl⟩
  | cons update rest ih =>
      obtain ⟨previous, hprevious⟩ := Option.isSome_iff_exists.mp hsequence
      have htail : rest <:+ update :: rest := List.suffix_cons update rest
      -- what the rest of the loop does to a book of the same generation, status and snapshot
      have hrest : ∀ next : BinanceLocalOrderBook, SameGeneration book next →
          next.status = book.status → next.pendingSnapshot = book.pendingSnapshot →
          next.sequenceId.isSome → next.Nonzero →
          WentLive book (next.replayBuffered rest).1 (next.replayBuffered rest).2 ∨
            Lost book (next.replayBuffered rest).1 .sequenceGap (update :: rest)
              (next.replayBuffered rest).2 ∨
            Stayed book (next.replayBuffered rest).1 rest ∧
              (∃ e, (next.replayBuffered rest).2 = .error (.payload e)) ∧
              ∃ d ∈ update :: rest, ¬ ReadableDiff d := by
        intro next hsame hstatus hpending hseq hnz
        rcases ih hseq hnz with hlive | hlost | ⟨hstayed, herror, d, hd, hunread⟩
        · exact Or.inl { hlive with same := hsame.trans hlive.same }
        · obtain ⟨before, buffer, reason, hbefore, hbuffer, hafter, hresult⟩ := hlost
          exact Or.inr (Or.inl ⟨before, buffer, reason, hsame.trans hbefore, hbuffer.trans htail,
            hafter, hresult⟩)
        · exact Or.inr (Or.inr ⟨⟨hsame.trans hstayed.same, hstayed.status.trans hstatus,
            hstayed.pendingSnapshot.trans hpending, hstayed.buffer.trans (List.tail_suffix rest),
            hstayed.sequenceId, hstayed.nonzero⟩, herror, d, List.mem_cons_of_mem _ hd, hunread⟩)
      unfold replayBuffered
      rw [hprevious]
      dsimp only
      split_ifs with hstale hgap
      · exact hrest book (SameGeneration.refl book) rfl rfl hsequence hnonzero
      · exact Or.inr (Or.inl ⟨book, update :: rest, _, SameGeneration.refl book, List.suffix_refl _,
          rfl, rfl⟩)
      · obtain ⟨bids, asks, sequenceId, happlied, hbids, hasks, hcases⟩ :=
          applyUpdate_outcome hnonzero update
        generalize book.applyUpdate update = applied at happlied hcases ⊢
        obtain ⟨next, error⟩ := applied
        dsimp only at happlied hcases ⊢
        subst happlied
        rcases hcases with ⟨rfl, rfl, -⟩ | ⟨⟨e, rfl⟩, rfl, hunread⟩
        · exact hrest _ ⟨rfl, rfl, rfl⟩ rfl rfl rfl ⟨hbids, hasks⟩
        · exact Or.inr (Or.inr ⟨⟨⟨rfl, rfl, rfl⟩, rfl, rfl, List.suffix_refl _, hsequence, hbids,
            hasks⟩, ⟨e, rfl⟩, update, List.mem_cons_self, hunread⟩)

/-- A level stopped the activation: one of the bridging diff, or one behind it. -/
structure Stopped (book after : BinanceLocalOrderBook) (first : BinanceDepthUpdatePayload)
    (rest : List BinanceDepthUpdatePayload) : Prop where
  stayed : Stayed book after rest
  atFirst : ¬ ReadableDiff first → after = { (book.applyUpdate first).1 with buffer := rest }
  behind : ReadableDiff first → after.buffer <:+ rest.tail ∧ ∃ d ∈ rest, ¬ ReadableDiff d

/-- From the bridging diff on. -/
theorem activateFrom_outcome (first : BinanceDepthUpdatePayload)
    (rest : List BinanceDepthUpdatePayload) {book : BinanceLocalOrderBook}
    (hsequence : book.sequenceId.isSome) (hnonzero : book.Nonzero) :
    WentLive book (book.activateFrom first rest).1 (book.activateFrom first rest).2 ∨
      Lost book (book.activateFrom first rest).1 .sequenceGap rest
        (book.activateFrom first rest).2 ∨
      Stopped book (book.activateFrom first rest).1 first rest ∧
        ∃ e, (book.activateFrom first rest).2 = .error (.payload e) := by
  obtain ⟨bids, asks, sequenceId, happlied, hbids, hasks, hcases⟩ :=
    applyUpdate_outcome hnonzero first
  unfold activateFrom
  rcases hcases with ⟨hnone, rfl, hread⟩ | ⟨⟨e, he⟩, rfl, hunread⟩
  · rw [show book.applyUpdate first =
      ({ book with bids, asks, sequenceId := some first.finalUpdateId }, none) from
      Prod.ext happlied hnone]
    dsimp only
    have hreplayed := @replayBuffered_outcome rest
      { book with bids, asks, sequenceId := some first.finalUpdateId } rfl ⟨hbids, hasks⟩
    rcases hreplayed with hlive | hlost | ⟨hstayed, herror, hbehind⟩
    · exact Or.inl { hlive with same := ⟨hlive.same.1, hlive.same.2, hlive.same.3⟩ }
    · obtain ⟨before, buffer, reason, hbefore, hrest⟩ := hlost
      exact Or.inr (Or.inl ⟨before, buffer, reason, ⟨hbefore.1, hbefore.2, hbefore.3⟩, hrest⟩)
    · refine Or.inr (Or.inr ⟨⟨?_, fun hno => absurd hread hno, fun _ => ⟨hstayed.buffer, hbehind⟩⟩,
        herror⟩)
      exact { hstayed with
        same := ⟨hstayed.same.1, hstayed.same.2, hstayed.same.3⟩
        buffer := hstayed.buffer.trans (List.tail_suffix rest) }
  · refine Or.inr (Or.inr ⟨⟨?_, ?_, fun hread => absurd hread hunread⟩, e, ?_⟩)
    · rw [show book.applyUpdate first = ({ book with bids, asks }, some e) from
        Prod.ext happlied he]
      exact ⟨⟨rfl, rfl, rfl⟩, rfl, rfl, List.suffix_refl _, hsequence, hbids, hasks⟩
    · intro _
      rw [show book.applyUpdate first = ({ book with bids, asks }, some e) from
        Prod.ext happlied he]
    · rw [show book.applyUpdate first = ({ book with bids, asks }, some e) from
        Prod.ext happlied he]

/-- The buffer once the diffs behind the snapshot are dropped. -/
def kept (buffer : List BinanceDepthUpdatePayload) (lastUpdateId : Int) :
    List BinanceDepthUpdatePayload :=
  buffer.dropWhile fun u => u.finalUpdateId < lastUpdateId

/-- No diff kept overlaps the snapshot, and the oldest of them starts behind it. -/
def Misses (buffer : List BinanceDepthUpdatePayload) (lastUpdateId : Int) : Prop :=
  (∀ u ∈ kept buffer lastUpdateId, bridges lastUpdateId u = false) ∧
    ∃ oldest ∈ (kept buffer lastUpdateId).head?, lastUpdateId < oldest.firstUpdateId

/-- How `_try_activate_snapshot` ends on a book with a pending snapshot: it waits, it asks for another
snapshot, it goes live or loses the book, or a level stops it. -/
theorem tryActivateSnapshot_outcome {book : BinanceLocalOrderBook} {s : BinanceDepthSnapshotPayload}
    (hpending : book.pendingSnapshot = some s) (hsequence : book.sequenceId.isSome)
    (hnonzero : book.Nonzero) :
    (¬ Misses book.buffer s.lastUpdateId ∧ book.tryActivateSnapshot.2 = .ok none ∧
        book.tryActivateSnapshot.1 = { book with buffer := kept book.buffer s.lastUpdateId }) ∨
      (Misses book.buffer s.lastUpdateId ∧
        book.tryActivateSnapshot.1 =
          { book with buffer := kept book.buffer s.lastUpdateId, status := .resyncRequired } ∧
        ∃ reason, book.tryActivateSnapshot.2 =
          .ok (some (book.tryActivateSnapshot.1.result .retrySnapshot true reason))) ∨
      (¬ Misses book.buffer s.lastUpdateId ∧ ∃ first rest, first :: rest <:+ book.buffer ∧
        bridges s.lastUpdateId first = true ∧
        ((∃ result, book.tryActivateSnapshot.2 = .ok (some result) ∧
            (WentLive book book.tryActivateSnapshot.1 (.ok result) ∨
              Lost book book.tryActivateSnapshot.1 .sequenceGap rest (.ok result))) ∨
          (∃ e, book.tryActivateSnapshot.2 = .error (.payload e)) ∧
            Stopped book book.tryActivateSnapshot.1 first rest)) := by
  unfold tryActivateSnapshot
  rw [hpending]
  dsimp only
  have hkeptSuffix : kept book.buffer s.lastUpdateId <:+ book.buffer := List.dropWhile_suffix _
  rw [show (book.buffer.dropWhile fun u => u.finalUpdateId < s.lastUpdateId) =
    kept book.buffer s.lastUpdateId from rfl]
  unfold Misses
  generalize kept book.buffer s.lastUpdateId = kept at hkeptSuffix ⊢
  cases hbridge : kept.dropWhile fun u => !bridges s.lastUpdateId u with
  | nil =>
      have hnone : ∀ u ∈ kept, bridges s.lastUpdateId u = false := by
        intro u hu
        have := List.dropWhile_eq_nil_iff.mp hbridge u hu
        simpa using this
      unfold unbridged
      dsimp only
      cases kept with
      | nil =>
          refine Or.inl ⟨?_, rfl, rfl⟩
          rintro ⟨-, oldest, holdest, -⟩
          cases holdest
      | cons oldest rest =>
          dsimp only
          split_ifs with hbehind
          · exact Or.inr (Or.inl ⟨⟨hnone, oldest, rfl, hbehind⟩, rfl, _, rfl⟩)
          · refine Or.inl ⟨?_, rfl, rfl⟩
            rintro ⟨-, oldest', holdest', hbehind'⟩
            obtain rfl : oldest = oldest' := by simpa using holdest'
            exact hbehind hbehind'
  | cons first rest =>
      have hsuffix : first :: rest <:+ kept := hbridge ▸ List.dropWhile_suffix _
      have hfirst : bridges s.lastUpdateId first = true := by
        have := List.head?_dropWhile_not (fun u => !bridges s.lastUpdateId u) kept
        rw [hbridge] at this
        simpa using this
      have hmisses : ¬ ((∀ u ∈ kept, bridges s.lastUpdateId u = false) ∧
          ∃ oldest ∈ kept.head?, s.lastUpdateId < oldest.firstUpdateId) := by
        rintro ⟨hnone, -⟩
        have := hnone first (hsuffix.subset List.mem_cons_self)
        rw [hfirst] at this
        cases this
      refine Or.inr (Or.inr ⟨hmisses, first, rest, hsuffix.trans hkeptSuffix, hfirst, ?_⟩)
      have hactivated := @activateFrom_outcome first rest
        { book with buffer := kept, pendingSnapshot := some s } hsequence hnonzero
      dsimp only
      generalize hafter : activateFrom { book with buffer := kept, pendingSnapshot := some s } first
        rest = activated at hactivated ⊢
      obtain ⟨after, result⟩ := activated
      rcases hactivated with hlive | hlost | ⟨hstopped, e, herror⟩
      · have hresult := hlive.result_eq
        dsimp only at hresult
        subst hresult
        exact Or.inl ⟨_, rfl,
          Or.inl { hlive with same := ⟨hlive.same.1, hlive.same.2, hlive.same.3⟩ }⟩
      · obtain ⟨before, buffer, reason, hbefore, hbuffer, hafter, hresult⟩ := hlost
        dsimp only at hresult
        subst hresult
        exact Or.inl ⟨_, rfl, Or.inr ⟨before, buffer, reason, ⟨hbefore.1, hbefore.2, hbefore.3⟩,
          hbuffer, hafter, rfl⟩⟩
      · dsimp only at herror
        subst herror
        have hstayed := hstopped.stayed
        refine Or.inr ⟨⟨e, rfl⟩, ⟨⟨hstayed.same.1, hstayed.same.2, hstayed.same.3⟩, hstayed.status,
          hstayed.pendingSnapshot.trans hpending.symm, hstayed.buffer, hstayed.sequenceId,
          hstayed.nonzero⟩, ?_, hstopped.behind⟩
        intro hunread
        rw [hstopped.atFirst hunread]
        unfold applyUpdate
        dsimp only
        generalize applySide book.bids first.bids = applied
        obtain ⟨bids, eb⟩ := applied
        cases eb with
        | some e => rw [hpending]
        | none =>
            dsimp only
            generalize applySide book.asks first.asks = applied
            obtain ⟨asks, ea⟩ := applied
            cases ea with
            | some e => rw [hpending]
            | none => rw [hpending]

/-! ## Calls -/

/-- What every call keeps. -/
structure Held (book : BinanceLocalOrderBook) : Prop where
  bounded : book.buffer.length ≤ book.maxBufferEvents
  sequenceId : book.pendingSnapshot.isSome ∨ book.status = .live → book.sequenceId.isSome
  nonzero : book.Nonzero

/-- The transitions that say the book is not to be used until a new snapshot. -/
def lossTransitions : List BookTransition :=
  [.sequenceGap, .retrySnapshot, .bufferOverflow, .resyncStarted]

/-- The call makes the book try a snapshot that misses what is buffered. -/
def Call.Misses (book : BinanceLocalOrderBook) : Call → Prop
  | .beginResync _ => False
  | .ingest update =>
    update.venueSymbol.toUpper = book.venueSymbol ∧ book.status ≠ .live ∧
      book.buffer.length < book.maxBufferEvents ∧
      ∃ s ∈ book.pendingSnapshot, BinanceLocalOrderBook.Misses (book.buffer ++ [update]) s.lastUpdateId
  | .installSnapshot snapshot =>
    ReadableSnapshot snapshot ∧ BinanceLocalOrderBook.Misses book.buffer snapshot.lastUpdateId

/-- Some text the call may come to does not parse, or the payload is another symbol's. -/
def Call.Faulty (book : BinanceLocalOrderBook) : Call → Prop
  | .beginResync _ => False
  | .ingest update =>
    update.venueSymbol.toUpper ≠ book.venueSymbol ∨ ¬ ReadableDiff update ∨
      ∃ d ∈ book.buffer, ¬ ReadableDiff d
  | .installSnapshot snapshot =>
    ¬ ReadableSnapshot snapshot ∨ ∃ d ∈ book.buffer, ¬ ReadableDiff d

/-- The book asked for another snapshot in its generation. -/
structure Retried (book after : BinanceLocalOrderBook)
    (result : Except BookError BookApplyResult) : Prop where
  same : SameGeneration book after
  status : after.status = .resyncRequired
  held : after.Held
  result_eq : ∃ reason, result = .ok (after.result .retrySnapshot true reason)

/-- Nothing was lost and nothing went live. -/
structure Kept (book after : BinanceLocalOrderBook) (c : Call)
    (result : Except BookError BookApplyResult) : Prop where
  same : SameGeneration book after
  held : after.Held
  transition : ∀ r, result = .ok r → r.transition ∉ lossTransitions
  noRuntimeError : ∀ message, result ≠ .error (.runtime message)
  faulty : ∀ e, result = .error e → c.Faulty book
  live : c.WellFormed → after.status = .live →
    book.status = .live ∧ after.buffer = book.buffer ∧ after.pendingSnapshot = book.pendingSnapshot

/-- How a call ends. -/
structure Ends (book : BinanceLocalOrderBook) (c : Call) : Prop where
  outcome : (c.Misses book ∧ Retried book (book.call c) (book.answer c)) ∨
    (¬ c.Misses book ∧
      ((∃ transition ∈ [BookTransition.sequenceGap, .bufferOverflow, .resyncStarted],
          ∃ source : List BinanceDepthUpdatePayload, source.length ≤ book.maxBufferEvents ∧
            Lost book (book.call c) transition source (book.answer c)) ∨
        WentLive book (book.call c) (book.answer c) ∨ Kept book (book.call c) c (book.answer c)))
  buffered : ∀ d ∈ (book.call c).buffer, d ∈ book.buffer ∨ c = .ingest d
  pending : ∀ s ∈ (book.call c).pendingSnapshot, s ∈ book.pendingSnapshot ∨ c = .installSnapshot s
  /-- An installed snapshot is pending, unless the book was lost or went live on what it buffered. -/
  installed : ∀ s, c = .installSnapshot s → (book.call c).pendingSnapshot = some s ∨
    book.generation < (book.call c).generation ∨ (book.buffer ≠ [] ∧ (book.call c).buffer = [])

theorem Lost.buffered {book after : BinanceLocalOrderBook} {transition : BookTransition}
    {source : List BinanceDepthUpdatePayload} {result : Except BookError BookApplyResult}
    (h : Lost book after transition source result) :
    after.buffer <:+ source ∧ after.pendingSnapshot = none ∧ book.generation < after.generation := by
  obtain ⟨before, buffer, reason, hbefore, hbuffer, rfl, -⟩ := h
  refine ⟨hbuffer, rfl, ?_⟩
  show book.generation < before.generation + 1
  rw [hbefore.generation]
  exact Nat.lt_succ_self _

theorem call_ends_beginResync (book : BinanceLocalOrderBook) (reason : String) :
    book.Ends (.beginResync reason) where
  outcome := Or.inr ⟨fun h => h, Or.inl ⟨.resyncStarted, by simp, [], Nat.zero_le _, book, [],
    some reason, SameGeneration.refl book, List.suffix_refl _, rfl, rfl⟩⟩
  buffered := nofun
  pending := nofun
  installed := nofun

/-- What `_buffer_update` and `install_snapshot` return once activation has been tried. -/
def settle (waiting : BinanceLocalOrderBook → BookApplyResult) :
    BinanceLocalOrderBook × Except BookError (Option BookApplyResult) →
      BinanceLocalOrderBook × Except BookError BookApplyResult
  | (book, .error e) => (book, .error e)
  | (book, .ok (some activation)) => (book, .ok activation)
  | (book, .ok none) => (book, .ok (waiting book))

theorem settle_fst (waiting : BinanceLocalOrderBook → BookApplyResult)
    (activated : BinanceLocalOrderBook × Except BookError (Option BookApplyResult)) :
    (settle waiting activated).1 = activated.1 := by
  obtain ⟨book, result⟩ := activated
  cases result with
  | error e => rfl
  | ok r => cases r <;> rfl

/-- A call that tries the pending snapshot of a book that is not live ends as the trial does. -/
theorem settled_ends {book base : BinanceLocalOrderBook} {c : Call} (hsame : SameGeneration book base)
    {s : BinanceDepthSnapshotPayload} (hpending : base.pendingSnapshot = some s)
    (hstatus : base.status ≠ .live) (hbounded : base.buffer.length ≤ base.maxBufferEvents)
    (hsequence : base.sequenceId.isSome) (hnonzero : base.Nonzero)
    (hmisses : c.Misses book ↔ Misses base.buffer s.lastUpdateId)
    (hbuffered : ∀ d ∈ base.buffer, d ∈ book.buffer ∨ c = .ingest d)
    (hsnapshot : s ∈ book.pendingSnapshot ∨ c = .installSnapshot s)
    (hinstalled : ∀ s', c = .installSnapshot s' → s' = s ∧ base.buffer = book.buffer)
    (hfaulty : (∃ d ∈ base.buffer, ¬ ReadableDiff d) → c.Faulty book)
    {waiting : BinanceLocalOrderBook → BookApplyResult}
    (hwaiting : ∀ b, (waiting b).transition = .buffered)
    (hcall : book.call c = (settle waiting base.tryActivateSnapshot).1)
    (hanswer : book.answer c = (settle waiting base.tryActivateSnapshot).2) : book.Ends c := by
  have houtcome := tryActivateSnapshot_outcome hpending hsequence hnonzero
  have hkept : kept base.buffer s.lastUpdateId <:+ base.buffer := List.dropWhile_suffix _
  -- the trial leaves the snapshot pending and a tail of the buffer, on whichever path
  have htraced : ∀ after : BinanceLocalOrderBook, book.call c = after →
      after.buffer <:+ base.buffer → after.pendingSnapshot = some s ∨
        (after.pendingSnapshot = none ∧ (∀ s', c = .installSnapshot s' →
          book.generation < after.generation ∨ (book.buffer ≠ [] ∧ after.buffer = []))) →
      (∀ d ∈ (book.call c).buffer, d ∈ book.buffer ∨ c = .ingest d) ∧
        (∀ s' ∈ (book.call c).pendingSnapshot, s' ∈ book.pendingSnapshot ∨ c = .installSnapshot s') ∧
        ∀ s', c = .installSnapshot s' → (book.call c).pendingSnapshot = some s' ∨
          book.generation < (book.call c).generation ∨
            (book.buffer ≠ [] ∧ (book.call c).buffer = []) := by
    rintro after hafter hsuffix hstate
    rw [hafter]
    refine ⟨fun d hd => hbuffered d (hsuffix.subset hd), ?_, ?_⟩
    · intro s' hs'
      rcases hstate with hsome | ⟨hnone, -⟩
      · obtain rfl : s = s' := by simpa [hsome] using hs'
        exact hsnapshot
      · rw [hnone] at hs'
        cases hs'
    · intro s' hs'
      rcases hstate with hsome | ⟨-, hlost⟩
      · rw [(hinstalled s' hs').1]
        exact Or.inl hsome
      · exact Or.inr (hlost s' hs')
  rw [settle_fst] at hcall
  generalize base.tryActivateSnapshot = activated at houtcome hcall hanswer
  obtain ⟨after, activation⟩ := activated
  dsimp only at houtcome hcall
  have hmaximum := hsame.maxBufferEvents
  rcases houtcome with ⟨hno, rfl, rfl⟩ | ⟨hyes, rfl, reason, rfl⟩ |
    ⟨hno, first, rest, hsuffix, -, ⟨r, rfl, hlive | hlost⟩ | ⟨⟨e, rfl⟩, hstopped⟩⟩
  · obtain ⟨hb, hp, hi⟩ := htraced _ hcall hkept (Or.inl hpending)
    refine ⟨Or.inr ⟨fun hm => hno (hmisses.mp hm), Or.inr (Or.inr ?_)⟩, hb, hp, hi⟩
    rw [hcall, hanswer]
    refine ⟨hsame.trans ⟨rfl, rfl, rfl⟩, ⟨hkept.length_le.trans hbounded, fun _ => hsequence,
      hnonzero⟩, ?_, nofun, nofun, fun _ hlive => absurd hlive hstatus⟩
    intro r hr
    obtain rfl := Except.ok.inj hr
    rw [hwaiting]
    simp [lossTransitions]
  · obtain ⟨hb, hp, hi⟩ := htraced _ hcall hkept (Or.inl hpending)
    refine ⟨Or.inl ⟨hmisses.mpr hyes, ?_⟩, hb, hp, hi⟩
    rw [hcall, hanswer]
    exact ⟨hsame.trans ⟨rfl, rfl, rfl⟩, rfl, ⟨hkept.length_le.trans hbounded, fun _ => hsequence,
      hnonzero⟩, reason, rfl⟩
  · have hnonempty : ∀ s', c = .installSnapshot s' → book.buffer ≠ [] := by
      intro s' hs'
      rw [← (hinstalled s' hs').2]
      exact List.ne_nil_of_mem (hsuffix.subset List.mem_cons_self)
    obtain ⟨hb, hp, hi⟩ := htraced _ hcall (hlive.buffer ▸ List.nil_suffix)
      (Or.inr ⟨hlive.pendingSnapshot, fun s' hs' => Or.inr ⟨hnonempty s' hs', hlive.buffer⟩⟩)
    refine ⟨Or.inr ⟨fun hm => hno (hmisses.mp hm), Or.inr (Or.inl ?_)⟩, hb, hp, hi⟩
    rw [hcall, hanswer]
    exact { hlive with same := hsame.trans hlive.same }
  · have hrest : rest <:+ base.buffer := (List.suffix_cons first rest).trans hsuffix
    obtain ⟨hbuffer, hnone, hgeneration⟩ := hlost.buffered
    obtain ⟨hb, hp, hi⟩ := htraced _ hcall (hbuffer.trans hrest)
      (Or.inr ⟨hnone, fun s' hs' => Or.inl (hsame.generation ▸ hgeneration)⟩)
    refine ⟨Or.inr ⟨fun hm => hno (hmisses.mp hm), Or.inl ⟨.sequenceGap, by simp, rest, ?_, ?_⟩⟩, hb,
      hp, hi⟩
    · have hlength := hrest.length_le
      omega
    · obtain ⟨before, buffer, reason, hbefore, hrest⟩ := hlost
      rw [hcall, hanswer]
      exact ⟨before, buffer, reason, hsame.trans hbefore, hrest⟩
  · have hstayed := hstopped.stayed
    have hrest : rest <:+ base.buffer := (List.suffix_cons first rest).trans hsuffix
    obtain ⟨hb, hp, hi⟩ := htraced _ hcall (hstayed.buffer.trans hrest)
      (Or.inl (hstayed.pendingSnapshot.trans hpending))
    refine ⟨Or.inr ⟨fun hm => hno (hmisses.mp hm), Or.inr (Or.inr ?_)⟩, hb, hp, hi⟩
    rw [hcall, hanswer]
    refine ⟨hsame.trans hstayed.same, ⟨?_, fun _ => hstayed.sequenceId, hstayed.nonzero⟩, nofun, nofun,
      fun _ _ => hfaulty ?_, fun _ hlive => absurd (hstayed.status.symm.trans hlive) hstatus⟩
    · rw [hstayed.same.maxBufferEvents]
      exact ((hstayed.buffer.trans hrest).length_le).trans hbounded
    · by_cases hread : ReadableDiff first
      · obtain ⟨-, d, hd, hunread⟩ := hstopped.behind hread
        exact ⟨d, hrest.subset hd, hunread⟩
      · exact ⟨first, hsuffix.subset List.mem_cons_self, hread⟩

/-- A diff put on the buffer of a book that is not live. -/
theorem call_ends_buffer {book : BinanceLocalOrderBook} (h : book.Held)
    {update : BinanceDepthUpdatePayload} (hsymbol : update.venueSymbol.toUpper = book.venueSymbol)
    (hstatus : book.status ≠ .live) : book.Ends (.ingest update) := by
  have hown : ¬ update.venueSymbol.toUpper ≠ book.venueSymbol := not_not.mpr hsymbol
  have hingest : book.ingest update = book.bufferUpdate update := by
    unfold ingest
    rw [if_neg hown, if_pos hstatus]
  by_cases hfull : book.maxBufferEvents ≤ book.buffer.length
  · have hoverflow : book.ingest update =
        ((book.overflow update).1, .ok (book.overflow update).2) := by
      rw [hingest]
      unfold bufferUpdate
      rw [if_pos hfull]
    have hcall : book.call (.ingest update) = book.invalidate [update] := by
      show (book.ingest update).1 = _
      rw [hoverflow]
      rfl
    constructor
    case outcome =>
      refine Or.inr ⟨?_, Or.inl ⟨.bufferOverflow, by simp, [update], book.maxBufferEvents_pos, ?_⟩⟩
      · rintro ⟨-, -, hroom, -⟩
        omega
      · rw [hcall, show book.answer (.ingest update) = (book.ingest update).2 from rfl, hoverflow]
        exact ⟨book, [update], _, SameGeneration.refl book, List.suffix_refl _, rfl, rfl⟩
    case buffered =>
      rw [hcall]
      intro d hd
      rw [List.mem_singleton.mp hd]
      exact Or.inr rfl
    case pending =>
      rw [hcall]
      nofun
    case installed => nofun
  have hsettle : book.ingest update =
      settle (fun b => b.result .buffered b.pendingSnapshot.isNone)
        (tryActivateSnapshot { book with buffer := book.buffer ++ [update] }) := by
    rw [hingest]
    unfold bufferUpdate
    rw [if_neg hfull]
    rfl
  have hlength : (book.buffer ++ [update]).length ≤ book.maxBufferEvents := by
    rw [List.length_append, List.length_singleton]
    omega
  have hmem : ∀ d ∈ book.buffer ++ [update], d ∈ book.buffer ∨ Call.ingest update = .ingest d := by
    intro d hd
    rcases List.mem_append.mp hd with hd | hd
    · exact Or.inl hd
    · rw [List.mem_singleton.mp hd]
      exact Or.inr rfl
  rcases Option.eq_none_or_eq_some book.pendingSnapshot with hpending | ⟨s, hpending⟩
  · have hactivated : tryActivateSnapshot { book with buffer := book.buffer ++ [update] } =
        ({ book with buffer := book.buffer ++ [update] }, .ok none) := by
      unfold tryActivateSnapshot
      rw [hpending]
    have hcall : book.call (.ingest update) = { book with buffer := book.buffer ++ [update] } := by
      show (book.ingest update).1 = _
      rw [hsettle, hactivated]
      rfl
    constructor
    case outcome =>
      refine Or.inr ⟨?_, Or.inr (Or.inr ?_)⟩
      · rintro ⟨-, -, -, s, hs, -⟩
        rw [hpending] at hs
        cases hs
      · rw [hcall, show book.answer (.ingest update) = (book.ingest update).2 from rfl, hsettle,
          hactivated]
        refine ⟨⟨rfl, rfl, rfl⟩, ⟨hlength, h.sequenceId, h.nonzero⟩, ?_, nofun, nofun,
          fun _ hlive => absurd hlive hstatus⟩
        intro r hr
        obtain rfl := Except.ok.inj hr
        simp [result, lossTransitions]
    case buffered =>
      rw [hcall]
      exact hmem
    case pending =>
      rw [hcall]
      exact fun s hs => Or.inl hs
    case installed => nofun
  · have hsequence : book.sequenceId.isSome := h.sequenceId (Or.inl (by rw [hpending]; rfl))
    have hmisses : Call.Misses book (.ingest update) ↔
        Misses (book.buffer ++ [update]) s.lastUpdateId := by
      unfold Call.Misses
      rw [hpending]
      refine ⟨?_, fun hm => ⟨hsymbol, hstatus, by omega, s, rfl, hm⟩⟩
      rintro ⟨-, -, -, s', hs', hm⟩
      obtain rfl : s = s' := by simpa using hs'
      exact hm
    have hfaulty : (∃ d ∈ book.buffer ++ [update], ¬ ReadableDiff d) →
        Call.Faulty book (.ingest update) := by
      rintro ⟨d, hd, hunread⟩
      rcases List.mem_append.mp hd with hd | hd
      · exact Or.inr (Or.inr ⟨d, hd, hunread⟩)
      · rw [List.mem_singleton.mp hd] at hunread
        exact Or.inr (Or.inl hunread)
    refine @settled_ends book { book with buffer := book.buffer ++ [update] } _ ⟨rfl, rfl, rfl⟩ s
      hpending hstatus hlength hsequence h.nonzero hmisses hmem (Or.inl hpending) nofun hfaulty
      (fun b => b.result .buffered b.pendingSnapshot.isNone) (fun b => rfl) ?_ ?_
    · rw [← hsettle]
      rfl
    · rw [← hsettle]
      rfl

theorem call_ends_ingest {book : BinanceLocalOrderBook} (h : book.Held)
    (update : BinanceDepthUpdatePayload) : book.Ends (.ingest update) := by
  by_cases hsymbol : update.venueSymbol.toUpper = book.venueSymbol
  swap
  · have hother : update.venueSymbol.toUpper ≠ book.venueSymbol := hsymbol
    have hcall : book.call (.ingest update) = book := by
      show (book.ingest update).1 = book
      unfold ingest
      rw [if_pos hother]
    constructor
    case outcome =>
      refine Or.inr ⟨fun hm => hsymbol hm.1, Or.inr (Or.inr ?_)⟩
      rw [hcall, show book.answer (.ingest update) = (book.ingest update).2 from rfl]
      unfold ingest
      rw [if_pos hother]
      exact ⟨SameGeneration.refl book, h, nofun, nofun, fun _ _ => Or.inl hother,
        fun _ hlive => ⟨hlive, rfl, rfl⟩⟩
    case buffered =>
      rw [hcall]
      exact fun d hd => Or.inl hd
    case pending =>
      rw [hcall]
      exact fun s hs => Or.inl hs
    case installed => nofun
  by_cases hstatus : book.status = .live
  swap
  · exact call_ends_buffer h hsymbol hstatus
  obtain ⟨previous, hprevious⟩ := Option.isSome_iff_exists.mp (h.sequenceId (Or.inr hstatus))
  have hno : ¬ Call.Misses book (.ingest update) := fun hm => hm.2.1 hstatus
  have hown : ¬ update.venueSymbol.toUpper ≠ book.venueSymbol := not_not.mpr hsymbol
  have hlive : ¬ book.status ≠ .live := not_not.mpr hstatus
  by_cases hstale : update.finalUpdateId ≤ previous
  · have hingest : book.ingest update = (book, .ok (book.result .staleIgnored false)) := by
      unfold ingest
      rw [if_neg hown, if_neg hlive, hprevious]
      exact if_pos hstale
    have hcall : book.call (.ingest update) = book := congrArg Prod.fst hingest
    constructor
    case outcome =>
      refine Or.inr ⟨hno, Or.inr (Or.inr ?_)⟩
      rw [hcall, show book.answer (.ingest update) = (book.ingest update).2 from rfl, hingest]
      refine ⟨SameGeneration.refl book, h, ?_, nofun, nofun, fun _ hlive => ⟨hlive, rfl, rfl⟩⟩
      intro r hr
      obtain rfl := Except.ok.inj hr
      simp [result, lossTransitions]
    case buffered =>
      rw [hcall]
      exact fun d hd => Or.inl hd
    case pending =>
      rw [hcall]
      exact fun s hs => Or.inl hs
    case installed => nofun
  by_cases hgap : update.previousFinalUpdateId ≠ previous
  · have hcall : book.call (.ingest update) = book.invalidate [update] := by
      show (book.ingest update).1 = _
      unfold ingest
      rw [if_neg hown, if_neg hlive, hprevious]
      dsimp only
      rw [if_neg hstale, if_pos hgap]
    constructor
    case outcome =>
      refine Or.inr ⟨hno, Or.inl ⟨.sequenceGap, by simp, [update], book.maxBufferEvents_pos, ?_⟩⟩
      rw [hcall, show book.answer (.ingest update) = (book.ingest update).2 from rfl]
      unfold ingest
      rw [if_neg hown, if_neg hlive, hprevious]
      dsimp only
      rw [if_neg hstale, if_pos hgap]
      exact ⟨book, [update], _, SameGeneration.refl book, List.suffix_refl _, rfl, rfl⟩
    case buffered =>
      rw [hcall]
      intro d hd
      rw [List.mem_singleton.mp hd]
      exact Or.inr rfl
    case pending =>
      rw [hcall]
      nofun
    case installed => nofun
  obtain ⟨bids, asks, sequenceId, happlied, hbids, hasks, hcases⟩ :=
    applyUpdate_outcome h.nonzero update
  have hcall : book.call (.ingest update) = { book with bids, asks, sequenceId } := by
    rw [← happlied]
    show (book.ingest update).1 = _
    unfold ingest
    rw [if_neg hown, if_neg hlive, hprevious]
    dsimp only
    rw [if_neg hstale, if_neg hgap]
    generalize book.applyUpdate update = applied
    obtain ⟨after, error⟩ := applied
    cases error <;> rfl
  constructor
  case outcome =>
    refine Or.inr ⟨hno, Or.inr (Or.inr ?_)⟩
    rw [hcall, show book.answer (.ingest update) = (book.ingest update).2 from rfl]
    unfold ingest
    rw [if_neg hown, if_neg hlive, hprevious]
    dsimp only
    rw [if_neg hstale, if_neg hgap]
    generalize book.applyUpdate update = applied at happlied hcases ⊢
    obtain ⟨after, error⟩ := applied
    dsimp only at happlied hcases ⊢
    subst happlied
    rcases hcases with ⟨rfl, rfl, -⟩ | ⟨⟨e, rfl⟩, rfl, hunread⟩
    · refine ⟨⟨rfl, rfl, rfl⟩, ⟨h.bounded, fun _ => rfl, hbids, hasks⟩, ?_, nofun, nofun,
        fun _ hlive => ⟨hlive, rfl, rfl⟩⟩
      intro r hr
      obtain rfl := Except.ok.inj hr
      simp [result, lossTransitions]
    · exact ⟨⟨rfl, rfl, rfl⟩, ⟨h.bounded, h.sequenceId, hbids, hasks⟩, nofun, nofun,
        fun _ _ => Or.inr (Or.inl hunread), fun _ hlive => ⟨hlive, rfl, rfl⟩⟩
  case buffered =>
    rw [hcall]
    exact fun d hd => Or.inl hd
  case pending =>
    rw [hcall]
    exact fun s hs => Or.inl hs
  case installed => nofun

/-- A level of the snapshot that does not parse leaves the snapshot half installed. -/
theorem installSnapshot_unreadable {book : BinanceLocalOrderBook} (h : book.Held)
    {snapshot : BinanceDepthSnapshotPayload} (hunreadable : ¬ ReadableSnapshot snapshot) :
    ∃ bids e, NonzeroSide bids ∧ book.installSnapshot snapshot =
      ({ book with
          pendingSnapshot := some snapshot
          sequenceId := some snapshot.lastUpdateId
          bids }, .error (.payload e)) := by
  have hfails : ∀ {levels : List BookLevelText}, ¬ Readable levels →
      ∃ e, snapshotSide levels = .error e := by
    intro levels hlevels
    cases hside : snapshotSide levels with
    | error e => exact ⟨e, rfl⟩
    | ok side => exact absurd (readable_of_snapshotSide hside) hlevels
  unfold installSnapshot
  by_cases hbids : Readable snapshot.bids
  · obtain ⟨parsed, hparsed⟩ := hbids
    obtain ⟨bids, hbidsSide, hnonzero⟩ := nonzeroSide_snapshotSide hparsed
    obtain ⟨e, he⟩ := hfails fun hasks => hunreadable ⟨⟨parsed, hparsed⟩, hasks⟩
    rw [hbidsSide]
    dsimp only
    rw [he]
    exact ⟨bids, e, hnonzero, rfl⟩
  · obtain ⟨e, he⟩ := hfails hbids
    rw [he]
    exact ⟨book.bids, e, h.nonzero.1, rfl⟩

theorem call_ends_installSnapshot {book : BinanceLocalOrderBook} (h : book.Held)
    (snapshot : BinanceDepthSnapshotPayload) : book.Ends (.installSnapshot snapshot) := by
  have hself : ∀ s', Call.installSnapshot snapshot = .installSnapshot s' → s' = snapshot := by
    intro s' hs'
    injection hs' with hs'
    exact hs'.symm
  by_cases hreadable : ReadableSnapshot snapshot
  swap
  · obtain ⟨bids, e, hbids, hinstalled⟩ := installSnapshot_unreadable h hreadable
    have hcall : book.call (.installSnapshot snapshot) =
        { book with
          pendingSnapshot := some snapshot
          sequenceId := some snapshot.lastUpdateId
          bids } := congrArg Prod.fst hinstalled
    constructor
    case outcome =>
      refine Or.inr ⟨fun hm => hreadable hm.1, Or.inr (Or.inr ?_)⟩
      rw [hcall,
        show book.answer (.installSnapshot snapshot) = (book.installSnapshot snapshot).2 from rfl,
        hinstalled]
      exact ⟨⟨rfl, rfl, rfl⟩, ⟨h.bounded, fun _ => rfl, hbids, h.nonzero.2⟩, nofun, nofun,
        fun _ _ => Or.inl hreadable, fun hwell => absurd hwell hreadable⟩
    case buffered =>
      rw [hcall]
      exact fun d hd => Or.inl hd
    case pending =>
      rw [hcall]
      intro s hs
      obtain rfl : snapshot = s := by simpa using hs
      exact Or.inr rfl
    case installed =>
      rw [hcall]
      intro s' hs'
      rw [hself s' hs']
      exact Or.inl rfl
  have hsnapshot := hreadable
  obtain ⟨⟨parsedBids, hparsedBids⟩, parsedAsks, hparsedAsks⟩ := hreadable
  obtain ⟨bids, hbids, hbidsNonzero⟩ := nonzeroSide_snapshotSide hparsedBids
  obtain ⟨asks, hasks, hasksNonzero⟩ := nonzeroSide_snapshotSide hparsedAsks
  set installed : BinanceLocalOrderBook :=
    { book with
      pendingSnapshot := some snapshot
      sequenceId := some snapshot.lastUpdateId
      bids
      asks
      status := .buffering } with hinstalled
  have hsettle : book.installSnapshot snapshot =
      settle (fun b => b.result .buffered false
        (some "waiting for a diff event that overlaps lastUpdateId")) installed.tryActivateSnapshot := by
    unfold installSnapshot
    rw [hbids]
    dsimp only
    rw [hasks]
    rfl
  refine @settled_ends book installed _ ⟨rfl, rfl, rfl⟩ snapshot rfl (by simp [hinstalled]) h.bounded rfl
    ⟨hbidsNonzero, hasksNonzero⟩ ⟨fun hm => hm.2, fun hm => ⟨hsnapshot, hm⟩⟩
    (fun d hd => Or.inl hd) (Or.inr rfl) (fun s' hs' => ⟨hself s' hs', rfl⟩) (fun hd => Or.inr hd)
    (fun b => b.result .buffered false (some "waiting for a diff event that overlaps lastUpdateId"))
    (fun b => rfl) ?_ ?_
  · rw [← hsettle]
    rfl
  · rw [← hsettle]
    rfl

/-- The step lemma. -/
theorem call_ends {book : BinanceLocalOrderBook} (h : book.Held) (c : Call) : book.Ends c := by
  cases c with
  | beginResync reason => exact call_ends_beginResync book reason
  | ingest update => exact call_ends_ingest h update
  | installSnapshot snapshot => exact call_ends_installSnapshot h snapshot

theorem held_new (venueSymbol : String) (maxBufferEvents : Nat) (h : 1 ≤ maxBufferEvents) :
    (new venueSymbol maxBufferEvents h).Held where
  bounded := Nat.zero_le _
  sequenceId := by simp [new]
  nonzero := ⟨nonzeroSide_empty, nonzeroSide_empty⟩

theorem Lost.spec {book after : BinanceLocalOrderBook} {transition : BookTransition}
    {source : List BinanceDepthUpdatePayload} {result : Except BookError BookApplyResult}
    (h : Lost book after transition source result) (hlength : source.length ≤ book.maxBufferEvents) :
    after.Held ∧ after.status = .resyncRequired ∧ after.generation = book.generation + 1 ∧
      ∃ reason, result = .ok (after.result transition true reason) := by
  obtain ⟨before, buffer, reason, hbefore, hbuffer, rfl, hresult⟩ := h
  have hmaximum := hbefore.maxBufferEvents
  have hgeneration := hbefore.generation
  have hshorter := hbuffer.length_le
  refine ⟨⟨?_, ?_, nonzeroSide_empty, nonzeroSide_empty⟩, rfl, ?_, reason, hresult⟩
  · show buffer.length ≤ before.maxBufferEvents
    omega
  · rintro (hpending | hlive)
    · cases hpending
    · cases hlive
  · show before.generation + 1 = book.generation + 1
    omega

theorem held_call {book : BinanceLocalOrderBook} (h : book.Held) (c : Call) : (book.call c).Held := by
  rcases (call_ends h c).outcome with
    ⟨-, hretried⟩ | ⟨-, ⟨t, -, source, hlength, hlost⟩ | hlive | hkept⟩
  · exact hretried.held
  · exact (hlost.spec hlength).1
  · refine ⟨?_, fun _ => hlive.sequenceId, hlive.nonzero⟩
    rw [hlive.buffer]
    exact Nat.zero_le _
  · exact hkept.held

theorem held_foldl {book : BinanceLocalOrderBook} (h : book.Held) (calls : List Call) :
    (calls.foldl call book).Held := by
  induction calls generalizing book with
  | nil => exact h
  | cons c calls ih => exact ih (held_call h c)

theorem generation_le_call {book : BinanceLocalOrderBook} (h : book.Held) (c : Call) :
    book.generation ≤ (book.call c).generation := by
  rcases (call_ends h c).outcome with
    ⟨-, hretried⟩ | ⟨-, ⟨t, -, source, hlength, hlost⟩ | hlive | hkept⟩
  · exact hretried.same.generation.ge
  · exact hlost.buffered.2.2.le
  · exact hlive.same.generation.ge
  · exact hkept.same.generation.ge

theorem generation_le_foldl {book : BinanceLocalOrderBook} (h : book.Held) (calls : List Call) :
    book.generation ≤ (calls.foldl call book).generation := by
  induction calls generalizing book with
  | nil => exact le_rfl
  | cons c calls ih => exact (generation_le_call h c).trans (ih (held_call h c))

end BinanceLocalOrderBook

end Cvf
