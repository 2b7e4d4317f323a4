/-
# Cvf.Binance.Invariant — the representation invariant of the local book, and its generations.

`representation_invariant` is about runs of well-formed payloads: a snapshot with a text that does not
parse would leave a live book with a snapshot pending.  `loss_starts_generation_iff` is about all runs.
-/
import Cvf.Binance.Outcome

namespace Cvf

open Cvf.Library

namespace BinanceLocalOrderBook

/-! ## The representation invariant -/

/-- A live book has nothing buffered and no snapshot pending. -/
def LiveClean (book : BinanceLocalOrderBook) : Prop :=
  book.status = .live → book.buffer = [] ∧ book.pendingSnapshot = none

theorem liveClean_call {book : BinanceLocalOrderBook} (h : book.Held) (hclean : book.LiveClean)
    {c : Call} (hc : c.WellFormed) : (book.call c).LiveClean := by
  intro hlive
  rcases (call_ends h c).outcome with
    ⟨-, hretried⟩ | ⟨-, ⟨t, -, source, hlength, hlost⟩ | hwent | hkept⟩
  · rw [hretried.status] at hlive
    cases hlive
  · rw [(hlost.spec hlength).2.1] at hlive
    cases hlive
  · exact ⟨hwent.buffer, hwent.pendingSnapshot⟩
  · obtain ⟨hbefore, hbuffer, hpending⟩ := hkept.live hc hlive
    rw [hbuffer, hpending]
    exact hclean hbefore

def Call.IsSnapshot : Call → Prop
  | .installSnapshot _ => True
  | _ => False

/-- Live at or behind an id, or lost with no snapshot to come back from. -/
def AtLeast (m : Int) (book : BinanceLocalOrderBook) : Prop :=
  (book.status = .live ∧ ∃ n, book.sequenceId = some n ∧ m ≤ n) ∨
    (book.status ≠ .live ∧ book.pendingSnapshot = none)

theorem atLeast_invalidate (m : Int) (book : BinanceLocalOrderBook)
    (buffer : List BinanceDepthUpdatePayload) : AtLeast m (book.invalidate buffer) :=
  Or.inr ⟨by simp [invalidate], rfl⟩

/-- Without a snapshot a live book goes forward or is lost, and a lost book stays lost. -/
theorem atLeast_call {book : BinanceLocalOrderBook} {m : Int} (h : AtLeast m book) {c : Call}
    (hc : ¬ c.IsSnapshot) : AtLeast m (book.call c) := by
  cases c with
  | beginResync reason => exact atLeast_invalidate m book []
  | installSnapshot snapshot => exact absurd trivial hc
  | ingest update =>
      show AtLeast m (book.ingest update).1
      unfold ingest
      split_ifs with hsymbol hstatus
      · exact h
      · obtain ⟨hlive, -⟩ | ⟨hstatus, hpending⟩ := h
        · exact absurd hlive hstatus
        unfold bufferUpdate
        split_ifs with hfull
        · exact atLeast_invalidate m book [update]
        · have hactivated : tryActivateSnapshot { book with buffer := book.buffer ++ [update] } =
              ({ book with buffer := book.buffer ++ [update] }, .ok none) := by
            unfold tryActivateSnapshot
            rw [hpending]
          rw [hactivated]
          exact Or.inr ⟨hstatus, hpending⟩
      · obtain ⟨hlive, n, hsequence, hmn⟩ | ⟨hnot, -⟩ := h
        swap
        · exact absurd (not_not.mp hstatus) hnot
        rw [hsequence]
        dsimp only
        split_ifs with hstale hgap
        · exact Or.inl ⟨hlive, n, hsequence, hmn⟩
        · exact atLeast_invalidate m book [update]
        · unfold applyUpdate
          generalize applySide book.bids update.bids = applied
          obtain ⟨bids, eb⟩ := applied
          cases eb with
          | some e => exact Or.inl ⟨hlive, n, hsequence, hmn⟩
          | none =>
              generalize applySide book.asks update.asks = applied
              obtain ⟨asks, ea⟩ := applied
              cases ea with
              | some e => exact Or.inl ⟨hlive, n, hsequence, hmn⟩
              | none => exact Or.inl ⟨hlive, update.finalUpdateId, rfl, by omega⟩

theorem atLeast_foldl {book : BinanceLocalOrderBook} {m : Int} (h : AtLeast m book) {calls : List Call}
    (hcalls : ∀ c ∈ calls, ¬ c.IsSnapshot) : AtLeast m (calls.foldl call book) := by
  induction calls generalizing book with
  | nil => exact h
  | cons c calls ih =>
      exact ih (atLeast_call h (hcalls c List.mem_cons_self)) fun c' hc' =>
        hcalls c' (List.mem_cons_of_mem _ hc')

/-- What holds of every book that well-formed calls reach. -/
structure Represents (book : BinanceLocalOrderBook) : Prop where
  bounded : book.buffer.length ≤ book.maxBufferEvents
  live : book.status = .live →
    book.buffer = [] ∧ book.pendingSnapshot = none ∧ book.sequenceId.isSome ∧ book.Nonzero
  generation_le : ∀ c : Call, c.WellFormed → book.generation ≤ (book.call c).generation
  /-- A book that is live again after calls without a snapshot has not gone back. -/
  sequenceId_le : ∀ more : List Call, (∀ c ∈ more, c.WellFormed ∧ ¬ c.IsSnapshot) →
    book.status = .live → (more.foldl call book).status = .live →
    ∃ m n, book.sequenceId = some m ∧ (more.foldl call book).sequenceId = some n ∧ m ≤ n
  noRuntimeError : ∀ c : Call, c.WellFormed → ∀ message, book.answer c ≠ .error (.runtime message)

theorem represents {book : BinanceLocalOrderBook} (h : book.Held) (hclean : book.LiveClean) :
    book.Represents where
  bounded := h.bounded
  live := by
    intro hlive
    obtain ⟨hbuffer, hpending⟩ := hclean hlive
    exact ⟨hbuffer, hpending, h.sequenceId (Or.inr hlive), h.nonzero⟩
  generation_le := fun c _ => generation_le_call h c
  sequenceId_le := by
    intro more hmore hlive hafter
    obtain ⟨m, hm⟩ := Option.isSome_iff_exists.mp (h.sequenceId (Or.inr hlive))
    have hstart : AtLeast m book := Or.inl ⟨hlive, m, hm, le_rfl⟩
    rcases atLeast_foldl hstart fun c hc => (hmore c hc).2 with ⟨-, n, hn, hmn⟩ | ⟨hnot, -⟩
    · exact ⟨m, n, hm, hn, hmn⟩
    · exact absurd hafter hnot
  noRuntimeError := by
    intro c _ message herror
    rcases (call_ends h c).outcome with
    ⟨-, hretried⟩ | ⟨-, ⟨t, -, source, hlength, hlost⟩ | hwent | hkept⟩
    · obtain ⟨reason, hresult⟩ := hretried.result_eq
      rw [hresult] at herror
      cases herror
    · obtain ⟨-, -, -, reason, hresult⟩ := hlost.spec hlength
      rw [hresult] at herror
      cases herror
    · rw [hwent.result_eq] at herror
      cases herror
    · exact hkept.noRuntimeError message herror

/-- Whatever well-formed calls reach a fresh book, in whatever order. -/
theorem representation_invariant (venueSymbol : String) (maxBufferEvents : Nat)
    (hmax : 1 ≤ maxBufferEvents) (calls : List Call) (hcalls : ∀ c ∈ calls, c.WellFormed) :
    (calls.foldl call (new venueSymbol maxBufferEvents hmax)).Represents := by
  have hstart : (new venueSymbol maxBufferEvents hmax).Held ∧
      (new venueSymbol maxBufferEvents hmax).LiveClean :=
    ⟨held_new venueSymbol maxBufferEvents hmax, by simp [LiveClean, new]⟩
  have hinvariant := @invariant_of_admitted _ _ call (fun _ c => c.WellFormed)
    (fun book => book.Held ∧ book.LiveClean)
    (fun book c h hc => ⟨held_call h.1 c, liveClean_call h.1 h.2 hc⟩) _ hstart _
    (admitted_of_forall hcalls)
  exact represents hinvariant.1 hinvariant.2

/-- A diff of the ids `firstUpdateId` to `finalUpdateId` that sets one bid. -/
def oneBid (firstUpdateId finalUpdateId previousFinalUpdateId : Int) : BinanceDepthUpdatePayload :=
  { eventTimeMs := 1
    venueSymbol := "BTCUSDT"
    firstUpdateId
    finalUpdateId
    previousFinalUpdateId
    bids := [("2", "1.5")]
    asks := [] }

def oneLevel (lastUpdateId : Int) : BinanceDepthSnapshotPayload :=
  { lastUpdateId, bids := [("2", "1")], asks := [("3", "1")] }

theorem oneBid_wellFormed (firstUpdateId finalUpdateId previousFinalUpdateId : Int) :
    (Call.ingest (oneBid firstUpdateId finalUpdateId previousFinalUpdateId)).WellFormed := by
  have hbids : [("2", "1.5")].mapM parseLevel = .ok [(2, 3 / 2)] := by decide +kernel
  exact ⟨⟨_, hbids⟩, [], rfl⟩

theorem oneLevel_wellFormed (lastUpdateId : Int) :
    (Call.installSnapshot (oneLevel lastUpdateId)).WellFormed := by
  have hbids : [("2", "1")].mapM parseLevel = .ok [(2, 1)] := by decide +kernel
  have hasks : [("3", "1")].mapM parseLevel = .ok [(3, 1)] := by decide +kernel
  exact ⟨⟨_, hbids⟩, _, hasks⟩

theorem representation_invariant_bridged :
    ([.ingest (oneBid 4 6 3), .installSnapshot (oneLevel 5), .ingest (oneBid 7 8 6)].foldl call
      (new "BTCUSDT" 2 (by decide))).Represents := by
  apply representation_invariant
  simp only [List.forall_mem_cons]
  exact ⟨oneBid_wellFormed 4 6 3, oneLevel_wellFormed 5, oneBid_wellFormed 7 8 6, nofun⟩

/-! ## Generations -/

/-- A result that gives the book up comes with a new generation and asks for a snapshot. -/
def LossStartsGeneration (book : BinanceLocalOrderBook) (c : Call) : Prop :=
  ∀ r, book.answer c = .ok r → r.transition ∈ lossTransitions →
    book.generation < (book.call c).generation ∧ r.needsSnapshot = true

/-- Two live books of a run with a loss between them are of different generations. -/
def LivePeriodsDiffer (start : BinanceLocalOrderBook) (calls : List Call) : Prop :=
  ∀ (xs ws : List Call) (c : Call) (ys : List Call) (r : BookApplyResult),
    calls = xs ++ ws ++ c :: ys → (xs.foldl call start).status = .live →
    ((xs ++ ws).foldl call start).answer c = .ok r → r.transition ∈ lossTransitions →
    (calls.foldl call start).status = .live →
    (xs.foldl call start).generation ≠ (calls.foldl call start).generation

theorem lossStartsGeneration_iff {book : BinanceLocalOrderBook} (h : book.Held) (c : Call) :
    book.LossStartsGeneration c ↔ ¬ c.Misses book := by
  rcases (call_ends h c).outcome with ⟨hmisses, hretried⟩ | ⟨hno, hends⟩
  · refine iff_of_false ?_ (not_not.mpr hmisses)
    intro hstarts
    obtain ⟨reason, hresult⟩ := hretried.result_eq
    have hlt := (hstarts _ hresult (by simp [result, lossTransitions])).1
    rw [hretried.same.generation] at hlt
    exact lt_irrefl _ hlt
  · refine iff_of_true ?_ hno
    intro r hr hloss
    rcases hends with ⟨t, -, source, hlength, hlost⟩ | hwent | hkept
    · obtain ⟨-, -, hgeneration, reason, hresult⟩ := hlost.spec hlength
      rw [hresult] at hr
      obtain rfl := Except.ok.inj hr
      exact ⟨by omega, rfl⟩
    · rw [hwent.result_eq] at hr
      obtain rfl := Except.ok.inj hr
      simp [result, lossTransitions] at hloss
    · exact absurd hloss (hkept.transition r hr)

/-- In every reachable book a call starts a new generation with every loss exactly when it does not make
the book try a snapshot that misses the buffer; in a run without such calls no two live periods on
either side of a loss share a generation. -/
theorem loss_starts_generation_iff (venueSymbol : String) (maxBufferEvents : Nat)
    (hmax : 1 ≤ maxBufferEvents) (calls : List Call) :
    (∀ c : Call, (calls.foldl call (new venueSymbol maxBufferEvents hmax)).LossStartsGeneration c ↔
      ¬ c.Misses (calls.foldl call (new venueSymbol maxBufferEvents hmax))) ∧
    (Admitted call (fun book c => ¬ c.Misses book) (new venueSymbol maxBufferEvents hmax) calls →
      LivePeriodsDiffer (new venueSymbol maxBufferEvents hmax) calls) := by
  have hnew := held_new venueSymbol maxBufferEvents hmax
  refine ⟨fun c => lossStartsGeneration_iff (held_foldl hnew calls) c, ?_⟩
  rintro hadmitted xs ws c ys r rfl - hanswer hloss -
  have hmiddle := held_foldl hnew (xs ++ ws)
  have hc : ¬ c.Misses ((xs ++ ws).foldl call (new venueSymbol maxBufferEvents hmax)) :=
    (admitted_append.mp hadmitted).2.1
  -- the generation grows at the loss, and shrinks nowhere
  have hbefore := generation_le_foldl (held_foldl hnew xs) ws
  have hat := ((lossStartsGeneration_iff hmiddle c).mpr hc r hanswer hloss).1
  have hafter := generation_le_foldl (held_call hmiddle c) ys
  rw [← List.foldl_append] at hbefore
  rw [show (xs ++ ws ++ c :: ys).foldl call (new venueSymbol maxBufferEvents hmax) =
    ys.foldl call (((xs ++ ws).foldl call (new venueSymbol maxBufferEvents hmax)).call c) from
    List.foldl_append]
  omega

/-- A buffered diff bridges the snapshot. -/
def bridgedCalls : List Call :=
  [.ingest (oneBid 4 6 3), .installSnapshot (oneLevel 5), .ingest (oneBid 9 9 8)]

theorem loss_starts_generation_iff_bridged :
    LivePeriodsDiffer (new "BTCUSDT" 2 (by decide)) bridgedCalls := by
  refine (loss_starts_generation_iff "BTCUSDT" 2 (by decide) bridgedCalls).2 ⟨?_, ?_, ?_, trivial⟩
  · rintro ⟨-, -, -, s, hs, -⟩
    cases hs
  · rintro ⟨-, hnone, -⟩
    have hbridge := hnone (oneBid 4 6 3) (by decide +kernel)
    revert hbridge
    decide +kernel
  · rintro ⟨-, hstatus, -⟩
    exact hstatus (by decide +kernel)

/-- A live book is given a second snapshot; the next diff leaves ids between the two, so the book asks
for a third. -/
def retriedCalls : List Call :=
  [.ingest (oneBid 4 6 3), .installSnapshot (oneLevel 5), .installSnapshot (oneLevel 7),
    .ingest (oneBid 9 10 8), .installSnapshot (oneLevel 10)]

/-- The retry is a loss without a generation, and the book is live in generation 0 on both sides. -/
theorem retry_keeps_generation :
    ¬ LossStartsGeneration ((retriedCalls.take 3).foldl call (new "BTCUSDT" 2 (by decide)))
        (.ingest (oneBid 9 10 8)) ∧
      ¬ LivePeriodsDiffer (new "BTCUSDT" 2 (by decide)) retriedCalls := by
  set book := (retriedCalls.take 3).foldl call (new "BTCUSDT" 2 (by decide)) with hbook
  have htransition : (book.answer (.ingest (oneBid 9 10 8))).toOption.map
      BookApplyResult.transition = some .retrySnapshot := by decide +kernel
  obtain ⟨r, hr, hretry⟩ := Option.map_eq_some_iff.mp htransition
  replace hr := toOption_eq_some_iff.mp hr
  have hloss : r.transition ∈ lossTransitions := by
    rw [hretry]
    decide
  constructor
  · intro hstarts
    have hlt := (hstarts r hr hloss).1
    revert hlt
    decide +kernel
  · intro hdiffer
    have hne := hdiffer (retriedCalls.take 2) [.installSnapshot (oneLevel 7)]
      (.ingest (oneBid 9 10 8)) [.installSnapshot (oneLevel 10)] r rfl (by decide +kernel) hr hloss
      (by decide +kernel)
    revert hne
    decide +kernel

end BinanceLocalOrderBook

end Cvf
