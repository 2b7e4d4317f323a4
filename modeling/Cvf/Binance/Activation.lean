/-
# Cvf.Binance.Activation — where the local book gets to on diffs in stream order.

`Cvf.Binance.Exchange` says that a live local book is a true book; here is which one.  For a buffer
in stream order, activation has three outcomes: every buffered diff is behind the snapshot and the
book waits, the first diff kept starts after the snapshot and the book asks for a newer one, or it
bridges the snapshot and the book either goes live where the chain gets to or loses the book.
-/
import Cvf.Binance.FeatureBook

namespace Cvf

namespace DiffStream

variable {x : Venue} (stream : DiffStream x)

/-- Of two diffs of a stream, the later one continues at or after the earlier one's end. -/
theorem finalUpdateId_le_previous {i j : Nat}
    (h : (stream.diff i).finalUpdateId < (stream.diff j).finalUpdateId) :
    (stream.diff i).finalUpdateId ≤ (stream.diff j).previousFinalUpdateId := by
  have hij : i < j := stream.finalUpdateId_strictMono.lt_iff_lt.mp h
  obtain ⟨k, rfl⟩ : ∃ k, j = k + 1 := ⟨j - 1, by omega⟩
  rw [stream.chained k]
  exact stream.finalUpdateId_strictMono.monotone (by omega)

/-- A list of diffs of the stream, in stream order. -/
structure InOrder (ds : List BinanceDepthUpdatePayload) : Prop where
  inStream : ∀ d ∈ ds, ∃ i, d = stream.diff i
  ascending : Ascending ds

end DiffStream

namespace DiffStream.InOrder

variable {x : Venue} {stream : DiffStream x} {ds : List BinanceDepthUpdatePayload}

theorem genuine (h : stream.InOrder ds) : ∀ d ∈ ds, GenuineDiff x d := by
  intro d hd
  obtain ⟨i, rfl⟩ := h.inStream d hd
  exact stream.genuine i

theorem nil : stream.InOrder [] := ⟨by simp, List.Pairwise.nil⟩

theorem sublist (h : stream.InOrder ds) {ds' : List BinanceDepthUpdatePayload}
    (hsub : ds'.Sublist ds) : stream.InOrder ds' :=
  ⟨fun d hd => h.inStream d (hsub.subset hd), h.ascending.sublist hsub⟩

theorem append_singleton (h : stream.InOrder ds) {d : BinanceDepthUpdatePayload}
    (hd : ∃ i, d = stream.diff i) (hlast : ∀ e ∈ ds, e.finalUpdateId < d.finalUpdateId) :
    stream.InOrder (ds ++ [d]) where
  inStream := by
    intro e he
    rcases List.mem_append.mp he with he | he
    · exact h.inStream e he
    · rw [List.mem_singleton.mp he]
      exact hd
  ascending := by
    refine List.pairwise_append.mpr ⟨h.ascending, List.pairwise_singleton _ _, ?_⟩
    intro e he d' hd'
    rw [List.mem_singleton.mp hd']
    exact hlast e he

end DiffStream.InOrder

/-- An id at or before the first of two diffs in order is before the start of the second. -/
theorem firstUpdateId_gt_of_before {x : Venue} {stream : DiffStream x}
    {d e : BinanceDepthUpdatePayload} (hd : ∃ i, d = stream.diff i) (he : ∃ i, e = stream.diff i)
    (h : d.finalUpdateId < e.finalUpdateId) : d.finalUpdateId < e.firstUpdateId := by
  obtain ⟨i, rfl⟩ := hd
  obtain ⟨j, rfl⟩ := he
  have hprevious := stream.finalUpdateId_le_previous h
  have hadvances := stream.advances j
  omega

namespace BinanceLocalOrderBook

/-- A book that has left the first generation and has no snapshot: it cannot go live on diffs. -/
structure Dormant (book : BinanceLocalOrderBook) : Prop where
  generation : 1 ≤ book.generation
  status : book.status ≠ .live
  pendingSnapshot : book.pendingSnapshot = none

theorem dormant_invalidate (book : BinanceLocalOrderBook)
    (buffer : List BinanceDepthUpdatePayload) : (book.invalidate buffer).Dormant where
  generation := by simp [invalidate]
  status := by simp [invalidate]
  pendingSnapshot := rfl

/-- The book live at the venue's id `m`. -/
def liveAt (x : Venue) (m : Int) (book : BinanceLocalOrderBook) : BinanceLocalOrderBook :=
  { book.atUpdate x m with pendingSnapshot := none, status := .live, buffer := [] }

theorem liveAt_of_holdsAt {x : Venue} {n : Int} {book : BinanceLocalOrderBook}
    (h : book.HoldsAt x n) :
    { book with pendingSnapshot := none, status := .live, buffer := [] } = book.liveAt x n := by
  obtain ⟨hseq, hbids, hasks⟩ := h
  simp only [liveAt, atUpdate, hseq, hbids, hasks]

/-- The second loop goes live where the chain gets to, or loses the book. -/
theorem replayBuffered_cases {x : Venue} {rest : List BinanceDepthUpdatePayload}
    (hrest : ∀ d ∈ rest, GenuineDiff x d) {book : BinanceLocalOrderBook} {n : Int}
    (hbook : book.HoldsAt x n) :
    (∃ r, (book.replayBuffered rest).2 = .ok r) ∧
      ((∃ m, reach n rest = some m ∧ (book.replayBuffered rest).1 = book.liveAt x m) ∨
        (book.replayBuffered rest).1.Dormant) := by
  induction rest generalizing book n with
  | nil => exact ⟨⟨_, rfl⟩, Or.inl ⟨n, rfl, liveAt_of_holdsAt hbook⟩⟩
  | cons d rest ih =>
      have hd := hrest d (by simp)
      have hrest' : ∀ d' ∈ rest, GenuineDiff x d' := fun d' hd' => hrest d' (by simp [hd'])
      simp only [replayBuffered, hbook.1, reach]
      split
      · exact ih hrest' hbook
      · split
        · exact ⟨⟨_, rfl⟩, Or.inr (dormant_invalidate book (d :: rest))⟩
        · rename_i hstale hchain
          have hpu : d.previousFinalUpdateId = n := by simpa using hchain
          rw [applyUpdate_eq hd hbook (by omega) (Or.inl hpu.le), if_pos hpu.le]
          exact ih hrest' (holdsAt_atUpdate x _ book)

/-- From the bridging diff on. -/
theorem activateFrom_cases {x : Venue} {stream : DiffStream x} {first : BinanceDepthUpdatePayload}
    {rest : List BinanceDepthUpdatePayload} (horder : stream.InOrder (first :: rest))
    {book : BinanceLocalOrderBook} {n : Int} (hbook : book.HoldsAt x n)
    (hfirst : first.firstUpdateId ≤ n) (hfinal : n ≤ first.finalUpdateId) :
    (∃ r, (book.activateFrom first rest).2 = .ok r) ∧
      ((∃ m, reach n (first :: rest) = some m ∧
          (book.activateFrom first rest).1 = book.liveAt x m) ∨
        (book.activateFrom first rest).1.Dormant) := by
  have hgenuine := horder.genuine
  have hcovered : reach n (first :: rest) = reach first.finalUpdateId rest := by
    obtain ⟨i, hi⟩ := horder.inStream first (by simp)
    have hadvances := stream.advances i
    rw [← hi] at hadvances
    rw [reach]
    split
    · rw [show n = first.finalUpdateId by omega]
    · rw [if_pos (by omega)]
  rw [activateFrom, applyUpdate_eq (hgenuine first (by simp)) hbook hfinal (Or.inr hfirst),
    hcovered]
  exact replayBuffered_cases (fun d hd => hgenuine d (by simp [hd])) (holdsAt_atUpdate x _ book)

/-- What a book does about a pending snapshot it holds: wait, ask for a newer snapshot, or go on from
the bridging diff. -/
theorem tryActivateSnapshot_cases {x : Venue} {stream : DiffStream x}
    {book : BinanceLocalOrderBook} (horder : stream.InOrder book.buffer)
    {s : BinanceDepthSnapshotPayload} (hs : book.pendingSnapshot = some s)
    (hbook : book.HoldsAt x s.lastUpdateId) {kept : List BinanceDepthUpdatePayload}
    (hkept : book.buffer.dropWhile (fun u => u.finalUpdateId < s.lastUpdateId) = kept) :
    (∃ r, book.tryActivateSnapshot.2 = .ok r) ∧
      ((kept = [] ∧ book.tryActivateSnapshot.1 = { book with buffer := [] }) ∨
        (kept ≠ [] ∧ (∀ d ∈ kept, s.lastUpdateId < d.firstUpdateId) ∧
          book.tryActivateSnapshot.1 = { book with buffer := kept, status := .resyncRequired }) ∨
        (∃ first, kept.head? = some first ∧ first.firstUpdateId ≤ s.lastUpdateId ∧
          s.lastUpdateId ≤ first.finalUpdateId ∧
          ((∃ m, reach s.lastUpdateId kept = some m ∧
              book.tryActivateSnapshot.1 = book.liveAt x m) ∨
            book.tryActivateSnapshot.1.Dormant))) := by
  have hsub : kept.Sublist book.buffer := hkept ▸ List.dropWhile_sublist _
  have hkeptOrder := horder.sublist hsub
  simp only [tryActivateSnapshot, hs, hkept]
  cases kept with
  | nil => exact ⟨⟨_, rfl⟩, Or.inl ⟨rfl, rfl⟩⟩
  | cons first rest =>
      have hfinal : s.lastUpdateId ≤ first.finalUpdateId := by
        have := List.head?_dropWhile_not (fun u => decide (u.finalUpdateId < s.lastUpdateId))
          book.buffer
        simpa [hkept] using this
      by_cases hfirst : first.firstUpdateId ≤ s.lastUpdateId
      · have hbridge : bridges s.lastUpdateId first = true := by
          simp [bridges, hfirst, hfinal]
        rw [List.dropWhile_cons_of_neg (by simp [hbridge])]
        have hheld : ({ book with buffer := first :: rest, pendingSnapshot := some s } :
            BinanceLocalOrderBook).HoldsAt x s.lastUpdateId := hbook
        obtain ⟨⟨r, hr⟩, hactivated⟩ := activateFrom_cases hkeptOrder hheld hfirst hfinal
        exact ⟨⟨some r, by simp [hr, Except.map]⟩, Or.inr (Or.inr ⟨first, rfl, hfirst, hfinal,
          hactivated⟩)⟩
      · have hafter : ∀ d ∈ first :: rest, s.lastUpdateId < d.firstUpdateId := by
          intro d hd
          rcases List.mem_cons.mp hd with rfl | hrest
          · omega
          · have hlt := (List.pairwise_cons.mp hkeptOrder.ascending).1 d hrest
            have := firstUpdateId_gt_of_before (hkeptOrder.inStream first (by simp))
              (hkeptOrder.inStream d hd) hlt
            omega
        have hnone : (first :: rest).dropWhile (fun u => !bridges s.lastUpdateId u) = [] := by
          rw [List.dropWhile_eq_nil_iff]
          intro d hd
          have := hafter d hd
          simp [bridges, this]
        rw [hnone]
        simp only [unbridged, if_pos (not_le.mp hfirst)]
        exact ⟨⟨_, rfl⟩, Or.inr (Or.inl ⟨by simp, hafter, trivial⟩)⟩

/-! ## The operations -/

/-- A diff that fits the buffer leaves the book activation leaves. -/
theorem bufferUpdate_eq {book : BinanceLocalOrderBook} {d : BinanceDepthUpdatePayload}
    (hroom : ¬ book.maxBufferEvents ≤ book.buffer.length)
    (hok : ∃ r, (tryActivateSnapshot { book with buffer := book.buffer ++ [d] }).2 = .ok r) :
    (book.bufferUpdate d).1 = (tryActivateSnapshot { book with buffer := book.buffer ++ [d] }).1 ∧
      ∃ r, (book.bufferUpdate d).2 = .ok r := by
  obtain ⟨r, hr⟩ := hok
  rw [bufferUpdate, if_neg hroom]
  generalize tryActivateSnapshot { book with buffer := book.buffer ++ [d] } = activated at hr ⊢
  obtain ⟨b, result⟩ := activated
  obtain rfl : result = .ok r := hr
  cases r with
  | none => exact ⟨rfl, _, rfl⟩
  | some activation => exact ⟨rfl, _, rfl⟩

/-- What buffering the next diff does to a book whose buffer is empty or all behind its pending
snapshot. -/
theorem bufferUpdate_cases {x : Venue} {stream : DiffStream x} {book : BinanceLocalOrderBook}
    (htracks : book.Tracks x) (hstatus : book.status ≠ .live) {d : BinanceDepthUpdatePayload}
    (horder : stream.InOrder (book.buffer ++ [d]))
    (hbehind : ∀ s, book.pendingSnapshot = some s →
      book.buffer = [] ∨ ∀ e ∈ book.buffer, s.lastUpdateId < e.firstUpdateId) :
    (∃ r, (book.bufferUpdate d).2 = .ok r) ∧
      ((book.bufferUpdate d).1.Dormant ∨
        (∃ status, status ≠ .live ∧
          (book.bufferUpdate d).1 = { book with buffer := book.buffer ++ [d], status } ∧
          ∀ s, book.pendingSnapshot = some s → s.lastUpdateId < d.firstUpdateId) ∨
        (∃ s, book.pendingSnapshot = some s ∧ book.buffer = [] ∧
          d.finalUpdateId < s.lastUpdateId ∧ (book.bufferUpdate d).1 = book) ∨
        (∃ s, book.pendingSnapshot = some s ∧ book.buffer = [] ∧
          d.firstUpdateId ≤ s.lastUpdateId ∧ s.lastUpdateId ≤ d.finalUpdateId ∧
          (book.bufferUpdate d).1 = book.liveAt x d.finalUpdateId)) := by
  by_cases hfull : book.maxBufferEvents ≤ book.buffer.length
  · simp only [bufferUpdate, if_pos hfull, overflow]
    exact ⟨⟨_, rfl⟩, Or.inl (dormant_invalidate book [d])⟩
  rcases Option.eq_none_or_eq_some book.pendingSnapshot with hs | ⟨s, hs⟩
  · have hactivated : tryActivateSnapshot { book with buffer := book.buffer ++ [d] } =
        ({ book with buffer := book.buffer ++ [d] }, .ok none) := by
      simp only [tryActivateSnapshot, hs]
    obtain ⟨hbook, hok⟩ := bufferUpdate_eq hfull ⟨none, by rw [hactivated]⟩
    rw [hactivated] at hbook
    exact ⟨hok, Or.inr (Or.inl ⟨book.status, hstatus, hbook, by simp [hs]⟩)⟩
  have happended : ({ book with buffer := book.buffer ++ [d] } :
      BinanceLocalOrderBook).pendingSnapshot = some s := hs
  obtain ⟨hactivated, hcases⟩ :=
    tryActivateSnapshot_cases horder happended (htracks.pending s hs) rfl
  obtain ⟨hbook, hok⟩ := bufferUpdate_eq hfull hactivated
  rw [hbook]
  refine ⟨hok, ?_⟩
  have hordered := (horder.genuine d (by simp)).ordered
  -- a diff behind a non-empty buffer starts after the snapshot, as the buffer does
  have hafter : book.buffer ≠ [] → s.lastUpdateId < d.firstUpdateId := by
    intro hne
    obtain ⟨e, he⟩ := List.exists_mem_of_ne_nil _ hne
    have hlt := (List.pairwise_append.mp horder.ascending).2.2 e he d (by simp)
    have hstart := firstUpdateId_gt_of_before (horder.inStream e (by simp [he]))
      (horder.inStream d (by simp)) hlt
    have hbefore := ((hbehind s hs).resolve_left hne) e he
    have hle := (horder.genuine e (by simp [he])).ordered
    omega
  rcases hcases with ⟨hkept, hfirst⟩ | ⟨hne, hkept, hfirst⟩ | ⟨first, hhead, hU, hu, hfirst⟩
  · have hd : d.finalUpdateId < s.lastUpdateId := by
      simpa using List.dropWhile_eq_nil_iff.mp hkept d (by simp)
    have hempty : book.buffer = [] := by
      by_contra hne
      have := hafter hne
      omega
    refine Or.inr (Or.inr (Or.inl ⟨s, hs, hempty, hd, ?_⟩))
    rw [hfirst, ← hempty]
  · have hkeptAll : (book.buffer ++ [d]).dropWhile
        (fun u => u.finalUpdateId < s.lastUpdateId) = book.buffer ++ [d] := by
      rcases hbuffer : book.buffer with _ | ⟨e, rest⟩
      · rw [hbuffer] at hne
        by_cases hd : d.finalUpdateId < s.lastUpdateId
        · simp [hd] at hne
        · simp [hd]
      · have hbefore := ((hbehind s hs).resolve_left (by simp [hbuffer])) e (by simp [hbuffer])
        have hle := (horder.genuine e (by simp [hbuffer])).ordered
        rw [List.cons_append, List.dropWhile_cons_of_neg (by simp; omega)]
    have hd := hkept d (by rw [hkeptAll]; simp)
    refine Or.inr (Or.inl ⟨.resyncRequired, by simp, ?_, ?_⟩)
    · rw [hfirst, hkeptAll]
    · intro s' hs'
      obtain rfl : s = s' := by simpa [hs] using hs'
      exact hd
  · have hempty : book.buffer = [] := by
      by_contra hne
      obtain ⟨e, he⟩ : ∃ e, first = e ∧ e ∈ book.buffer ++ [d] :=
        ⟨first, rfl, (List.dropWhile_sublist _).subset (List.mem_of_head? hhead)⟩
      obtain ⟨rfl, he⟩ := he
      rcases List.mem_append.mp he with he | he
      · have := ((hbehind s hs).resolve_left hne) first he
        omega
      · rw [List.mem_singleton.mp he] at hU
        have := hafter hne
        omega
    rw [hempty, List.nil_append] at hhead hfirst
    have hfirstd : first = d := by
      simpa using (List.dropWhile_sublist _).subset (List.mem_of_head? hhead)
    subst hfirstd
    rw [List.dropWhile_cons_of_neg (by simp; omega)] at hfirst
    rcases hfirst with ⟨m, hm, hlive⟩ | hdormant
    · have hmu : m = first.finalUpdateId :=
        @reach_eq_last _ _ [] _ (List.pairwise_singleton _ _) hu hm
      rw [hempty, List.nil_append, hlive, hmu]
      exact Or.inr (Or.inr (Or.inr ⟨s, hs, rfl, hU, hu, rfl⟩))
    · rw [hempty]
      exact Or.inl hdormant

/-- A diff on a live book: behind it, continuing it, or the end of the book. -/
theorem ingest_live {x : Venue} {book : BinanceLocalOrderBook} {d : BinanceDepthUpdatePayload}
    (hd : GenuineDiff x d) (hsymbol : d.venueSymbol.toUpper = book.venueSymbol)
    (hlive : book.status = .live) {n : Int} (hbook : book.HoldsAt x n) :
    (∃ r, (book.ingest d).2 = .ok r) ∧
      ((d.finalUpdateId ≤ n ∧ (book.ingest d).1 = book) ∨
        (n < d.finalUpdateId ∧ d.previousFinalUpdateId = n ∧
          (book.ingest d).1 = book.atUpdate x d.finalUpdateId) ∨
        (book.ingest d).1.Dormant) := by
  simp only [ingest, hsymbol, ne_eq, not_true_eq_false, if_false, hlive, hbook.1]
  split
  · rename_i hstale
    exact ⟨⟨_, rfl⟩, Or.inl ⟨hstale, rfl⟩⟩
  · rename_i hnew
    split
    · exact ⟨⟨_, rfl⟩, Or.inr (Or.inr (dormant_invalidate book [d]))⟩
    · rename_i hchain
      have hpu : d.previousFinalUpdateId = n := by simpa using hchain
      rw [applyUpdate_eq hd hbook (by omega) (Or.inl hpu.le)]
      exact ⟨⟨_, rfl⟩, Or.inr (Or.inl ⟨by omega, hpu, rfl⟩)⟩

theorem ingest_not_live {book : BinanceLocalOrderBook} {d : BinanceDepthUpdatePayload}
    (hsymbol : d.venueSymbol.toUpper = book.venueSymbol) (hstatus : book.status ≠ .live) :
    book.ingest d = book.bufferUpdate d := by
  simp [ingest, hsymbol, hstatus]

/-- The book a snapshot has been installed on, before activation. -/
def holding (x : Venue) (s : BinanceDepthSnapshotPayload) (book : BinanceLocalOrderBook) :
    BinanceLocalOrderBook :=
  { book.atUpdate x s.lastUpdateId with pendingSnapshot := some s, status := .buffering }

/-- What a genuine snapshot does to a book whose buffer is in stream order. -/
theorem installSnapshot_cases {x : Venue} {stream : DiffStream x} {book : BinanceLocalOrderBook}
    (horder : stream.InOrder book.buffer) {s : BinanceDepthSnapshotPayload}
    (hs : GenuineSnapshot x s) {kept : List BinanceDepthUpdatePayload}
    (hkept : book.buffer.dropWhile (fun u => u.finalUpdateId < s.lastUpdateId) = kept) :
    (∃ r, (book.installSnapshot s).2 = .ok r) ∧
      ((kept = [] ∧ (book.installSnapshot s).1 = { book.holding x s with buffer := [] }) ∨
        (kept ≠ [] ∧ (∀ d ∈ kept, s.lastUpdateId < d.firstUpdateId) ∧
          (book.installSnapshot s).1 =
            { book.holding x s with buffer := kept, status := .resyncRequired }) ∨
        (∃ first, kept.head? = some first ∧ first.firstUpdateId ≤ s.lastUpdateId ∧
          s.lastUpdateId ≤ first.finalUpdateId ∧
          ((∃ m, reach s.lastUpdateId kept = some m ∧
              (book.installSnapshot s).1 = book.liveAt x m) ∨
            (book.installSnapshot s).1.Dormant))) := by
  have hb := hs.snapshotSide_eq .bid
  have ha := hs.snapshotSide_eq .ask
  simp only [BinanceDepthSnapshotPayload.levels] at hb ha
  obtain ⟨⟨r, hr⟩, hcases⟩ := tryActivateSnapshot_cases
    (show stream.InOrder (book.holding x s).buffer from horder)
    (show (book.holding x s).pendingSnapshot = some s from rfl) ⟨rfl, rfl, rfl⟩ hkept
  have hinstalled : (book.installSnapshot s).1 = (book.holding x s).tryActivateSnapshot.1 ∧
      ∃ r, (book.installSnapshot s).2 = .ok r := by
    simp only [installSnapshot, hb, ha]
    generalize hactivated : tryActivateSnapshot _ = activated
    obtain rfl : (book.holding x s).tryActivateSnapshot = activated := hactivated
    generalize (book.holding x s).tryActivateSnapshot = activated at hr ⊢
    obtain ⟨b, result⟩ := activated
    obtain rfl : result = .ok r := hr
    cases r with
    | none => exact ⟨rfl, _, rfl⟩
    | some activation => exact ⟨rfl, _, rfl⟩
  rw [hinstalled.1]
  exact ⟨hinstalled.2, hcases⟩

end BinanceLocalOrderBook

end Cvf
