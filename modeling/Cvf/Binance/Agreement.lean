/-
# Cvf.Binance.Agreement — the local book and the feature book agree, and where they do not.

The REST snapshot's event is emitted in generation zero whatever the local book's generation is.  The
two books agree in the first generation on the steps `Admits` allows, and a snapshot handled in any
later generation breaks them apart: `stale_generation_disagrees` is the shortest such run,
`live_books_agree` the positive half.
-/
import Cvf.Binance.Pipeline

namespace Cvf

open Cvf.Library

namespace Pipeline

variable (digest : SourceDigest)

/-! ## One snapshot -/

/-- What a step on a snapshot does to everything but the local book. -/
structure SnapshotStep (p p' : Pipeline) (s : BinanceDepthSnapshotPayload) : Prop where
  book : p'.connector.book = (p.connector.book.installSnapshot s).1
  handled : p'.handled = p.handled
  updates : ∀ u, NormalizedMarketEvent.orderBookUpdate u ∈ p'.connector.dedupe.identities →
    NormalizedMarketEvent.orderBookUpdate u ∈ p.connector.dedupe.identities
  snapshots : ∀ e, NormalizedMarketEvent.orderBookSnapshot e ∈ p'.connector.dedupe.identities →
    NormalizedMarketEvent.orderBookSnapshot e ∈ p.connector.dedupe.identities ∨
      e.sequenceId = some (.int s.lastUpdateId)
  feature : ∃ e, NormalizesSnapshot s e ∧
    (p'.feature = (p.feature.applySnapshot digest e).1 ∨
      p'.feature = p.feature ∧ p.Processed s.lastUpdateId)

theorem snapshotStep {x : Venue} {stream : DiffStream x} {p : Pipeline}
    {s : BinanceDepthSnapshotPayload} {receipt : Receipt}
    (hgenuine : p.Genuine stream (.depthSnapshot s receipt)) (hsides : x.TwoSided s.lastUpdateId)
    (hok : ∃ r, (p.connector.book.installSnapshot s).2 = .ok r) :
    SnapshotStep digest p (p.step digest (.depthSnapshot s receipt)) s := by
  obtain ⟨hbook, e, he, hkept, hevents⟩ :=
    p.connector.handleDepthSnapshot_spec hgenuine.1 hsides hgenuine.2 hok
  refine ⟨hbook, rfl, fun u hu => ?_, fun e' he' => ?_, e, he, ?_⟩
  · rcases hkept _ hu with h | h
    · simp [normalizedEventIdentity, NormalizedMarketEvent.withBase] at h
    · exact h
  · rcases hkept _ he' with h | h
    · right
      simp only [normalizedEventIdentity, NormalizedMarketEvent.withBase,
        NormalizedMarketEvent.orderBookSnapshot.injEq] at h
      rw [h]
      exact he.sequence
    · exact Or.inl h
  · rcases hevents with hevents | ⟨hevents, hseen⟩
    · left
      simp only [step, hevents]
      rfl
    · right
      exact ⟨by simp only [step, hevents]; rfl, Or.inr ⟨_, hseen, he.sequence⟩⟩

theorem SnapshotStep.processed {p p' : Pipeline} {s : BinanceDepthSnapshotPayload}
    (hstep : SnapshotStep digest p p' s)
    (hpending : ∀ s', p'.connector.book.pendingSnapshot = some s' → s' = s) {n : Int}
    (hn : p'.Processed n) : n = s.lastUpdateId ∨ p.Processed n := by
  rcases hn with ⟨s', hs', rfl⟩ | ⟨e, he, hen⟩
  · exact Or.inl (by rw [hpending s' hs'])
  · rcases hstep.snapshots e he with hold | hnew
    · exact Or.inr (Or.inr ⟨e, hold, hen⟩)
    · rw [hnew, Option.some.injEq, SequenceId.int.injEq] at hen
      exact Or.inl hen.symm

/-- The part of the invariant that does not depend on what the feature book did with a snapshot. -/
theorem SnapshotStep.firstGeneration {x : Venue} {stream : DiffStream x} {p p' : Pipeline}
    {s : BinanceDepthSnapshotPayload} (hstep : SnapshotStep digest p p' s)
    (hp : p.FirstGeneration stream) (hs : GenuineSnapshot x s)
    (hgeneration : p'.connector.book.generation = 0) (hfeature : p'.feature.generation = 0)
    (hbuffer : p'.connector.book.buffer = p.connector.book.buffer.dropWhile
        (fun d => d.finalUpdateId < s.lastUpdateId) ∨ p'.connector.book.buffer = [])
    (hbehind : ∀ s', p'.connector.book.pendingSnapshot = some s' →
      p'.connector.book.buffer = [] ∨
        ∀ e ∈ p'.connector.book.buffer, s'.lastUpdateId < e.firstUpdateId)
    (hlive : p'.connector.book.status = .live → p'.connector.book.buffer = [])
    (hbooks : (∃ m, p'.Following x m) ∨ ∃ pre ps, p'.WaitingWith pre ps) :
    p'.FirstGeneration stream := by
  have hsuffix : p'.connector.book.buffer.IsSuffix p.connector.book.buffer := by
    rcases hbuffer with h | h
    · rw [h]
      exact List.dropWhile_suffix _
    · rw [h]
      exact List.nil_suffix
  exact
    { generation := hgeneration
      featureGeneration := hfeature
      tracks := by
        rw [hstep.book]
        exact BinanceLocalOrderBook.tracks_installSnapshot hp.tracks hs
      inOrder := hp.inOrder.sublist hsuffix.sublist
      fits := fun d hd => hp.fits d (hsuffix.subset hd)
      handledInStream := by
        rw [hstep.handled]
        exact hp.handledInStream
      newest := by
        intro d hd
        rw [hstep.handled]
        refine hp.newest d ?_
        obtain ⟨dropped, hdropped⟩ := hsuffix
        rw [← hdropped, List.getLast?_append, hd]
        rfl
      behind := hbehind
      liveEmpty := hlive
      updatesSeen := by
        intro u hu
        rw [hstep.handled]
        exact hp.updatesSeen u (hstep.updates u hu)
      books := hbooks }

/-- The last diff of a buffer that keeps something carries the newest final id handled. -/
theorem FirstGeneration.last_of_kept {x : Venue} {stream : DiffStream x} {p : Pipeline}
    (hp : p.FirstGeneration stream) {kept : List BinanceDepthUpdatePayload}
    (hkept : kept.IsSuffix p.connector.book.buffer) (hne : kept ≠ []) :
    ∃ init last, kept = init ++ [last] ∧ p.handled = some last.finalUpdateId := by
  obtain ⟨dropped, hdropped⟩ := hkept
  refine ⟨kept.dropLast, kept.getLast hne, (List.dropLast_append_getLast hne).symm, ?_⟩
  refine hp.newest _ ?_
  rw [← hdropped, List.getLast?_append, List.getLast?_eq_some_getLast hne]
  rfl

/-- A snapshot while the feature book follows: it is behind it, or moves it forward. -/
theorem invariant_snapshot_following {x : Venue} {stream : DiffStream x} {p p' : Pipeline}
    {s : BinanceDepthSnapshotPayload} (hstep : SnapshotStep digest p p' s)
    (hp : p.FirstGeneration stream) (hs : GenuineSnapshot x s) (hfits : p.SnapshotFits x s)
    {m : Int} (hm : p.Following x m) : p'.Invariant stream := by
  obtain ⟨-, hcases⟩ := BinanceLocalOrderBook.installSnapshot_cases hp.inOrder hs rfl
  rw [← hstep.book] at hcases
  obtain ⟨e, he, hfeature⟩ := hstep.feature
  by_cases hle : s.lastUpdateId ≤ m
  · have hsame : p'.feature = p.feature := by
      rcases hfeature with h | ⟨h, -⟩
      · rw [h, FeatureOrderBookState.applySnapshot_stale digest he hp.featureGeneration hm.at_ hle]
      · exact h
    have hprocessed : (∀ s', p'.connector.book.pendingSnapshot = some s' → s' = s) →
        ∀ n, p'.Processed n → n ≤ m := by
      intro hpending n hn
      rcases hstep.processed digest hpending hn with rfl | hold
      · exact hle
      · exact hm.processed n hold
    -- a buffer that keeps something was not emptied by a snapshot
    have hhandled : p.connector.book.buffer ≠ [] → p.handled = some m := by
      intro hne
      rcases hm.source with h | ⟨-, -, -, hnil⟩
      · exact h
      · exact absurd hnil hne
    rcases hcases with ⟨-, hbook⟩ | ⟨hne, hkept, hbook⟩ | ⟨first, hhead, hU, hu, hbook⟩
    · have hpending : p'.connector.book.pendingSnapshot = some s := by rw [hbook]; rfl
      have hempty : p'.connector.book.buffer = [] := by rw [hbook]
      refine Or.inr (hstep.firstGeneration digest hp hs (by rw [hbook]; exact hp.generation)
        (hsame ▸ hp.featureGeneration) (Or.inr hempty) (fun _ _ => Or.inl hempty)
        (fun _ => hempty) (Or.inl ⟨m, ?_⟩))
      exact
        { at_ := hsame ▸ hm.at_
          pending := hsame ▸ hm.pending
          handled_le := hstep.handled ▸ hm.handled_le
          source := by
            rw [hstep.handled]
            rcases hm.source with h | ⟨s', hs', rfl, -⟩
            · exact Or.inl h
            · rcases hfits.newer s' hs' with hnewer | ⟨h, hh, hhm⟩
              · exact Or.inr ⟨s, hpending, by omega, hempty⟩
              · have := hm.handled_le h hh
                exact Or.inl (by rw [hh, Option.some.injEq]; omega)
          live := by simp [hbook, BinanceLocalOrderBook.holding]
          processed := hprocessed (by simp [hpending]) }
    · have hpending : p'.connector.book.pendingSnapshot = some s := by rw [hbook]; rfl
      have hbufferNe : p.connector.book.buffer ≠ [] := by
        intro hnil
        simp [hnil] at hne
      refine Or.inr (hstep.firstGeneration digest hp hs (by rw [hbook]; exact hp.generation)
        (hsame ▸ hp.featureGeneration) (Or.inl (by rw [hbook])) ?_ (by simp [hbook])
        (Or.inl ⟨m, ?_⟩))
      · intro s' hs'
        obtain rfl : s = s' := by simpa [hpending] using hs'
        rw [hbook]
        exact Or.inr hkept
      · exact
          { at_ := hsame ▸ hm.at_
            pending := hsame ▸ hm.pending
            handled_le := hstep.handled ▸ hm.handled_le
            source := Or.inl (hstep.handled.trans (hhandled hbufferNe))
            live := by simp [hbook]
            processed := hprocessed (by simp [hpending]) }
    · rcases hbook with ⟨n, hreach, hbook⟩ | hdormant
      · have hkeptNe := List.ne_nil_of_mem (List.mem_of_head? hhead)
        obtain ⟨init, last, hlast, hlastHandled⟩ :=
          hp.last_of_kept (List.dropWhile_suffix _) hkeptNe
        have hbufferNe : p.connector.book.buffer ≠ [] :=
          List.ne_nil_of_mem ((List.dropWhile_sublist _).subset (List.mem_of_head? hhead))
        have hlastm : last.finalUpdateId = m := by
          rw [hhandled hbufferNe, Option.some.injEq] at hlastHandled
          exact hlastHandled.symm
        have hn : n = m := by
          rw [← hlastm]
          have hascending := hp.inOrder.ascending.sublist
            (List.dropWhile_sublist fun d => decide (d.finalUpdateId < s.lastUpdateId))
          rw [hlast] at hascending hreach
          exact reach_eq_last hascending (by omega) hreach
        have hempty : p'.connector.book.buffer = [] := by rw [hbook]; rfl
        have hpending : p'.connector.book.pendingSnapshot = none := by rw [hbook]; rfl
        refine Or.inr (hstep.firstGeneration digest hp hs (by rw [hbook]; exact hp.generation)
          (hsame ▸ hp.featureGeneration) (Or.inr hempty) (fun _ _ => Or.inl hempty)
          (fun _ => hempty) (Or.inl ⟨m, ?_⟩))
        exact
          { at_ := hsame ▸ hm.at_
            pending := hsame ▸ hm.pending
            handled_le := hstep.handled ▸ hm.handled_le
            source := Or.inl (hstep.handled.trans (hhandled hbufferNe))
            live := fun _ => by rw [hbook, hn]; rfl
            processed := hprocessed (by simp [hpending]) }
      · exact Or.inl hdormant
  · have happlied : p'.feature = (p.feature.applySnapshot digest e).1 := by
      rcases hfeature with h | ⟨-, h⟩
      · exact h
      · exact absurd (hm.processed _ h) hle
    have hfresh : p.feature.isStale e = false := by
      simp [FeatureOrderBookState.isStale, he.sequence, hm.at_.sequence, sequenceNumber, hle]
    obtain ⟨hat, hfgen, hfpending⟩ := FeatureOrderBookState.applySnapshot_installs digest hs
      hfits.twoSided he hp.featureGeneration hfresh
      (fun d (hd : d ∈ ([] : List BinanceDepthUpdatePayload)) => absurd hd (by simp))
      List.Pairwise.nil (by rw [hm.pending]; exact List.Forall₂.nil) rfl
    rw [← happlied] at hat hfgen hfpending
    -- every buffered diff is behind the snapshot
    have hdropped : p.connector.book.buffer.dropWhile
        (fun d => d.finalUpdateId < s.lastUpdateId) = [] := by
      rw [List.dropWhile_eq_nil_iff]
      intro d hd
      obtain ⟨h, hh, hdh⟩ := hp.le_handled hd
      have := hm.handled_le h hh
      simp
      omega
    rcases hcases with ⟨-, hbook⟩ | ⟨hne, -⟩ | ⟨first, hhead, -⟩
    · have hpending : p'.connector.book.pendingSnapshot = some s := by rw [hbook]; rfl
      have hempty : p'.connector.book.buffer = [] := by rw [hbook]
      refine Or.inr (hstep.firstGeneration digest hp hs (by rw [hbook]; exact hp.generation) hfgen
        (Or.inr hempty) (fun _ _ => Or.inl hempty) (fun _ => hempty)
        (Or.inl ⟨s.lastUpdateId, ?_⟩))
      exact
        { at_ := hat
          pending := hfpending
          handled_le := by
            intro h hh
            rw [hstep.handled] at hh
            have := hm.handled_le h hh
            omega
          source := Or.inr ⟨s, hpending, rfl, hempty⟩
          live := by simp [hbook, BinanceLocalOrderBook.holding]
          processed := by
            intro n hn
            rcases hstep.processed digest (by simp [hpending]) hn with rfl | hold
            · exact le_rfl
            · have := hm.processed n hold
              omega }
    · exact absurd hdropped hne
    · simp [hdropped] at hhead

/-- A chain that would have to cross the gap in front of the pending part gets nowhere. -/
theorem reach_across_gap {n : Int} {pre ps : List BinanceDepthUpdatePayload}
    (hascending : Ascending (pre ++ ps)) (hpre : pre ≠ []) (hps : ps ≠ [])
    (hgap : ∀ a ∈ pre.getLast?, ∀ b ∈ ps.head?, a.finalUpdateId < b.previousFinalUpdateId)
    (hn : ∀ d ∈ pre, n ≤ d.finalUpdateId) : reach n (pre ++ ps) = none := by
  obtain ⟨init, last, rfl⟩ : ∃ init last, pre = init ++ [last] :=
    ⟨_, _, (List.dropLast_append_getLast hpre).symm⟩
  obtain ⟨b, ps, rfl⟩ := List.exists_cons_of_ne_nil hps
  rw [reach_append]
  have hparts := List.pairwise_append.mp hascending
  cases hreach : reach n (init ++ [last]) with
  | none => rfl
  | some m =>
      have hm := reach_eq_last hparts.1 (hn last (by simp)) hreach
      have hcut := hgap last (by simp) b (by simp)
      have hlater := hparts.2.2 last (by simp) b (by simp)
      simp only [Option.bind_some, reach]
      rw [if_neg (by omega), if_neg (by omega)]

/-- A snapshot while the feature book waits: with nothing kept or a bridging diff both books start
from it; one that was seen before is too old for what is pending. -/
theorem invariant_snapshot_waiting {x : Venue} {stream : DiffStream x} {p p' : Pipeline}
    {s : BinanceDepthSnapshotPayload} (hstep : SnapshotStep digest p p' s)
    (hp : p.FirstGeneration stream) (hs : GenuineSnapshot x s) (hfits : p.SnapshotFits x s)
    {pre ps : List BinanceDepthUpdatePayload} (hwaiting : p.WaitingWith pre ps) :
    p'.Invariant stream := by
  obtain ⟨-, hcases⟩ := BinanceLocalOrderBook.installSnapshot_cases hp.inOrder hs rfl
  rw [← hstep.book] at hcases
  obtain ⟨e, he, hfeature⟩ := hstep.feature
  set kept := p.connector.book.buffer.dropWhile
    (fun d => d.finalUpdateId < s.lastUpdateId) with hkeptDef
  set keptPre := pre.dropWhile (fun d => d.finalUpdateId < s.lastUpdateId) with hkeptPreDef
  have hkeptEq : kept = if keptPre = [] then
      ps.dropWhile (fun d => d.finalUpdateId < s.lastUpdateId) else keptPre ++ ps := by
    rw [hkeptDef, hwaiting.buffer, List.dropWhile_append, ← hkeptPreDef]
    simp only [List.isEmpty_iff]
  have hpsBuffer : ∀ d ∈ ps, d ∈ p.connector.book.buffer := by
    intro d hd
    simp [hwaiting.buffer, hd]
  have hascending := hp.inOrder.ascending
  have hgapPre : ∀ a ∈ keptPre.getLast?, ∀ b ∈ ps.head?,
      a.finalUpdateId < b.previousFinalUpdateId := by
    intro a ha
    obtain ⟨dropped, hdropped⟩ := List.dropWhile_suffix (l := pre)
      fun d => decide (d.finalUpdateId < s.lastUpdateId)
    refine hwaiting.gap a ?_
    rw [← hdropped, List.getLast?_append, ← hkeptPreDef, Option.mem_def.mp ha]
    rfl
  -- a book that goes live kept nothing of the part in front of the gap
  have hkeptPre : ∀ m, reach s.lastUpdateId kept = some m → kept ≠ [] → keptPre = [] := by
    intro m hm hne
    by_contra hpre
    have hps : ps ≠ [] := by
      intro hnil
      simp [(hwaiting.empty hnil).1, hkeptPreDef] at hpre
    rw [hkeptEq, if_neg hpre] at hm
    have hsub : Ascending (keptPre ++ ps) := by
      rw [hwaiting.buffer] at hascending
      exact hascending.sublist ((List.dropWhile_sublist _).append (List.Sublist.refl ps))
    have hafter : ∀ d ∈ keptPre, s.lastUpdateId ≤ d.finalUpdateId := by
      obtain ⟨a, rest, hrest⟩ := List.exists_cons_of_ne_nil hpre
      have hhead : s.lastUpdateId ≤ a.finalUpdateId := by
        have := List.head?_dropWhile_not
          (fun d : BinanceDepthUpdatePayload => decide (d.finalUpdateId < s.lastUpdateId)) pre
        rw [← hkeptPreDef, hrest] at this
        simpa using this
      intro d hd
      rw [hrest] at hd hsub
      rcases List.mem_cons.mp hd with rfl | hd
      · exact hhead
      · have := (List.pairwise_cons.mp hsub).1 d (by simp [hd])
        omega
    rw [reach_across_gap hsub hpre hps hgapPre hafter] at hm
    cases hm
  by_cases hseen : p'.feature = p.feature ∧ p.Processed s.lastUpdateId
  · obtain ⟨hsame, hold⟩ := hseen
    obtain ⟨hps, hafter⟩ := hwaiting.processed _ hold
    have hordered : ∀ d ∈ ps, s.lastUpdateId < d.finalUpdateId := by
      intro d hd
      have h1 := hafter d hd
      have h2 := (hp.inOrder.genuine d (hpsBuffer d hd)).ordered
      omega
    have hps' : ps.dropWhile (fun d => d.finalUpdateId < s.lastUpdateId) = ps := by
      obtain ⟨b, rest, rfl⟩ := List.exists_cons_of_ne_nil hps
      have := hordered b (by simp)
      rw [List.dropWhile_cons_of_neg (by simp; omega)]
    have hkept : kept = keptPre ++ ps := by
      rw [hkeptEq]
      split
      · rename_i hnil
        rw [hps', hnil, List.nil_append]
      · rfl
    rcases hcases with ⟨hnil, -⟩ | ⟨hne, hall, hbook⟩ | ⟨first, hhead, hU, hu, hbook⟩
    · rw [hkept] at hnil
      exact absurd (List.append_eq_nil_iff.mp hnil).2 hps
    · have hpending : p'.connector.book.pendingSnapshot = some s := by rw [hbook]; rfl
      refine Or.inr (hstep.firstGeneration digest hp hs (by rw [hbook]; exact hp.generation)
        (hsame ▸ hp.featureGeneration) (Or.inl (by rw [hbook])) ?_ (by simp [hbook])
        (Or.inr ⟨keptPre, ps, ?_⟩))
      · intro s' hs'
        obtain rfl : s = s' := by simpa [hpending] using hs'
        rw [hbook]
        exact Or.inr hall
      · exact
          { synchronized := hsame ▸ hwaiting.synchronized
            status := by simp [hbook]
            buffer := by rw [hbook, hkept]
            pending := hsame ▸ hwaiting.pending
            empty := fun h => absurd h hps
            gap := hgapPre
            processed := by
              intro n hn
              rcases hstep.processed digest (by simp [hpending]) hn with rfl | h
              · exact ⟨hps, hafter⟩
              · exact hwaiting.processed n h }
    · rcases hbook with ⟨m, hreach, -⟩ | hdormant
      · have hnil := hkeptPre m hreach (List.ne_nil_of_mem (List.mem_of_head? hhead))
        rw [hkept, hnil, List.nil_append] at hhead
        have := hafter first (List.mem_of_head? hhead)
        omega
      · exact Or.inl hdormant
  · have happlied : p'.feature = (p.feature.applySnapshot digest e).1 :=
      hfeature.resolve_right hseen
    have hfresh : p.feature.isStale e = false := by
      simp [FeatureOrderBookState.isStale, hwaiting.synchronized]
    have hpsOrder : Ascending ps := by
      rw [hwaiting.buffer] at hascending
      exact (List.pairwise_append.mp hascending).2.1
    have hpsFit : ∀ d ∈ ps,
        GenuineDiff x d ∧ 0 < d.finalUpdateId ∧ x.TwoSided d.finalUpdateId := fun d hd =>
      ⟨hp.inOrder.genuine d (hpsBuffer d hd), hp.fits d (hpsBuffer d hd)⟩
    rcases hcases with ⟨hnil, hbook⟩ | ⟨hne, hall, -⟩ | ⟨first, hhead, hU, hu, hbook⟩
    · have hbehind : ∀ d ∈ p.connector.book.buffer, d.finalUpdateId < s.lastUpdateId := by
        intro d hd
        simpa using List.dropWhile_eq_nil_iff.mp hnil d hd
      have hreach : reach s.lastUpdateId ps = some s.lastUpdateId := by
        rw [← reach_dropWhile, List.dropWhile_eq_nil_iff.mpr]
        · rfl
        · intro d hd
          simpa using hbehind d (hpsBuffer d hd)
      obtain ⟨hat, hfgen, hfpending⟩ := FeatureOrderBookState.applySnapshot_installs digest hs
        hfits.twoSided he hp.featureGeneration hfresh hpsFit hpsOrder hwaiting.pending hreach
      rw [← happlied] at hat hfgen hfpending
      have hpending : p'.connector.book.pendingSnapshot = some s := by rw [hbook]; rfl
      have hempty : p'.connector.book.buffer = [] := by rw [hbook]
      refine Or.inr (hstep.firstGeneration digest hp hs (by rw [hbook]; exact hp.generation) hfgen
        (Or.inr hempty) (fun _ _ => Or.inl hempty) (fun _ => hempty)
        (Or.inl ⟨s.lastUpdateId, ?_⟩))
      exact
        { at_ := hat
          pending := hfpending
          handled_le := by
            intro h hh
            rw [hstep.handled] at hh
            by_cases hps : ps = []
            · simp [(hwaiting.empty hps).2] at hh
            · obtain ⟨init, last, hlast, hlastHandled⟩ := hp.last_of_kept List.suffix_rfl
                (by simp [hwaiting.buffer, hps])
              rw [hlastHandled, Option.some.injEq] at hh
              have := hbehind last (by simp [hlast])
              omega
          source := Or.inr ⟨s, hpending, rfl, hempty⟩
          live := by simp [hbook, BinanceLocalOrderBook.holding]
          processed := by
            intro n hn
            rcases hstep.processed digest (by simp [hpending]) hn with rfl | hold
            · exact le_rfl
            · obtain ⟨hps, hafter⟩ := hwaiting.processed n hold
              obtain ⟨d, hd⟩ := List.exists_mem_of_ne_nil _ hps
              have h1 := hafter d hd
              have h2 := (hp.inOrder.genuine d (hpsBuffer d hd)).ordered
              have h3 := hbehind d (hpsBuffer d hd)
              omega }
    · obtain ⟨first, rest, hfirst⟩ := List.exists_cons_of_ne_nil hne
      have hnotTooOld := hfits.notTooOld.resolve_left (by simp [hwaiting.synchronized]) first
        (by rw [← hkeptDef, hfirst]; rfl)
      have := hall first (by simp [hfirst])
      omega
    · rcases hbook with ⟨m, hreach, hbook⟩ | hdormant
      · have hne := List.ne_nil_of_mem (List.mem_of_head? hhead)
        have hnil := hkeptPre m hreach hne
        have hkeptPs : kept = ps.dropWhile (fun d => d.finalUpdateId < s.lastUpdateId) := by
          rw [hkeptEq, if_pos hnil]
        obtain ⟨init, last, hlast, hlastHandled⟩ :=
          hp.last_of_kept (List.dropWhile_suffix _) hne
        have hkeptOrder : Ascending (init ++ [last]) := by
          rw [← hlast]
          exact hascending.sublist (List.dropWhile_sublist _)
        have hfirstLast : first.finalUpdateId ≤ last.finalUpdateId := by
          have hmem : first ∈ init ++ [last] := hlast ▸ List.mem_of_head? hhead
          rcases List.mem_append.mp hmem with h | h
          · exact ((List.pairwise_append.mp hkeptOrder).2.2 first h last (by simp)).le
          · rw [List.mem_singleton.mp h]
        have hm : m = last.finalUpdateId := by
          rw [hkeptDef, hlast] at hreach
          exact reach_eq_last hkeptOrder (by omega) hreach
        have hreachPs : reach s.lastUpdateId ps = some m := by
          rw [← reach_dropWhile, ← hkeptPs, hreach]
        obtain ⟨hat, hfgen, hfpending⟩ := FeatureOrderBookState.applySnapshot_installs digest hs
          hfits.twoSided he hp.featureGeneration hfresh hpsFit hpsOrder hwaiting.pending hreachPs
        rw [← happlied] at hat hfgen hfpending
        have hempty : p'.connector.book.buffer = [] := by rw [hbook]; rfl
        have hpending : p'.connector.book.pendingSnapshot = none := by rw [hbook]; rfl
        have hhandled : p'.handled = some m := by rw [hstep.handled, hlastHandled, hm]
        refine Or.inr (hstep.firstGeneration digest hp hs (by rw [hbook]; exact hp.generation)
          hfgen (Or.inr hempty) (fun _ _ => Or.inl hempty) (fun _ => hempty) (Or.inl ⟨m, ?_⟩))
        exact
          { at_ := hat
            pending := hfpending
            handled_le := by simp [hhandled]
            source := Or.inl hhandled
            live := fun _ => by rw [hbook]; rfl
            processed := by
              intro n hn
              rcases hstep.processed digest (by simp [hpending]) hn with rfl | hold
              · omega
              · obtain ⟨hps, hafter⟩ := hwaiting.processed n hold
                obtain ⟨d, hd⟩ := List.exists_mem_of_ne_nil _ hps
                have h1 := hafter d hd
                have h2 := (hp.inOrder.genuine d (hpsBuffer d hd)).ordered
                obtain ⟨h, hh, hdh⟩ := hp.le_handled (hpsBuffer d hd)
                rw [hlastHandled, Option.some.injEq] at hh
                omega }
      · exact Or.inl hdormant

/-! ## Runs -/

theorem invariant_step {x : Venue} {stream : DiffStream x} (p : Pipeline) (input : ConnectorInput)
    (hp : p.Invariant stream) (hinput : p.Admits stream input) :
    (p.step digest input).Invariant stream := by
  cases input with
  | connected => exact invariant_connected digest p
  | depthUpdate d receipt =>
      rcases hp with hdormant | hfirst
      · left
        have hbook := p.connector.handleDepthUpdate_book d receipt
        exact hbook ▸ dormant_ingest hdormant d
      · exact invariant_depthUpdate digest hfirst hinput.1 (hinput.2 hfirst.generation)
  | depthSnapshot s receipt =>
      have hfits : p.SnapshotFits x s := hinput.2
      rcases hp with hdormant | hfirst
      · have := hdormant.generation
        have := hfits.generation
        omega
      · have hs : GenuineSnapshot x s := hinput.1.1.snapshot
        have hok := (BinanceLocalOrderBook.installSnapshot_cases hfirst.inOrder hs rfl).1
        have hstep := snapshotStep digest hinput.1 hfits.twoSided hok
        rcases hfirst.books with ⟨m, hm⟩ | ⟨pre, ps, hwaiting⟩
        · exact invariant_snapshot_following digest hstep hfirst hs hfits hm
        · exact invariant_snapshot_waiting digest hstep hfirst hs hfits hwaiting

theorem invariant_fresh {x : Venue} (stream : DiffStream x) (venueSymbol canonicalSymbol : String)
    (maxBufferEvents : Nat) (hbuffer : 1 ≤ maxBufferEvents) (dedupeCapacity : Nat)
    (hdedupe : 1 ≤ dedupeCapacity) (ttl : Int) (httl : 0 < ttl) (pendingCapacity : Nat)
    (hpending : 1 ≤ pendingCapacity) :
    (fresh venueSymbol canonicalSymbol maxBufferEvents hbuffer dedupeCapacity hdedupe ttl httl
      pendingCapacity hpending).Invariant stream := by
  refine Or.inr
    { generation := rfl
      featureGeneration := rfl
      tracks := BinanceLocalOrderBook.tracks_new x venueSymbol maxBufferEvents hbuffer
      inOrder := DiffStream.InOrder.nil
      fits := fun d hd => absurd hd (by simp [fresh, BinanceLocalOrderBook.new])
      handledInStream := fun h hh => absurd hh (by simp [fresh])
      newest := fun d hd => absurd hd (by simp [fresh, BinanceLocalOrderBook.new])
      behind := fun s hs => absurd hs (by simp [fresh, BinanceLocalOrderBook.new])
      liveEmpty := fun _ => rfl
      updatesSeen := fun u hu => absurd hu (by simp [fresh, BoundedTTLDeduplicator.identities])
      books := Or.inr ⟨[], [], ?_⟩ }
  exact
    { synchronized := rfl
      status := by simp [fresh, BinanceLocalOrderBook.new]
      buffer := rfl
      pending := List.Forall₂.nil
      empty := fun _ => ⟨rfl, rfl⟩
      gap := by simp
      processed := by
        rintro n (⟨s, hs, -⟩ | ⟨e, he, -⟩)
        · simp [fresh, BinanceLocalOrderBook.new] at hs
        · simp [fresh, BoundedTTLDeduplicator.identities] at he }

/-- **Agreement.**  In every run whose steps all meet `Admits`, in every state reached, a live
two-sided local book and the feature book agree. -/
theorem live_books_agree {x : Venue} (stream : DiffStream x) (venueSymbol canonicalSymbol : String)
    (maxBufferEvents : Nat) (hbuffer : 1 ≤ maxBufferEvents) (dedupeCapacity : Nat)
    (hdedupe : 1 ≤ dedupeCapacity) (ttl : Int) (httl : 0 < ttl) (pendingCapacity : Nat)
    (hpending : 1 ≤ pendingCapacity) (inputs : List ConnectorInput)
    (hinputs : Admitted (step digest) (Admits stream)
      (fresh venueSymbol canonicalSymbol maxBufferEvents hbuffer dedupeCapacity hdedupe ttl httl
        pendingCapacity hpending) inputs) :
    ∀ n, ((inputs.take n).foldl (step digest)
      (fresh venueSymbol canonicalSymbol maxBufferEvents hbuffer dedupeCapacity hdedupe ttl httl
        pendingCapacity hpending)).Agree := by
  intro n
  rw [← List.take_append_drop n inputs, admitted_append] at hinputs
  exact agree_of_invariant (invariant_of_admitted (invariant_step digest)
    (invariant_fresh stream venueSymbol canonicalSymbol maxBufferEvents hbuffer dedupeCapacity
      hdedupe ttl httl pendingCapacity hpending) hinputs.1)

/-! ### Two runs of the pulsing venue -/

section Pulsing

open BinanceLocalOrderBook

theorem pulsingVenue_twoSided (n : Int) : pulsingVenue.TwoSided n := by
  have hone : BookSide.crossed ((∅ : BookSide).insert 1 1) ((∅ : BookSide).insert 3 1) = false := by
    decide +kernel
  have htwo : BookSide.crossed ((∅ : BookSide).insert 1 2) ((∅ : BookSide).insert 3 1) = false := by
    decide +kernel
  have hne : ∀ p q : Decimal, (∅ : BookSide).insert p q ≠ ∅ := by
    intro p q h
    have := congrArg (Finmap.lookup p) h
    simp at this
  refine ⟨hne _ _, hne _ _, ?_⟩
  simp only [pulsingVenue]
  split
  · exact htwo
  · exact hone

theorem pulsingDiff_frame (i : Nat) : GenuineFrame pulsingStream (pulsingDiff i) where
  inStream := ⟨i, rfl⟩
  nonempty := Or.inl (by simp [pulsingDiff])
  positiveId := by
    simp only [pulsingDiff]
    omega
  positivePrices := by
    have hone : parseLevel ("1", "1") = .ok (1, 1) := by decide +kernel
    have htwo : parseLevel ("1", "2") = .ok (1, 2) := by decide +kernel
    intro side parsed hparsed l hl
    cases side with
    | bid =>
        simp only [BinanceDepthUpdatePayload.levels, pulsingDiff] at hparsed
        have hprice : l.1 = 1 := by
          split at hparsed
          · simp only [List.mapM_cons, htwo, List.mapM_nil, pure, Except.pure, bind, Except.bind,
              Except.ok.injEq] at hparsed
            subst hparsed
            rw [List.mem_singleton.mp hl]
          · simp only [List.mapM_cons, hone, List.mapM_nil, pure, Except.pure, bind, Except.bind,
              Except.ok.injEq] at hparsed
            subst hparsed
            rw [List.mem_singleton.mp hl]
        rw [hprice]
        norm_num
    | ask =>
        simp only [BinanceDepthUpdatePayload.levels, pulsingDiff, List.mapM_nil, pure, Except.pure,
          Except.ok.injEq] at hparsed
        simp [← hparsed] at hl

theorem pulsingSnapshot_rest : GenuineRest pulsingVenue pulsingSnapshot := by
  have hbids : [("1", "1")].mapM parseLevel = .ok [(1, 1)] := by decide +kernel
  have hasks : [("3", "1")].mapM parseLevel = .ok [(3, 1)] := by decide +kernel
  refine ⟨pulsingSnapshot_genuine, ?_, ?_, ?_⟩
  · intro side parsed hparsed l hl
    cases side with
    | bid =>
        obtain rfl : [(1, 1)] = parsed := Except.ok.inj (hbids.symm.trans hparsed)
        rw [List.mem_singleton.mp hl]
        norm_num
    | ask =>
        obtain rfl : [(3, 1)] = parsed := Except.ok.inj (hasks.symm.trans hparsed)
        rw [List.mem_singleton.mp hl]
        norm_num
  · intro parsed hparsed
    obtain rfl : [(1, 1)] = parsed := Except.ok.inj (hbids.symm.trans hparsed)
    exact List.pairwise_singleton _ _
  · intro parsed hparsed
    obtain rfl : [(3, 1)] = parsed := Except.ok.inj (hasks.symm.trans hparsed)
    exact List.pairwise_singleton _ _

def pulsingStart : Pipeline :=
  fresh "BTCUSDT" "BTCUSDT" 4 (by decide) 8 (by decide) 1000 (by decide) 4 (by decide)

/-- The first connection: one diff buffered, a snapshot that bridges it. -/
def reconnectRun : List ConnectorInput :=
  [.connected, .depthUpdate (pulsingDiff 0) (.instant 1),
    .depthSnapshot pulsingSnapshot (.instant 2)]

/-- After `CONNECTED` the local book is in generation one, the snapshot's event in generation zero:
the local book goes live and the feature book waits on. -/
theorem stale_generation_disagrees :
    Admitted (step noDigest) (Genuine pulsingStream) pulsingStart reconnectRun ∧
      (∀ n, ((reconnectRun.take n).foldl (step noDigest) pulsingStart).feature.pending.length <
        pulsingStart.feature.pendingCapacity) ∧
      ¬ (reconnectRun.foldl (step noDigest) pulsingStart).Agree := by
  refine ⟨⟨trivial, ⟨pulsingDiff_frame 0, by decide +kernel, by decide +kernel⟩,
    ⟨pulsingSnapshot_rest, by decide +kernel⟩, trivial⟩, ?_, ?_⟩
  · have hprefixes : ∀ n ≤ 3,
        ((reconnectRun.take n).foldl (step noDigest) pulsingStart).feature.pending.length <
          pulsingStart.feature.pendingCapacity := by decide +kernel
    intro n
    rcases Nat.le_total n 3 with hn | hn
    · exact hprefixes n hn
    · rw [List.take_of_length_le (by simpa [reconnectRun] using hn)]
      exact hprefixes 3 le_rfl
  · have hlive : (reconnectRun.foldl (step noDigest) pulsingStart).connector.book.status = .live :=
      by decide +kernel
    have hbids : (reconnectRun.foldl (step noDigest) pulsingStart).connector.book.bids ≠ ∅ := by
      decide +kernel
    have hasks : (reconnectRun.foldl (step noDigest) pulsingStart).connector.book.asks ≠ ∅ := by
      decide +kernel
    have huncrossed : BookSide.crossed
        (reconnectRun.foldl (step noDigest) pulsingStart).connector.book.bids
        (reconnectRun.foldl (step noDigest) pulsingStart).connector.book.asks = false := by
      decide +kernel
    have hwaiting : (reconnectRun.foldl (step noDigest) pulsingStart).feature.synchronized =
        false := by decide +kernel
    intro hagree
    simp [(hagree hlive hbids hasks huncrossed).1] at hwaiting

/-- The same without the reconnect, and one more diff. -/
def firstGenerationRun : List ConnectorInput :=
  [.depthUpdate (pulsingDiff 0) (.instant 1), .depthSnapshot pulsingSnapshot (.instant 2),
    .depthUpdate (pulsingDiff 1) (.instant 3)]

theorem firstGenerationRun_admitted :
    Admitted (step noDigest) (Admits pulsingStream) pulsingStart firstGenerationRun := by
  refine ⟨⟨⟨pulsingDiff_frame 0, by decide +kernel, by decide +kernel⟩, fun _ =>
      ⟨Or.inr (by decide +kernel), pulsingVenue_twoSided _, by decide +kernel, by decide +kernel⟩⟩,
    ⟨⟨pulsingSnapshot_rest, by decide +kernel⟩,
      ⟨by decide +kernel, pulsingVenue_twoSided _, fun s hs => ?_, Or.inr (by decide +kernel)⟩⟩,
    ⟨⟨pulsingDiff_frame 1, by decide +kernel, by decide +kernel⟩, fun _ =>
      ⟨Or.inl (by decide +kernel), pulsingVenue_twoSided _, by decide +kernel,
        by decide +kernel⟩⟩, trivial⟩
  have hnone : (step noDigest pulsingStart
      (.depthUpdate (pulsingDiff 0) (.instant 1))).connector.book.pendingSnapshot = none := by
    decide +kernel
  exact absurd (hnone.symm.trans hs) (by simp)

theorem live_books_agree_pulsing :
    (firstGenerationRun.foldl (step noDigest) pulsingStart).connector.book.status = .live ∧
      (firstGenerationRun.foldl (step noDigest) pulsingStart).feature.sequenceId = some 2 ∧
      ∀ n, ((firstGenerationRun.take n).foldl (step noDigest) pulsingStart).Agree :=
  ⟨by decide +kernel, by decide +kernel,
    live_books_agree noDigest pulsingStream "BTCUSDT" "BTCUSDT" 4 (by decide) 8 (by decide) 1000
      (by decide) 4 (by decide) firstGenerationRun firstGenerationRun_admitted⟩

end Pulsing

end Pipeline

end Cvf
