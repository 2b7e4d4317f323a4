/-
# Cvf.Features.BookReplay — waiting updates against live ones.

A live update must name the id the book stands at.  A replayed one must only not name a later id, so
an update that overlaps what was replayed before it, or that lacks an id, is applied all the same.
Where the waiting updates are one chain from the snapshot on, the two paths agree.
-/
import Cvf.Features.BookInvariant

namespace Cvf

open Cvf.Library

namespace OrderBookUpdate

/-- `_sequence(update.sequence_id)`. -/
def sequence (update : OrderBookUpdate) : Option Int := sequenceNumber update.sequenceId

/-- `_sequence(update.previous_sequence_id)`. -/
def previous (update : OrderBookUpdate) : Option Int := sequenceNumber update.previousSequenceId

/-- `sequence <= self.sequence_id`, where both are there: the replay skips the update. -/
def overtaken (current : Option Int) (update : OrderBookUpdate) : Bool :=
  match update.sequence, current with
  | some s, some c => decide (s ≤ c)
  | _, _ => false

/-- `previous > self.sequence_id`, where all three are there: the replay ends with a gap. -/
def gapped (current : Option Int) (update : OrderBookUpdate) : Bool :=
  match update.sequence, current with
  | some _, some c => update.previous.any (c < ·)
  | _, _ => false

/-- A later update of an id the book records; it does not record zero. -/
def repeats (update later : OrderBookUpdate) : Bool :=
  match update.sequence, later.sequence with
  | some s, some t => decide (s ≠ 0 ∧ s = t)
  | _, _ => false

end OrderBookUpdate

namespace FeatureOrderBookState

variable (digest : SourceDigest)

/-- The waiting updates a replay applies, in the order it applies them. -/
def appliedUpdates (book : FeatureOrderBookState) : List OrderBookUpdate → List OrderBookUpdate
  | [] => []
  | update :: rest =>
    match book.replayOne update with
    | (_, false) => []
    | (after, true) =>
      if update.overtaken book.sequenceId then appliedUpdates after rest
      else update :: appliedUpdates after rest

/-- The waiting updates a snapshot applies. -/
def appliedPending (book : FeatureOrderBookState) (snapshot : OrderBookSnapshot) :
    List OrderBookUpdate :=
  (book.installed digest snapshot).appliedUpdates (book.replayed snapshot)

/-- What the live path would have asked of updates applied from an id on. -/
structure ReplayStrict (start : Option Int) (applied : List OrderBookUpdate) : Prop where
  identified : ∀ update ∈ applied, update.sequence ≠ none
  increasing : applied.Pairwise fun u v => ∀ s ∈ u.sequence, ∀ t ∈ v.sequence, s < t
  first : ∀ update ∈ applied.head?, ∀ p ∈ update.previous, ∃ c ∈ start, p ≤ c
  later : applied.IsChain fun u v => ∀ p ∈ v.previous, u.sequence = some p

/-! ## What the replay asks -/

/-- The part of the replay loop that applies an update. -/
def applyReplayed (book : FeatureOrderBookState) (update : OrderBookUpdate) :
    FeatureOrderBookState × Bool :=
  match book.applyLevels update.bids update.asks with
  | (after, false) => (after, false)
  | (after, true) =>
    ({ after with
        lastChange := some (book.measureChange update)
        sequenceId := orDefault update.sequence after.sequenceId }, true)

theorem replayOne_eq (book : FeatureOrderBookState) (update : OrderBookUpdate) :
    book.replayOne update =
      if update.overtaken book.sequenceId then (book, true)
      else if update.gapped book.sequenceId then
        (book.desynchronize "pending update has a sequence gap", false)
      else book.applyReplayed update := by
  unfold replayOne applyReplayed OrderBookUpdate.overtaken OrderBookUpdate.gapped
    OrderBookUpdate.sequence OrderBookUpdate.previous
  dsimp only
  cases sequenceNumber update.sequenceId with
  | none => rfl
  | some s =>
    cases book.sequenceId with
    | none => rfl
    | some c =>
      dsimp only
      by_cases hskip : s ≤ c
      · exact (if_pos hskip).trans (if_pos (decide_eq_true hskip)).symm
      · refine (if_neg hskip).trans (Eq.trans ?_ (if_neg (decide_eq_true_iff.not.mpr hskip)).symm)
        by_cases hgap : (sequenceNumber update.previousSequenceId).any (c < ·) = true
        · exact (if_pos hgap).trans (if_pos hgap).symm
        · exact (if_neg hgap).trans (if_neg hgap).symm

theorem applyReplayed_true {book after : FeatureOrderBookState} {update : OrderBookUpdate}
    (h : book.applyReplayed update = (after, true)) :
    after.sequenceId = orDefault update.sequence book.sequenceId := by
  unfold applyReplayed at h
  rcases book.applyLevels_cases update.bids update.asks with ⟨reason, hlost⟩ | ⟨-, hput⟩
  · rw [hlost] at h
    cases h
  · rw [hput] at h
    obtain rfl := (Prod.mk.inj h).1
    rfl

/-- Without a gap no id is named that is behind what the book stands at. -/
theorem previous_le_of_not_gapped {update : OrderBookUpdate} {current : Option Int}
    (h : update.gapped current = false) (hs : update.sequence ≠ none) :
    ∀ c ∈ current, ∀ p ∈ update.previous, p ≤ c := by
  intro c hc p hp
  obtain ⟨s, hs⟩ := Option.ne_none_iff_exists'.mp hs
  obtain rfl := Option.mem_def.mp hc
  unfold OrderBookUpdate.gapped at h
  rw [hs] at h
  dsimp only at h
  rw [Option.mem_def.mp hp] at h
  simpa using h

/-- The updates of a sequence that are applied when none of them ends the replay. -/
def notOvertaken (current : Option Int) : List OrderBookUpdate → List OrderBookUpdate
  | [] => []
  | update :: rest =>
    if update.overtaken current then notOvertaken current rest
    else update :: notOvertaken (orDefault update.sequence current) rest

/-- What an accepted replay applied, and what it had asked of each update it applied. -/
theorem appliedUpdates_of_accepted {book : FeatureOrderBookState} {updates : List OrderBookUpdate}
    (h : (book.replayPending updates).2 = .accepted) :
    book.appliedUpdates updates = notOvertaken book.sequenceId updates ∧
      (∀ update ∈ (book.appliedUpdates updates).head?, update.sequence ≠ none →
        ∀ c ∈ book.sequenceId, ∀ p ∈ update.previous, p ≤ c) ∧
      (book.appliedUpdates updates).IsChain fun u v => v.sequence ≠ none →
        ∀ s ∈ u.sequence, s ≠ 0 → ∀ p ∈ v.previous, p ≤ s := by
  induction updates generalizing book with
  | nil => exact ⟨rfl, by simp [appliedUpdates], by simp [appliedUpdates]⟩
  | cons update rest ih =>
    unfold appliedUpdates notOvertaken
    unfold replayPending at h
    rw [replayOne_eq] at h ⊢
    by_cases hskip : update.overtaken book.sequenceId = true
    · simp only [if_pos hskip] at h ⊢
      exact ih h
    · simp only [if_neg hskip] at h ⊢
      by_cases hgap : update.gapped book.sequenceId = true
      · rw [if_pos hgap] at h
        cases h
      · rw [if_neg hgap] at h ⊢
        have hbehind := previous_le_of_not_gapped (Bool.eq_false_iff.mpr hgap)
        rcases hafter : book.applyReplayed update with ⟨after, ok⟩
        rw [hafter] at h
        cases ok with
        | false => cases h
        | true =>
          have hsequence := applyReplayed_true hafter
          obtain ⟨happlied, hfirst, hchain⟩ := ih h
          rw [hsequence] at happlied hfirst
          refine ⟨congrArg _ happlied, ?_, ?_⟩
          · rintro first hmem
            obtain rfl := Option.some.inj hmem
            exact hbehind
          · refine List.isChain_cons.mpr ⟨?_, hchain⟩
            intro next hnext hnamed s hs hzero p hp
            apply hfirst next hnext hnamed s _ p hp
            rw [Option.mem_def.mp hs, orDefault, if_neg hzero]
            rfl

/-! ## The waiting updates ahead of a snapshot -/

/-- The first update of each recorded id. -/
def withoutRepeats : List OrderBookUpdate → List OrderBookUpdate
  | [] => []
  | update :: rest => update :: (withoutRepeats rest).filter fun later => !update.repeats later

/-- Of waiting updates in replay order: those ahead of an id, without repeats. -/
def waitingAhead (start : Option Int) (updates : List OrderBookUpdate) : List OrderBookUpdate :=
  withoutRepeats (updates.filter fun update => !update.overtaken start)

/-- A property of ids alone goes through the removal of repeats. -/
theorem withoutRepeats_filter {p : OrderBookUpdate → Bool}
    (hp : ∀ u v : OrderBookUpdate, u.sequence = v.sequence → p u = p v)
    (updates : List OrderBookUpdate) :
    withoutRepeats (updates.filter p) = (withoutRepeats updates).filter p := by
  induction updates with
  | nil => rfl
  | cons update rest ih =>
    cases hupdate : p update with
    | true =>
      rw [List.filter_cons_of_pos hupdate, withoutRepeats, ih, withoutRepeats,
        List.filter_cons_of_pos hupdate, List.filter_comm]
    | false =>
      rw [List.filter_cons_of_neg (by simp [hupdate]), ih, withoutRepeats,
        List.filter_cons_of_neg (by simp [hupdate]), List.filter_filter]
      -- what repeats a rejected update is rejected itself
      apply List.filter_congr
      intro later _
      cases hrepeats : update.repeats later with
      | false => simp
      | true =>
        have hsame : update.sequence = later.sequence := by
          unfold OrderBookUpdate.repeats at hrepeats
          split at hrepeats
          · rename_i s t hs ht
            rw [hs, ht, (of_decide_eq_true hrepeats).2]
          · cases hrepeats
        rw [← hp update later hsame, hupdate]
        rfl

theorem withoutRepeats_sublist (updates : List OrderBookUpdate) :
    (withoutRepeats updates).Sublist updates := by
  induction updates with
  | nil => exact .slnil
  | cons update rest ih => exact (List.filter_sublist.trans ih).cons_cons update

theorem withoutRepeats_pairwise (updates : List OrderBookUpdate) :
    (withoutRepeats updates).Pairwise fun u v => u.repeats v = false := by
  induction updates with
  | nil => exact .nil
  | cons update rest ih =>
    refine List.pairwise_cons.mpr ⟨fun later hlater => ?_, ih.filter _⟩
    simpa using (List.mem_filter.mp hlater).2

/-- Behind an update that was not overtaken, to be overtaken by it is to repeat it. -/
theorem overtaken_of_applied {start : Option Int} {update later : OrderBookUpdate}
    (happlied : update.overtaken start = false) (hkey : replayKey update ≤ replayKey later) :
    later.overtaken (orDefault update.sequence start) =
      (later.overtaken start || update.repeats later) := by
  unfold replayKey at hkey
  unfold OrderBookUpdate.overtaken OrderBookUpdate.repeats OrderBookUpdate.sequence at *
  cases hs : sequenceNumber update.sequenceId with
  | none => simp [orDefault]
  | some s =>
    cases ht : sequenceNumber later.sequenceId with
    | none => simp
    | some t =>
      by_cases hzero : s = 0
      · subst hzero
        simp [orDefault]
      · rw [hs, ht] at hkey
        simp only [orDefault, if_neg hzero, Option.getD_some] at hkey ⊢
        have hlate : s ≤ t := by
          split_ifs at hkey with htzero
          · rw [Option.getD_some] at hkey
            omega
          · exact hkey
        cases start with
        | none =>
          simp only [Bool.false_or, decide_eq_decide]
          omega
        | some c =>
          rw [hs] at happlied
          have hahead : c < s := by simpa using happlied
          rw [← Bool.decide_or, decide_eq_decide]
          omega

/-- In replay order the updates not overtaken one after the other are those ahead of the start,
without repeats. -/
theorem notOvertaken_eq {updates : List OrderBookUpdate} (start : Option Int)
    (hsorted : updates.Pairwise fun u v => replayKey u ≤ replayKey v) :
    notOvertaken start updates = waitingAhead start updates := by
  induction updates generalizing start with
  | nil => rfl
  | cons update rest ih =>
    obtain ⟨hfirst, hrest⟩ := List.pairwise_cons.mp hsorted
    unfold notOvertaken waitingAhead
    by_cases hskip : update.overtaken start = true
    · rw [if_pos hskip, List.filter_cons_of_neg (by simp [hskip]), ih start hrest]
      rfl
    · rw [if_neg hskip, List.filter_cons_of_pos (by simp [hskip]), withoutRepeats,
        ih _ hrest, waitingAhead, ← withoutRepeats_filter, List.filter_filter]
      · congr 2
        apply List.filter_congr
        intro later hlater
        rw [overtaken_of_applied (Bool.eq_false_iff.mpr hskip) (hfirst later hlater)]
        cases later.overtaken start <;> cases update.repeats later <;> rfl
      · intro u v hsame
        unfold OrderBookUpdate.repeats
        rw [hsame]

/-! ## Exactly when a replay is as strict as the live path -/

/-- What the replay does not ask of the waiting updates ahead of a snapshot: that each has an id, that
an id of zero stands before positive ids only, that the first follows a snapshot with an id when it
names one, and that no later one reaches behind the update before it. -/
structure NoOverlap (start : Option Int) (waiting : List OrderBookUpdate) : Prop where
  identified : ∀ update ∈ waiting, update.sequence ≠ none
  zero : waiting.Pairwise fun u v => u.sequence = some 0 → ∀ t ∈ v.sequence, 0 < t
  first : ∀ update ∈ waiting.head?, update.previous ≠ none → start ≠ none
  later : waiting.IsChain fun u v =>
    ∀ s ∈ u.sequence, ∀ p ∈ v.previous, s ≤ p ∧ (s = 0 → p = 0)

/-- Updates in replay order, no two of one recorded id. -/
theorem waitingAhead_sorted {updates : List OrderBookUpdate} (start : Option Int)
    (hsorted : updates.Pairwise fun u v => replayKey u ≤ replayKey v) :
    (waitingAhead start updates).Pairwise fun u v =>
      replayKey u ≤ replayKey v ∧ u.repeats v = false :=
  ((hsorted.sublist List.filter_sublist).sublist (withoutRepeats_sublist _)).and
    (withoutRepeats_pairwise _)

/-- Two updates in replay order that are no repeats have increasing ids, but for a zero. -/
theorem sequence_lt_of_sorted {u v : OrderBookUpdate}
    (h : replayKey u ≤ replayKey v ∧ u.repeats v = false)
    (hzero : u.sequence = some 0 → ∀ t ∈ v.sequence, 0 < t) :
    ∀ s ∈ u.sequence, ∀ t ∈ v.sequence, s < t := by
  intro s hs t ht
  rw [Option.mem_def] at hs ht
  by_cases hs0 : s = 0
  · subst hs0
    exact hzero hs t ht
  · obtain ⟨hkey, hrepeats⟩ := h
    unfold OrderBookUpdate.repeats at hrepeats
    unfold OrderBookUpdate.sequence at hs ht hrepeats
    rw [replayKey, replayKey, hs, ht] at hkey
    rw [hs, ht] at hrepeats
    simp only [orDefault, if_neg hs0, Option.getD_some] at hkey
    have hne : s ≠ t := by simpa [hs0] using hrepeats
    split_ifs at hkey with ht0
    · rw [Option.getD_some] at hkey
      omega
    · rw [Option.getD_some] at hkey
      omega

/-- Two relations along a list that holds them both give a third. -/
theorem isChain_of_and {α : Type*} {R S T : α → α → Prop} {l : List α} (hR : l.IsChain R)
    (hS : l.IsChain S) (h : ∀ a b, a ∈ l → b ∈ l → R a b → S a b → T a b) : l.IsChain T := by
  induction l with
  | nil => exact .nil
  | cons a l ih =>
    obtain ⟨hRa, hRl⟩ := List.isChain_cons.mp hR
    obtain ⟨hSa, hSl⟩ := List.isChain_cons.mp hS
    refine List.isChain_cons.mpr ⟨fun b hb => ?_, ih hRl hSl fun b c hb hc =>
      h b c (List.mem_cons_of_mem _ hb) (List.mem_cons_of_mem _ hc)⟩
    exact h a b List.mem_cons_self (List.mem_cons_of_mem _ (List.mem_of_mem_head? hb)) (hRa b hb)
      (hSa b hb)

/-- An accepted snapshot has replayed the waiting updates onto what it installed. -/
theorem replay_of_accepted {book : FeatureOrderBookState} {snapshot : OrderBookSnapshot}
    (h : (book.applySnapshot digest snapshot).2 = .accepted) :
    ((book.installed digest snapshot).replayPending (book.replayed snapshot)).2 = .accepted := by
  rcases book.applySnapshot_cases digest snapshot with
    ⟨answer, hanswer, hstale⟩ | ⟨-, -, ⟨reason, hcrossed⟩ | ⟨-, hreplay⟩⟩
  · rw [hstale] at h
    rw [show answer = .accepted from h] at hanswer
    cases hanswer
  · rw [hcrossed] at h
    cases h
  · rwa [hreplay] at h

/-- A snapshot that answers with an invalid book leaves it out of synchronization. -/
theorem not_synchronized_of_invalidated {book : FeatureOrderBookState}
    {snapshot : OrderBookSnapshot}
    (h : (book.applySnapshot digest snapshot).2 = .bookInvalidated) :
    (book.applySnapshot digest snapshot).1.synchronized = false := by
  have hreplay : ∀ (updates : List OrderBookUpdate) (installed : FeatureOrderBookState),
      (installed.replayPending updates).2 = .bookInvalidated →
        (installed.replayPending updates).1.synchronized = false := by
    intro updates
    induction updates with
    | nil =>
      intro installed hinvalid
      unfold replayPending at hinvalid ⊢
      split_ifs at hinvalid with hsynchronized
      simpa using hsynchronized
    | cons update rest ih =>
      intro installed hinvalid
      unfold replayPending at hinvalid ⊢
      rcases installed.replayOne_cases update with hskip | ⟨reason, hgap | hlost⟩ | ⟨-, happlied⟩
      · rw [hskip] at hinvalid ⊢
        exact ih installed hinvalid
      · rw [hgap]
        rfl
      · rw [hlost]
        rfl
      · rw [happlied] at hinvalid ⊢
        exact ih _ hinvalid
  rcases book.applySnapshot_cases digest snapshot with
    ⟨answer, hanswer, hstale⟩ | ⟨-, -, ⟨reason, hcrossed⟩ | ⟨-, happlied⟩⟩
  · rw [hstale] at h
    rw [show answer = .bookInvalidated from h] at hanswer
    cases hanswer
  · rw [hcrossed]
    rfl
  · rw [happlied] at h ⊢
    exact hreplay _ _ h

/-- A snapshot the book accepts applied its waiting updates as strictly as live ones if and only if
those ahead of it do not overlap; one it answers with an invalid book leaves it out of
synchronization. -/
theorem pending_replay_strict_iff (book : FeatureOrderBookState) (snapshot : OrderBookSnapshot) :
    ((book.applySnapshot digest snapshot).2 = .accepted →
      (ReplayStrict (sequenceNumber snapshot.sequenceId) (book.appliedPending digest snapshot) ↔
        NoOverlap (sequenceNumber snapshot.sequenceId)
          (waitingAhead (sequenceNumber snapshot.sequenceId) (book.replayed snapshot)))) ∧
    ((book.applySnapshot digest snapshot).2 = .bookInvalidated →
      (book.applySnapshot digest snapshot).1.synchronized = false) := by
  refine ⟨fun haccepted => ?_, not_synchronized_of_invalidated digest⟩
  obtain ⟨happlied, hfirst, hchain⟩ := appliedUpdates_of_accepted (replay_of_accepted digest haccepted)
  have hsorted : (book.replayed snapshot).Pairwise fun u v => replayKey u ≤ replayKey v :=
    List.pairwise_insertionSort _ _
  rw [(book.installed_spec digest snapshot).sequenceId] at happlied hfirst
  rw [notOvertaken_eq _ hsorted] at happlied
  have hordered := waitingAhead_sorted (sequenceNumber snapshot.sequenceId) hsorted
  rw [appliedPending, happlied]
  rw [happlied] at hfirst hchain
  constructor
  · intro hstrict
    refine ⟨hstrict.identified, ?_, ?_, ?_⟩
    · refine hstrict.increasing.imp fun hlt hu t ht => hlt 0 hu t ht
    · intro update hupdate hprevious
      obtain ⟨p, hp⟩ := Option.ne_none_iff_exists'.mp hprevious
      obtain ⟨c, hc, -⟩ := hstrict.first update hupdate p hp
      exact Option.ne_none_iff_exists'.mpr ⟨c, hc⟩
    · refine hstrict.later.imp fun u v hnamed s hs p hp => ?_
      have hsame := hnamed p hp
      rw [Option.mem_def.mp hs] at hsame
      obtain rfl := Option.some.inj hsame
      exact ⟨le_rfl, id⟩
  · intro hclear
    refine ⟨hclear.identified, ?_, ?_, ?_⟩
    · exact (hordered.and hclear.zero).imp fun ⟨hpair, hzero⟩ => sequence_lt_of_sorted hpair hzero
    · intro update hupdate p hp
      have hstart := hclear.first update hupdate (Option.ne_none_iff_exists'.mpr ⟨p, hp⟩)
      obtain ⟨c, hc⟩ := Option.ne_none_iff_exists'.mp hstart
      have hnamed := hclear.identified update (List.mem_of_mem_head? hupdate)
      exact ⟨c, hc, hfirst update hupdate hnamed c hc p hp⟩
    · apply isChain_of_and hchain hclear.later
      intro u v hu hv hbehind hahead p hp
      obtain ⟨s, hs⟩ := Option.ne_none_iff_exists'.mp (hclear.identified u hu)
      obtain ⟨hle, hzero⟩ := hahead s hs p hp
      rw [hs]
      by_cases hs0 : s = 0
      · rw [hs0, hzero hs0]
      · have hback := hbehind (hclear.identified v hv) s hs hs0 p hp
        rw [le_antisymm hle hback]

/-- A snapshot at id ten. -/
def tenthSnapshot : OrderBookSnapshot := { oneBidSnapshot 2 with sequenceId := some (.int 10) }

/-- Two updates that both follow id ten wait for the snapshot at ten, and both are applied. -/
theorem overlapping_update_replayed :
    ¬ ∀ (digest : SourceDigest) (pendingCapacity : Nat) (hcapacity : 1 ≤ pendingCapacity)
        (events : List NormalizedMarketEvent), (∀ event ∈ events, ValidBookEvent event) →
        ∀ snapshot : OrderBookSnapshot, snapshot.validate = .ok () →
          let book := events.foldl (consume digest) (fresh pendingCapacity hcapacity)
          (book.applySnapshot digest snapshot).2 = .accepted →
            ReplayStrict (sequenceNumber snapshot.sequenceId)
              (book.appliedPending digest snapshot) := by
  intro hclaim
  have hvalid : ∀ event ∈ [NormalizedMarketEvent.orderBookUpdate (bidUpdate 10 12),
      .orderBookUpdate (bidUpdate 10 13)], ValidBookEvent event := by
    intro event hevent
    rcases List.mem_cons.mp hevent with rfl | hevent
    · show (bidUpdate 10 12).validate = .ok ()
      decide +kernel
    · rw [List.mem_singleton.mp hevent]
      show (bidUpdate 10 13).validate = .ok ()
      decide +kernel
  have hsnapshot : tenthSnapshot.validate = .ok () := by decide +kernel
  have hstrict := hclaim (fun _ _ => 0) 2 one_le_two _ hvalid tenthSnapshot hsnapshot
    (by decide +kernel)
  have happlied : (([NormalizedMarketEvent.orderBookUpdate (bidUpdate 10 12),
      .orderBookUpdate (bidUpdate 10 13)].foldl (consume fun _ _ => 0)
        (fresh 2 one_le_two)).appliedPending (fun _ _ => 0) tenthSnapshot) =
      [bidUpdate 10 12, bidUpdate 10 13] := by
    decide +kernel
  have hlater := hstrict.later
  rw [happlied] at hlater
  -- the second update names ten and not twelve
  have hnamed := (List.isChain_cons.mp hlater).1 (bidUpdate 10 13) rfl 10 (by decide +kernel)
  revert hnamed
  decide +kernel

end FeatureOrderBookState

end Cvf
