/-
# Cvf.Replay.Runner — a replay as feature replay runs it.

The runner is given an event sink and a finish sink, so that it schedules no ticks of its own: it hands
every event of the records to the one and, behind the last record, the terminal mark of the timeline to
the other.
-/
import Cvf.Replay.Source

namespace Cvf

open Cvf.Library

/-- The locals of `ReplayRunner.run`, and what the event sink was given. -/
structure ReplayState where
  rawRecords : Nat := 0
  skippedRecords : Nat := 0
  clock : Option Int := none
  normalizedFinishedAt : Option Int := none
  featureTimelineEndAt : Option Int := none
  featureTimelineEndRecords : Nat := 0
  published : List NormalizedMarketEvent := []

structure ReplaySummary where
  rawRecords : Nat
  normalizedEvents : Nat
  skippedRecords : Nat
  featureTimelineEndAt : Option Int
  featureTimelineEndRecords : Nat
  deriving DecidableEq, Repr

/-- `clock.advance_to(timestamp)`; the first timestamp starts the clock. -/
def advanceClock (clock : Option Int) (timestamp : Int) : Except String Int :=
  if clock.any (timestamp < ·) then .error "replay clock cannot move backwards" else .ok timestamp

variable (codecs : CollectionCodecs) (order : ReplayOrder)

/-- The events of a record go to the sink. -/
def ReplayState.publish (s : ReplayState) (events : List NormalizedMarketEvent) : ReplayState :=
  { s with
    skippedRecords := if events = [] then s.skippedRecords + 1 else s.skippedRecords
    normalizedFinishedAt := events.foldl (fun latest event =>
      some (latest.elim event.base.localReceiveTimestamp (max · event.base.localReceiveTimestamp)))
      s.normalizedFinishedAt
    published := s.published ++ events }

/-- The body of the loop. -/
def replayRecord (s : ReplayState) (r : RawMarketRecord) : Except String ReplayState :=
  if s.featureTimelineEndAt.isSome ∧ r.messageKind ≠ featureTimelineEndMessageKind then
    .error "raw record appears after the feature-timeline end marker"
  else
    let s := { s with rawRecords := s.rawRecords + 1 }
    if r.channel = "instrument_metadata" then do
      let _ ← normalize codecs.events codecs.venue r
      return { s with skippedRecords := s.skippedRecords + 1 }
    else do
      match ← featureTimelineEndTimestamp codecs.events r with
      | some marker =>
        if 1 < s.featureTimelineEndRecords + 1 then
          .error "replay input contains multiple feature-timeline end markers"
        else
          return {
            s with
            featureTimelineEndRecords := s.featureTimelineEndRecords + 1
            featureTimelineEndAt := some marker
            skippedRecords := s.skippedRecords + 1 }
      | none =>
        let now ← advanceClock s.clock (replayTimestamp r order)
        let events ← normalize codecs.events codecs.venue r
        return { s with clock := some now }.publish events

/-- Behind the loop. -/
def ReplayState.finish (s : ReplayState) : Except String ReplaySummary :=
  if s.featureTimelineEndAt.any fun mark => s.normalizedFinishedAt.any (mark < ·) then
    .error "normalized journal event exceeds its feature-timeline end marker"
  else
    .ok
      { rawRecords := s.rawRecords
        normalizedEvents := s.published.length
        skippedRecords := s.skippedRecords
        featureTimelineEndAt := s.featureTimelineEndAt
        featureTimelineEndRecords := s.featureTimelineEndRecords }

/-- What the event sink was given and the mark that the finish sink was given, with the summary. -/
structure Replayed where
  published : List NormalizedMarketEvent
  finishedThrough : Option Int
  summary : ReplaySummary

/-- `ReplayRunner.run` -/
def replay (records : List RawMarketRecord) : Except String Replayed := do
  let s ← records.foldlM (replayRecord codecs order) {}
  let summary ← s.finish
  return { published := s.published, finishedThrough := s.featureTimelineEndAt, summary }

/-! ## A journal -/

/-- Each record holds one event. -/
def HoldEvents (records : List RawMarketRecord) (events : List NormalizedMarketEvent) : Prop :=
  List.Forall₂ (fun r event => normalize codecs.events codecs.venue r = .ok [event]) records events

variable {codecs}

theorem holdEvents_unique {records : List RawMarketRecord} {events events' : List NormalizedMarketEvent}
    (h : HoldEvents codecs records events) (h' : HoldEvents codecs records events') :
    events = events' := by
  unfold HoldEvents at h h'
  induction h generalizing events' with
  | nil =>
    cases h'
    rfl
  | cons hhead _ ih =>
    cases h' with
    | cons hhead' htail' =>
      rw [hhead] at hhead'
      obtain ⟨rfl, -⟩ := List.cons.inj (Except.ok.inj hhead')
      rw [ih htail']

/-- The latest receive time of some events, and of one before them. -/
def latestReceipt (latest : Option Int) (events : List NormalizedMarketEvent) : Option Int :=
  events.foldl (fun latest event =>
    some (latest.elim event.base.localReceiveTimestamp (max · event.base.localReceiveTimestamp))) latest

/-- What the audit of a journal has found: its records hold one event each, up to the terminal marker. -/
structure JournalShape (codecs : CollectionCodecs) (records : List RawMarketRecord)
    (audit : NormalizedJournalAudit) (front : List RawMarketRecord) (marker : RawMarketRecord)
    (events : List NormalizedMarketEvent) : Prop where
  split : records = front ++ [marker]
  unmarked : ∀ r ∈ front, r.messageKind ≠ featureTimelineEndMessageKind
  timestamp : featureTimelineEndTimestamp codecs.events marker = .ok (some audit.terminalMarkerAt)
  marked : marker.messageKind = featureTimelineEndMessageKind
  holds : HoldEvents codecs front events
  count : audit.normalizedEventCount = events.length
  latest : (latestReceipt none events).any (audit.terminalMarkerAt < ·) = false

theorem featureTimelineEndTimestamp_of_unmarked {codec : EventCodec} {r : RawMarketRecord}
    (h : r.messageKind ≠ featureTimelineEndMessageKind) :
    featureTimelineEndTimestamp codec r = .ok none := if_pos h

theorem featureTimelineEndTimestamp_of_marked {codec : EventCodec} {r : RawMarketRecord}
    (h : r.messageKind = featureTimelineEndMessageKind) {mark : Option Int}
    (hmark : featureTimelineEndTimestamp codec r = .ok mark) : ∃ timestamp, mark = some timestamp := by
  unfold featureTimelineEndTimestamp at hmark
  rw [if_neg (not_not.mpr h)] at hmark
  split_ifs at hmark
  obtain ⟨timestamp, -, hmark⟩ := bind_eq_ok_iff.mp hmark
  split_ifs at hmark
  exact ⟨timestamp, (Except.ok.inj hmark).symm⟩

/-- Behind the marker there is nothing. -/
theorem nil_of_audit_marked {records : List RawMarketRecord} {s s' : JournalAuditState}
    (hs : s.terminalMarkerCount = 1) (h : records.foldlM (auditJournalRecord codecs) s = .ok s') :
    records = [] := by
  cases records with
  | nil => rfl
  | cons r records =>
    rw [List.foldlM_cons] at h
    obtain ⟨next, hnext, -⟩ := bind_eq_ok_iff.mp h
    unfold auditJournalRecord at hnext
    rw [hs] at hnext
    split_ifs at hnext
    · rename_i hlt
      exact absurd hlt (by decide)
    · rename_i hne
      exact absurd hne (by decide)

/-- The state after records that hold one event each. -/
def JournalAuditState.observe (s : JournalAuditState) (events : List NormalizedMarketEvent) :
    JournalAuditState :=
  { s with
    normalizedEventCount := s.normalizedEventCount + events.length
    latestEventReceiveAt := latestReceipt s.latestEventReceiveAt events }

/-- An unmarked record that passes holds one event. -/
theorem auditJournalRecord_of_unmarked {s s' : JournalAuditState} {r : RawMarketRecord}
    (hr : r.messageKind ≠ featureTimelineEndMessageKind)
    (h : auditJournalRecord codecs s r = .ok s') :
    ∃ event, normalize codecs.events codecs.venue r = .ok [event] ∧ s' = s.observe [event] := by
  unfold auditJournalRecord at h
  rw [if_neg hr] at h
  split_ifs at h
  split at h
  · cases h
  · rename_i event hevent
    exact ⟨event, hevent, (Except.ok.inj h).symm⟩
  · cases h

/-- The audit passes records that hold one event each, and at most a marker behind them. -/
theorem shape_of_audit {records : List RawMarketRecord} {s s' : JournalAuditState}
    (hs : s.terminalMarkerCount = 0 ∧ s.terminalMarkerAt = none)
    (h : records.foldlM (auditJournalRecord codecs) s = .ok s') :
    ∃ front events, HoldEvents codecs front events ∧
      (∀ r ∈ front, r.messageKind ≠ featureTimelineEndMessageKind) ∧
      (records = front ∧ s' = s.observe events ∨
        ∃ marker timestamp, records = front ++ [marker] ∧
          marker.messageKind = featureTimelineEndMessageKind ∧
          featureTimelineEndTimestamp codecs.events marker = .ok (some timestamp) ∧
          s' = { s.observe events with terminalMarkerCount := 1, terminalMarkerAt := some timestamp }) := by
  induction records generalizing s with
  | nil =>
    refine ⟨[], [], List.Forall₂.nil, by simp, .inl ⟨rfl, ?_⟩⟩
    exact (Except.ok.inj h).symm
  | cons r records ih =>
    rw [List.foldlM_cons] at h
    obtain ⟨next, hnext, hrest⟩ := bind_eq_ok_iff.mp h
    by_cases hr : r.messageKind = featureTimelineEndMessageKind
    · -- the marker
      refine ⟨[], [], List.Forall₂.nil, by simp, .inr ?_⟩
      unfold auditJournalRecord at hnext
      rw [if_pos hr, hs.1] at hnext
      rw [if_neg (by decide)] at hnext
      cases hmark : featureTimelineEndTimestamp codecs.events r with
      | error e =>
        rw [hmark] at hnext
        cases hnext
      | ok mark =>
        rw [hmark] at hnext
        obtain ⟨timestamp, rfl⟩ := featureTimelineEndTimestamp_of_marked hr hmark
        obtain rfl := Except.ok.inj hnext
        obtain rfl := nil_of_audit_marked rfl hrest
        exact ⟨r, timestamp, rfl, hr, hmark, (Except.ok.inj hrest).symm⟩
    · obtain ⟨event, hevent, rfl⟩ := auditJournalRecord_of_unmarked hr hnext
      have hnone : (s.observe [event]).terminalMarkerCount = 0 ∧
          (s.observe [event]).terminalMarkerAt = none := hs
      obtain ⟨front, events, hholds, hunmarked, hshape⟩ := ih hnone hrest
      refine ⟨r :: front, event :: events, List.Forall₂.cons hevent hholds, ?_, ?_⟩
      · intro other hother
        rcases List.mem_cons.mp hother with rfl | hother
        · exact hr
        · exact hunmarked other hother
      · have hobserve : (s.observe [event]).observe events = s.observe (event :: events) := by
          unfold JournalAuditState.observe latestReceipt
          rw [JournalAuditState.mk.injEq]
          exact ⟨by simp [Nat.add_assoc, Nat.add_comm 1], rfl, rfl, rfl⟩
        rw [← hobserve]
        rcases hshape with ⟨rfl, hs'⟩ | ⟨marker, timestamp, rfl, hmarked, hmark, hs'⟩
        · exact .inl ⟨rfl, hs'⟩
        · exact .inr ⟨marker, timestamp, rfl, hmarked, hmark, hs'⟩

theorem finish_eq_ok_iff {s : JournalAuditState} {requireNormalizedEvents : Bool}
    {audit : NormalizedJournalAudit} :
    s.finish requireNormalizedEvents = .ok audit ↔
      (requireNormalizedEvents = true → s.normalizedEventCount ≠ 0) ∧ s.terminalMarkerCount = 1 ∧
        s.terminalMarkerAt = some audit.terminalMarkerAt ∧
        s.latestEventReceiveAt.any (audit.terminalMarkerAt < ·) = false ∧
        audit.normalizedEventCount = s.normalizedEventCount ∧ audit.terminalMarkerCount = 1 := by
  unfold JournalAuditState.finish
  constructor
  · intro h
    split at h
    · cases h
    rename_i hempty
    split at h
    · cases h
    rename_i timestamp hmark
    split at h
    · cases h
    rename_i hone
    split at h
    · cases h
    rename_i hlatest
    obtain rfl := Except.ok.inj h
    refine ⟨?_, not_not.mp hone, hmark, Bool.eq_false_iff.mpr hlatest, rfl, not_not.mp hone⟩
    intro hrequire hzero
    apply hempty
    rw [hrequire, hzero]
    rfl
  · rintro ⟨hempty, hone, hmark, hlatest, hcount, hmarkers⟩
    rw [if_neg, hmark]
    · dsimp only
      rw [if_neg (not_not.mpr hone), if_neg (Bool.eq_false_iff.mp hlatest), hone, ← hcount, ← hmarkers]
    · rw [Bool.and_eq_true, decide_eq_true_eq]
      exact fun h => hempty h.1 h.2

theorem journalShape_of_audit {records : List RawMarketRecord} {s : JournalAuditState}
    {requireNormalizedEvents : Bool} {audit : NormalizedJournalAudit}
    (hfold : records.foldlM (auditJournalRecord codecs) {} = .ok s)
    (hfinish : s.finish requireNormalizedEvents = .ok audit) :
    ∃ front marker events, JournalShape codecs records audit front marker events := by
  obtain ⟨front, events, hholds, hunmarked, hshape⟩ := shape_of_audit ⟨rfl, rfl⟩ hfold
  obtain ⟨-, hone, hmarkerAt, hlatest, hcount, -⟩ := finish_eq_ok_iff.mp hfinish
  rcases hshape with ⟨-, rfl⟩ | ⟨marker, timestamp, rfl, hmarked, hmark, rfl⟩
  · cases hmarkerAt
  · rw [Option.some.inj hmarkerAt] at hmark
    exact ⟨front, marker, events, rfl, hunmarked, hmark, hmarked, hholds,
      hcount.trans (Nat.zero_add _), hlatest⟩

/-- A journal with an event passes the stricter check as well. -/
theorem finish_of_events {s : JournalAuditState} {audit : NormalizedJournalAudit}
    (hfinish : s.finish false = .ok audit) (hevents : audit.normalizedEventCount ≠ 0) :
    s.finish true = .ok audit := by
  obtain ⟨-, hone, hmarkerAt, hlatest, hcount, hmarkers⟩ := finish_eq_ok_iff.mp hfinish
  exact finish_eq_ok_iff.mpr
    ⟨fun _ => by rw [← hcount]; exact hevents, hone, hmarkerAt, hlatest, hcount, hmarkers⟩

/-! ## Replaying it -/

/-- The front of a journal in receive order goes to the event sink. -/
theorem replay_front {front : List RawMarketRecord} {events : List NormalizedMarketEvent}
    (hholds : HoldEvents codecs front events)
    (hunmarked : ∀ r ∈ front, r.messageKind ≠ featureTimelineEndMessageKind)
    (hchannel : ∀ r ∈ front, r.channel = normalizedEventJournalChannel) {order : ReplayOrder}
    (hsorted : front.Pairwise fun a b => replayTimestamp a order ≤ replayTimestamp b order)
    {s : ReplayState} (hclock : ∀ now ∈ s.clock, ∀ r ∈ front, now ≤ replayTimestamp r order)
    (hend : s.featureTimelineEndAt = none) :
    ∃ s', front.foldlM (replayRecord codecs order) s = .ok s' ∧
      s'.published = s.published ++ events ∧
      s'.normalizedFinishedAt = latestReceipt s.normalizedFinishedAt events ∧
      s'.featureTimelineEndAt = none ∧
      s'.featureTimelineEndRecords = s.featureTimelineEndRecords := by
  unfold HoldEvents at hholds
  induction hholds generalizing s with
  | nil => exact ⟨s, rfl, (List.append_nil _).symm, rfl, hend, rfl⟩
  | @cons r event front events hevent hrest ih =>
    obtain ⟨hfirst, hsorted⟩ := List.pairwise_cons.mp hsorted
    have hnow : advanceClock s.clock (replayTimestamp r order) = .ok (replayTimestamp r order) := by
      unfold advanceClock
      rw [if_neg]
      rw [Bool.not_eq_true, Option.any_eq_false]
      intro now hnow
      have hle := hclock now hnow r List.mem_cons_self
      simpa using hle
    let next : ReplayState :=
      { s with
        rawRecords := s.rawRecords + 1
        clock := some (replayTimestamp r order) }
    have hstep : replayRecord codecs order s r = .ok (next.publish [event]) := by
      unfold replayRecord
      rw [if_neg (by rw [hend]; simp)]
      dsimp only
      rw [if_neg (by rw [hchannel r List.mem_cons_self]; decide),
        featureTimelineEndTimestamp_of_unmarked (hunmarked r List.mem_cons_self)]
      simp only [bind, Except.bind, pure, Except.pure]
      rw [hnow, hevent]
    have hnext := ih (fun r' hr' => hunmarked r' (List.mem_cons_of_mem _ hr'))
      (fun r' hr' => hchannel r' (List.mem_cons_of_mem _ hr')) hsorted
      (s := next.publish [event]) (by
        intro now hnow r' hr'
        obtain rfl : replayTimestamp r order = now := Option.some.inj hnow
        exact hfirst r' hr') hend
    obtain ⟨s', hfold, hpublished, hlatest, hnone, hrecords⟩ := hnext
    refine ⟨s', ?_, ?_, hlatest, hnone, hrecords⟩
    · rw [List.foldlM_cons, hstep]
      exact hfold
    · rw [hpublished]
      show s.published ++ [event] ++ events = _
      rw [List.append_assoc]
      rfl

/-- A journal of the shape the audit asks for, in receive order, is published event by event and
finished at its marker. -/
theorem replay_of_shape {records front : List RawMarketRecord} {marker : RawMarketRecord}
    {audit : NormalizedJournalAudit} {events : List NormalizedMarketEvent}
    (h : JournalShape codecs records audit front marker events)
    (hchannel : ∀ r ∈ records, r.channel = normalizedEventJournalChannel) {order : ReplayOrder}
    (hsorted : front.Pairwise fun a b => replayTimestamp a order ≤ replayTimestamp b order) :
    ∃ replayed, replay codecs order records = .ok replayed ∧ replayed.published = events ∧
      replayed.finishedThrough = some audit.terminalMarkerAt := by
  obtain ⟨rfl, hunmarked, hmark, hmarked, hholds, -, hlatest⟩ := h
  obtain ⟨s, hfold, hpublished, hfinished, hnone, hrecords⟩ := replay_front hholds hunmarked
    (fun r hr => hchannel r (List.mem_append_left _ hr)) hsorted (s := {}) (by simp) rfl
  let last : ReplayState :=
    { s with
      rawRecords := s.rawRecords + 1
      featureTimelineEndRecords := s.featureTimelineEndRecords + 1
      featureTimelineEndAt := some audit.terminalMarkerAt
      skippedRecords := s.skippedRecords + 1 }
  have hstep : replayRecord codecs order s marker = .ok last := by
    have hjournal := hchannel marker (List.mem_append_right _ List.mem_cons_self)
    unfold replayRecord
    rw [if_neg (by rw [hnone]; simp)]
    dsimp only
    rw [if_neg (by rw [hjournal]; decide), hmark]
    simp only [bind, Except.bind, pure, Except.pure]
    rw [if_neg (by rw [hrecords]; decide)]
  have hend : ∃ summary, last.finish = .ok summary := by
    unfold ReplayState.finish
    rw [if_neg]
    · exact ⟨_, rfl⟩
    · show ¬ (some audit.terminalMarkerAt).any
        (fun mark => s.normalizedFinishedAt.any (mark < ·)) = true
      rw [hfinished]
      simpa [latestReceipt] using hlatest
  obtain ⟨summary, hsummary⟩ := hend
  refine ⟨{ published := last.published, finishedThrough := last.featureTimelineEndAt, summary }, ?_, ?_,
    rfl⟩
  · unfold replay
    rw [List.foldlM_append, hfold]
    simp only [bind, Except.bind, pure, Except.pure, List.foldlM_cons, List.foldlM_nil]
    rw [hstep]
    dsimp only
    rw [hsummary]
  · show s.published = events
    rw [hpublished]
    rfl

end Cvf
