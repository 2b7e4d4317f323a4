/-
# Cvf.Replay.Reorder — replaying a recorded timeline through a fresh driver.

A live run drains its reorder buffer both when an event arrives and when the wall clock moves; a
replay of the journal has only the events.  The journal reader yields the records in receive-time
order (`stableRecordKey`), so no replayed event is ever behind the watermark.  What may fail is the
bounded buffer: a replay completes exactly when no event finds the buffer filled by the events of the
reorder delay before it (`FitsBuffer`), whatever the clock did for the live run.
-/
import Cvf.Features.DriverRuns
import Cvf.Replay.Normalizer

namespace Cvf

open Cvf.Library

/-! ## The journal -/

/-- A `normalized_event` row of the journal: the event and the row's id. -/
structure JournalRecord where
  event : NormalizedMarketEvent
  recordId : String
  deriving DecidableEq, Repr

/-- `stable_record_key` of a `normalized_event` row in receive-time order. -/
def JournalRecord.stableRecordKey (r : JournalRecord) : RecordKey :=
  toLex (1, toLex (r.event.base.localReceiveTimestamp, toLex (r.event.base.localReceiveTimestamp,
    toLex (r.event.generation, toLex (r.event.base.exchange.value, toLex (r.event.base.symbol,
      toLex ("_normalized_event",
        toLex ((r.event.base.sequenceId.map SequenceId.str).getD "", r.recordId))))))))

/-- The rows as the replay reader yields them. -/
def replayOrder (records : List JournalRecord) : List JournalRecord :=
  records.insertionSort fun r s => r.stableRecordKey ≤ s.stableRecordKey

namespace ReceiveTimeFeatureDriver

theorem receiveTime_le_of_stableRecordKey_le {r s : JournalRecord}
    (h : r.stableRecordKey ≤ s.stableRecordKey) : receiveTime r.event ≤ receiveTime s.event := by
  rcases Prod.Lex.toLex_le_toLex.mp h with h | ⟨-, h⟩
  · exact absurd h (lt_irrefl _)
  · rcases Prod.Lex.toLex_le_toLex.mp h with h | h
    · exact h.le
    · exact h.1.le

/-- The reader yields receive times in order. -/
theorem replayOrder_sorted (records : List JournalRecord) :
    ((replayOrder records).map JournalRecord.event).Pairwise
      fun e f => receiveTime e ≤ receiveTime f := by
  have : IsTrans JournalRecord fun r s => r.stableRecordKey ≤ s.stableRecordKey :=
    ⟨fun _ _ _ => le_trans⟩
  have : Std.Total fun r s : JournalRecord => r.stableRecordKey ≤ s.stableRecordKey :=
    ⟨fun r s => le_total r.stableRecordKey s.stableRecordKey⟩
  exact List.pairwise_map.mpr ((List.pairwise_insertionSort
    (fun r s : JournalRecord => r.stableRecordKey ≤ s.stableRecordKey) records).imp
      receiveTime_le_of_stableRecordKey_le)

/-! ## Live runs -/

/-- What happens to the driver at one wall-clock time of a live run. -/
inductive LiveStep where
  | publish (now : Int) (event : NormalizedMarketEvent)
  | clock (now : Int)
  deriving DecidableEq, Repr

namespace LiveStep

def now : LiveStep → Int
  | .publish now _ => now
  | .clock now => now

/-- The call the step makes: `run_live_clock` advances to `now - lateness`. -/
def call (settings : DriverSettings) : LiveStep → Call
  | .publish _ event => .publish event
  | .clock now => .advanceTo (now - settings.lateness)

/-- An event is published at or after its receive time. -/
def Causal : LiveStep → Prop
  | .publish now event => receiveTime event ≤ now
  | .clock _ => True

instance : (s : LiveStep) → Decidable s.Causal
  | .publish now event => inferInstanceAs (Decidable (receiveTime event ≤ now))
  | .clock _ => .isTrue trivial

end LiveStep

/-- The steps of a live run that stops at `finish`: wall-clock times do not go back. -/
def LiveTimed (steps : List LiveStep) (finish : Int) : Prop :=
  (steps.map LiveStep.now ++ [finish]).Pairwise (· ≤ ·) ∧ ∀ s ∈ steps, s.Causal

instance (steps : List LiveStep) (finish : Int) : Decidable (LiveTimed steps finish) :=
  inferInstanceAs (Decidable (_ ∧ _))

/-- The calls of a live run up to its `finish`. -/
def liveCalls (settings : DriverSettings) (steps : List LiveStep) (finish : Int) : List Call :=
  steps.map (LiveStep.call settings) ++ [.finish (some finish)]

/-- The calls of the replay of a journal. -/
def replayCalls (records : List JournalRecord) (finish : Int) : List Call :=
  ((replayOrder records).map fun r => Call.publish r.event) ++ [.finish (some finish)]

/-! ## Occupancy -/

/-- The events of `known` that are still within the reorder delay before `event`. -/
def withinDelay (settings : DriverSettings) (known : List NormalizedMarketEvent)
    (event : NormalizedMarketEvent) : List NormalizedMarketEvent :=
  known.filter fun e => receiveTime event - settings.lateness < receiveTime e

/-- The condition on a receive-time ordered list of events for its replay to complete: every event
finds fewer than `capacity` earlier events within the reorder delay before it. -/
def FitsBuffer (settings : DriverSettings) (events : List NormalizedMarketEvent) : Prop :=
  ∀ before event after, events = before ++ event :: after →
    (withinDelay settings before event).length < settings.capacity

/-- The same condition for what is still to come after `known`, event by event. -/
def FitsFrom (settings : DriverSettings) (known : List NormalizedMarketEvent) :
    List NormalizedMarketEvent → Prop
  | [] => True
  | event :: rest =>
    (withinDelay settings known event).length < settings.capacity ∧
      FitsFrom settings (known ++ [event]) rest

theorem fitsFrom_iff {settings : DriverSettings} {events : List NormalizedMarketEvent}
    (known : List NormalizedMarketEvent) :
    FitsFrom settings known events ↔ ∀ before event after, events = before ++ event :: after →
      (withinDelay settings (known ++ before) event).length < settings.capacity := by
  induction events generalizing known with
  | nil => simp [FitsFrom]
  | cons e rest ih =>
      rw [FitsFrom, ih]
      constructor
      · rintro ⟨hfirst, hrest⟩ before event after heq
        cases before with
        | nil =>
            obtain ⟨rfl, -⟩ : e = event ∧ rest = after := by simpa using heq
            simpa using hfirst
        | cons b before =>
            obtain ⟨rfl, hrest'⟩ : e = b ∧ rest = before ++ event :: after := by simpa using heq
            simpa using hrest before event after hrest'
      · intro h
        refine ⟨by simpa using h [] e rest rfl, fun before event after heq => ?_⟩
        simpa using h (e :: before) event after (by rw [heq, List.cons_append])

theorem fitsBuffer_iff {settings : DriverSettings} {events : List NormalizedMarketEvent} :
    FitsBuffer settings events ↔ FitsFrom settings [] events := by
  rw [fitsFrom_iff]
  rfl

variable {identity : PayloadIdentity} {known : List NormalizedMarketEvent}
  {delivered : List QueuedFeatureEvent} {d d' : ReceiveTimeFeatureDriver}

/-- With a watermark, the buffer holds exactly the published events after it. -/
theorem Ordered.length_events (hinv : Ordered identity known delivered d) {w : Int}
    (hw : d.watermark = some w) :
    d.events.length = (known.filter fun e => w < receiveTime e).length := by
  have hperm := hinv.perm.filter fun e => decide (w < receiveTime e)
  have hbehind : (delivered.map QueuedFeatureEvent.event).filter
      (fun e => decide (w < receiveTime e)) = [] := by
    rw [List.filter_eq_nil_iff]
    intro e he
    obtain ⟨q, hq, rfl⟩ := List.mem_map.mp he
    obtain ⟨w', hw', hle⟩ := hinv.behind q hq
    obtain rfl : w = w' := by simpa [hw] using hw'
    have := hinv.receiveTimestamp_eq (List.mem_append_left _ hq)
    simp only [decide_eq_true_eq]
    omega
  have hahead : (d.events.map QueuedFeatureEvent.event).filter
      (fun e => decide (w < receiveTime e)) = d.events.map QueuedFeatureEvent.event := by
    rw [List.filter_eq_self]
    intro e he
    obtain ⟨q, hq, rfl⟩ := List.mem_map.mp he
    have hlt := hinv.ahead q hq w hw
    have := hinv.receiveTimestamp_eq (List.mem_append_right _ hq)
    simp only [decide_eq_true_eq]
    omega
  rw [List.map_append, List.filter_append, hbehind, hahead, List.nil_append] at hperm
  simpa using hperm.length_eq

/-! ## The replay -/

/-- The state of a replay that has published `known` without error. -/
structure Replaying (identity : PayloadIdentity) (settings : DriverSettings)
    (known : List NormalizedMarketEvent) (d : ReceiveTimeFeatureDriver) : Prop where
  ordered : ∃ delivered, Ordered identity known delivered d
  settings_eq : d.settings = settings
  isOpen : d.isSealed = false
  healthy : d.failure = none
  committed : ∀ w, d.watermark = some w → ∃ e ∈ known, w ≤ receiveTime e - settings.lateness

theorem replaying_new (identity : PayloadIdentity) (settings : DriverSettings) :
    Replaying identity settings [] (new settings) where
  ordered := ⟨[], ordered_new identity settings⟩
  settings_eq := rfl
  isOpen := rfl
  healthy := rfl
  committed := by simp [new]

/-- One replayed event: it is taken if it fits, and overflows the buffer if it does not. -/
theorem Replaying.publish {settings : DriverSettings}
    (hpos : 0 < settings.featureInterval ∧ 0 < settings.signalInterval)
    (h : Replaying identity settings known d) {event : NormalizedMarketEvent}
    (hsorted : ∀ e ∈ known, receiveTime e ≤ receiveTime event) :
    ((withinDelay settings known event).length < settings.capacity →
      ∃ d', perform identity d (.publish event) = .ok d' ∧
        Replaying identity settings (known ++ [event]) d') ∧
    (¬ (withinDelay settings known event).length < settings.capacity →
      perform identity d (.publish event) = .error .bufferFull) := by
  obtain ⟨delivered, hinv⟩ := h.ordered
  have hlateness := settings.lateness_pos
  have htarget : ∀ w, d.watermark = some w → w ≤ receiveTime event - settings.lateness := by
    intro w hw
    obtain ⟨e, he, hle⟩ := h.committed w hw
    have := hsorted e he
    omega
  have hnotlate : d.watermark.any (event.base.localReceiveTimestamp ≤ ·) = false := by
    cases hw : d.watermark with
    | none => rfl
    | some w =>
        have hle := htarget w hw
        simp only [receiveTime] at hle
        simp only [Option.any_some, decide_eq_false_iff_not]
        omega
  have hpublish : d.publish identity event =
      runTransition (d.publishLocked identity event (receiveTime event)) := by
    simp [ReceiveTimeFeatureDriver.publish, h.healthy, h.isOpen, hnotlate, receiveTime]
  obtain ⟨d₁, hadvance, hcommits⟩ : ∃ d₁,
      d.advanceLocked (receiveTime event - settings.lateness) = (d₁, none) ∧
      Commits identity known d (receiveTime event - settings.lateness) d₁ := by
    rcases hinv.advanceLocked_cases (receiveTime event - settings.lateness) with hok | ⟨-, -, hneg⟩
    · exact hok
    · rw [h.settings_eq] at hneg
      exact absurd hpos hneg
  have hwatermark : d₁.watermark = some (receiveTime event - settings.lateness) := by
    rw [hcommits.watermark]
    cases hw : d.watermark with
    | none => rfl
    | some w => simp [maxOption, htarget w hw]
  obtain ⟨delivered₁, hinv₁⟩ := hcommits.ordered
  have hsettings₁ : d₁.settings = settings := hcommits.advanced.settings.trans h.settings_eq
  have hlength : d₁.events.length = (withinDelay settings known event).length :=
    hinv₁.length_events hwatermark
  constructor
  · intro hfits
    have hroom : ¬ d₁.settings.capacity ≤ d₁.events.length := by
      rw [hsettings₁, hlength]
      omega
    have hcall : d.call identity (.publish event) =
        ({ d₁ with
            ordinal := d₁.ordinal + 1
            events := push d₁.events
              (queueItem identity event (receiveTime event) (d₁.ordinal + 1))
            maximumSeen := maxOption d₁.maximumSeen (some (receiveTime event)) }, none) := by
      simp only [ReceiveTimeFeatureDriver.call, hpublish, publishLocked, h.settings_eq, hadvance,
        if_neg hroom, runTransition]
    refine ⟨_, by rw [perform, hcall], ?_⟩
    have hahead : ∀ w, d₁.watermark = some w → w < event.base.localReceiveTimestamp := by
      intro w hw
      obtain rfl : receiveTime event - settings.lateness = w := by simpa [hwatermark] using hw
      simp only [receiveTime]
      omega
    have hopen₁ : d₁.isSealed = false := hcommits.advanced.isSealed.trans h.isOpen
    exact
      { ordered := ⟨delivered₁, hinv₁.push hopen₁ hahead (by omega) (d₁.ordinal + 1)⟩
        settings_eq := hsettings₁
        isOpen := hopen₁
        healthy := hcommits.advanced.failure.trans h.healthy
        committed := by
          intro w hw
          obtain rfl : receiveTime event - settings.lateness = w := by
            simpa [hwatermark] using hw
          exact ⟨event, by simp, le_rfl⟩ }
  · intro hfull
    have hroom : d₁.settings.capacity ≤ d₁.events.length := by
      rw [hsettings₁, hlength]
      omega
    simp only [perform, ReceiveTimeFeatureDriver.call, hpublish, publishLocked, h.settings_eq,
      hadvance, if_pos hroom, runTransition]

/-- A whole replay, event by event. -/
theorem Replaying.run {settings : DriverSettings}
    (hpos : 0 < settings.featureInterval ∧ 0 < settings.signalInterval)
    {events : List NormalizedMarketEvent} (h : Replaying identity settings known d)
    (hsorted : (known ++ events).Pairwise fun e f => receiveTime e ≤ receiveTime f) :
    (FitsFrom settings known events →
      ∃ d', ReceiveTimeFeatureDriver.run identity d (events.map Call.publish) = .ok d' ∧
        Replaying identity settings (known ++ events) d') ∧
    (¬ FitsFrom settings known events →
      ReceiveTimeFeatureDriver.run identity d (events.map Call.publish) = .error .bufferFull) := by
  induction events generalizing known d with
  | nil => exact ⟨fun _ => ⟨d, rfl, by simpa using h⟩, fun hnot => absurd trivial hnot⟩
  | cons event rest ih =>
      have hsplit : ((known ++ [event]) ++ rest).Pairwise
          fun e f => receiveTime e ≤ receiveTime f := by simpa using hsorted
      have hbefore : ∀ e ∈ known, receiveTime e ≤ receiveTime event := fun e he =>
        (List.pairwise_append.mp hsorted).2.2 e he event (by simp)
      obtain ⟨htaken, hrefused⟩ := h.publish hpos hbefore
      by_cases hfits : (withinDelay settings known event).length < settings.capacity
      · obtain ⟨d₁, hperform, hreplaying⟩ := htaken hfits
        obtain ⟨hcompletes, hoverflows⟩ := ih hreplaying hsplit
        have hstep : ReceiveTimeFeatureDriver.run identity d ((event :: rest).map Call.publish) =
            ReceiveTimeFeatureDriver.run identity d₁ (rest.map Call.publish) := by
          simp [ReceiveTimeFeatureDriver.run, hperform, bind, Except.bind]
        rw [hstep]
        refine ⟨fun hall => ?_, fun hnot => hoverflows fun hrest => hnot ⟨hfits, hrest⟩⟩
        obtain ⟨d', hrun, hreplaying'⟩ := hcompletes hall.2
        exact ⟨d', hrun, by simpa using hreplaying'⟩
      · refine ⟨fun hall => absurd hall.1 hfits, fun _ => ?_⟩
        simp [ReceiveTimeFeatureDriver.run, hrefused hfits, bind, Except.bind]

/-- A replay that has taken all its events also finishes. -/
theorem Replaying.finish {settings : DriverSettings} (h : Replaying identity settings known d)
    (hpos : known ≠ [] → 0 < settings.featureInterval ∧ 0 < settings.signalInterval)
    (finish : Int) : ∃ d', perform identity d (.finish (some finish)) = .ok d' := by
  obtain ⟨delivered, hinv⟩ := h.ordered
  obtain ⟨target, htarget⟩ : ∃ target, maxOption d.maximumSeen (some finish) = some target := by
    cases d.maximumSeen with
    | none => exact ⟨finish, rfl⟩
    | some m => exact ⟨max m finish, rfl⟩
  obtain ⟨d₁, hadvance⟩ : ∃ d₁, d.advanceLocked target = (d₁, none) := by
    rcases hinv.advanceLocked_cases target with ⟨d₁, hok, -⟩ | ⟨-, hne, hneg⟩
    · exact ⟨d₁, hok⟩
    · rw [h.settings_eq] at hneg
      refine absurd (hpos fun hnil => hne ?_) hneg
      have hlen := hinv.perm.length_eq
      rw [hnil] at hlen
      simp only [List.length_map, List.length_append, List.length_nil] at hlen
      exact List.eq_nil_of_length_eq_zero (by omega)
  refine ⟨{ d₁ with handed := d₁.handed ++ [.drain], isSealed := true }, ?_⟩
  simp [perform, ReceiveTimeFeatureDriver.call, ReceiveTimeFeatureDriver.finish, h.healthy,
    h.isOpen, finishLocked, htarget, hadvance, runTransition]

/-- A completed run that published anything had positive tick intervals. -/
theorem intervals_pos_of_finished {settings : DriverSettings} {calls : List Call}
    {through : Option Int}
    (h : ReceiveTimeFeatureDriver.run identity (new settings) (calls ++ [.finish through]) = .ok d)
    (hne : published calls ≠ []) :
    0 < settings.featureInterval ∧ 0 < settings.signalInterval := by
  have hsettings := ((ordered_new identity settings).run h).2
  obtain ⟨delivered, hinv, hempty⟩ := ordered_of_finished h
  have hwoven := hinv.woven
  cases delivered with
  | nil =>
      have hperm := hinv.perm
      rw [hempty] at hperm
      exact absurd (List.nil_perm.mp (by simpa using hperm)) hne
  | cons first rest =>
      obtain ⟨w, -, -, ⟨s, -, -, hf, hsig⟩, -⟩ := hwoven
      have hfpos := s.featureInterval_pos
      have hspos := s.signalInterval_pos
      rw [hf, hsettings] at hfpos
      rw [hsig, hsettings] at hspos
      exact ⟨hfpos, hspos⟩

/-- **Replay.**  For a run that finished without error, publishing its journal in the reader's
receive-time order into a fresh driver never raises a late event; it completes exactly when every
event fits the buffer, and otherwise stops with a full reorder buffer. -/
theorem replay_completes_iff_fits (identity : PayloadIdentity) (settings : DriverSettings)
    (steps : List LiveStep) (finish : Int) (d : ReceiveTimeFeatureDriver)
    (hlive : ReceiveTimeFeatureDriver.run identity (new settings)
      (liveCalls settings steps finish) = .ok d)
    (records : List JournalRecord)
    (hjournal : (records.map JournalRecord.event).Perm
      (published (liveCalls settings steps finish))) :
    ((∃ d', ReceiveTimeFeatureDriver.run identity (new settings) (replayCalls records finish) =
        .ok d') ↔
      FitsBuffer settings ((replayOrder records).map JournalRecord.event)) ∧
    (¬ FitsBuffer settings ((replayOrder records).map JournalRecord.event) →
      ReceiveTimeFeatureDriver.run identity (new settings) (replayCalls records finish) =
        .error .bufferFull) := by
  set events := (replayOrder records).map JournalRecord.event with hevents
  have hcalls : replayCalls records finish = events.map Call.publish ++ [.finish (some finish)] := by
    simp [replayCalls, hevents]
  have hperm : events.Perm (published (steps.map (LiveStep.call settings))) := by
    have hsame : published (liveCalls settings steps finish) =
        published (steps.map (LiveStep.call settings)) := by
      simp [published, liveCalls, Call.event?]
    rw [hsame] at hjournal
    exact ((List.perm_insertionSort _ records).map JournalRecord.event).trans hjournal
  have hpos : events ≠ [] → 0 < settings.featureInterval ∧ 0 < settings.signalInterval :=
    fun hne => intervals_pos_of_finished hlive fun hnil => hne (List.perm_nil.mp (hnil ▸ hperm))
  have hnew := replaying_new identity settings
  have happend : ∀ {l r : List Call} {d₀ : ReceiveTimeFeatureDriver},
      ReceiveTimeFeatureDriver.run identity d₀ (l ++ r) =
        (ReceiveTimeFeatureDriver.run identity d₀ l).bind
          fun d₁ => ReceiveTimeFeatureDriver.run identity d₁ r := by
    intro l r d₀
    rw [ReceiveTimeFeatureDriver.run, List.foldlM_append]
    rfl
  have hcompletes : FitsBuffer settings events → ∃ d',
      ReceiveTimeFeatureDriver.run identity (new settings) (replayCalls records finish) =
        .ok d' := by
    intro hfits
    obtain ⟨d₁, hrun, hreplaying⟩ : ∃ d₁,
        ReceiveTimeFeatureDriver.run identity (new settings) (events.map Call.publish) = .ok d₁ ∧
        Replaying identity settings events d₁ := by
      by_cases hne : events = []
      · exact ⟨new settings, by rw [hne]; rfl, by rw [hne]; exact hnew⟩
      · exact (hnew.run (hpos hne) (replayOrder_sorted records)).1 (fitsBuffer_iff.mp hfits)
    obtain ⟨d', hfinish⟩ := hreplaying.finish hpos finish
    refine ⟨d', ?_⟩
    rw [hcalls, happend, hrun]
    simp [Except.bind, ReceiveTimeFeatureDriver.run, hfinish, bind, pure, Except.pure]
  have hoverflows : ¬ FitsBuffer settings events →
      ReceiveTimeFeatureDriver.run identity (new settings) (replayCalls records finish) =
        .error .bufferFull := by
    intro hnot
    rw [fitsBuffer_iff] at hnot
    have hne : events ≠ [] := fun hnil => hnot (by rw [hnil]; trivial)
    rw [hcalls, happend, (hnew.run (hpos hne) (replayOrder_sorted records)).2 hnot]
    rfl
  refine ⟨⟨?_, hcompletes⟩, hoverflows⟩
  rintro ⟨d', hok⟩
  by_contra hnot
  rw [hoverflows hnot] at hok
  cases hok

/-- Two events nine microseconds apart, with a clock poll between them that drains the first. -/
def polledSteps : List LiveStep :=
  [.publish 1 (exampleEvent 1 1), .clock 12, .publish 12 (exampleEvent 9 2)]

def polledJournal : List JournalRecord :=
  [⟨exampleEvent 1 1, "a"⟩, ⟨exampleEvent 9 2, "b"⟩]

theorem replay_completes_iff_fits_polled :
    ∃ d', ReceiveTimeFeatureDriver.run exampleIdentity (new (exampleSettings 2 (by decide)))
      (replayCalls polledJournal 20) = .ok d' := by
  have hok : (ReceiveTimeFeatureDriver.run exampleIdentity (new (exampleSettings 2 (by decide)))
      (liveCalls (exampleSettings 2 (by decide)) polledSteps 20)).isOk = true := by decide +kernel
  have hjournal : (polledJournal.map JournalRecord.event).Perm
      (published (liveCalls (exampleSettings 2 (by decide)) polledSteps 20)) := by decide +kernel
  have hfits : FitsFrom (exampleSettings 2 (by decide)) []
      ((replayOrder polledJournal).map JournalRecord.event) :=
    ⟨by decide +kernel, by decide +kernel, trivial⟩
  cases hlive : ReceiveTimeFeatureDriver.run exampleIdentity
      (new (exampleSettings 2 (by decide)))
      (liveCalls (exampleSettings 2 (by decide)) polledSteps 20) with
  | error e => simp [hlive, Except.isOk, Except.toBool] at hok
  | ok d =>
      exact (replay_completes_iff_fits exampleIdentity (exampleSettings 2 (by decide)) polledSteps
        20 d hlive polledJournal hjournal).1.mpr (fitsBuffer_iff.mpr hfits)

/-- With a buffer of one event the live run completes, because the clock drains the first event
before the second arrives; its replay overflows. -/
theorem live_run_overflows_on_replay :
    LiveTimed polledSteps 20 ∧
    (ReceiveTimeFeatureDriver.run exampleIdentity (new (exampleSettings 1 (by decide)))
      (liveCalls (exampleSettings 1 (by decide)) polledSteps 20)).isOk = true ∧
    (polledJournal.map JournalRecord.event).Perm
      (published (liveCalls (exampleSettings 1 (by decide)) polledSteps 20)) ∧
    ReceiveTimeFeatureDriver.run exampleIdentity (new (exampleSettings 1 (by decide)))
      (replayCalls polledJournal 20) = .error .bufferFull := by
  have hfails : (ReceiveTimeFeatureDriver.run exampleIdentity (new (exampleSettings 1 (by decide)))
      (replayCalls polledJournal 20)).map (fun _ => ()) = .error .bufferFull := by decide +kernel
  refine ⟨by decide +kernel, by decide +kernel, by decide +kernel, ?_⟩
  cases hrun : ReceiveTimeFeatureDriver.run exampleIdentity (new (exampleSettings 1 (by decide)))
      (replayCalls polledJournal 20) with
  | error e => rw [hrun] at hfails; exact congrArg _ (Except.error.inj hfails)
  | ok d => rw [hrun] at hfails; cases hfails

end ReceiveTimeFeatureDriver

end Cvf
