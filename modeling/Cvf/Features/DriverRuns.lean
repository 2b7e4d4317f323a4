/-
# Cvf.Features.DriverRuns — the tick barrier, and independence of arrival order.

Two statements about whole error-free runs of the receive-time driver.  The first is about one run:
bounded buffer, exactly-once delivery in receive-time order, and every decision tick consumed between
the events at or before its boundary and the events after it.  The second compares two runs that
publish the same events in different orders with different clock advances in between: they hand the
same timeline downstream.
-/
import Cvf.Features.DriverTimeline

namespace Cvf

open Cvf.Library

namespace ReceiveTimeFeatureDriver

variable {identity : PayloadIdentity} {known : List NormalizedMarketEvent}
  {delivered : List QueuedFeatureEvent} {d d' : ReceiveTimeFeatureDriver}

/-! ## The invariant along a run -/

theorem call_of_perform {c : Call} (h : perform identity d c = .ok d') :
    d.call identity c = (d', none) := by
  rw [perform] at h
  split at h
  · rename_i d₁ heq
    rw [heq, Except.ok.inj h]
  · cases h

theorem Ordered.perform (hinv : Ordered identity known delivered d) {c : Call}
    (h : perform identity d c = .ok d') :
    (∃ delivered', Ordered identity (known ++ c.event?.toList) delivered' d') ∧
      d'.settings = d.settings := by
  have hcall := call_of_perform h
  cases c with
  | publish event =>
      obtain ⟨hinv', -, hsettings, -⟩ := hinv.publish hcall
      exact ⟨hinv', hsettings⟩
  | advanceTo timestamp =>
      obtain ⟨hinv', hadv, -⟩ := hinv.advanceTo hcall
      exact ⟨by simpa [Call.event?] using hinv', hadv.settings⟩
  | finish through =>
      obtain ⟨hinv', -, -, hsettings, -⟩ := hinv.finish hcall
      exact ⟨by simpa [Call.event?] using hinv', hsettings⟩

theorem run_cons {c : Call} {calls : List Call} (h : run identity d (c :: calls) = .ok d') :
    ∃ d₁, perform identity d c = .ok d₁ ∧ run identity d₁ calls = .ok d' := by
  rw [run, List.foldlM_cons] at h
  cases hc : perform identity d c with
  | error e => simp [hc, bind, Except.bind] at h
  | ok d₁ => exact ⟨d₁, rfl, by simpa [run, hc, bind, Except.bind] using h⟩

theorem run_append {l r : List Call} (h : run identity d (l ++ r) = .ok d') :
    ∃ d₁, run identity d l = .ok d₁ ∧ run identity d₁ r = .ok d' := by
  induction l generalizing d with
  | nil => exact ⟨d, rfl, h⟩
  | cons c l ih =>
      obtain ⟨d₁, hc, hrest⟩ := run_cons h
      obtain ⟨d₂, hl, hr⟩ := ih hrest
      refine ⟨d₂, ?_, hr⟩
      simpa [run, hc, bind, Except.bind] using hl

theorem Ordered.run (hinv : Ordered identity known delivered d) {calls : List Call}
    (h : run identity d calls = .ok d') :
    (∃ delivered', Ordered identity (known ++ published calls) delivered' d') ∧
      d'.settings = d.settings := by
  induction calls generalizing d known delivered with
  | nil =>
      obtain rfl : d = d' := Except.ok.inj h
      exact ⟨⟨delivered, by simpa [published] using hinv⟩, rfl⟩
  | cons c calls ih =>
      obtain ⟨d₁, hc, hrest⟩ := run_cons h
      obtain ⟨⟨delivered₁, hinv₁⟩, hsettings₁⟩ := hinv.perform hc
      obtain ⟨hinv', hsettings'⟩ := ih hinv₁ hrest
      have hpublished : known ++ published (c :: calls) =
          known ++ c.event?.toList ++ published calls := by
        cases hcev : c.event? <;> simp [published, hcev]
      rw [hpublished]
      exact ⟨hinv', hsettings'.trans hsettings₁⟩

/-- A run that ends in `finish` has delivered everything it published. -/
theorem ordered_of_finished {settings : DriverSettings} {calls : List Call} {through : Option Int}
    (h : ReceiveTimeFeatureDriver.run identity (new settings) (calls ++ [.finish through]) = .ok d) :
    ∃ delivered, Ordered identity (published calls) delivered d ∧ d.events = [] := by
  obtain ⟨d₁, hcalls, hlast⟩ := run_append h
  obtain ⟨⟨delivered₁, hinv₁⟩, -⟩ := (ordered_new identity settings).run hcalls
  obtain ⟨d₂, hfinish, hnil⟩ := run_cons hlast
  obtain rfl : d₂ = d := Except.ok.inj hnil
  obtain ⟨⟨delivered₂, hinv₂⟩, hempty, -⟩ := hinv₁.finish (call_of_perform hfinish)
  exact ⟨delivered₂, by simpa using hinv₂, hempty⟩

/-! ## Reading the timeline -/

/-- The receive time an event is ordered by. -/
def receiveTime (event : NormalizedMarketEvent) : Int := event.base.localReceiveTimestamp

theorem Ordered.receiveTimestamp_eq (hinv : Ordered identity known delivered d)
    {q : QueuedFeatureEvent} (hq : q ∈ delivered ++ d.events) :
    q.receiveTimestamp = receiveTime q.event := by
  obtain ⟨n, hn⟩ := hinv.queued q hq
  rw [hn]
  rfl

theorem items_map (l : List (QueuedFeatureEvent ⊕ DecisionTick)) :
    TickGrid.items (l.map (Sum.map QueuedFeatureEvent.event id)) =
      (TickGrid.items l).map QueuedFeatureEvent.event := by
  induction l with
  | nil => rfl
  | cons x l ih =>
      cases x with
      | inl q => simp [ih]
      | inr t => simp [ih]

theorem items_weaveQueued (d : ReceiveTimeFeatureDriver) (start : Int)
    (queued : List QueuedFeatureEvent) (final : Int) :
    TickGrid.items (d.weaveQueued start queued final) = queued.map QueuedFeatureEvent.event := by
  rw [weaveQueued, items_map, TickGrid.items_weave]

theorem weaveQueued_split (d : ReceiveTimeFeatureDriver) {start : Int}
    {queued : List QueuedFeatureEvent}
    (hsorted : queued.Pairwise (·.receiveTimestamp ≤ ·.receiveTimestamp)) {final : Int}
    {before after : List (NormalizedMarketEvent ⊕ DecisionTick)} {tick : DecisionTick}
    (h : d.weaveQueued start queued final = before ++ .inr tick :: after) :
    TickGrid.items before =
        (queued.filter (·.receiveTimestamp ≤ tick.timestamp)).map QueuedFeatureEvent.event ∧
      TickGrid.items after =
        (queued.filter (tick.timestamp < ·.receiveTimestamp)).map QueuedFeatureEvent.event := by
  obtain ⟨l, r, hsplit, hl, hr⟩ := List.map_eq_append_iff.mp h
  obtain ⟨x, r', rfl, hx, hr'⟩ := List.map_eq_cons_iff.mp hr
  cases x with
  | inl q => simp at hx
  | inr t =>
      obtain rfl : t = tick := by simpa using hx
      obtain ⟨hbefore, hafter⟩ := d.grid.weave_split hsorted hsplit
      rw [← hl, ← hr', items_map, items_map, hbefore, hafter]
      exact ⟨rfl, rfl⟩

theorem Ordered.items_timeline (hinv : Ordered identity known delivered d) :
    TickGrid.items d.timeline = delivered.map QueuedFeatureEvent.event := by
  have hwoven := hinv.woven
  cases delivered with
  | nil =>
      rw [hwoven.2]
      rfl
  | cons first rest =>
      obtain ⟨w, -, -, -, htimeline⟩ := hwoven
      rw [htimeline, items_weaveQueued]

theorem Ordered.delivered_sorted (hinv : Ordered identity known delivered d) :
    delivered.Pairwise (·.receiveTimestamp ≤ ·.receiveTimestamp) :=
  receiveTimestamp_sorted (List.pairwise_append.mp hinv.sorted).1

theorem Ordered.timeline_split (hinv : Ordered identity known delivered d)
    {before after : List (NormalizedMarketEvent ⊕ DecisionTick)} {tick : DecisionTick}
    (h : d.timeline = before ++ .inr tick :: after) :
    TickGrid.items before =
        (delivered.filter (·.receiveTimestamp ≤ tick.timestamp)).map QueuedFeatureEvent.event ∧
      TickGrid.items after =
        (delivered.filter (tick.timestamp < ·.receiveTimestamp)).map QueuedFeatureEvent.event := by
  have hwoven := hinv.woven
  cases delivered with
  | nil => simp [hwoven.2] at h
  | cons first rest =>
      obtain ⟨w, -, -, -, htimeline⟩ := hwoven
      rw [htimeline] at h
      exact d.weaveQueued_split hinv.delivered_sorted h

/-- **Tick barrier and exactly-once delivery.**  In every error-free run that ends in `finish`, the
buffer stays within its capacity, events are handed over in receive-time order and each exactly once,
and a tick at a boundary is consumed, with the bus drained, after exactly the published events at or
before the boundary and before every event after it. -/
theorem tick_barrier_and_exactly_once (identity : PayloadIdentity) (settings : DriverSettings)
    (calls : List Call) (through : Option Int) (d : ReceiveTimeFeatureDriver)
    (h : ReceiveTimeFeatureDriver.run identity (new settings) (calls ++ [.finish through]) = .ok d) :
    (∀ earlier d₁, earlier <+: calls ++ [.finish through] →
      ReceiveTimeFeatureDriver.run identity (new settings) earlier = .ok d₁ →
      d₁.events.length ≤ settings.capacity) ∧
    (TickGrid.items d.timeline).Pairwise (fun e f => receiveTime e ≤ receiveTime f) ∧
    (TickGrid.items d.timeline).Perm (published calls) ∧
    (∀ before tick after, d.timeline = before ++ .inr tick :: after →
      (TickGrid.items before).Perm
        ((published calls).filter fun e => receiveTime e ≤ tick.timestamp) ∧
      ∀ e ∈ TickGrid.items after, tick.timestamp < receiveTime e) ∧
    TicksFollowDrain d.handed := by
  obtain ⟨delivered, hinv, hempty⟩ := ordered_of_finished h
  have htime : ∀ q ∈ delivered, q.receiveTimestamp = receiveTime q.event := fun q hq =>
    hinv.receiveTimestamp_eq (List.mem_append_left _ hq)
  have hperm : (delivered.map QueuedFeatureEvent.event).Perm (published calls) := by
    simpa [hempty] using hinv.perm
  refine ⟨fun earlier d₁ _ hrun => ?_, ?_, by rw [hinv.items_timeline]; exact hperm,
    fun before tick after hsplit => ?_, hinv.drained⟩
  · obtain ⟨⟨delivered₁, hinv₁⟩, hsettings⟩ := (ordered_new identity settings).run hrun
    have hbounded := hinv₁.bounded
    rwa [hsettings] at hbounded
  · rw [hinv.items_timeline, List.pairwise_map]
    exact hinv.delivered_sorted.imp_of_mem fun hq hr hle => by rwa [htime _ hq, htime _ hr] at hle
  · obtain ⟨hbefore, hafter⟩ := hinv.timeline_split hsplit
    refine ⟨?_, fun e he => ?_⟩
    · have hfilter := hperm.filter fun e => decide (receiveTime e ≤ tick.timestamp)
      rw [List.filter_map] at hfilter
      rw [hbefore, List.filter_congr fun q hq => by rw [htime q hq]]
      exact hfilter
    · rw [hafter] at he
      obtain ⟨q, hq, rfl⟩ := List.mem_map.mp he
      rw [List.mem_filter] at hq
      have := htime q hq.1
      simp only [decide_eq_true_eq] at hq
      omega

/-- A mark-price event with a receive time and a sequence id. -/
def exampleEvent (receivedAt : Int) (sequenceId : Int) : NormalizedMarketEvent :=
  .markPrice
    { exchange := .binance
      symbol := "BTC-USDT-PERP"
      exchangeTimestamp := receivedAt
      localReceiveTimestamp := receivedAt
      normalizationTimestamp := receivedAt
      sequenceId := some (.int sequenceId)
      markPrice := 1 }

def exampleSettings (capacity : Nat) (h : 0 < capacity) : DriverSettings :=
  { lateness := 10
    capacity
    featureInterval := 5
    signalInterval := 7
    lateness_pos := by decide
    capacity_pos := h }

/-- A payload text that tells the example events apart, hashed by the identity. -/
def exampleIdentity : PayloadIdentity :=
  { modelPayloadJson := fun e => (e.base.sequenceId.map SequenceId.str).getD ""
    sha256Text := id }

/-- Two events out of order, one at a boundary, and a clock advance in between. -/
def exampleCalls : List Call :=
  [.publish (exampleEvent 6 2), .publish (exampleEvent 3 1), .advanceTo 4,
    .publish (exampleEvent 5 3)]

theorem tick_barrier_and_exactly_once_example :
    ∃ d, ReceiveTimeFeatureDriver.run exampleIdentity (new (exampleSettings 3 (by decide)))
        (exampleCalls ++ [.finish (some 12)]) = .ok d ∧
      (TickGrid.items d.timeline).Perm (published exampleCalls) := by
  have hok : (ReceiveTimeFeatureDriver.run exampleIdentity (new (exampleSettings 3 (by decide)))
      (exampleCalls ++ [.finish (some 12)])).isOk = true := by decide +kernel
  cases hrun : ReceiveTimeFeatureDriver.run exampleIdentity
      (new (exampleSettings 3 (by decide))) (exampleCalls ++ [.finish (some 12)]) with
  | error e => simp [hrun, Except.isOk, Except.toBool] at hok
  | ok d =>
      exact ⟨d, rfl, (tick_barrier_and_exactly_once exampleIdentity
        (exampleSettings 3 (by decide)) exampleCalls (some 12) d hrun).2.2.1⟩

/-! ## Two runs -/

/-- A call of a run that ends at `through`: a publish, or an advance not beyond it. -/
def Call.Within (through : Int) : Call → Prop
  | .publish _ => True
  | .advanceTo timestamp => timestamp ≤ through
  | .finish _ => False

instance (through : Int) : (c : Call) → Decidable (c.Within through)
  | .publish _ => .isTrue trivial
  | .advanceTo timestamp => inferInstanceAs (Decidable (timestamp ≤ through))
  | .finish _ => .isFalse id

/-- The watermark is not past what `finish` will commit. -/
def CommittedWithin (through : Int) (d : ReceiveTimeFeatureDriver) : Prop :=
  d.isSealed = false ∧ ∀ w, d.watermark = some w →
    w ≤ through ∨ ∃ m, d.maximumSeen = some m ∧ w ≤ m

theorem le_of_maxOption {a : Option Int} {b w : Int} (h : maxOption a (some b) = some w) :
    a = some w ∨ w = b := by
  cases a with
  | none =>
      right
      simpa [maxOption, eq_comm] using h
  | some v =>
      obtain rfl : max v b = w := by simpa [maxOption] using h
      rcases le_total v b with hle | hle
      · exact Or.inr (max_eq_right hle)
      · exact Or.inl (by rw [max_eq_left hle])

theorem CommittedWithin.perform (hinv : Ordered identity known delivered d) {through : Int}
    (hcommitted : d.CommittedWithin through) {c : Call} (hc : c.Within through)
    (h : ReceiveTimeFeatureDriver.perform identity d c = .ok d') : d'.CommittedWithin through := by
  have hcall := call_of_perform h
  cases c with
  | publish event =>
      obtain ⟨-, hopen, -, hseen, hwatermark⟩ := hinv.publish hcall
      refine ⟨hopen, fun w hw => ?_⟩
      have hlateness := d.settings.lateness_pos
      rw [hwatermark] at hw
      rcases le_of_maxOption hw with hw | rfl
      · rcases hcommitted.2 w hw with hle | ⟨m, hm, hle⟩
        · exact Or.inl hle
        · exact Or.inr ⟨_, by rw [hseen, hm]; rfl, hle.trans (le_max_left _ _)⟩
      · cases hm : d.maximumSeen with
        | none => exact Or.inr ⟨_, by rw [hseen, hm]; rfl, by omega⟩
        | some m =>
            refine Or.inr ⟨_, by rw [hseen, hm]; rfl, ?_⟩
            have := le_max_right m event.base.localReceiveTimestamp
            omega
  | advanceTo timestamp =>
      obtain ⟨-, hadv, hwatermark⟩ := hinv.advanceTo hcall
      refine ⟨hadv.isSealed.trans hcommitted.1, fun w hw => ?_⟩
      rw [hadv.maximumSeen]
      rcases hwatermark with hsame | hmax
      · exact hcommitted.2 w (hsame ▸ hw)
      · rw [hmax] at hw
        rcases le_of_maxOption hw with hw | rfl
        · exact hcommitted.2 w hw
        · exact Or.inl hc
  | finish t => exact hc.elim

theorem CommittedWithin.run (hinv : Ordered identity known delivered d) {through : Int}
    (hcommitted : d.CommittedWithin through) {calls : List Call}
    (hcalls : ∀ c ∈ calls, c.Within through)
    (h : ReceiveTimeFeatureDriver.run identity d calls = .ok d') : d'.CommittedWithin through := by
  induction calls generalizing d known delivered with
  | nil =>
      obtain rfl : d = d' := Except.ok.inj h
      exact hcommitted
  | cons c calls ih =>
      obtain ⟨d₁, hc, hrest⟩ := run_cons h
      obtain ⟨⟨delivered₁, hinv₁⟩, -⟩ := hinv.perform hc
      exact ih hinv₁ (hcommitted.perform hinv (hcalls c (by simp)) hc)
        (fun c' hc' => hcalls c' (by simp [hc'])) hrest

/-- The last instant a run is committed to: its final timestamp or its latest event. -/
def finalInstant (through : Int) (events : List NormalizedMarketEvent) : Int :=
  (events.map receiveTime).foldr max through

theorem le_finalInstant (through : Int) (events : List NormalizedMarketEvent) :
    through ≤ finalInstant through events ∧
      ∀ e ∈ events, receiveTime e ≤ finalInstant through events := by
  induction events with
  | nil => simp [finalInstant]
  | cons f events ih =>
      simp only [finalInstant, List.map_cons, List.foldr_cons] at ih ⊢
      refine ⟨ih.1.trans (le_max_right _ _), fun e he => ?_⟩
      rcases List.mem_cons.mp he with rfl | he
      · exact le_max_left _ _
      · exact (ih.2 e he).trans (le_max_right _ _)

theorem finalInstant_le {through bound : Int} {events : List NormalizedMarketEvent}
    (hthrough : through ≤ bound) (hevents : ∀ e ∈ events, receiveTime e ≤ bound) :
    finalInstant through events ≤ bound := by
  induction events with
  | nil => exact hthrough
  | cons f events ih =>
      exact max_le (hevents f (by simp)) (ih fun e he => hevents e (by simp [he]))

theorem finalInstant_perm (through : Int) {es fs : List NormalizedMarketEvent} (h : es.Perm fs) :
    finalInstant through es = finalInstant through fs :=
  le_antisymm
    (finalInstant_le (le_finalInstant through fs).1 fun e he =>
      (le_finalInstant through fs).2 e (h.mem_iff.mp he))
    (finalInstant_le (le_finalInstant through es).1 fun e he =>
      (le_finalInstant through es).2 e (h.mem_iff.mpr he))

/-- What `finish` commits is the final instant of the run. -/
theorem Ordered.maxOption_maximumSeen (hinv : Ordered identity known delivered d) (through : Int) :
    maxOption d.maximumSeen (some through) = some (finalInstant through known) := by
  obtain ⟨hthrough, hevents⟩ := le_finalInstant through known
  cases hm : d.maximumSeen with
  | none =>
      have hnil : known = [] := by
        rw [List.eq_nil_iff_forall_not_mem]
        intro e he
        obtain ⟨m, hm', -⟩ := hinv.seen e he
        simp [hm] at hm'
      simp [maxOption, hnil, finalInstant]
  | some m =>
      obtain ⟨e, he, rfl⟩ := hinv.seen_mem m hm
      have hle : finalInstant through known ≤ max (receiveTime e) through :=
        finalInstant_le (le_max_right _ _) fun f hf => by
          obtain ⟨m', hm', hle⟩ := hinv.seen f hf
          obtain rfl : e.base.localReceiveTimestamp = m' := by simpa [hm] using hm'
          exact hle.trans (le_max_left _ _)
      have hge : max (receiveTime e) through ≤ finalInstant through known :=
        max_le (hevents e he) hthrough
      exact congrArg some (le_antisymm hge hle)

/-- A run within `through`, finished there, has delivered everything and committed exactly its final
instant. -/
theorem finished_within {settings : DriverSettings} {calls : List Call} {through : Int}
    (hcalls : ∀ c ∈ calls, c.Within through)
    (h : ReceiveTimeFeatureDriver.run identity (new settings) (calls ++ [.finish (some through)]) =
      .ok d) :
    ∃ delivered, Ordered identity (published calls) delivered d ∧ d.events = [] ∧
      d.settings = settings ∧
      d.watermark = some (finalInstant through (published calls)) := by
  obtain ⟨d₁, hrun, hlast⟩ := run_append h
  have hnew : (new settings).CommittedWithin through := ⟨rfl, by simp [new]⟩
  have hcommitted := hnew.run (ordered_new identity settings) hcalls hrun
  obtain ⟨⟨delivered₁, hinv₁⟩, hsettings₁⟩ := (ordered_new identity settings).run hrun
  obtain ⟨d₂, hfinish, hnil⟩ := run_cons hlast
  obtain rfl : d₂ = d := Except.ok.inj hnil
  obtain ⟨⟨delivered₂, hinv₂⟩, hempty, -, hsettings₂, hwatermark⟩ :=
    hinv₁.finish (call_of_perform hfinish)
  have hwatermark' := hwatermark hcommitted.1
  rw [hinv₁.maxOption_maximumSeen through, List.nil_append] at hwatermark'
  refine ⟨delivered₂, by simpa using hinv₂, hempty, hsettings₂.trans hsettings₁, ?_⟩
  rw [hwatermark']
  obtain ⟨hthrough, hevents⟩ := le_finalInstant through (published calls)
  cases hw : d₁.watermark with
  | none => rfl
  | some w =>
      have hle : w ≤ finalInstant through (published calls) := by
        rcases hcommitted.2 w hw with hle | ⟨m, hm, hle⟩
        · exact hle.trans hthrough
        · obtain ⟨e, he, rfl⟩ := hinv₁.seen_mem m hm
          exact hle.trans (hevents e (by simpa using he))
      simp [maxOption, hle]

/-- The comparison fields an event is queued under, whatever its arrival ordinal. -/
theorem Ordered.contentKey_eq (hinv : Ordered identity known delivered d) {q : QueuedFeatureEvent}
    (hq : q ∈ delivered ++ d.events) :
    q.contentKey = (queueItem identity q.event (receiveTime q.event) 0).contentKey := by
  obtain ⟨n, hn⟩ := hinv.queued q hq
  rw [hn]
  rfl

theorem receiveTimestamp_eq_of_contentKey_eq {q r : QueuedFeatureEvent}
    (h : q.contentKey = r.contentKey) : q.receiveTimestamp = r.receiveTimestamp :=
  congrArg (fun k : ContentKey => (ofLex k).1) h

theorem contentIdentity_eq_of_contentKey_eq {q r : QueuedFeatureEvent}
    (h : q.contentKey = r.contentKey) : q.contentIdentity = r.contentIdentity :=
  congrArg (fun k : ContentKey =>
    (ofLex (ofLex (ofLex (ofLex (ofLex (ofLex k).2).2).2).2).2).2) h

/-- Two completed deliveries of the same events agree, position by position, up to arrival ordinal. -/
theorem Ordered.delivered_forall₂ {known₁ known₂ : List NormalizedMarketEvent}
    {delivered₁ delivered₂ : List QueuedFeatureEvent} {d₁ d₂ : ReceiveTimeFeatureDriver}
    (hinv₁ : Ordered identity known₁ delivered₁ d₁) (hinv₂ : Ordered identity known₂ delivered₂ d₂)
    (hempty₁ : d₁.events = []) (hempty₂ : d₂.events = []) (hperm : known₁.Perm known₂) :
    List.Forall₂ (fun q r => q.contentKey = r.contentKey) delivered₁ delivered₂ := by
  have hkeys : (delivered₁.map QueuedFeatureEvent.contentKey).Perm
      (delivered₂.map QueuedFeatureEvent.contentKey) := by
    have hevents : (delivered₁.map QueuedFeatureEvent.event).Perm
        (delivered₂.map QueuedFeatureEvent.event) := by
      have h₁ := hinv₁.perm
      have h₂ := hinv₂.perm
      rw [hempty₁, List.append_nil] at h₁
      rw [hempty₂, List.append_nil] at h₂
      exact (h₁.trans hperm).trans h₂.symm
    have hmap := hevents.map fun e => (queueItem identity e (receiveTime e) 0).contentKey
    rw [List.map_map, List.map_map] at hmap
    rwa [List.map_congr_left fun q hq => hinv₁.contentKey_eq (List.mem_append_left _ hq),
      List.map_congr_left fun q hq => hinv₂.contentKey_eq (List.mem_append_left _ hq)]
  have hsorted : ∀ {known : List NormalizedMarketEvent} {delivered : List QueuedFeatureEvent}
      {d : ReceiveTimeFeatureDriver}, Ordered identity known delivered d →
      (delivered.map QueuedFeatureEvent.contentKey).Pairwise (· ≤ ·) := fun hinv =>
    List.pairwise_map.mpr ((List.pairwise_append.mp hinv.sorted).1.imp
      QueuedFeatureEvent.contentKey_le_of_key_le)
  have heq := hkeys.eq_of_pairwise (fun _ _ _ _ => le_antisymm) (hsorted hinv₁) (hsorted hinv₂)
  rw [← List.forall₂_eq_eq_eq, List.forall₂_map_left_iff, List.forall₂_map_right_iff] at heq
  exact heq

/-- Content-equal events: the same canonical payload text. -/
def ContentEqual (identity : PayloadIdentity) (e f : NormalizedMarketEvent) : Prop :=
  identity.modelPayloadJson e = identity.modelPayloadJson f

theorem Ordered.contentIdentity_eq (hinv : Ordered identity known delivered d)
    {q : QueuedFeatureEvent} (hq : q ∈ delivered) :
    q.contentIdentity = identity.sha256Text (identity.modelPayloadJson q.event) := by
  obtain ⟨n, hn⟩ := hinv.queued q (List.mem_append_left _ hq)
  rw [hn]
  rfl

/-- Equal comparison fields mean equal content, since the digest is one of them. -/
theorem Ordered.contentEqual_forall₂ (hsha : Function.Injective identity.sha256Text)
    {known₁ known₂ : List NormalizedMarketEvent}
    {delivered₁ delivered₂ : List QueuedFeatureEvent} {d₁ d₂ : ReceiveTimeFeatureDriver}
    (hinv₁ : Ordered identity known₁ delivered₁ d₁) (hinv₂ : Ordered identity known₂ delivered₂ d₂)
    (h : List.Forall₂ (fun q r => q.contentKey = r.contentKey) delivered₁ delivered₂) :
    List.Forall₂ (fun q r => q.receiveTimestamp = r.receiveTimestamp ∧
      ContentEqual identity q.event r.event) delivered₁ delivered₂ := by
  have hleft := (List.forall₂_and_left _ _).mpr ⟨fun q hq => hinv₁.contentIdentity_eq hq, h⟩
  have hflip : List.Forall₂ (fun r q : QueuedFeatureEvent =>
      q.contentIdentity = identity.sha256Text (identity.modelPayloadJson q.event) ∧
        q.contentKey = r.contentKey) delivered₂ delivered₁ := hleft.flip
  have hboth := (List.forall₂_and_left _ _).mpr ⟨fun r hr => hinv₂.contentIdentity_eq hr, hflip⟩
  refine List.Forall₂.flip (hboth.imp fun r q hrq => ?_)
  obtain ⟨hr, hq, hkey⟩ := hrq
  refine ⟨receiveTimestamp_eq_of_contentKey_eq hkey, hsha ?_⟩
  rw [← hq, ← hr]
  exact contentIdentity_eq_of_contentKey_eq hkey

/-- **Arrival-order independence.**  Two error-free runs that publish the same events, in whatever
orders and with whatever clock advances not beyond their common final timestamp, hand the downstream
bus the same events, up to content equality, with the same ticks at the same positions. -/
theorem timeline_independent_of_arrival (identity : PayloadIdentity)
    (hsha : Function.Injective identity.sha256Text) (settings : DriverSettings)
    (calls₁ calls₂ : List Call) (through : Int)
    (hevents : (published calls₁).Perm (published calls₂))
    (hwithin₁ : ∀ c ∈ calls₁, c.Within through) (hwithin₂ : ∀ c ∈ calls₂, c.Within through)
    (d₁ d₂ : ReceiveTimeFeatureDriver)
    (hrun₁ : ReceiveTimeFeatureDriver.run identity (new settings)
      (calls₁ ++ [.finish (some through)]) = .ok d₁)
    (hrun₂ : ReceiveTimeFeatureDriver.run identity (new settings)
      (calls₂ ++ [.finish (some through)]) = .ok d₂) :
    List.Forall₂ (Sum.LiftRel (ContentEqual identity) Eq) d₁.timeline d₂.timeline := by
  obtain ⟨delivered₁, hinv₁, hempty₁, hsettings₁, hwatermark₁⟩ := finished_within hwithin₁ hrun₁
  obtain ⟨delivered₂, hinv₂, hempty₂, hsettings₂, hwatermark₂⟩ := finished_within hwithin₂ hrun₂
  rw [← finalInstant_perm through hevents] at hwatermark₂
  have hforall := hinv₁.contentEqual_forall₂ hsha hinv₂
    (hinv₁.delivered_forall₂ hinv₂ hempty₁ hempty₂ hevents)
  have hwoven₁ := hinv₁.woven
  have hwoven₂ := hinv₂.woven
  cases hforall with
  | nil =>
      rw [hwoven₁.2, hwoven₂.2]
      exact List.Forall₂.nil
  | @cons q r rest₁ rest₂ hhead htail =>
      obtain ⟨w₁, hw₁, -, -, htimeline₁⟩ := hwoven₁
      obtain ⟨w₂, hw₂, -, -, htimeline₂⟩ := hwoven₂
      obtain rfl : w₁ = w₂ := by
        rw [hwatermark₁, Option.some.injEq] at hw₁
        rw [hwatermark₂, Option.some.injEq] at hw₂
        exact hw₁.symm.trans hw₂
      have hgrid : d₂.grid = d₁.grid := by rw [grid, grid, hsettings₁, hsettings₂]
      rw [htimeline₁, htimeline₂, weaveQueued, weaveQueued, hgrid, ← hhead.1,
        List.forall₂_map_left_iff, List.forall₂_map_right_iff]
      have hweave := @TickGrid.weave_forall₂ _ _ d₁.grid QueuedFeatureEvent.receiveTimestamp
        (fun q r => q.receiveTimestamp = r.receiveTimestamp ∧
          ContentEqual identity q.event r.event) (fun _ _ h => h.1) q.receiveTimestamp _ _
        (List.Forall₂.cons hhead htail) w₁
      refine hweave.imp fun x y hxy => ?_
      cases hxy with
      | inl h => exact Sum.LiftRel.inl h.2
      | inr h => exact Sum.LiftRel.inr h

/-- The same three events, published late-first, with other clock advances in between. -/
def exampleCallsReordered : List Call :=
  [.publish (exampleEvent 5 3), .publish (exampleEvent 6 2), .advanceTo 1, .advanceTo (-3),
    .publish (exampleEvent 3 1), .advanceTo 12]

theorem timeline_independent_of_arrival_example :
    ∃ d₁ d₂, ReceiveTimeFeatureDriver.run exampleIdentity (new (exampleSettings 3 (by decide)))
        (exampleCalls ++ [.finish (some 12)]) = .ok d₁ ∧
      ReceiveTimeFeatureDriver.run exampleIdentity (new (exampleSettings 3 (by decide)))
        (exampleCallsReordered ++ [.finish (some 12)]) = .ok d₂ ∧
      List.Forall₂ (Sum.LiftRel (ContentEqual exampleIdentity) Eq) d₁.timeline d₂.timeline := by
  have hok₁ : (ReceiveTimeFeatureDriver.run exampleIdentity (new (exampleSettings 3 (by decide)))
      (exampleCalls ++ [.finish (some 12)])).isOk = true := by decide +kernel
  have hok₂ : (ReceiveTimeFeatureDriver.run exampleIdentity (new (exampleSettings 3 (by decide)))
      (exampleCallsReordered ++ [.finish (some 12)])).isOk = true := by decide +kernel
  have hperm : (published exampleCalls).Perm (published exampleCallsReordered) := by
    decide +kernel
  cases hrun₁ : ReceiveTimeFeatureDriver.run exampleIdentity
      (new (exampleSettings 3 (by decide))) (exampleCalls ++ [.finish (some 12)]) with
  | error e => simp [hrun₁, Except.isOk, Except.toBool] at hok₁
  | ok d₁ =>
      cases hrun₂ : ReceiveTimeFeatureDriver.run exampleIdentity
          (new (exampleSettings 3 (by decide))) (exampleCallsReordered ++ [.finish (some 12)]) with
      | error e => simp [hrun₂, Except.isOk, Except.toBool] at hok₂
      | ok d₂ =>
          exact ⟨d₁, d₂, rfl, rfl, timeline_independent_of_arrival exampleIdentity
            Function.injective_id (exampleSettings 3 (by decide)) exampleCalls
            exampleCallsReordered 12 hperm (by decide) (by decide) d₁ d₂ hrun₁ hrun₂⟩

end ReceiveTimeFeatureDriver

end Cvf
