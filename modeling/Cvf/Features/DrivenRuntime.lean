/-
# Cvf.Features.DrivenRuntime — the driver in front of the runtime.

The driver orders what it is given by receive time and hands the runtime one timeline of events and ticks.
The feature ticks of the timeline are in order and on the grid of the settings, so the runtime writes no two
outputs about the same thing, each after exactly the events received up to its decision
(`driven_outputs`); and what the runtime does is the same whatever the order of arrival was
(`outputs_independent_of_arrival`).
-/
import Cvf.Features.DriverRuns
import Cvf.Features.RuntimeDeques

namespace Cvf

open Cvf.Library

/-! ## The order of the ticks -/

/-- In order of time, a feature tick before a signal tick of the same instant. -/
def TickBefore (s t : DecisionTick) : Prop :=
  s.timestamp < t.timestamp ∨ s.timestamp = t.timestamp ∧ s.kind = .feature ∧ t.kind = .signal

namespace DecisionScheduler

theorem pairwise_ticksAt (featureInterval signalInterval t : Int) :
    (ticksAt featureInterval signalInterval t).Pairwise TickBefore := by
  unfold ticksAt
  split_ifs <;> simp [TickBefore]

theorem pairwise_ticksBetween (featureInterval signalInterval a b : Int) :
    (ticksBetween featureInterval signalInterval a b).Pairwise TickBefore := by
  unfold ticksBetween
  rw [List.pairwise_flatMap]
  refine ⟨fun i _ => pairwise_ticksAt .., List.pairwise_lt_range.imp ?_⟩
  intro i j hlt s hs t ht
  left
  rw [timestamp_of_mem_ticksAt hs, timestamp_of_mem_ticksAt ht]
  omega

/-- A feature tick is on its grid. -/
theorem dvd_of_mem_ticksBetween {featureInterval signalInterval a b : Int} {tick : DecisionTick}
    (h : tick ∈ ticksBetween featureInterval signalInterval a b) (hkind : tick.kind = .feature) :
    featureInterval ∣ tick.timestamp := by
  obtain ⟨i, -, hat⟩ := List.mem_flatMap.mp h
  have ht := timestamp_of_mem_ticksAt hat
  unfold ticksAt at hat
  rcases List.mem_append.mp hat with hat | hat
  · split_ifs at hat with hdvd
    · rwa [ht]
    · cases hat
  · split_ifs at hat
    · rw [List.mem_singleton.mp hat] at hkind
      cases hkind
    · cases hat

end DecisionScheduler

namespace ReceiveTimeFeatureDriver

variable {identity : PayloadIdentity} {known : List NormalizedMarketEvent}
  {delivered : List QueuedFeatureEvent} {d : ReceiveTimeFeatureDriver}

theorem ticks_weaveQueued (d : ReceiveTimeFeatureDriver) (start : Int) (queued : List QueuedFeatureEvent)
    (final : Int) :
    TickGrid.ticks (d.weaveQueued start queued final) =
      TickGrid.ticks (d.grid.weave QueuedFeatureEvent.receiveTimestamp start queued final) := by
  unfold weaveQueued TickGrid.ticks
  rw [List.filterMap_map]
  apply List.filterMap_congr
  intro input _
  cases input <;> rfl

theorem Ordered.pairwise_ticks (hinv : Ordered identity known delivered d) :
    (TickGrid.ticks d.timeline).Pairwise TickBefore := by
  have hwoven := hinv.woven
  cases delivered with
  | nil =>
    rw [hwoven.2]
    exact .nil
  | cons first rest =>
    obtain ⟨w, -, -, -, htimeline⟩ := hwoven
    rw [htimeline, ticks_weaveQueued]
    exact d.grid.pairwise_ticks_weave
      (fun a b => DecisionScheduler.pairwise_ticksBetween _ _ a b) (fun s t hlt => .inl hlt) _ _ _

theorem Ordered.dvd_of_mem_ticks (hinv : Ordered identity known delivered d) {tick : DecisionTick}
    (h : tick ∈ TickGrid.ticks d.timeline) (hkind : tick.kind = .feature) :
    d.settings.featureInterval ∣ tick.timestamp := by
  have hwoven := hinv.woven
  cases delivered with
  | nil =>
    rw [hwoven.2] at h
    cases h
  | cons first rest =>
    obtain ⟨w, -, -, -, htimeline⟩ := hwoven
    rw [htimeline, ticks_weaveQueued] at h
    obtain ⟨a, b, hbetween⟩ := d.grid.exists_between_of_mem_weave (TickGrid.mem_ticks.mp h)
    exact DecisionScheduler.dvd_of_mem_ticksBetween hbetween hkind

/-- A finished driver has handed over, before a tick, what was received up to it. -/
theorem Ordered.items_before (hinv : Ordered identity known delivered d) (hempty : d.events = [])
    {before after : List (NormalizedMarketEvent ⊕ DecisionTick)} {tick : DecisionTick}
    (h : d.timeline = before ++ .inr tick :: after) :
    (TickGrid.items before).Perm (known.filter fun event => receiveTime event ≤ tick.timestamp) := by
  have hperm : (delivered.map QueuedFeatureEvent.event).Perm known := by
    have hall := hinv.perm
    rwa [hempty, List.append_nil] at hall
  have hfilter := hperm.filter fun event => decide (receiveTime event ≤ tick.timestamp)
  rw [List.filter_map] at hfilter
  rw [(hinv.timeline_split h).1]
  have hsame : delivered.filter (·.receiveTimestamp ≤ tick.timestamp) =
      delivered.filter ((fun event => decide (receiveTime event ≤ tick.timestamp)) ∘
        QueuedFeatureEvent.event) := by
    apply List.filter_congr
    intro q hq
    rw [hinv.receiveTimestamp_eq (List.mem_append_left _ hq)]
    rfl
  rw [hsame]
  exact hfilter

end ReceiveTimeFeatureDriver

/-! ## The labels of a driven runtime -/

theorem tickTimes_timelineCalls (kind : TickKind) (timeline : List (NormalizedMarketEvent ⊕ DecisionTick)) :
    tickTimes kind (timelineCalls timeline) = (TickGrid.ticks timeline).filterMap fun tick =>
      if tick.kind = kind then some tick.timestamp else none := by
  show (timeline.map RuntimeCall.ofInput).filterMap _ = (timeline.filterMap Sum.getRight?).filterMap _
  rw [List.filterMap_map, List.filterMap_filterMap]
  apply List.filterMap_congr
  intro input _
  cases input <;> rfl

/-- Of ticks in order, the feature ticks are at different times. -/
theorem featureTimes_sorted {timeline : List (NormalizedMarketEvent ⊕ DecisionTick)}
    (h : (TickGrid.ticks timeline).Pairwise TickBefore) :
    (tickTimes .feature (timelineCalls timeline)).Pairwise (· < ·) := by
  rw [tickTimes_timelineCalls, List.pairwise_filterMap]
  refine h.imp ?_
  intro s t hbefore a ha b hb
  split_ifs at ha hb with hs ht
  obtain rfl := Option.some.inj ha
  obtain rfl := Option.some.inj hb
  rcases hbefore with hlt | ⟨-, -, hsignal⟩
  · exact hlt
  · rw [ht] at hsignal
    cases hsignal

/-- The decision of what a label is about. -/
def OutputLabel.decision : OutputLabel → Int
  | .singleVenue _ _ _ decision => decision
  | .crossVenue _ _ decision => decision

theorem PersistableFeatureSnapshot.decision_label {F : Type} (output : PersistableFeatureSnapshot F) :
    output.label.decision = output.decisionTimestamp := by
  cases output <;> rfl

namespace RuntimeEngines

variable {F : Type} {engines : RuntimeEngines F}

theorem decision_of_mem_tickLabels {decision : Int} {label : OutputLabel}
    (h : label ∈ engines.tickLabels decision) : label.decision = decision := by
  rcases List.mem_append.mp h with h | h
  · obtain ⟨key, -, h⟩ := List.mem_flatMap.mp h
    obtain ⟨windowSeconds, -, rfl⟩ := List.mem_map.mp h
    rfl
  · obtain ⟨symbol, -, h⟩ := List.mem_flatMap.mp h
    obtain ⟨windowSeconds, -, rfl⟩ := List.mem_map.mp h
    rfl

/-- A tick writes different things exactly when no window is configured twice. -/
theorem tickLabels_nodup_iff {decision : Int} :
    (engines.tickLabels decision).Nodup ↔ engines.windows.Nodup := by
  constructor
  · intro h
    obtain ⟨symbol, hsymbol⟩ := List.exists_mem_of_ne_nil _ engines.symbols_nonempty
    have hsymbols := (List.nodup_flatMap.mp (List.nodup_append.mp h).2.1).1 symbol hsymbol
    exact hsymbols.of_map
  · intro hwindows
    have hsingles : (engines.featureUniverse.flatMap fun key => engines.windows.map fun windowSeconds =>
        OutputLabel.singleVenue key.1 key.2 windowSeconds decision) =
          (engines.featureUniverse ×ˢ engines.windows).map fun pair =>
            OutputLabel.singleVenue pair.1.1 pair.1.2 pair.2 decision := by
      show _ = (engines.featureUniverse.flatMap fun key => engines.windows.map (key, ·)).map _
      rw [List.map_flatMap]
      simp only [List.map_map, Function.comp_def]
    have hcrosses : (engines.symbols.flatMap fun symbol => engines.windows.map fun windowSeconds =>
        OutputLabel.crossVenue symbol windowSeconds decision) =
          (engines.symbols ×ˢ engines.windows).map fun pair =>
            OutputLabel.crossVenue pair.1 pair.2 decision := by
      show _ = (engines.symbols.flatMap fun symbol => engines.windows.map (symbol, ·)).map _
      rw [List.map_flatMap]
      simp only [List.map_map, Function.comp_def]
    unfold tickLabels
    rw [hsingles, hcrosses, List.nodup_append]
    refine ⟨(engines.featureUniverse_nodup.product hwindows).map ?_,
      (List.Nodup.product engines.symbols_nodup hwindows).map ?_, ?_⟩
    · rintro ⟨⟨exchange, symbol⟩, windowSeconds⟩ ⟨⟨exchange', symbol'⟩, windowSeconds'⟩ heq
      obtain ⟨rfl, rfl, rfl, -⟩ := OutputLabel.singleVenue.inj heq
      rfl
    · rintro ⟨symbol, windowSeconds⟩ ⟨symbol', windowSeconds'⟩ heq
      obtain ⟨rfl, rfl, -⟩ := OutputLabel.crossVenue.inj heq
      rfl
    · intro single hsingle cross hcross heq
      obtain ⟨pair, -, rfl⟩ := List.mem_map.mp hsingle
      obtain ⟨pair', -, rfl⟩ := List.mem_map.mp hcross
      cases heq

/-- Ticks of different times write different things. -/
theorem labels_nodup_iff {times : List Int} (htimes : times.Nodup) :
    (times.flatMap engines.tickLabels).Nodup ↔ engines.windows.Nodup ∨ times = [] := by
  rw [List.nodup_flatMap]
  constructor
  · rintro ⟨hticks, -⟩
    cases times with
    | nil => exact .inr rfl
    | cons decision later => exact .inl (tickLabels_nodup_iff.mp (hticks decision List.mem_cons_self))
  · rintro (hwindows | rfl)
    · refine ⟨fun decision _ => tickLabels_nodup_iff.mpr hwindows, htimes.imp ?_⟩
      intro decision decision' hne label hlabel hlabel'
      exact hne ((decision_of_mem_tickLabels hlabel).symm.trans (decision_of_mem_tickLabels hlabel'))
    · exact ⟨fun decision hin => absurd hin List.not_mem_nil, .nil⟩

end RuntimeEngines

/-! ## A driven runtime -/

section

variable {F : Type} [Field F] [LinearOrder F] {engines : RuntimeEngines F}

/-- A finished driver gives the runtime a timeline over which it writes each output once, on the grid, and
after exactly the events received up to its decision. -/
theorem driven_outputs (identity : PayloadIdentity) (settings : DriverSettings)
    (calls : List ReceiveTimeFeatureDriver.Call) (through : Option Int) (d : ReceiveTimeFeatureDriver)
    (hdriven : ReceiveTimeFeatureDriver.run identity (ReceiveTimeFeatureDriver.new settings)
      (calls ++ [.finish through]) = .ok d) {runtime : FeatureRuntime F}
    (hrun : FeatureRuntime.run engines (timelineCalls d.timeline) = .ok runtime) :
    ((runtime.written.map (·.label)).Nodup ↔
        engines.windows.Nodup ∨ tickTimes .feature (timelineCalls d.timeline) = []) ∧
      ∀ output ∈ runtime.written, settings.featureInterval ∣ output.decisionTimestamp ∧
        ∃ earlier later, d.timeline = earlier ++ .inr ⟨output.decisionTimestamp, .feature⟩ :: later ∧
          (TickGrid.items earlier).Perm ((ReceiveTimeFeatureDriver.published calls).filter fun event =>
            ReceiveTimeFeatureDriver.receiveTime event ≤ output.decisionTimestamp) := by
  obtain ⟨delivered, hinv, hempty⟩ := ReceiveTimeFeatureDriver.ordered_of_finished hdriven
  obtain ⟨-, hsettings⟩ := (ReceiveTimeFeatureDriver.ordered_new identity settings).run hdriven
  have hlabels := (Running.run hrun).labels
  constructor
  · rw [hlabels]
    exact RuntimeEngines.labels_nodup_iff ((featureTimes_sorted hinv.pairwise_ticks).imp ne_of_lt)
  · intro output houtput
    have hlabel : output.label ∈
        (tickTimes .feature (timelineCalls d.timeline)).flatMap engines.tickLabels := by
      rw [← hlabels]
      exact List.mem_map_of_mem houtput
    obtain ⟨decision, hdecision, hlabel⟩ := List.mem_flatMap.mp hlabel
    have hsame : output.decisionTimestamp = decision := by
      rw [← output.decision_label]
      exact RuntimeEngines.decision_of_mem_tickLabels hlabel
    rw [hsame]
    rw [tickTimes_timelineCalls] at hdecision
    obtain ⟨tick, htick, hfeature⟩ := List.mem_filterMap.mp hdecision
    split_ifs at hfeature with hkind
    obtain ⟨timestamp, kind⟩ := tick
    obtain rfl : kind = .feature := hkind
    obtain rfl : timestamp = decision := Option.some.inj hfeature
    obtain ⟨earlier, later, htimeline⟩ := List.append_of_mem (TickGrid.mem_ticks.mp htick)
    have hdvd := hinv.dvd_of_mem_ticks htick rfl
    rw [hsettings] at hdvd
    exact ⟨hdvd, earlier, later, htimeline, hinv.items_before hempty htimeline⟩

end

theorem exampleLateness_pos : (0 : Int) < 5000000 := by norm_num

theorem exampleCapacity_pos : 0 < 3 := by norm_num

/-- Five seconds of lateness, a feature tick every second and a signal tick every other. -/
def exampleDrivenSettings : DriverSettings :=
  { lateness := 5000000
    capacity := 3
    featureInterval := 1000000
    signalInterval := 2000000
    lateness_pos := exampleLateness_pos
    capacity_pos := exampleCapacity_pos }

/-- The trade and the snapshot of the book, received soon after. -/
def exampleReceived : NormalizedMarketEvent × NormalizedMarketEvent :=
  (.trade { exampleTrade with localReceiveTimestamp := 5100000 },
    .orderBookSnapshot { exampleSnapshot 7000000 1 with localReceiveTimestamp := 7100000 })

/-- The JSON of an example trade received in the first ten seconds, as `canonical_json` writes it. -/
def exampleTradeJson (trade : Trade) : String :=
  "\x7b\"aggressor_side\":\"BUY\",\"contract_quantity\":null,\"event_type\":\"TRADE\"," ++
    "\"exchange\":\"BINANCE\",\"exchange_timestamp\":\"1970-01-01T00:00:05Z\"," ++
    "\"local_receive_timestamp\":\"1970-01-01T00:00:0" ++
    toString (trade.localReceiveTimestamp / 1000000) ++ "." ++
    toString (trade.localReceiveTimestamp % 1000000) ++ "Z\"," ++
    "\"normalization_timestamp\":\"1970-01-01T00:00:20Z\",\"price\":\"100\",\"quantity\":\"1\"," ++
    "\"raw_payload_reference\":null,\"sequence_id\":null,\"symbol\":\"BTC-USDT-PERP\"," ++
    "\"trade_id\":\"" ++ trade.tradeId ++ "\"\x7d"

/-- The JSON of the example snapshot of the book. -/
def exampleBookJson : String :=
  "\x7b\"asks\":[\x7b\"price\":\"101\",\"quantity\":\"1\"\x7d],\"bids\":[\x7b\"price\":\"99\"," ++
    "\"quantity\":\"1\"\x7d],\"checksum\":null,\"depth\":10,\"event_type\":\"ORDER_BOOK_SNAPSHOT\"," ++
    "\"exchange\":\"BINANCE\",\"exchange_timestamp\":\"1970-01-01T00:00:07Z\",\"generation\":1," ++
    "\"local_receive_timestamp\":\"1970-01-01T00:00:07.100000Z\"," ++
    "\"normalization_timestamp\":\"1970-01-01T00:00:20Z\",\"raw_payload_reference\":null," ++
    "\"sequence_id\":null,\"symbol\":\"BTC-USDT-PERP\"\x7d"

def exampleEventJson : NormalizedMarketEvent → String
  | .trade trade => exampleTradeJson trade
  | _ => exampleBookJson

/-- The digests of the four texts. -/
def exampleEventDigests : List (String × String) :=
  [(exampleTradeJson { exampleTrade with localReceiveTimestamp := 5100000 },
      "742a920ae31981acfe1b6acd29828205e08f57e56117b577a188c2aa54b943fb"),
    (exampleTradeJson { exampleTrade with localReceiveTimestamp := 6100000 },
      "4b70910178a0234b9610c94cd5651b167c3727d6d4e6975124af741b1519a9b4"),
    (exampleTradeJson { exampleTrade with tradeId := "2", localReceiveTimestamp := 6200000 },
      "862dfc8bded9e165faf1d61ac49b791a48b37c157d7a79c3c9ada49ad4f9c519"),
    (exampleBookJson, "0213aa6a403d0752d1fb3d1e0d45eee4ba8abad142264663e802c1f300729bba")]

/-- The digest of a listed text; of another text a mark of its own, which no digest begins with. -/
def listedSha256 (listed : List (String × String)) (text : String) : String :=
  ((listed.find? (·.1 = text)).map Prod.snd).getD ("sha256:" ++ text)

theorem listedSha256_injective {listed : List (String × String)} (hdistinct : (listed.map Prod.snd).Nodup)
    (hdigests : ∀ entry ∈ listed, entry.2.toList.head? ≠ some 's') :
    Function.Injective (listedSha256 listed) := by
  have hfound : ∀ {text : String} {entry : String × String}, listed.find? (·.1 = text) = some entry →
      entry ∈ listed ∧ entry.1 = text := fun {text entry} hfind =>
    ⟨List.mem_of_find?_eq_some hfind, by simpa using List.find?_some hfind⟩
  have hmark : ∀ {text : String} {entry : String × String}, entry ∈ listed →
      entry.2 ≠ "sha256:" ++ text := by
    intro text entry hentry heq
    refine hdigests entry hentry ?_
    rw [heq, String.toList_append]
    rfl
  intro text other heq
  unfold listedSha256 at heq
  cases htext : listed.find? (·.1 = text) with
  | none =>
    cases hother : listed.find? (·.1 = other) with
    | none =>
      rw [htext, hother] at heq
      exact (String.append_right_inj _).mp heq
    | some entry =>
      rw [htext, hother] at heq
      exact absurd heq.symm (hmark (hfound hother).1)
  | some entry =>
    cases hother : listed.find? (·.1 = other) with
    | none =>
      rw [htext, hother] at heq
      exact absurd heq (hmark (hfound htext).1)
    | some entry' =>
      rw [htext, hother] at heq
      have hsame := List.inj_on_of_nodup_map hdistinct (hfound htext).1 (hfound hother).1 heq
      rw [← (hfound htext).2, hsame, (hfound hother).2]

/-- The payloads of the example events and their digests. -/
def exampleDrivenIdentity : PayloadIdentity :=
  { modelPayloadJson := exampleEventJson
    sha256Text := listedSha256 exampleEventDigests }

theorem exampleDrivenIdentity_injective : Function.Injective exampleDrivenIdentity.sha256Text :=
  listedSha256_injective (by decide +kernel) (by decide +kernel)

/-- The snapshot arrives before the trade. -/
def exampleDrivenCalls : List ReceiveTimeFeatureDriver.Call :=
  [.publish exampleReceived.2, .publish exampleReceived.1]

def exampleDrivenTimeline : List (NormalizedMarketEvent ⊕ DecisionTick) :=
  [.inl exampleReceived.1, .inr ⟨6000000, .feature⟩, .inr ⟨6000000, .signal⟩, .inr ⟨7000000, .feature⟩,
    .inl exampleReceived.2, .inr ⟨8000000, .feature⟩, .inr ⟨8000000, .signal⟩]

theorem exampleDrivenCalls_run : ∃ d, ReceiveTimeFeatureDriver.run exampleDrivenIdentity
    (ReceiveTimeFeatureDriver.new exampleDrivenSettings)
      (exampleDrivenCalls ++ [.finish (some 8000000)]) = .ok d ∧ d.timeline = exampleDrivenTimeline := by
  have htimeline : (ReceiveTimeFeatureDriver.run exampleDrivenIdentity
      (ReceiveTimeFeatureDriver.new exampleDrivenSettings)
        (exampleDrivenCalls ++ [.finish (some 8000000)])).toOption.map (·.timeline) =
      some exampleDrivenTimeline := by decide +kernel
  obtain ⟨d, hsome, hd⟩ := Option.map_eq_some_iff.mp htimeline
  exact ⟨d, toOption_eq_some_iff.mp hsome, hd⟩

theorem exampleDrivenTimeline_run : ∃ runtime,
    FeatureRuntime.run exampleRuntimeEngines (timelineCalls exampleDrivenTimeline) = .ok runtime := by
  have hreturns : (FeatureRuntime.run exampleRuntimeEngines
      (timelineCalls exampleDrivenTimeline)).toOption.isSome = true := by decide +kernel
  obtain ⟨runtime, hsome⟩ := Option.isSome_iff_exists.mp hreturns
  exact ⟨runtime, toOption_eq_some_iff.mp hsome⟩

/-- Nine outputs, three at each of three ticks. -/
theorem driven_outputs_example : ∃ d runtime,
    ReceiveTimeFeatureDriver.run exampleDrivenIdentity (ReceiveTimeFeatureDriver.new exampleDrivenSettings)
        (exampleDrivenCalls ++ [.finish (some 8000000)]) = .ok d ∧
      FeatureRuntime.run exampleRuntimeEngines (timelineCalls d.timeline) = .ok runtime ∧
        (runtime.written.map (·.label)).Nodup := by
  obtain ⟨d, hdriven, htimeline⟩ := exampleDrivenCalls_run
  obtain ⟨runtime, hrun⟩ := exampleDrivenTimeline_run
  rw [← htimeline] at hrun
  obtain ⟨hdistinct, -⟩ := driven_outputs exampleDrivenIdentity exampleDrivenSettings exampleDrivenCalls
    (some 8000000) d hdriven hrun
  exact ⟨d, runtime, hdriven, hrun, hdistinct.mpr (.inl (List.nodup_singleton _))⟩

/-! ## Two orders of arrival -/

namespace ReceiveTimeFeatureDriver

variable {identity : PayloadIdentity} {known₁ known₂ : List NormalizedMarketEvent}
  {delivered₁ delivered₂ : List QueuedFeatureEvent} {d₁ d₂ : ReceiveTimeFeatureDriver}

/-- No two events have the payload of one. -/
def ContentDistinct (identity : PayloadIdentity) (events : List NormalizedMarketEvent) : Prop :=
  ∀ e ∈ events, ∀ f ∈ events, ContentEqual identity e f → e = f

theorem Ordered.mem_known (hinv : Ordered identity known₁ delivered₁ d₁) {q : QueuedFeatureEvent}
    (hq : q ∈ delivered₁) : q.event ∈ known₁ :=
  hinv.perm.subset (List.mem_map_of_mem (List.mem_append_left _ hq))

/-- What two finished drivers delivered of the same events, is the same event by event. -/
theorem Ordered.events_forall₂ (hsha : Function.Injective identity.sha256Text)
    (hinv₁ : Ordered identity known₁ delivered₁ d₁) (hinv₂ : Ordered identity known₂ delivered₂ d₂)
    (hempty₁ : d₁.events = []) (hempty₂ : d₂.events = []) (hperm : known₁.Perm known₂)
    (hcontent : ContentDistinct identity known₁) :
    List.Forall₂ (fun q r => q.receiveTimestamp = r.receiveTimestamp ∧ q.event = r.event)
      delivered₁ delivered₂ := by
  have hequal := hinv₁.contentEqual_forall₂ hsha hinv₂
    (hinv₁.delivered_forall₂ hinv₂ hempty₁ hempty₂ hperm)
  have hleft := (List.forall₂_and_left _ _).mpr ⟨fun q hq => hinv₁.mem_known hq, hequal⟩
  have hflip : List.Forall₂ (fun r q : QueuedFeatureEvent => q.event ∈ known₁ ∧
      q.receiveTimestamp = r.receiveTimestamp ∧ ContentEqual identity q.event r.event)
        delivered₂ delivered₁ := hleft.flip
  have hboth := (List.forall₂_and_left _ _).mpr ⟨fun r hr => hinv₂.mem_known hr, hflip⟩
  refine List.Forall₂.flip (hboth.imp fun r q hrq => ?_)
  obtain ⟨hr, hq, htime, hsame⟩ := hrq
  exact ⟨htime, hcontent q.event hq r.event (hperm.symm.subset hr) hsame⟩

/-- Two finished runs over the same events, with clocks up to a common instant, hand over one timeline. -/
theorem timeline_eq (hsha : Function.Injective identity.sha256Text) {settings : DriverSettings}
    {calls₁ calls₂ : List Call} {through : Int} (hevents : (published calls₁).Perm (published calls₂))
    (hcontent : ContentDistinct identity (published calls₁))
    (hwithin₁ : ∀ c ∈ calls₁, c.Within through) (hwithin₂ : ∀ c ∈ calls₂, c.Within through)
    (hrun₁ : ReceiveTimeFeatureDriver.run identity (new settings)
      (calls₁ ++ [.finish (some through)]) = .ok d₁)
    (hrun₂ : ReceiveTimeFeatureDriver.run identity (new settings)
      (calls₂ ++ [.finish (some through)]) = .ok d₂) :
    d₁.timeline = d₂.timeline := by
  obtain ⟨delivered₁, hinv₁, hempty₁, hsettings₁, hwatermark₁⟩ := finished_within hwithin₁ hrun₁
  obtain ⟨delivered₂, hinv₂, hempty₂, hsettings₂, hwatermark₂⟩ := finished_within hwithin₂ hrun₂
  rw [← finalInstant_perm through hevents] at hwatermark₂
  have hforall := hinv₁.events_forall₂ hsha hinv₂ hempty₁ hempty₂ hevents hcontent
  have hwoven₁ := hinv₁.woven
  have hwoven₂ := hinv₂.woven
  cases hforall with
  | nil => rw [hwoven₁.2, hwoven₂.2]
  | @cons q r rest₁ rest₂ hhead htail =>
    obtain ⟨w₁, hw₁, -, -, htimeline₁⟩ := hwoven₁
    obtain ⟨w₂, hw₂, -, -, htimeline₂⟩ := hwoven₂
    obtain rfl : w₁ = w₂ := Option.some.inj ((hw₁.symm.trans hwatermark₁).trans
      (hw₂.symm.trans hwatermark₂).symm)
    have hgrid : d₂.grid = d₁.grid := by
      unfold grid
      rw [hsettings₁, hsettings₂]
    have hweave := @TickGrid.weave_forall₂ _ _ d₁.grid QueuedFeatureEvent.receiveTimestamp
      (fun q r => q.receiveTimestamp = r.receiveTimestamp ∧ q.event = r.event) (fun _ _ h => h.1)
      q.receiveTimestamp _ _ (List.Forall₂.cons hhead htail) w₁
    rw [htimeline₁, htimeline₂, weaveQueued, weaveQueued, hgrid, ← hhead.1]
    refine map_eq_map_of_forall₂ (fun x y hxy => ?_) hweave
    cases hxy with
    | inl h => exact congrArg Sum.inl h.2
    | inr h => exact congrArg Sum.inr h

end ReceiveTimeFeatureDriver

/-- Whatever the order in which different events arrive and however the clock advances in between, the runtime
ends the same: with the same error, or with the same store, counters and outputs. -/
theorem outputs_independent_of_arrival {F : Type} [Field F] [LinearOrder F] (engines : RuntimeEngines F)
    (identity : PayloadIdentity) (hsha : Function.Injective identity.sha256Text) (settings : DriverSettings)
    (calls₁ calls₂ : List ReceiveTimeFeatureDriver.Call) (through : Int)
    (hevents : (ReceiveTimeFeatureDriver.published calls₁).Perm (ReceiveTimeFeatureDriver.published calls₂))
    (hcontent : ReceiveTimeFeatureDriver.ContentDistinct identity
      (ReceiveTimeFeatureDriver.published calls₁))
    (hwithin₁ : ∀ c ∈ calls₁, c.Within through) (hwithin₂ : ∀ c ∈ calls₂, c.Within through)
    (d₁ d₂ : ReceiveTimeFeatureDriver)
    (hrun₁ : ReceiveTimeFeatureDriver.run identity (ReceiveTimeFeatureDriver.new settings)
      (calls₁ ++ [.finish (some through)]) = .ok d₁)
    (hrun₂ : ReceiveTimeFeatureDriver.run identity (ReceiveTimeFeatureDriver.new settings)
      (calls₂ ++ [.finish (some through)]) = .ok d₂) :
    FeatureRuntime.run engines (timelineCalls d₁.timeline) =
      FeatureRuntime.run engines (timelineCalls d₂.timeline) := by
  rw [ReceiveTimeFeatureDriver.timeline_eq hsha hevents hcontent hwithin₁ hwithin₂ hrun₁ hrun₂]

/-- The trade first, and the clock in between. -/
theorem outputs_independent_of_arrival_example : ∃ d₁ d₂,
    ReceiveTimeFeatureDriver.run exampleDrivenIdentity (ReceiveTimeFeatureDriver.new exampleDrivenSettings)
        (exampleDrivenCalls ++ [.finish (some 8000000)]) = .ok d₁ ∧
      ReceiveTimeFeatureDriver.run exampleDrivenIdentity (ReceiveTimeFeatureDriver.new exampleDrivenSettings)
        ([.publish exampleReceived.1, .advanceTo 6500000, .publish exampleReceived.2] ++
          [.finish (some 8000000)]) = .ok d₂ ∧
      FeatureRuntime.run exampleRuntimeEngines (timelineCalls d₁.timeline) =
        FeatureRuntime.run exampleRuntimeEngines (timelineCalls d₂.timeline) := by
  obtain ⟨d₁, hrun₁, -⟩ := exampleDrivenCalls_run
  have hok : (ReceiveTimeFeatureDriver.run exampleDrivenIdentity
      (ReceiveTimeFeatureDriver.new exampleDrivenSettings)
        ([.publish exampleReceived.1, .advanceTo 6500000, .publish exampleReceived.2] ++
          [.finish (some 8000000)])).toOption.isSome = true := by decide +kernel
  obtain ⟨d₂, hsome⟩ := Option.isSome_iff_exists.mp hok
  have hrun₂ := toOption_eq_some_iff.mp hsome
  refine ⟨d₁, d₂, hrun₁, hrun₂, outputs_independent_of_arrival exampleRuntimeEngines exampleDrivenIdentity
    exampleDrivenIdentity_injective exampleDrivenSettings exampleDrivenCalls _ 8000000 ?_ ?_ ?_ ?_ d₁ d₂ hrun₁
    hrun₂⟩
  · exact List.Perm.swap ..
  · intro e he f hf hequal
    have hpairs : ∀ e ∈ ReceiveTimeFeatureDriver.published exampleDrivenCalls,
        ∀ f ∈ ReceiveTimeFeatureDriver.published exampleDrivenCalls,
          exampleDrivenIdentity.modelPayloadJson e = exampleDrivenIdentity.modelPayloadJson f → e = f := by
      decide +kernel
    exact hpairs e he f hf hequal
  · decide
  · decide

end Cvf
