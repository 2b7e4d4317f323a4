/-
# Cvf.Features.RuntimeGuarantees — what a caller of the feature runtime can rely on.

Unless a number is not finite or the writer raises, a tick of an active runtime fails for a window without a
length or for a book that is ahead of it, and for nothing else (`tick_fails_iff`): the paired features never
refuse what the single-venue engine returned, and the check of the outputs never finds a source of a later
instant.  Where the books only move forward, a run over any timeline completes.  What it has written then is
what was asked for, once each, in order.
-/
import Cvf.Features.RuntimeWritten

namespace Cvf

open Cvf.Library

/-! ## Ids -/

namespace SingleVenueFeatureEngine

variable {F : Type} [Field F] [LinearOrder F] {engine : SingleVenueFeatureEngine F}

/-- Snapshots of the two venues have different ids. -/
def IdsTellVenues (engine : SingleVenueFeatureEngine F) : Prop :=
  ∀ binance okx : SingleVenueIdentity F, binance.exchange = .binance → okx.exchange = .okx →
    engine.featureId binance ≠ engine.featureId okx

theorem Produced.featureId {snapshot : FeatureSnapshot F} (h : engine.Produced snapshot) :
    ∃ identity : SingleVenueIdentity F, identity.exchange = snapshot.exchange ∧
      snapshot.featureSnapshotId = engine.featureId identity := by
  obtain ⟨steps, timeline, -, exchange, symbol, channels, decision, windowSeconds, memory, hcalculate⟩ := h
  obtain ⟨priceCache, reads, hdone⟩ := calculate_ok_iff.mp hcalculate
  rw [hdone.assembled]
  exact ⟨_, rfl, rfl⟩

theorem venueIdsApart (hids : engine.IdsTellVenues) {snapshots : List (FeatureSnapshot F)}
    (hproduced : ∀ snapshot ∈ snapshots, engine.Produced snapshot) :
    CrossVenueFeatureEngine.VenueIdsApart snapshots := by
  intro binance hbinance okx hokx hbinanceVenue hokxVenue
  obtain ⟨binanceIdentity, hbinanceExchange, hbinanceId⟩ := (hproduced binance hbinance).featureId
  obtain ⟨okxIdentity, hokxExchange, hokxId⟩ := (hproduced okx hokx).featureId
  rw [hbinanceId, hokxId]
  exact hids _ _ (hbinanceExchange.trans hbinanceVenue) (hokxExchange.trans hokxVenue)

end SingleVenueFeatureEngine

/-! ## A feature tick -/

section

variable {F : Type} [Field F] [LinearOrder F] {engines : RuntimeEngines F} {runtime : FeatureRuntime F}
  {calls : List RuntimeCall}

omit [Field F] [LinearOrder F] in
theorem RuntimeEngines.exists_state {store : MarketStateStore} (hkeys : store.keys = engines.featureUniverse) :
    ∃ state, state ∈ store.states := by
  obtain ⟨symbol, hsymbol⟩ := List.exists_mem_of_ne_nil _ engines.symbols_nonempty
  have hkey : (Exchange.binance, symbol) ∈ store.keys := by
    rw [hkeys]
    exact engines.mem_featureUniverse.mpr ⟨rfl, hsymbol⟩
  obtain ⟨state, hstate, -⟩ := List.mem_map.mp hkey
  exact ⟨state, hstate⟩

omit [Field F] [LinearOrder F] in
/-- A tick is refused for a window without a length or a book that is ahead of it. -/
theorem exists_tickRefused_iff {store : MarketStateStore} (hkeys : store.keys = engines.featureUniverse)
    {decision : Int} :
    (∃ pair ∈ engines.asked store, ∃ text, TickRefused engines store decision pair text) ↔
      (∃ windowSeconds ∈ engines.windows, windowSeconds ≤ 0) ∨
        ∃ key ∈ engines.featureUniverse, engines.single.BookAhead store key.1 key.2 decision := by
  constructor
  · rintro ⟨pair, hpair, text, ⟨hneg, -⟩ | ⟨-, hahead, -⟩⟩
    · exact .inl ⟨pair.2, (engines.mem_asked.mp hpair).2, hneg⟩
    · refine .inr ⟨(pair.1.exchange, pair.1.symbol), ?_, hahead⟩
      rw [← hkeys]
      exact List.mem_map.mpr ⟨pair.1, (engines.mem_asked.mp hpair).1, rfl⟩
  · rintro (⟨windowSeconds, hwindow, hneg⟩ | ⟨key, hkey, hahead⟩)
    · obtain ⟨state, hstate⟩ := engines.exists_state hkeys
      exact ⟨(state, windowSeconds), engines.mem_asked.mpr ⟨hstate, hwindow⟩, _, .inl ⟨hneg, rfl⟩⟩
    · obtain ⟨windowSeconds, hwindow⟩ := List.exists_mem_of_ne_nil _ engines.windows_nonempty
      rw [← hkeys] at hkey
      obtain ⟨state, hstate, rfl⟩ := List.mem_map.mp hkey
      refine ⟨(state, windowSeconds), engines.mem_asked.mpr ⟨hstate, hwindow⟩, ?_⟩
      rcases lt_or_ge 0 windowSeconds with hpos | hneg
      · exact ⟨_, .inr ⟨hpos, hahead, rfl⟩⟩
      · exact ⟨_, .inl ⟨hneg, rfl⟩⟩

variable [IsStrictOrderedRing F]

omit [IsStrictOrderedRing F] in
/-- What the deques hold after the calculations of a tick, the engine has calculated. -/
theorem Running.produced_candidate (h : Running engines calls runtime) {singles : List (FeatureSnapshot F)}
    (hsingles : ∀ snapshot ∈ singles, engines.single.Produced snapshot) {pair : String × Int}
    {snapshot : FeatureSnapshot F}
    (hin : snapshot ∈ (singles.foldl (RuntimeHistory.append (some engines.historyItems))
      runtime.history).candidates pair.1 pair.2) : engines.single.Produced snapshot := by
  have hheld : ∀ key, snapshot ∈ (singles.foldl (RuntimeHistory.append (some engines.historyItems))
      runtime.history).history key → engines.single.Produced snapshot := by
    intro key hkey
    rcases RuntimeHistory.mem_foldl_append hkey with hold | ⟨hnew, -⟩
    · exact h.produced snapshot (h.held key snapshot hold).2
    · exact hsingles snapshot hnew
  exact (RuntimeHistory.mem_candidates.mp hin).elim (hheld _) (hheld _)

/-- Each pair of a tick is calculated, unless a number is not finite. -/
theorem Running.pair_cases (h : Running engines calls runtime) (hmath : engines.cross.math.Faithful)
    (hids : engines.single.IdsTellVenues) {singles : List (FeatureSnapshot F)}
    (hsingles : ∀ snapshot ∈ singles, engines.single.Produced snapshot)
    (hpos : ∀ windowSeconds ∈ engines.windows, 0 < windowSeconds) (decision : Int) :
    ∀ pair ∈ engines.pairs,
      engines.cross.calculate ((singles.foldl (RuntimeHistory.append (some engines.historyItems))
          runtime.history).candidates pair.1 pair.2) pair.1 decision pair.2 =
        .error "feature values must be finite" ∨
      ∃ cross, engines.cross.calculate ((singles.foldl
        (RuntimeHistory.append (some engines.historyItems)) runtime.history).candidates pair.1 pair.2)
          pair.1 decision pair.2 = .ok cross := by
  intro pair hpair
  obtain ⟨hsymbol, hwindow⟩ := engines.mem_pairs.mp hpair
  have hconfigured : pair.2 ∈ engines.cross.settings.featureWindowsSeconds := by
    rw [engines.windows_eq]
    exact hwindow
  rcases CrossVenueFeatureEngine.calculate_accepts engines.cross hmath
    (fun snapshot hin => (h.produced_candidate hsingles hin).sound)
    (SingleVenueFeatureEngine.venueIdsApart hids fun snapshot hin => h.produced_candidate hsingles hin)
    (engines.symbols_canonical pair.1 hsymbol) decision hconfigured (hpos pair.2 hwindow) with
    ⟨-, hraised⟩ | ⟨-, cross, hcross, -⟩
  · exact .inl hraised
  · exact .inr ⟨cross, hcross⟩

omit [IsStrictOrderedRing F] in
/-- No output of a tick has a source after its decision. -/
theorem Running.outputs_past (h : Running engines calls runtime) {singles : List (FeatureSnapshot F)}
    (hsingles : ∀ snapshot ∈ singles, engines.single.Produced snapshot) {decision : Int}
    {crosses : List (CrossVenueFeatureSnapshot F)}
    (hcrosses : List.Forall₂ (fun pair cross => engines.cross.calculate
      ((singles.foldl (RuntimeHistory.append (some engines.historyItems)) runtime.history).candidates
        pair.1 pair.2) pair.1 decision pair.2 = .ok cross) engines.pairs crosses) :
    ∀ output ∈ singles.map PersistableFeatureSnapshot.singleVenue ++
      crosses.map PersistableFeatureSnapshot.crossVenue, output.sourceIsInTheFuture = false := by
  intro output hin
  rcases List.mem_append.mp hin with hin | hin
  · obtain ⟨snapshot, hsnapshot, rfl⟩ := List.mem_map.mp hin
    exact FeatureSnapshot.past_of_valid (hsingles snapshot hsnapshot).sound.valid
  · obtain ⟨cross, hcross, rfl⟩ := List.mem_map.mp hin
    obtain ⟨pair, -, hcalculate⟩ := exists_of_mem_forall₂_right hcrosses hcross
    exact CrossVenueFeatureEngine.calculate_past hcalculate
      fun snapshot hsnapshot => (h.produced_candidate hsingles hsnapshot).sound

/-- What was calculated is paired and written, unless a number is not finite or the writer raises. -/
theorem Running.exists_done (h : Running engines calls runtime) (hactive : runtime.Active)
    (hmath : engines.cross.math.Faithful) (hids : engines.single.IdsTellVenues) {decision : Int}
    {singles : List (FeatureSnapshot F)} {memory : SingleVenueMemory F}
    (hpos : ∀ windowSeconds ∈ engines.windows, 0 < windowSeconds)
    (hcalculated : engines.single.calculateEach runtime.timeline.store runtime.healthChannels decision
      (engines.asked runtime.timeline.store) runtime.timeline.memory = .ok (singles, memory)) :
    Stopped engines (runtime.consumeTick engines ⟨decision, .feature⟩) ∨
      ∃ after, runtime.consumeTick engines ⟨decision, .feature⟩ = .ok after := by
  obtain ⟨hsnapshots, -⟩ := calculateEach_ok (askedStates h.keys) h.traced hcalculated
  have hsingles : ∀ snapshot ∈ singles, engines.single.Produced snapshot := by
    intro snapshot hin
    obtain ⟨pair, -, htick⟩ := exists_of_mem_forall₂_right hsnapshots hin
    exact htick.produced
  unfold FeatureRuntime.consumeTick FeatureRuntime.consumeTickWith
  rw [if_neg (FeatureRuntime.not_inactive_iff.mpr hactive)]
  dsimp only
  have hcalculateAll : engines.single.calculateAll runtime.timeline.store runtime.healthChannels
      runtime.timeline.memory decision = .ok (singles, memory) := hcalculated
  rw [hcalculateAll]
  show Stopped engines (List.mapM id (RuntimeHistory.crosses engines.cross _ decision) >>= _) ∨
    ∃ after, (List.mapM id (RuntimeHistory.crosses engines.cross _ decision) >>= _) = Except.ok after
  rw [crosses_eq, List.mapM_map]
  -- the pairs come first, then the writer takes one output after the other
  rcases mapM_eq_error_or_ok (h.pair_cases hmath hids hsingles hpos decision) with
    hraised | ⟨crosses, hcrosses⟩
  · refine .inl (Stopped.bind (.inl ?_) _)
    exact hraised
  have hpast := h.outputs_past hsingles (mapM_eq_ok_iff_forall₂.mp hcrosses)
  have hmapped : List.mapM (id ∘ fun pair : String × Int => engines.cross.calculate ((singles.foldl
      (RuntimeHistory.append (some engines.historyItems)) runtime.history).candidates pair.1 pair.2)
        pair.1 decision pair.2) engines.pairs = .ok crosses := hcrosses
  rw [hmapped]
  dsimp only [bind, Except.bind]
  have hemits : Stopped engines ((singles.map PersistableFeatureSnapshot.singleVenue ++
      crosses.map PersistableFeatureSnapshot.crossVenue).foldlM (FeatureRuntime.emit engines)
        (runtime.counts, runtime.written)) ∨ _ :=
    foldlM_emit_cases hpast runtime.counts runtime.written
  rcases hemits with hstopped | ⟨emitted, hemitted⟩
  · exact .inl (hstopped.bind _)
  · rw [hemitted]
    exact .inr ⟨_, rfl⟩

/-- A feature tick of an active runtime is stopped by a number or the writer, is refused, or is done. -/
theorem Running.tick_cases (h : Running engines calls runtime) (hactive : runtime.Active)
    (hevents : (consumedEvents calls).Nodup) (hmath : engines.cross.math.Faithful)
    (hids : engines.single.IdsTellVenues) (decision : Int) :
    Stopped engines (runtime.consumeTick engines ⟨decision, .feature⟩) ∨
      (∃ text, (∃ pair ∈ engines.asked runtime.timeline.store,
          TickRefused engines runtime.timeline.store decision pair text) ∧
        runtime.consumeTick engines ⟨decision, .feature⟩ = .error text) ∨
      (¬ ∃ pair ∈ engines.asked runtime.timeline.store, ∃ text,
          TickRefused engines runtime.timeline.store decision pair text) ∧
        ∃ after, runtime.consumeTick engines ⟨decision, .feature⟩ = .ok after := by
  have hraise : ∀ text, engines.single.calculateEach runtime.timeline.store runtime.healthChannels decision
      (engines.asked runtime.timeline.store) runtime.timeline.memory = .error text →
        runtime.consumeTick engines ⟨decision, .feature⟩ = .error text := by
    intro text hraised
    unfold FeatureRuntime.consumeTick FeatureRuntime.consumeTickWith
    rw [if_neg (FeatureRuntime.not_inactive_iff.mpr hactive)]
    show (engines.single.calculateEach runtime.timeline.store runtime.healthChannels decision
      (engines.asked runtime.timeline.store) runtime.timeline.memory >>= _) = _
    rw [hraised]
    rfl
  rcases calculateEach_cases runtime.healthChannels decision hevents (askedStates h.keys)
      (fun pair hpair => (engines.mem_asked.mp hpair).2) h.traced with
    hraised | ⟨text, hrefused, hraised⟩ | ⟨hnot, ⟨singles, memory⟩, hcalculated⟩
  · exact .inl (.inl (hraise _ hraised))
  · exact .inr (.inl ⟨text, hrefused, hraise text hraised⟩)
  · have hpos : ∀ windowSeconds ∈ engines.windows, 0 < windowSeconds := by
      intro windowSeconds hwindow
      obtain ⟨state, hstate⟩ := engines.exists_state h.keys
      refine not_le.mp fun hneg => hnot ?_
      exact ⟨(state, windowSeconds), engines.mem_asked.mpr ⟨hstate, hwindow⟩, _, .inl ⟨hneg, rfl⟩⟩
    exact (h.exists_done hactive hmath hids hpos hcalculated).imp_right fun hdone => .inr ⟨hnot, hdone⟩

end

/-! ### An example runtime -/

theorem exampleRuntimeWindows_eq : [(5 : Int)] = exampleEngineSettings.featureWindowsSeconds := rfl

theorem exampleRuntimeLookback_eq : (60 : Int) = exampleEngineSettings.zscoreLookbackSeconds := rfl

theorem exampleRuntimeSymbols_canonical :
    ∀ symbol ∈ ["BTC-USDT-PERP"], checkedSymbol symbol = .ok symbol := by
  intro symbol hsymbol
  rw [List.mem_singleton.mp hsymbol]
  decide +kernel

theorem exampleRuntimeWindows_nonempty : exampleEngineSettings.featureWindowsSeconds ≠ [] :=
  List.cons_ne_nil _ _

theorem exampleRuntimeUpdate_pos : (0 : Int) < 1000000 := by norm_num

/-- The example engine, with ids that are even for one venue and odd for the other. -/
def exampleVenueIdEngine : SingleVenueFeatureEngine ℚ :=
  { exampleEngine with
    featureId := fun identity =>
      ⟨(2 * identity.decisionTimestamp.natAbs + if identity.exchange = .okx then 1 else 0) % 2 ^ 128,
        Nat.mod_lt _ (Nat.two_pow_pos 128)⟩ }

/-- One symbol, a window of five seconds and a tick every second. -/
def exampleRuntimeEngines : RuntimeEngines ℚ :=
  { single := exampleVenueIdEngine
    cross :=
      { CrossVenueFeatureEngine.exampleCrossVenueEngine with
        settings :=
          { CrossVenueFeatureEngine.exampleCrossVenueSettings with zscoreLookbackSeconds := 60 } }
    featureUpdateMicros := 1000000
    writeError := fun _ _ => none
    windows_eq := exampleRuntimeWindows_eq
    lookback_eq := exampleRuntimeLookback_eq
    symbols_canonical := exampleRuntimeSymbols_canonical
    symbols_nodup := List.nodup_singleton _
    symbols_nonempty := List.cons_ne_nil _ _
    windows_nonempty := exampleRuntimeWindows_nonempty
    featureUpdateMicros_pos := exampleRuntimeUpdate_pos }

/-- The example writer raises for nothing. -/
theorem stopped_example_iff {α : Type} {result : Except String α} :
    Stopped exampleRuntimeEngines result ↔ result = .error "feature values must be finite" := by
  constructor
  · rintro (hraised | ⟨before, output, text, hwrite, -⟩)
    · exact hraised
    · exact absurd hwrite (Option.some_ne_none text).symm
  · exact .inl

theorem exampleVenueIdEngine_idsTellVenues : exampleVenueIdEngine.IdsTellVenues := by
  intro binance okx hbinance hokx heq
  have hids : (2 * binance.decisionTimestamp.natAbs + if binance.exchange = .okx then 1 else 0) % 2 ^ 128 =
      (2 * okx.decisionTimestamp.natAbs + if okx.exchange = .okx then 1 else 0) % 2 ^ 128 :=
    congrArg Uuid.int heq
  rw [hbinance, hokx, if_neg (by decide), if_pos rfl] at hids
  omega

section

variable {F : Type} [Field F] [LinearOrder F] [IsStrictOrderedRing F] {engines : RuntimeEngines F}
  {runtime : FeatureRuntime F} {calls : List RuntimeCall}

/-- Unless a number is not finite or the writer raises, a tick of an active runtime raises exactly for a window
without a length or a book of the universe that is ahead of the tick; a signal tick never does. -/
theorem tick_fails_iff (hrun : FeatureRuntime.run engines calls = .ok runtime) (hactive : runtime.Active)
    (hevents : (consumedEvents calls).Nodup) (hmath : engines.cross.math.Faithful)
    (hids : engines.single.IdsTellVenues) (tick : DecisionTick) :
    (tick.kind = .feature ∧ Stopped engines (runtime.consumeTick engines tick)) ∨
      ((∃ text, runtime.consumeTick engines tick = .error text) ↔
        tick.kind = .feature ∧ ((∃ windowSeconds ∈ engines.windows, windowSeconds ≤ 0) ∨
          ∃ key ∈ engines.featureUniverse,
            engines.single.BookAhead runtime.timeline.store key.1 key.2 tick.timestamp)) ∧
      ∀ text, runtime.consumeTick engines tick = .error text → text = "warmup must be positive" ∨
        text = "feature snapshot contains a future source event" := by
  have h := Running.run hrun
  obtain ⟨decision, kind⟩ := tick
  cases kind with
  | signal =>
    have hcounted : runtime.consumeTick engines ⟨decision, .signal⟩ =
        .ok { runtime with signalBoundaries := runtime.signalBoundaries + 1 } :=
      FeatureRuntime.consumeTick_signal_ok.mpr ⟨hactive, rfl⟩
    rw [hcounted]
    simp
  | feature =>
    rcases h.tick_cases hactive hevents hmath hids decision with
      hstopped | ⟨text, hrefused, hraised⟩ | ⟨hnot, after, hdone⟩
    · exact .inl ⟨rfl, hstopped⟩
    · rw [hraised]
      obtain ⟨pair, hpair, hrefused⟩ := hrefused
      refine .inr ⟨⟨fun _ => ⟨rfl, ?_⟩, fun _ => ⟨text, rfl⟩⟩, ?_⟩
      · exact (exists_tickRefused_iff h.keys).mp ⟨pair, hpair, text, hrefused⟩
      · rintro other heq
        obtain rfl := Except.error.inj heq
        exact hrefused.imp And.right fun hahead => hahead.2.2
    -- nothing was refused, so neither side holds
    · rw [hdone]
      rw [exists_tickRefused_iff h.keys] at hnot
      refine .inr ⟨⟨?_, fun hrefused => absurd hrefused.2 hnot⟩, ?_⟩
      · rintro ⟨text, heq⟩
        cases heq
      · intro text heq
        cases heq

end

theorem tick_fails_iff_buffered : ∃ runtime text,
    FeatureRuntime.run exampleRuntimeEngines
        [.start, .consumeEvent (.orderBookUpdate exampleBuffered),
          .consumeEvent (.orderBookSnapshot (exampleSnapshot 5000000 1))] = .ok runtime ∧
      runtime.consumeTick exampleRuntimeEngines ⟨7000000, .feature⟩ = .error text := by
  have hreached : (FeatureRuntime.run exampleRuntimeEngines
      [.start, .consumeEvent (.orderBookUpdate exampleBuffered),
        .consumeEvent (.orderBookSnapshot (exampleSnapshot 5000000 1))]).toOption.map (fun runtime =>
      (runtime.started, runtime.closed, ((runtime.timeline.store.lookup .binance
        "BTC-USDT-PERP").bookViewAsOf exampleFeatures 7000000).lineage.newestTimestamp,
        (runtime.consumeTick exampleRuntimeEngines ⟨7000000, .feature⟩).map fun _ => ())) =
      some (true, false, some 10000000, .error "feature snapshot contains a future source event") := by
    decide +kernel
  obtain ⟨runtime, hsome, hstate⟩ := Option.map_eq_some_iff.mp hreached
  obtain ⟨hstarted, hrest⟩ := Prod.mk.inj hstate
  obtain ⟨hclosed, hrest⟩ := Prod.mk.inj hrest
  obtain ⟨hnewest, hresult⟩ := Prod.mk.inj hrest
  have hrun := toOption_eq_some_iff.mp hsome
  have hfinite : ¬ Stopped exampleRuntimeEngines
      (runtime.consumeTick exampleRuntimeEngines ⟨7000000, .feature⟩) := by
    intro hstopped
    rw [stopped_example_iff.mp hstopped] at hresult
    exact absurd (Except.error.inj hresult) (by decide)
  have hfails := tick_fails_iff hrun ⟨hstarted, hclosed⟩ (by decide +kernel)
    CrossVenueFeatureEngine.exampleFeatureMath_faithful exampleVenueIdEngine_idsTellVenues
    ⟨7000000, .feature⟩
  obtain ⟨text, hraised⟩ := (hfails.resolve_left fun h => hfinite h.2).1.mpr
    ⟨rfl, .inr ⟨(.binance, "BTC-USDT-PERP"), List.mem_cons_self, 10000000, hnewest, by norm_num⟩⟩
  exact ⟨runtime, text, hrun, hraised⟩

/-! ## Timelines whose books only move forward -/

/-- An input of a timeline, as a call. -/
def RuntimeCall.ofInput : NormalizedMarketEvent ⊕ DecisionTick → RuntimeCall
  | .inl event => .consumeEvent event
  | .inr tick => .consumeTick tick

/-- A runtime that is started and given a timeline. -/
def timelineCalls (timeline : List (NormalizedMarketEvent ⊕ DecisionTick)) : List RuntimeCall :=
  .start :: timeline.map .ofInput

theorem consumedEvents_timelineCalls (timeline : List (NormalizedMarketEvent ⊕ DecisionTick)) :
    consumedEvents (timelineCalls timeline) = TickGrid.items timeline := by
  show (timeline.map RuntimeCall.ofInput).filterMap _ = timeline.filterMap _
  rw [List.filterMap_map]
  apply List.filterMap_congr
  intro input _
  cases input <;> rfl

section

variable {F : Type} [Field F] [LinearOrder F] [IsStrictOrderedRing F] {engines : RuntimeEngines F}
  {timeline : List (NormalizedMarketEvent ⊕ DecisionTick)}

/-- Different events of the universe, none of them a book event before the newest checkpoint of its book. -/
structure MovesForward (engines : RuntimeEngines F) (events : List NormalizedMarketEvent) : Prop where
  distinct : events.Nodup
  accepted : ∀ event ∈ events, FeatureRuntime.eventRefusal engines event = none
  forward : Admitted (MarketStateStore.perform engines.single.digest) (BookMovesForward engines.single.digest)
    (.new engines.single.settings.features) (startOperations engines ++ events.map .ingest)

omit [Field F] [LinearOrder F] [IsStrictOrderedRing F] in
theorem MovesForward.of_append {earlier later : List NormalizedMarketEvent}
    (h : MovesForward engines (earlier ++ later)) : MovesForward engines earlier where
  distinct := (List.nodup_append.mp h.distinct).1
  accepted := fun event hin => h.accepted event (List.mem_append_left _ hin)
  forward := by
    have hforward := h.forward
    rw [List.map_append, ← List.append_assoc, admitted_append] at hforward
    exact hforward.1

omit [IsStrictOrderedRing F] in
/-- No book is ahead of any tick. -/
theorem Traced.not_bookAhead {events : List NormalizedMarketEvent} {after : EngineTimeline F}
    (h : Traced engines events after) (hforward : MovesForward engines events) (exchange : Exchange)
    (symbol : String) (decision : Int) :
    ¬ engines.single.BookAhead after.store exchange symbol decision := by
  obtain ⟨steps, hrun, hoperations, hasks⟩ := h
  have hdistinct : (engineEvents steps).Nodup := by
    rw [Traced.events_eq hoperations]
    exact hforward.distinct
  have hadmitted := hforward.forward
  rw [← hoperations] at hadmitted
  rcases SingleVenueFeatureEngine.forward_run hdistinct hadmitted hasks with
    ⟨-, hraised⟩ | ⟨reached, hreached, -, hbehind⟩
  · rw [hraised] at hrun
    cases hrun
  · obtain rfl := Except.ok.inj (hreached.symm.trans hrun)
    exact (hbehind exchange symbol).bookViewAsOf engines.single.settings.features decision

omit [Field F] [LinearOrder F] [IsStrictOrderedRing F] in
/-- An event that is not refused is taken into the store. -/
theorem exists_ingest (store : MarketStateStore) {event : NormalizedMarketEvent}
    (haccepted : FeatureRuntime.eventRefusal engines event = none) :
    ∃ ingested, store.ingest engines.single.digest event = .ok ingested := by
  have hconcrete : event.base.exchange.isConcrete = true := by
    by_contra hnot
    unfold FeatureRuntime.eventRefusal at haccepted
    rw [Bool.not_eq_true] at hnot
    rw [hnot] at haccepted
    cases haccepted
  have hstate : store.state event.base.exchange event.base.symbol =
      .ok (store.put (store.lookup event.base.exchange event.base.symbol),
        store.lookup event.base.exchange event.base.symbol) := by
    unfold MarketStateStore.state
    rw [hconcrete]
    rfl
  -- health goes to its own window; every other event finds its state
  cases event with
  | exchangeHealth health =>
    have hhealth : ¬ (!health.exchange.isConcrete) = true := by
      rw [show health.exchange.isConcrete = true from hconcrete]
      exact Bool.false_ne_true
    have hupdate : ∃ updated, store.updateHealth health = .ok updated := by
      unfold MarketStateStore.updateHealth
      rw [if_neg hhealth]
      dsimp only
      split_ifs <;> exact ⟨_, rfl⟩
    obtain ⟨updated, hupdated⟩ := hupdate
    unfold MarketStateStore.ingest
    dsimp only
    rw [hupdated]
    exact ⟨_, rfl⟩
  | _ =>
    unfold MarketStateStore.ingest
    dsimp only
    rw [hstate]
    exact ⟨_, rfl⟩

/-- A runtime takes the whole of a timeline and stays active, unless a number is not finite or the writer
raises. -/
theorem exists_run_timeline (hforward : MovesForward engines (TickGrid.items timeline))
    (hpos : ∀ windowSeconds ∈ engines.windows, 0 < windowSeconds) (hmath : engines.cross.math.Faithful)
    (hids : engines.single.IdsTellVenues) :
    Stopped engines (FeatureRuntime.run engines (timelineCalls timeline)) ∨
      ∃ runtime, FeatureRuntime.run engines (timelineCalls timeline) = .ok runtime ∧ runtime.Active := by
  induction timeline using List.reverseRecOn with
  | nil => exact .inr ⟨{ FeatureRuntime.new engines with started := true }, rfl, rfl, rfl⟩
  | append_singleton timeline last ih =>
    rw [TickGrid.items_append] at hforward
    have hcalls : timelineCalls (timeline ++ [last]) = timelineCalls timeline ++ [.ofInput last] := by
      unfold timelineCalls
      rw [List.map_append]
      rfl
    rw [hcalls, FeatureRuntime.run_concat]
    rcases ih hforward.of_append with hstopped | ⟨runtime, hrun, hactive⟩
    · exact .inl (hstopped.bind _)
    have h := Running.run hrun
    have htraced := h.traced
    have hdistinct := hforward.of_append.distinct
    rw [← consumedEvents_timelineCalls] at hdistinct
    rw [consumedEvents_timelineCalls] at htraced
    rw [hrun]
    show Stopped engines (runtime.perform engines (.ofInput last)) ∨
      ∃ after, runtime.perform engines (.ofInput last) = .ok after ∧ after.Active
    cases last with
    | inl event =>
      have haccepted := hforward.accepted event (List.mem_append_right _ List.mem_cons_self)
      obtain ⟨⟨store, result⟩, hingest⟩ := exists_ingest runtime.timeline.store haccepted
      refine .inr ⟨_, FeatureRuntime.consumeEvent_ok.mpr ⟨hactive, haccepted, store, result, hingest, rfl⟩, ?_⟩
      rw [FeatureRuntime.noteBook_eq]
      exact hactive
    | inr tick =>
      obtain ⟨timestamp, kind⟩ := tick
      cases kind with
      | signal =>
        refine .inr ⟨{ runtime with signalBoundaries := runtime.signalBoundaries + 1 }, ?_, hactive⟩
        show runtime.consumeTick engines ⟨timestamp, .signal⟩ = _
        exact FeatureRuntime.consumeTick_signal_ok.mpr ⟨hactive, rfl⟩
      | feature =>
        rcases h.tick_cases hactive hdistinct hmath hids timestamp with
          hstopped | ⟨text, ⟨pair, hpair, hrefused⟩, -⟩ | ⟨-, after, hdone⟩
        · exact .inl hstopped
        -- no window is without a length, and no book that moved forward is ahead
        · rcases (exists_tickRefused_iff h.keys).mp ⟨pair, hpair, text, hrefused⟩ with
            ⟨windowSeconds, hwindow, hneg⟩ | ⟨key, -, hahead⟩
          · exact absurd (hpos windowSeconds hwindow) (not_lt.mpr hneg)
          · exact absurd hahead (htraced.not_bookAhead hforward.of_append key.1 key.2 timestamp)
        · obtain ⟨-, singles, memory, crosses, counts, -, rfl⟩ :=
            FeatureRuntime.consumeTick_feature_ok.mp hdone
          exact .inr ⟨_, hdone, hactive⟩

/-- Over a timeline of the universe whose books only move forward, only a number that is not finite or the
writer stops a runtime: else it takes every event, and every feature tick of it writes all that is asked for. -/
theorem forward_timeline_completes (hforward : MovesForward engines (TickGrid.items timeline))
    (hpos : ∀ windowSeconds ∈ engines.windows, 0 < windowSeconds) (hmath : engines.cross.math.Faithful)
    (hids : engines.single.IdsTellVenues) :
    Stopped engines (FeatureRuntime.run engines (timelineCalls timeline)) ∨
      ∃ runtime, FeatureRuntime.run engines (timelineCalls timeline) = .ok runtime ∧
        runtime.normalizedEvents = (TickGrid.items timeline).length ∧
        runtime.written.map (·.label) =
          (tickTimes .feature (timelineCalls timeline)).flatMap engines.tickLabels ∧
        ∀ output ∈ runtime.written, output.sourceIsInTheFuture = false := by
  refine (exists_run_timeline hforward hpos hmath hids).imp_right ?_
  rintro ⟨runtime, hrun, -⟩
  have h := Running.run hrun
  refine ⟨runtime, hrun, ?_, h.labels, h.accounts.past⟩
  rw [h.tallied.normalizedEvents, consumedEvents_timelineCalls]

end

/-- A trade, a snapshot of the book and two feature ticks after them. -/
def exampleRuntimeTimeline : List (NormalizedMarketEvent ⊕ DecisionTick) :=
  [.inl (.trade exampleTrade), .inl (.orderBookSnapshot (exampleSnapshot 7000000 1)),
    .inr ⟨8000000, .feature⟩, .inr ⟨8000000, .signal⟩, .inr ⟨9000000, .feature⟩]

theorem exampleRuntimeTimeline_movesForward :
    MovesForward exampleRuntimeEngines (TickGrid.items exampleRuntimeTimeline) where
  distinct := by decide +kernel
  accepted := by decide +kernel
  forward := by decide +kernel

theorem exampleRuntimeWindows_pos : ∀ windowSeconds ∈ exampleRuntimeEngines.windows, 0 < windowSeconds := by
  intro windowSeconds hwindow
  rw [List.mem_singleton.mp hwindow]
  norm_num

theorem exampleRuntimeTimeline_run : ∃ runtime,
    FeatureRuntime.run exampleRuntimeEngines (timelineCalls exampleRuntimeTimeline) = .ok runtime := by
  have hreturns : (FeatureRuntime.run exampleRuntimeEngines
      (timelineCalls exampleRuntimeTimeline)).toOption.isSome = true := by decide +kernel
  obtain ⟨runtime, hsome⟩ := Option.isSome_iff_exists.mp hreturns
  exact ⟨runtime, toOption_eq_some_iff.mp hsome⟩

theorem forward_timeline_completes_book : ∃ runtime,
    FeatureRuntime.run exampleRuntimeEngines (timelineCalls exampleRuntimeTimeline) = .ok runtime ∧
      runtime.normalizedEvents = 2 := by
  obtain ⟨taken, htaken⟩ := exampleRuntimeTimeline_run
  rcases forward_timeline_completes exampleRuntimeTimeline_movesForward exampleRuntimeWindows_pos
      CrossVenueFeatureEngine.exampleFeatureMath_faithful exampleVenueIdEngine_idsTellVenues with
    hstopped | ⟨runtime, hrun, hevents, -⟩
  · rw [stopped_example_iff.mp hstopped] at htaken
    cases htaken
  · exact ⟨runtime, hrun, hevents⟩

/-! ## What was written -/

section

variable {F : Type} [Field F] [LinearOrder F] {engines : RuntimeEngines F} {calls : List RuntimeCall}
  {runtime : FeatureRuntime F}

/-- A runtime writes for each feature tick one snapshot for each market and window and one pair for each
symbol and window, in the order of the universe, and nothing else. -/
theorem written_each_tick (hrun : FeatureRuntime.run engines calls = .ok runtime) :
    runtime.written.map (·.label) = (tickTimes .feature calls).flatMap engines.tickLabels :=
  (Running.run hrun).labels

/-- Its counters are those of the calls and of what it has written, and nothing it has written has a source
of a later instant. -/
theorem counters_of_written (hrun : FeatureRuntime.run engines calls = .ok runtime) :
    Tallied engines calls runtime ∧ Accounts runtime.written runtime.counts ∧
      runtime.singleSnapshots + runtime.crossSnapshots = runtime.written.length := by
  have h := Running.run hrun
  have htallied := h.tallied
  refine ⟨htallied, h.accounts, ?_⟩
  have hlength : runtime.written.length =
      3 * (engines.symbols.length * engines.windows.length) * runtime.featureTicks := by
    rw [← List.length_map (·.label), h.labels, List.length_flatMap, htallied.featureTicks]
    simp only [engines.length_tickLabels, List.map_const', List.sum_replicate, smul_eq_mul]
    exact Nat.mul_comm _ _
  rw [hlength, htallied.singleSnapshots, htallied.crossSnapshots]
  ring

/-- Every pair that was written joins two snapshots that were written before it, one of each venue, for its
own symbol, window and decision; so it never lacks a venue. -/
theorem pairs_join_written (hrun : FeatureRuntime.run engines calls = .ok runtime)
    {before later : List (PersistableFeatureSnapshot F)} {cross : CrossVenueFeatureSnapshot F}
    (hwritten : runtime.written = before ++ .crossVenue cross :: later) :
    ∃ binance okx, .singleVenue binance ∈ before ∧ .singleVenue okx ∈ before ∧
      engines.single.Produced binance ∧ engines.single.Produced okx ∧ Joins binance okx cross := by
  have h := Running.run hrun
  obtain ⟨binance, okx, hbinance, hokx, hjoins⟩ := h.grounded before _ later hwritten cross rfl
  refine ⟨binance, okx, hbinance, hokx, h.produced binance ?_, h.produced okx ?_, hjoins⟩
  · rw [hwritten]
    exact List.mem_append_left _ hbinance
  · rw [hwritten]
    exact List.mem_append_left _ hokx

end

theorem written_each_tick_example : ∃ runtime,
    FeatureRuntime.run exampleRuntimeEngines (timelineCalls exampleRuntimeTimeline) = .ok runtime ∧
      runtime.written.map (·.label) =
        [.singleVenue .binance "BTC-USDT-PERP" 5 8000000, .singleVenue .okx "BTC-USDT-PERP" 5 8000000,
          .crossVenue "BTC-USDT-PERP" 5 8000000, .singleVenue .binance "BTC-USDT-PERP" 5 9000000,
          .singleVenue .okx "BTC-USDT-PERP" 5 9000000, .crossVenue "BTC-USDT-PERP" 5 9000000] := by
  obtain ⟨runtime, hrun⟩ := exampleRuntimeTimeline_run
  exact ⟨runtime, hrun, written_each_tick hrun⟩

theorem counters_of_written_example : ∃ runtime,
    FeatureRuntime.run exampleRuntimeEngines (timelineCalls exampleRuntimeTimeline) = .ok runtime ∧
      runtime.singleSnapshots + runtime.crossSnapshots = runtime.written.length := by
  obtain ⟨runtime, hrun⟩ := exampleRuntimeTimeline_run
  exact ⟨runtime, hrun, (counters_of_written hrun).2.2⟩

theorem pairs_join_written_example : ∃ runtime before later, ∃ cross binance okx,
    FeatureRuntime.run exampleRuntimeEngines (timelineCalls exampleRuntimeTimeline) = .ok runtime ∧
      runtime.written = before ++ .crossVenue cross :: later ∧ Joins binance okx cross := by
  obtain ⟨runtime, hrun⟩ := exampleRuntimeTimeline_run
  have hlabels := (Running.run hrun).labels
  have hcross : OutputLabel.crossVenue "BTC-USDT-PERP" 5 8000000 ∈ runtime.written.map (·.label) := by
    rw [hlabels]
    decide +kernel
  obtain ⟨output, houtput, hlabel⟩ := List.mem_map.mp hcross
  obtain ⟨before, later, hwritten⟩ := List.append_of_mem houtput
  cases output with
  | singleVenue snapshot => cases hlabel
  | crossVenue cross =>
    obtain ⟨binance, okx, -, -, -, -, hjoins⟩ := pairs_join_written hrun hwritten
    exact ⟨runtime, before, later, cross, binance, okx, hrun, hwritten, hjoins⟩

end Cvf
