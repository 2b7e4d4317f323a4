/-
# Cvf.Features.RuntimeRuns — what a run of the feature runtime comes to.

The store of a runtime has the states of its universe and no others, so a tick asks for the same markets
every time, and the calculations of a run are a run of the single-venue engine (`Traced`).  What one tick
asks for is calculated or refused (`calculateEach_cases`), a pair joins the two snapshots of its tick
(`calculate_joins`), and the counters are those of what was written (`Accounts`).
-/
import Cvf.Features.Runtime

namespace Cvf

open Cvf.Library

/-! ## The keys of a store -/

namespace MarketStateStore

variable {store : MarketStateStore}

/-- The keys of the dictionary of states. -/
def keys (store : MarketStateStore) : List (Exchange × String) :=
  store.states.map fun state => (state.exchange, state.symbol)

theorem hasKey_iff {state : VenueSymbolState} {exchange : Exchange} {symbol : String} :
    state.hasKey exchange symbol = true ↔ (state.exchange, state.symbol) = (exchange, symbol) := by
  rw [Prod.mk.injEq]
  exact decide_eq_true_iff

theorem any_hasKey_iff {exchange : Exchange} {symbol : String} :
    store.states.any (·.hasKey exchange symbol) = true ↔ (exchange, symbol) ∈ store.keys := by
  rw [List.any_eq_true]
  constructor
  · rintro ⟨state, hstate, hkey⟩
    exact List.mem_map.mpr ⟨state, hstate, hasKey_iff.mp hkey⟩
  · intro hin
    obtain ⟨state, hstate, hkey⟩ := List.mem_map.mp hin
    exact ⟨state, hstate, hasKey_iff.mpr hkey⟩

theorem keys_put (store : MarketStateStore) (state : VenueSymbolState) :
    (store.put state).keys =
      if (state.exchange, state.symbol) ∈ store.keys then store.keys
      else store.keys ++ [(state.exchange, state.symbol)] := by
  unfold put
  by_cases hin : (state.exchange, state.symbol) ∈ store.keys
  · rw [if_pos hin, if_pos (any_hasKey_iff.mpr hin)]
    show (store.states.map _).map _ = store.states.map _
    rw [List.map_map]
    apply List.map_congr_left
    intro other _
    rw [Function.comp_apply]
    split_ifs with hkey
    · exact (hasKey_iff.mp hkey).symm
    · rfl
  · rw [if_neg hin, if_neg (mt any_hasKey_iff.mp hin)]
    exact List.map_append

/-- Writing back the state of a key that is there. -/
theorem keys_put_of_mem {state : VenueSymbolState} (h : (state.exchange, state.symbol) ∈ store.keys) :
    (store.put state).keys = store.keys := by
  rw [keys_put, if_pos h]

theorem keys_setExchangeHealth (store : MarketStateStore) (exchange : Exchange) (channel : String)
    (status : HealthStatus) : (store.setExchangeHealth exchange channel status).keys = store.keys := by
  show (store.states.map _).map _ = store.states.map _
  rw [List.map_map]
  apply List.map_congr_left
  intro state _
  rw [Function.comp_apply]
  split_ifs <;> rfl

theorem keys_perform_state (digest : SourceDigest) (store : MarketStateStore) {exchange : Exchange}
    (hconcrete : exchange.isConcrete = true) (symbol : String) :
    (store.perform digest (.state exchange symbol)).keys =
      if (exchange, symbol) ∈ store.keys then store.keys else store.keys ++ [(exchange, symbol)] := by
  obtain ⟨hexchange, hsymbol⟩ := store.lookup_key exchange symbol
  have hstate : store.state exchange symbol =
      .ok (store.put (store.lookup exchange symbol), store.lookup exchange symbol) := by
    unfold state
    rw [hconcrete]
    rfl
  unfold perform
  dsimp only
  rw [hstate]
  show (store.put (store.lookup exchange symbol)).keys = _
  rw [keys_put, hexchange, hsymbol]

/-- The states of different keys, created one after another. -/
theorem keys_foldl_state (digest : SourceDigest) {created : List (Exchange × String)}
    (hconcrete : ∀ key ∈ created, key.1.isConcrete = true) (hnodup : (store.keys ++ created).Nodup) :
    (created.foldl (fun store key => store.perform digest (.state key.1 key.2)) store).keys =
      store.keys ++ created := by
  induction created generalizing store with
  | nil => exact (List.append_nil _).symm
  | cons key later ih =>
    have hnew : key ∉ store.keys := fun hin =>
      (List.nodup_append.mp hnodup).2.2 key hin key List.mem_cons_self rfl
    have hkeys := keys_perform_state digest store (hconcrete key List.mem_cons_self) key.2
    rw [if_neg hnew] at hkeys
    rw [List.foldl_cons, ih (fun other hother => hconcrete other (List.mem_cons_of_mem _ hother))]
    · rw [hkeys, List.append_assoc]
      rfl
    · rw [hkeys, List.append_assoc]
      exact hnodup

/-- Ingesting a market event writes the state of its key back, ingested. -/
theorem ingest_market_ok {digest : SourceDigest} {event : NormalizedMarketEvent}
    (hmarket : ∀ health, event ≠ .exchangeHealth health) {after : MarketStateStore}
    {result : StateUpdateResult} (hingest : store.ingest digest event = .ok (after, result)) :
    after = (store.put (store.lookup event.base.exchange event.base.symbol)).put
      ((store.lookup event.base.exchange event.base.symbol).ingest digest store.config event).1 := by
  have hstate : store.state event.base.exchange event.base.symbol =
      .ok (store.put (store.lookup event.base.exchange event.base.symbol),
        store.lookup event.base.exchange event.base.symbol) := by
    cases hconcrete : event.base.exchange.isConcrete with
    | false =>
      rw [ingest_market_error digest hmarket hconcrete] at hingest
      cases hingest
    | true =>
      unfold state
      rw [hconcrete]
      rfl
  cases event with
  | exchangeHealth health => exact absurd rfl (hmarket health)
  | _ =>
    unfold ingest at hingest
    dsimp only at hingest
    rw [hstate] at hingest
    exact (Prod.mk.inj (Except.ok.inj hingest)).1.symm

/-- A health event that is taken in writes its window, and with it the status. -/
theorem keys_updateHealth {health : ExchangeHealth} {after : MarketStateStore × StateUpdateStatus}
    (hupdate : store.updateHealth health = .ok after)
    (hkey : health.symbol = "*" ∨ (health.exchange, health.symbol) ∈ store.keys) :
    after.1.keys = store.keys := by
  obtain ⟨hexchange, hsymbol⟩ := store.lookup_key health.exchange health.symbol
  unfold updateHealth at hupdate
  dsimp only at hupdate
  split_ifs at hupdate with hconcrete hwildcard hrefused hrefused
  · rw [← Except.ok.inj hupdate]
    rfl
  · rw [← Except.ok.inj hupdate]
    exact keys_setExchangeHealth ..
  all_goals
    rw [← Except.ok.inj hupdate]
    apply keys_put_of_mem
    show ((store.lookup health.exchange health.symbol).exchange,
      (store.lookup health.exchange health.symbol).symbol) ∈ store.keys
    rw [hexchange, hsymbol]
    exact hkey.resolve_left hwildcard

/-- An event of a key that is there, or of a whole exchange, adds no key. -/
theorem keys_ingest {digest : SourceDigest} {event : NormalizedMarketEvent} {after : MarketStateStore}
    {result : StateUpdateResult} (hingest : store.ingest digest event = .ok (after, result))
    (hkey : (event.base.symbol = "*" ∧ event.eventType = .exchangeHealth) ∨
      (event.base.exchange, event.base.symbol) ∈ store.keys) :
    after.keys = store.keys := by
  by_cases hmarket : ∀ health, event ≠ .exchangeHealth health
  · have hin : (event.base.exchange, event.base.symbol) ∈ store.keys := by
      refine hkey.resolve_left fun h => ?_
      cases event with
      | exchangeHealth health => exact hmarket health rfl
      | _ => cases h.2
    obtain ⟨hexchange, hsymbol⟩ := store.lookup_key event.base.exchange event.base.symbol
    have hsame := VenueSymbolState.sameKey_ingest digest store.config
      (store.lookup event.base.exchange event.base.symbol) event
    -- the state is there already, so putting it adds no key
    have hput : (store.put (store.lookup event.base.exchange event.base.symbol)).keys = store.keys := by
      apply keys_put_of_mem
      rw [hexchange, hsymbol]
      exact hin
    rw [ingest_market_ok hmarket hingest, keys_put_of_mem, hput]
    rw [hput, hsame.exchange, hsame.symbol, hexchange, hsymbol]
    exact hin
  · obtain ⟨health, rfl⟩ : ∃ health, event = .exchangeHealth health := by simpa using hmarket
    unfold ingest at hingest
    dsimp only at hingest
    cases hupdate : store.updateHealth health with
    | error text =>
      rw [hupdate] at hingest
      cases hingest
    | ok updated =>
      rw [hupdate] at hingest
      obtain ⟨rfl, -⟩ := Prod.mk.inj (Except.ok.inj hingest)
      exact keys_updateHealth hupdate (hkey.imp_left And.left)

/-- A state of the dictionary is what its key finds. -/
theorem lookup_of_mem (hnodup : store.keys.Nodup) {state : VenueSymbolState} (hin : state ∈ store.states) :
    store.lookup state.exchange state.symbol = state := by
  unfold lookup
  cases hfound : store.states.find? (·.hasKey state.exchange state.symbol) with
  | none =>
    have hself := List.find?_eq_none.mp hfound state hin
    exact absurd (hasKey_iff.mpr rfl) hself
  | some found =>
    have hkey := hasKey_iff.mp (List.find?_some hfound)
    exact List.inj_on_of_nodup_map hnodup (List.mem_of_find?_eq_some hfound) hin hkey

end MarketStateStore

/-! ## The universe -/

namespace RuntimeEngines

variable {F : Type} (engines : RuntimeEngines F)

theorem mem_featureUniverse {key : Exchange × String} :
    key ∈ engines.featureUniverse ↔ key.1.isConcrete = true ∧ key.2 ∈ engines.symbols := by
  obtain ⟨exchange, symbol⟩ := key
  unfold featureUniverse
  cases exchange <;> simp [Exchange.isConcrete]

theorem featureUniverse_nodup : engines.featureUniverse.Nodup := by
  have hmap : ∀ exchange : Exchange, (engines.symbols.map (exchange, ·)).Nodup := fun exchange =>
    engines.symbols_nodup.map fun _ _ heq => (Prod.mk.inj heq).2
  show (engines.symbols.map (Exchange.binance, ·) ++
    (engines.symbols.map (Exchange.okx, ·) ++ [])).Nodup
  rw [List.append_nil, List.nodup_append]
  refine ⟨hmap .binance, hmap .okx, fun key hkey other hother => ?_⟩
  obtain ⟨symbol, -, rfl⟩ := List.mem_map.mp hkey
  obtain ⟨symbol', -, rfl⟩ := List.mem_map.mp hother
  exact fun heq => Exchange.noConfusion (Prod.mk.inj heq).1

theorem length_featureUniverse : engines.featureUniverse.length = 2 * engines.symbols.length := by
  show (engines.symbols.map (Exchange.binance, ·) ++
    (engines.symbols.map (Exchange.okx, ·) ++ [])).length = _
  rw [List.length_append, List.length_append, List.length_map, List.length_map, List.length_nil]
  omega

end RuntimeEngines

/-! ## The runs of the engine inside -/

/-- The states of the universe, created one after another. -/
def startOperations {F : Type} (engines : RuntimeEngines F) : List MarketStateStore.StoreOperation :=
  engines.featureUniverse.map fun key => .state key.1 key.2

/-- The timeline is that of a run of the single-venue engine over the events. -/
def Traced {F : Type} [Field F] [LinearOrder F] (engines : RuntimeEngines F)
    (events : List NormalizedMarketEvent) (timeline : EngineTimeline F) : Prop :=
  ∃ steps, EngineTimeline.run engines.single steps = .ok timeline ∧
    storeOperations steps = startOperations engines ++ events.map .ingest ∧
      AsksConfigured engines.single steps

theorem engineEvents_eq (steps : List EngineStep) :
    engineEvents steps = (storeOperations steps).filterMap (·.event?) := by
  unfold engineEvents storeOperations
  rw [List.filterMap_filterMap]
  apply List.filterMap_congr
  intro step _
  cases step <;> rfl

namespace Traced

variable {F : Type} [Field F] [LinearOrder F] {engines : RuntimeEngines F}
  {events : List NormalizedMarketEvent} {timeline : EngineTimeline F}

omit [Field F] [LinearOrder F] in
/-- The events of the run behind a timeline. -/
theorem events_eq {steps : List EngineStep}
    (hsteps : storeOperations steps = startOperations engines ++ events.map .ingest) :
    engineEvents steps = events := by
  have hstart : (startOperations engines).filterMap (·.event?) = [] := by
    apply List.filterMap_eq_nil_iff.mpr
    intro operation hoperation
    obtain ⟨key, -, rfl⟩ := List.mem_map.mp hoperation
    rfl
  rw [engineEvents_eq, hsteps, List.filterMap_append, hstart, List.nil_append, List.filterMap_map]
  exact List.filterMap_some

theorem start : Traced engines [] (FeatureRuntime.new engines).timeline := by
  refine ⟨(startOperations engines).map .store, ?_, ?_, ?_⟩
  · have hrun : ∀ (operations : List MarketStateStore.StoreOperation) (timeline : EngineTimeline F),
        (operations.map EngineStep.store).foldlM (EngineTimeline.perform engines.single) timeline =
          .ok { timeline with
            store := operations.foldl (fun store operation =>
              store.perform engines.single.digest operation) timeline.store } := by
      intro operations
      induction operations with
      | nil => exact fun timeline => rfl
      | cons operation later ih =>
        intro timeline
        rw [List.map_cons, List.foldlM_cons]
        exact ih _
    unfold EngineTimeline.run
    rw [hrun]
    unfold startOperations
    rw [List.foldl_map]
    rfl
  · unfold storeOperations
    rw [List.filterMap_map, List.map_nil, List.append_nil]
    exact List.filterMap_some
  · intro exchange symbol channels decision windowSeconds hin
    obtain ⟨operation, -, heq⟩ := List.mem_map.mp hin
    cases heq

theorem ingest (h : Traced engines events timeline) (event : NormalizedMarketEvent) :
    Traced engines (events ++ [event])
      { timeline with store := timeline.store.perform engines.single.digest (.ingest event) } := by
  obtain ⟨steps, hrun, hoperations, hasks⟩ := h
  refine ⟨steps ++ [.store (.ingest event)], ?_, ?_, ?_⟩
  · rw [EngineTimeline.run_concat, hrun]
    rfl
  · unfold storeOperations at hoperations ⊢
    rw [List.filterMap_append, hoperations, List.append_assoc, List.map_append]
    rfl
  · intro exchange symbol channels decision windowSeconds hin
    rcases List.mem_append.mp hin with hin | hin
    · exact hasks exchange symbol channels decision windowSeconds hin
    · cases List.mem_singleton.mp hin

/-- A calculation that returned was for a configured window with a length. -/
theorem calculate (h : Traced engines events timeline) {exchange : Exchange} {symbol : String}
    (hsymbol : checkedSymbol symbol = .ok symbol) {channels : List String} {decision windowSeconds : Int}
    {snapshot : FeatureSnapshot F} {memory : SingleVenueMemory F}
    (hcalculate : timeline.calculate engines.single exchange symbol channels decision windowSeconds =
      .ok (snapshot, memory)) :
    Traced engines events { timeline with memory } := by
  obtain ⟨steps, hrun, hoperations, hasks⟩ := h
  obtain ⟨priceCache, reads, hdone⟩ := SingleVenueFeatureEngine.calculate_ok_iff.mp hcalculate
  have hpos := (SingleVenueFeatureEngine.reads_ok_iff.mp hdone.read).window_pos
  refine ⟨steps ++ [.calculate exchange symbol channels decision windowSeconds], ?_, ?_, ?_⟩
  · rw [EngineTimeline.run_concat, hrun]
    show timeline.perform engines.single (.calculate exchange symbol channels decision windowSeconds) = _
    unfold EngineTimeline.perform
    dsimp only
    rw [hcalculate]
  · unfold storeOperations at hoperations ⊢
    rw [List.filterMap_append, hoperations]
    exact List.append_nil _
  · intro exchange' symbol' channels' decision' windowSeconds' hin
    rcases List.mem_append.mp hin with hin | hin
    · exact hasks exchange' symbol' channels' decision' windowSeconds' hin
    · cases List.mem_singleton.mp hin
      exact ⟨hdone.configured, hpos, hsymbol⟩

/-- The store and the caches of a timeline over different events. -/
theorem attended (h : Traced engines events timeline) (hevents : events.Nodup) :
    Attended engines.single events timeline := by
  obtain ⟨steps, hrun, hoperations, -⟩ := h
  have heq := events_eq hoperations
  have hattended := Attended.run (by rw [heq]; exact hevents) hrun
  rwa [heq] at hattended

end Traced

/-! ## The calculations of a tick -/

/-- What a tick calculates for a state and a window. -/
structure TickSnapshot {F : Type} [Field F] [LinearOrder F] (engines : RuntimeEngines F) (decision : Int)
    (asked : VenueSymbolState × Int) (snapshot : FeatureSnapshot F) : Prop where
  produced : engines.single.Produced snapshot
  exchange : snapshot.exchange = asked.1.exchange
  symbol : snapshot.symbol = asked.1.symbol
  windowSeconds : snapshot.windowSeconds = asked.2
  decisionTimestamp : snapshot.decisionTimestamp = decision

/-- The states that are asked for are those of their keys, and their symbols are canonical. -/
def AskedStates (store : MarketStateStore) (asked : List (VenueSymbolState × Int)) : Prop :=
  ∀ pair ∈ asked, store.lookup pair.1.exchange pair.1.symbol = pair.1 ∧
    checkedSymbol pair.1.symbol = .ok pair.1.symbol

section

variable {F : Type} [Field F] [LinearOrder F] {engines : RuntimeEngines F}
  {events : List NormalizedMarketEvent} {store : MarketStateStore}
  {channels : Exchange × String → List String} {decision : Int}

theorem Traced.tickSnapshot {memory : SingleVenueMemory F} (h : Traced engines events ⟨store, memory⟩)
    {state : VenueSymbolState} (hstate : store.lookup state.exchange state.symbol = state)
    (hsymbol : checkedSymbol state.symbol = .ok state.symbol) {windowSeconds : Int}
    {snapshot : FeatureSnapshot F} {after : SingleVenueMemory F}
    (hcalculate : engines.single.calculate memory state (store.exchangeHealthEvents state.exchange)
      (channels (state.exchange, state.symbol)) decision windowSeconds = .ok (snapshot, after)) :
    TickSnapshot engines decision (state, windowSeconds) snapshot ∧ Traced engines events ⟨store, after⟩ := by
  have hasked : (⟨store, memory⟩ : EngineTimeline F).calculate engines.single state.exchange state.symbol
      (channels (state.exchange, state.symbol)) decision windowSeconds = .ok (snapshot, after) := by
    unfold EngineTimeline.calculate
    rw [hstate]
    exact hcalculate
  obtain ⟨priceCache, reads, hdone⟩ := SingleVenueFeatureEngine.calculate_ok_iff.mp hcalculate
  refine ⟨?_, h.calculate hsymbol hasked⟩
  obtain ⟨steps, hrun, -, -⟩ := h
  exact
    { produced := ⟨steps, _, hrun, _, _, _, _, _, _, hasked⟩
      exchange := by
        rw [hdone.assembled]
        rfl
      symbol := Except.ok.inj (hdone.checked.symm.trans hsymbol)
      windowSeconds := by
        rw [hdone.assembled]
        rfl
      decisionTimestamp := by
        rw [hdone.assembled]
        rfl }

theorem calculateEach_ok {asked : List (VenueSymbolState × Int)} (hasked : AskedStates store asked)
    {memory after : SingleVenueMemory F} (htraced : Traced engines events ⟨store, memory⟩)
    {singles : List (FeatureSnapshot F)}
    (h : engines.single.calculateEach store channels decision asked memory = .ok (singles, after)) :
    List.Forall₂ (TickSnapshot engines decision) asked singles ∧ Traced engines events ⟨store, after⟩ := by
  induction asked generalizing memory singles with
  | nil =>
    obtain ⟨rfl, rfl⟩ := Prod.mk.inj (Except.ok.inj h)
    exact ⟨.nil, htraced⟩
  | cons pair later ih =>
    obtain ⟨calculated, hcalculated, h⟩ := bind_eq_ok_iff.mp h
    obtain ⟨rest, hrest, h⟩ := bind_eq_ok_iff.mp h
    obtain ⟨rfl, rfl⟩ := Prod.mk.inj (Except.ok.inj h)
    obtain ⟨hstate, hsymbol⟩ := hasked pair List.mem_cons_self
    obtain ⟨hsnapshot, hnext⟩ := htraced.tickSnapshot hstate hsymbol hcalculated
    obtain ⟨hothers, hafter⟩ := ih (fun other hother => hasked other (List.mem_cons_of_mem _ hother)) hnext
      hrest
    exact ⟨.cons hsnapshot hothers, hafter⟩

/-- Why a calculation of a tick is refused: a window without a length, or a book that is ahead. -/
def TickRefused (engines : RuntimeEngines F) (store : MarketStateStore) (decision : Int)
    (asked : VenueSymbolState × Int) (text : String) : Prop :=
  (asked.2 ≤ 0 ∧ text = "warmup must be positive") ∨
    (0 < asked.2 ∧ engines.single.BookAhead store asked.1.exchange asked.1.symbol decision ∧
      text = "feature snapshot contains a future source event")

variable (channels decision) in
theorem Traced.tick_cases {memory : SingleVenueMemory F} (h : Traced engines events ⟨store, memory⟩)
    (hevents : events.Nodup) {state : VenueSymbolState} {windowSeconds : Int}
    (hstate : store.lookup state.exchange state.symbol = state)
    (hsymbol : checkedSymbol state.symbol = .ok state.symbol) (hconfigured : windowSeconds ∈ engines.windows) :
    engines.single.calculate memory state (store.exchangeHealthEvents state.exchange)
          (channels (state.exchange, state.symbol)) decision windowSeconds =
        .error "feature values must be finite" ∨
      (∃ text, TickRefused engines store decision (state, windowSeconds) text ∧
        engines.single.calculate memory state (store.exchangeHealthEvents state.exchange)
          (channels (state.exchange, state.symbol)) decision windowSeconds = .error text) ∨
      (¬ ∃ text, TickRefused engines store decision (state, windowSeconds) text) ∧
        ∃ calculated, engines.single.calculate memory state (store.exchangeHealthEvents state.exchange)
          (channels (state.exchange, state.symbol)) decision windowSeconds = .ok calculated := by
  have hattended := h.attended hevents
  have hasked : ∀ result, (⟨store, memory⟩ : EngineTimeline F).calculate engines.single state.exchange
      state.symbol (channels (state.exchange, state.symbol)) decision windowSeconds = result →
        engines.single.calculate memory state (store.exchangeHealthEvents state.exchange)
          (channels (state.exchange, state.symbol)) decision windowSeconds = result := by
    intro result hresult
    unfold EngineTimeline.calculate at hresult
    rwa [hstate] at hresult
  -- a window without a length is refused before anything is calculated
  rcases lt_or_ge 0 windowSeconds with hpos | hneg
  · rcases SingleVenueFeatureEngine.calculate_cases hattended hconfigured hpos state.exchange state.symbol
      (channels (state.exchange, state.symbol)) decision with
      ⟨-, hraised⟩ | ⟨-, ⟨text, hrefused, -⟩ | ⟨-, ⟨hahead, hraised⟩ | ⟨hnot, snapshot, after, hreturned⟩⟩⟩
    · exact .inl (hasked _ hraised)
    · rw [hsymbol] at hrefused
      cases hrefused
    · exact .inr (.inl ⟨_, .inr ⟨hpos, hahead, rfl⟩, hasked _ hraised⟩)
    · refine .inr (.inr ⟨?_, _, hasked _ hreturned⟩)
      rintro ⟨text, ⟨hneg, -⟩ | ⟨-, hahead, -⟩⟩
      · exact not_lt.mpr hneg hpos
      · exact hnot hahead
  · exact .inr (.inl ⟨_, .inl ⟨hneg, rfl⟩, hasked _ (SingleVenueFeatureEngine.calculate_short hattended
      hconfigured hneg state.exchange state.symbol (channels (state.exchange, state.symbol)) decision)⟩)

variable (channels decision) in
/-- The calculations of a tick return, or one of them meets a number that is not finite or is refused. -/
theorem calculateEach_cases (hevents : events.Nodup) {asked : List (VenueSymbolState × Int)}
    (hasked : AskedStates store asked) (hwindows : ∀ pair ∈ asked, pair.2 ∈ engines.windows)
    {memory : SingleVenueMemory F} (htraced : Traced engines events ⟨store, memory⟩) :
    engines.single.calculateEach store channels decision asked memory =
        .error "feature values must be finite" ∨
      (∃ text, (∃ pair ∈ asked, TickRefused engines store decision pair text) ∧
        engines.single.calculateEach store channels decision asked memory = .error text) ∨
      (¬ ∃ pair ∈ asked, ∃ text, TickRefused engines store decision pair text) ∧
        ∃ calculated, engines.single.calculateEach store channels decision asked memory =
          .ok calculated := by
  induction asked generalizing memory with
  | nil => exact .inr (.inr ⟨fun ⟨_, hin, _⟩ => List.not_mem_nil hin, _, rfl⟩)
  | cons pair later ih =>
    obtain ⟨state, windowSeconds⟩ := pair
    obtain ⟨hstate, hsymbol⟩ := hasked (state, windowSeconds) List.mem_cons_self
    unfold SingleVenueFeatureEngine.calculateEach
    rcases htraced.tick_cases channels decision hevents hstate hsymbol (hwindows _ List.mem_cons_self) with
      hraised | ⟨text, hrefused, hraised⟩ | ⟨hnot, ⟨snapshot, after⟩, hreturned⟩
    · rw [hraised]
      exact .inl rfl
    · refine .inr (.inl ⟨text, ⟨_, List.mem_cons_self, hrefused⟩, ?_⟩)
      rw [hraised]
      rfl
    -- what the first calculation remembers is a trace again, so the others go on from it
    · obtain ⟨-, hnext⟩ := htraced.tickSnapshot hstate hsymbol hreturned
      rw [hreturned]
      show (engines.single.calculateEach store channels decision later after >>= _) = _ ∨
        (∃ text, _ ∧ (engines.single.calculateEach store channels decision later after >>= _) = _) ∨
          _ ∧ ∃ calculated, (engines.single.calculateEach store channels decision later after >>= _) = _
      rcases ih (fun other hother => hasked other (List.mem_cons_of_mem _ hother))
        (fun other hother => hwindows other (List.mem_cons_of_mem _ hother)) hnext with
        hraised | ⟨text, ⟨other, hother, hrefused⟩, hraised⟩ | ⟨hothers, calculated, hcalculated⟩
      · rw [hraised]
        exact .inl rfl
      · refine .inr (.inl ⟨text, ⟨other, List.mem_cons_of_mem _ hother, hrefused⟩, ?_⟩)
        rw [hraised]
        rfl
      · refine .inr (.inr ⟨?_, (snapshot :: calculated.1, calculated.2), ?_⟩)
        · rintro ⟨other, hother, hrefused⟩
          rcases List.mem_cons.mp hother with rfl | hother
          · exact hnot hrefused
          · exact hothers ⟨other, hother, hrefused⟩
        · rw [hcalculated]
          rfl

end

/-! ## What is recorded -/

/-- The counters are those of what was written, and nothing of it has a source of a later instant. -/
structure Accounts {F : Type} (written : List (PersistableFeatureSnapshot F)) (counts : OutputCounts) :
    Prop where
  outputEventTypes : counts.outputEventTypes = written.length
  unavailableSnapshots : counts.unavailableSnapshots = written.countP (!·.unavailableReasons.isEmpty)
  unavailableReasons : ∀ code, counts.unavailableReasons code =
    (written.flatMap (·.reasonCodes)).count code
  openInterestStaleSnapshots : counts.openInterestStaleSnapshots = written.countP (·.hasStaleOpenInterest)
  nonAlignedCrossSnapshots : counts.nonAlignedCrossSnapshots = written.countP (·.isNonAligned)
  past : ∀ output ∈ written, output.sourceIsInTheFuture = false

section

variable {F : Type} {written outputs : List (PersistableFeatureSnapshot F)} {counts after : OutputCounts}

theorem Accounts.new : Accounts (F := F) [] {} :=
  ⟨rfl, rfl, fun _ => rfl, rfl, rfl, fun _ hin => absurd hin List.not_mem_nil⟩

theorem Accounts.record (h : Accounts written counts) {output : PersistableFeatureSnapshot F}
    (hrecord : counts.record output = .ok after) : Accounts (written ++ [output]) after := by
  unfold OutputCounts.record at hrecord
  dsimp only at hrecord
  have hpast : output.sourceIsInTheFuture = false := by
    by_contra hfuture
    rw [Bool.not_eq_false] at hfuture
    rw [if_pos hfuture] at hrecord
    cases hrecord
  rw [hpast, if_neg Bool.false_ne_true] at hrecord
  obtain rfl := Except.ok.inj hrecord
  have hempty : output.reasonCodes.isEmpty = output.unavailableReasons.isEmpty := List.isEmpty_map
  constructor
  · show counts.outputEventTypes + 1 = _
    rw [h.outputEventTypes, List.length_append, List.length_singleton]
  · show (if output.reasonCodes.isEmpty = true then _ else _) = _
    rw [List.countP_append, List.countP_singleton, ← h.unavailableSnapshots, hempty]
    cases output.unavailableReasons.isEmpty <;> rfl
  · intro code
    show counts.unavailableReasons code + _ = _
    rw [List.flatMap_append, List.flatMap_singleton, List.count_append, h.unavailableReasons]
  · show (if output.hasStaleOpenInterest = true then _ else _) = _
    rw [List.countP_append, List.countP_singleton, ← h.openInterestStaleSnapshots]
    split_ifs <;> rfl
  · show (if output.isNonAligned = true then _ else _) = _
    rw [List.countP_append, List.countP_singleton, ← h.nonAlignedCrossSnapshots]
    split_ifs <;> rfl
  · intro other hother
    rcases List.mem_append.mp hother with hother | hother
    · exact h.past other hother
    · rw [List.mem_singleton.mp hother]
      exact hpast

theorem Accounts.foldlM (h : Accounts written counts)
    (hrecord : outputs.foldlM OutputCounts.record counts = .ok after) :
    Accounts (written ++ outputs) after := by
  induction outputs generalizing written counts with
  | nil =>
    obtain rfl := Except.ok.inj hrecord
    rw [List.append_nil]
    exact h
  | cons output later ih =>
    rw [List.foldlM_cons] at hrecord
    obtain ⟨next, hnext, hlater⟩ := bind_eq_ok_iff.mp hrecord
    have hall := ih (h.record hnext) hlater
    rwa [List.append_assoc] at hall

/-- The writer raises for none of the outputs. -/
def RuntimeEngines.Takes (engines : RuntimeEngines F) :
    List (PersistableFeatureSnapshot F) → List (PersistableFeatureSnapshot F) → Prop
  | _, [] => True
  | written, output :: later =>
    engines.writeError written output = none ∧ Takes engines (written ++ [output]) later

variable {engines : RuntimeEngines F}

/-- The check of the feature values, or the writer, raised the error. -/
def Stopped (engines : RuntimeEngines F) {α : Type} (result : Except String α) : Prop :=
  result = .error "feature values must be finite" ∨
    ∃ before output text, engines.writeError before output = some text ∧ result = .error text

theorem Stopped.bind {α β : Type} {result : Except String α} (h : Stopped engines result)
    (next : α → Except String β) : Stopped engines (result >>= next) := by
  rcases h with rfl | ⟨before, output, text, hwrite, rfl⟩
  · exact .inl rfl
  · exact .inr ⟨before, output, text, hwrite, rfl⟩

/-- What is emitted is recorded, and taken by the writer. -/
theorem foldlM_emit_ok_iff {all : List (PersistableFeatureSnapshot F)} :
    outputs.foldlM (FeatureRuntime.emit engines) (counts, written) = .ok (after, all) ↔
      outputs.foldlM OutputCounts.record counts = .ok after ∧ engines.Takes written outputs ∧
        all = written ++ outputs := by
  induction outputs generalizing counts written with
  | nil =>
    simp only [List.foldlM_nil, List.append_nil, RuntimeEngines.Takes, true_and]
    exact ⟨fun h => by cases h; exact ⟨rfl, rfl⟩, fun ⟨h, hall⟩ => by cases h; rw [hall]; rfl⟩
  | cons output later ih =>
    rw [List.foldlM_cons, List.foldlM_cons]
    unfold FeatureRuntime.emit RuntimeEngines.Takes
    dsimp only
    cases hrecord : counts.record output with
    | error text => exact ⟨fun h => (by cases h), fun h => (by cases h.1)⟩
    | ok next =>
      cases hwrite : engines.writeError written output with
      | some text => exact ⟨fun h => (by cases h), fun h => (by cases h.2.1.1)⟩
      | none =>
        show later.foldlM (FeatureRuntime.emit engines) (next, written ++ [output]) = _ ↔ _
        rw [ih, List.append_assoc, List.singleton_append]
        exact ⟨fun ⟨h, htakes, hall⟩ => ⟨h, ⟨rfl, htakes⟩, hall⟩,
          fun ⟨h, ⟨_, htakes⟩, hall⟩ => ⟨h, htakes, hall⟩⟩

/-- What has no source of a later instant is emitted, unless the writer raises. -/
theorem foldlM_emit_cases (hpast : ∀ output ∈ outputs, output.sourceIsInTheFuture = false)
    (counts : OutputCounts) (written : List (PersistableFeatureSnapshot F)) :
    Stopped engines (outputs.foldlM (FeatureRuntime.emit engines) (counts, written)) ∨
      ∃ emitted, outputs.foldlM (FeatureRuntime.emit engines) (counts, written) = .ok emitted := by
  induction outputs generalizing counts written with
  | nil => exact .inr ⟨_, rfl⟩
  | cons output later ih =>
    rw [List.foldlM_cons]
    unfold FeatureRuntime.emit OutputCounts.record
    dsimp only
    rw [hpast output List.mem_cons_self]
    dsimp only [bind, Except.bind]
    cases hwrite : engines.writeError written output with
    | some text => exact .inl (.inr ⟨written, output, text, hwrite, rfl⟩)
    | none => exact ih (fun other hother => hpast other (List.mem_cons_of_mem _ hother)) _ _

end

/-! ## The deques -/

namespace RuntimeHistory

variable {F : Type} {runtime : RuntimeHistory F} {singles : List (FeatureSnapshot F)}

/-- Appending brings in the snapshots of a key, and no others. -/
theorem mem_foldl_append {maxlen : Option Nat} {key : Exchange × String × Int}
    {snapshot : FeatureSnapshot F} (h : snapshot ∈ (singles.foldl (append maxlen) runtime).history key) :
    snapshot ∈ runtime.history key ∨ snapshot ∈ singles ∧ historyKey snapshot = key := by
  induction singles generalizing runtime with
  | nil => exact .inl h
  | cons single later ih =>
    rcases ih h with hbefore | ⟨hin, hkey⟩
    · rw [history_append] at hbefore
      split_ifs at hbefore with hkey
      · have hkept : snapshot ∈ runtime.history key ++ [single] := by
          cases maxlen with
          | none => exact hbefore
          | some items => exact (newest_suffix items _).subset hbefore
        rcases List.mem_append.mp hkept with hold | hnew
        · exact .inl hold
        · obtain rfl := List.mem_singleton.mp hnew
          exact .inr ⟨List.mem_cons_self, hkey⟩
      · exact .inl hbefore
    · exact .inr ⟨List.mem_cons_of_mem _ hin, hkey⟩

/-- A key that was appended to ends with a snapshot that was appended. -/
theorem exists_appended {items : Nat} (hitems : 1 ≤ items) {key : Exchange × String × Int}
    (h : ∃ snapshot ∈ singles, historyKey snapshot = key) :
    ∃ snapshot ∈ singles, historyKey snapshot = key ∧
      snapshot ∈ (singles.foldl (append (some items)) runtime).history key := by
  induction singles using List.reverseRecOn with
  | nil =>
    obtain ⟨snapshot, hin, -⟩ := h
    exact absurd hin List.not_mem_nil
  | append_singleton earlier last ih =>
    rw [List.foldl_append, List.foldl_cons, List.foldl_nil, history_append]
    by_cases hkey : historyKey last = key
    · refine ⟨last, List.mem_append_right _ List.mem_cons_self, hkey, ?_⟩
      rw [if_pos hkey]
      show last ∈ newest items (_ ++ [last])
      rw [newest_concat hitems]
      exact List.mem_append_right _ List.mem_cons_self
    · rw [if_neg hkey]
      obtain ⟨snapshot, hin, hsnapshot⟩ := h
      have hearlier : snapshot ∈ earlier := by
        refine (List.mem_append.mp hin).resolve_right fun hlast => hkey ?_
        rw [← List.mem_singleton.mp hlast]
        exact hsnapshot
      obtain ⟨found, hfound, hfoundKey, hkept⟩ := ih ⟨snapshot, hearlier, hsnapshot⟩
      exact ⟨found, List.mem_append_left _ hfound, hfoundKey, hkept⟩

theorem historyItems_pos (zscoreLookbackSeconds featureUpdateMicros : Int) :
    1 ≤ historyItems zscoreLookbackSeconds featureUpdateMicros :=
  Int.le_toNat (by positivity) |>.mpr (le_max_of_le_left one_le_two)

/-- The candidates of a symbol and window are those of the deques of both venues. -/
theorem mem_candidates {symbol : String} {windowSeconds : Int} {snapshot : FeatureSnapshot F} :
    snapshot ∈ runtime.candidates symbol windowSeconds ↔
      snapshot ∈ runtime.history (.binance, symbol, windowSeconds) ∨
        snapshot ∈ runtime.history (.okx, symbol, windowSeconds) := List.mem_append

end RuntimeHistory

/-! ## The pairs of a tick -/

theorem any_later_eq_false {source : Option Int} {decision : Int}
    (h : ∀ timestamp ∈ source, timestamp ≤ decision) : source.any (decision < ·) = false := by
  cases source with
  | none => rfl
  | some timestamp => exact decide_eq_false (not_lt.mpr (h timestamp rfl))

theorem FeatureSnapshot.past_of_valid {F : Type} {snapshot : FeatureSnapshot F}
    (hvalid : snapshot.validateSnapshotBoundaries = none) :
    (PersistableFeatureSnapshot.singleVenue snapshot).sourceIsInTheFuture = false := by
  show (snapshot.newestSourceTimestamp.any (snapshot.decisionTimestamp < ·) || false) = false
  rw [any_later_eq_false (FeatureSnapshot.newest_le_of_valid hvalid)]
  rfl

/-- The reasons for a venue without a snapshot to pair. -/
def selectionCodes : List FeatureUnavailableCode :=
  [.missingBinanceSnapshot, .missingOkxSnapshot, .futureBinanceSnapshot, .futureOkxSnapshot]

/-- A snapshot that joins two of its own symbol, window and decision. -/
structure Joins {F : Type} (binance okx : FeatureSnapshot F) (cross : CrossVenueFeatureSnapshot F) :
    Prop where
  exchanges : binance.exchange = .binance ∧ okx.exchange = .okx
  symbols : binance.symbol = cross.symbol ∧ okx.symbol = cross.symbol
  windows : binance.windowSeconds = cross.windowSeconds ∧ okx.windowSeconds = cross.windowSeconds
  decisions : binance.decisionTimestamp = cross.decisionTimestamp ∧
    okx.decisionTimestamp = cross.decisionTimestamp
  ids : cross.sourceSnapshotIds = [binance.featureSnapshotId, okx.featureSnapshotId]
  counts : cross.sourceEventCount = binance.sourceEventCount + okx.sourceEventCount
  selected : ∀ reason ∈ cross.alignment.unavailableReasons, reason.code ∉ selectionCodes

namespace CrossVenueFeatureEngine

variable {F : Type}

/-- A candidate of the decision itself is as new as an eligible one can be. -/
theorem selectSnapshot_at {candidates : List (FeatureSnapshot F)} {exchange : Exchange} {decision : Int}
    (h : ∃ candidate ∈ candidates, candidate.exchange = exchange ∧ candidate.decisionTimestamp = decision) :
    ∃ selected ∈ candidates, selected.exchange = exchange ∧ selected.decisionTimestamp = decision ∧
      selectSnapshot candidates exchange decision = (some selected, none) := by
  obtain ⟨candidate, hcandidate, hexchange, hdecision⟩ := h
  have heligible : candidate ∈ (candidates.filter (·.exchange = exchange)).filter
      (·.decisionTimestamp ≤ decision) := by
    simp [hcandidate, hexchange, hdecision]
  unfold selectSnapshot
  dsimp only
  cases hfirst : firstMax selectionKey ((candidates.filter (·.exchange = exchange)).filter
      (·.decisionTimestamp ≤ decision)) with
  | none =>
    rw [firstMax_eq_none_iff.mp hfirst] at heligible
    cases heligible
  | some selected =>
    have hin := firstMax_mem hfirst
    simp only [List.mem_filter, decide_eq_true_eq] at hin
    have hnewest : candidate.decisionTimestamp ≤ selected.decisionTimestamp :=
      Prod.Lex.monotone_fst_ofLex (le_firstMax hfirst heligible)
    refine ⟨selected, hin.1.1, hin.1.2, ?_, rfl⟩
    exact le_antisymm hin.2 (hdecision ▸ hnewest)

variable [Field F] [LinearOrder F] {engine : CrossVenueFeatureEngine F} {snapshots : List (FeatureSnapshot F)}
  {symbol : String} {decision windowSeconds : Int} {cross : CrossVenueFeatureSnapshot F}

omit [Field F] [LinearOrder F] in
theorem pairReasons_selected (binance okx : FeatureSnapshot F) (binanceStale okxStale badTimeAlignment : Bool) :
    ∀ reason ∈ pairReasons binance okx binanceStale okxStale badTimeAlignment,
      reason.code ∉ selectionCodes := by
  have hgiven : ∀ (given : Bool) (code : FeatureUnavailableCode) (detail : String), code ∉ selectionCodes →
      ∀ reason ∈ (if given then [alignmentReason code detail] else []), reason.code ∉ selectionCodes := by
    intro given code detail hcode reason hreason
    split_ifs at hreason
    · rw [List.mem_singleton.mp hreason]
      exact hcode
    · exact absurd hreason List.not_mem_nil
  unfold pairReasons
  simp only [List.forall_mem_append]
  refine ⟨⟨⟨⟨⟨⟨⟨⟨?_, ?_⟩, ?_⟩, ?_⟩, ?_⟩, ?_⟩, ?_⟩, ?_⟩, ?_⟩ <;> exact hgiven _ _ _ (by decide)

/-- With a snapshot of the decision at each venue, two such are joined. -/
theorem calculate_joins (h : engine.calculate snapshots symbol decision windowSeconds = .ok cross)
    (hvenues : ∀ exchange, exchange = .binance ∨ exchange = .okx → ∃ snapshot ∈ snapshots,
      snapshot.exchange = exchange ∧ snapshot.symbol = symbol ∧ snapshot.windowSeconds = windowSeconds ∧
        snapshot.decisionTimestamp = decision) :
    ∃ binance ∈ snapshots, ∃ okx ∈ snapshots, Joins binance okx cross := by
  have hselected : ∀ exchange, exchange = .binance ∨ exchange = .okx →
      ∃ selected ∈ crossVenueCandidates snapshots symbol windowSeconds, selected.exchange = exchange ∧
        selected.decisionTimestamp = decision ∧
          selectSnapshot (crossVenueCandidates snapshots symbol windowSeconds) exchange decision =
            (some selected, none) := by
    intro exchange hexchange
    obtain ⟨snapshot, hin, hvenue, hsymbol, hwindow, hdecision⟩ := hvenues exchange hexchange
    refine selectSnapshot_at ⟨snapshot, mem_crossVenueCandidates.mpr ⟨hin, hsymbol, hwindow, ?_⟩, hvenue,
      hdecision⟩
    rw [hvenue]
    exact hexchange
  -- both selections are of the decision itself, so no reason is one of a selection
  obtain ⟨binance, hbinance, hbinanceVenue, hbinanceDecision, hselectBinance⟩ := hselected .binance (.inl rfl)
  obtain ⟨okx, hokx, hokxVenue, hokxDecision, hselectOkx⟩ := hselected .okx (.inr rfl)
  obtain ⟨hbinanceIn, hbinanceSymbol, hbinanceWindow, -⟩ := mem_crossVenueCandidates.mp hbinance
  obtain ⟨hokxIn, hokxSymbol, hokxWindow, -⟩ := mem_crossVenueCandidates.mp hokx
  obtain ⟨rfl, -⟩ := calculate_ok h
  refine ⟨binance, hbinanceIn, okx, hokxIn, ⟨hbinanceVenue, hokxVenue⟩, ⟨hbinanceSymbol, hokxSymbol⟩,
    ⟨hbinanceWindow, hokxWindow⟩, ⟨hbinanceDecision, hokxDecision⟩, ?_, ?_, ?_⟩
  · unfold assemble
    rw [hselectBinance, hselectOkx]
    rfl
  · unfold assemble
    rw [hselectBinance, hselectOkx]
    show [binance.sourceEventCount, okx.sourceEventCount].sum = _
    simp
  · unfold assemble
    rw [hselectBinance, hselectOkx]
    intro reason hreason
    exact pairReasons_selected binance okx _ _ _ reason (List.mem_eraseDups.mp hreason)

/-- The runtime's own check of a pair never finds anything. -/
theorem calculate_past (h : engine.calculate snapshots symbol decision windowSeconds = .ok cross)
    (hsound : ∀ snapshot ∈ snapshots, SingleVenueFeatureEngine.Sound snapshot) :
    (PersistableFeatureSnapshot.crossVenue cross).sourceIsInTheFuture = false := by
  obtain ⟨hassembled, hvalid⟩ := calculate_ok h
  have hrules := firstBroken_eq_none_iff.mp hvalid
  rw [List.forall_mem_append, List.forall_mem_append] at hrules
  have hnewest := newest_le_of_sourceRules hrules.1.2
  have hcandidates : ∀ candidate ∈ crossVenueCandidates snapshots symbol windowSeconds,
      SingleVenueFeatureEngine.Sound candidate :=
    fun candidate hin => hsound candidate (mem_crossVenueCandidates.mp hin).1
  have hbinance : ∀ source ∈ cross.alignment.binanceSourceTimestamp, source ≤ cross.decisionTimestamp := by
    rw [hassembled]
    exact newest_le_of_selected hcandidates .binance decision
  have hokx : ∀ source ∈ cross.alignment.okxSourceTimestamp, source ≤ cross.decisionTimestamp := by
    rw [hassembled]
    exact newest_le_of_selected hcandidates .okx decision
  show (cross.newestSourceTimestamp.any (cross.decisionTimestamp < ·) ||
    (cross.alignment.binanceSourceTimestamp.any (cross.decisionTimestamp < ·) ||
      (cross.alignment.okxSourceTimestamp.any (cross.decisionTimestamp < ·) || false))) = false
  rw [any_later_eq_false hnewest, any_later_eq_false hbinance, any_later_eq_false hokx]
  rfl

end CrossVenueFeatureEngine

end Cvf
