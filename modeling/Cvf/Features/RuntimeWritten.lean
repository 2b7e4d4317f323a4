/-
# Cvf.Features.RuntimeWritten — what a runtime writes.

`Running` is what holds of a runtime after any calls: its timeline is that of its events, its deques hold
snapshots that were written, every pair that was written joins two snapshots that were written before it,
and its counters are those of what was written.  A call that returns keeps it.
-/
import Cvf.Features.RuntimeRuns
import Cvf.Library.Log

namespace Cvf

open Cvf.Library

/-! ## The inputs of a run -/

/-- The events that a runtime was given. -/
def consumedEvents (calls : List RuntimeCall) : List NormalizedMarketEvent :=
  calls.filterMap fun
    | .consumeEvent event => some event
    | _ => none

/-- The times of the ticks of a kind that a runtime was given. -/
def tickTimes (kind : TickKind) (calls : List RuntimeCall) : List Int :=
  calls.filterMap fun
    | .consumeTick tick => if tick.kind = kind then some tick.timestamp else none
    | _ => none

theorem consumedEvents_concat (calls : List RuntimeCall) (last : RuntimeCall) :
    consumedEvents (calls ++ [last]) = consumedEvents calls ++ consumedEvents [last] :=
  List.filterMap_append

theorem tickTimes_concat (kind : TickKind) (calls : List RuntimeCall) (last : RuntimeCall) :
    tickTimes kind (calls ++ [last]) = tickTimes kind calls ++ tickTimes kind [last] :=
  List.filterMap_append

/-! ## What an output is about -/

inductive OutputLabel where
  | singleVenue (exchange : Exchange) (symbol : String) (windowSeconds decision : Int)
  | crossVenue (symbol : String) (windowSeconds decision : Int)
  deriving DecidableEq

def PersistableFeatureSnapshot.label {F : Type} : PersistableFeatureSnapshot F → OutputLabel
  | .singleVenue s => .singleVenue s.exchange s.symbol s.windowSeconds s.decisionTimestamp
  | .crossVenue s => .crossVenue s.symbol s.windowSeconds s.decisionTimestamp

/-- One output for each market and window, then one for each symbol and window. -/
def RuntimeEngines.tickLabels {F : Type} (engines : RuntimeEngines F) (decision : Int) :
    List OutputLabel :=
  (engines.featureUniverse.flatMap fun key =>
      engines.windows.map fun windowSeconds => .singleVenue key.1 key.2 windowSeconds decision) ++
    engines.symbols.flatMap fun symbol =>
      engines.windows.map fun windowSeconds => .crossVenue symbol windowSeconds decision

theorem RuntimeEngines.length_tickLabels {F : Type} (engines : RuntimeEngines F) (decision : Int) :
    (engines.tickLabels decision).length = 3 * (engines.symbols.length * engines.windows.length) := by
  unfold tickLabels
  simp only [List.length_append, List.length_flatMap, List.length_map, List.map_const', List.sum_replicate,
    smul_eq_mul, engines.length_featureUniverse]
  ring

/-! ## A feature tick that returns -/

section

variable {F : Type} [Field F] [LinearOrder F] {engines : RuntimeEngines F}

/-- The states and windows that a tick asks for. -/
def RuntimeEngines.asked (engines : RuntimeEngines F) (store : MarketStateStore) :
    List (VenueSymbolState × Int) :=
  store.states.flatMap fun state => engines.windows.map (state, ·)

/-- The symbols and windows that a tick pairs. -/
def RuntimeEngines.pairs (engines : RuntimeEngines F) : List (String × Int) :=
  engines.symbols.flatMap fun symbol => engines.windows.map (symbol, ·)

omit [Field F] [LinearOrder F] in
theorem RuntimeEngines.mem_asked {store : MarketStateStore} {pair : VenueSymbolState × Int} :
    pair ∈ engines.asked store ↔ pair.1 ∈ store.states ∧ pair.2 ∈ engines.windows := by
  obtain ⟨state, windowSeconds⟩ := pair
  unfold asked
  simp only [List.mem_flatMap, List.mem_map, Prod.mk.injEq, exists_eq_right_right]

omit [Field F] [LinearOrder F] in
theorem RuntimeEngines.mem_pairs {pair : String × Int} :
    pair ∈ engines.pairs ↔ pair.1 ∈ engines.symbols ∧ pair.2 ∈ engines.windows := by
  obtain ⟨symbol, windowSeconds⟩ := pair
  unfold pairs
  simp only [List.mem_flatMap, List.mem_map, Prod.mk.injEq, exists_eq_right_right]

omit [Field F] [LinearOrder F] in
/-- Over the states of the universe, their symbols are canonical. -/
theorem askedStates {store : MarketStateStore} (hkeys : store.keys = engines.featureUniverse) :
    AskedStates store (engines.asked store) := by
  intro pair hpair
  obtain ⟨hstate, -⟩ := engines.mem_asked.mp hpair
  have hkey : (pair.1.exchange, pair.1.symbol) ∈ engines.featureUniverse := by
    rw [← hkeys]
    exact List.mem_map.mpr ⟨pair.1, hstate, rfl⟩
  refine ⟨MarketStateStore.lookup_of_mem ?_ hstate, ?_⟩
  · rw [hkeys]
    exact engines.featureUniverse_nodup
  · exact engines.symbols_canonical _ (engines.mem_featureUniverse.mp hkey).2

/-- The crosses of a tick are the calculations of its pairs. -/
theorem crosses_eq (history : RuntimeHistory F) (decision : Int) :
    history.crosses engines.cross decision = engines.pairs.map fun pair =>
      engines.cross.calculate (history.candidates pair.1 pair.2) pair.1 decision pair.2 := by
  unfold RuntimeHistory.crosses RuntimeEngines.pairs RuntimeEngines.windows
  rw [engines.windows_eq, List.map_flatMap]
  apply List.flatMap_congr
  intro symbol _
  rw [List.map_map]
  rfl

/-- What a feature tick that returns has done. -/
structure TickDone (engines : RuntimeEngines F) (runtime : FeatureRuntime F) (decision : Int)
    (singles : List (FeatureSnapshot F)) (memory : SingleVenueMemory F)
    (crosses : List (CrossVenueFeatureSnapshot F)) (counts : OutputCounts) : Prop where
  calculated : engines.single.calculateEach runtime.timeline.store runtime.healthChannels decision
    (engines.asked runtime.timeline.store) runtime.timeline.memory = .ok (singles, memory)
  paired : List.Forall₂ (fun pair cross => engines.cross.calculate
    ((singles.foldl (RuntimeHistory.append (some engines.historyItems)) runtime.history).candidates
      pair.1 pair.2) pair.1 decision pair.2 = .ok cross) engines.pairs crosses
  recorded : (singles.map PersistableFeatureSnapshot.singleVenue ++
    crosses.map PersistableFeatureSnapshot.crossVenue).foldlM OutputCounts.record runtime.counts =
      .ok counts
  taken : engines.Takes runtime.written (singles.map PersistableFeatureSnapshot.singleVenue ++
    crosses.map PersistableFeatureSnapshot.crossVenue)

/-- A runtime after a feature tick. -/
def FeatureRuntime.ticked (runtime : FeatureRuntime F) (engines : RuntimeEngines F)
    (singles : List (FeatureSnapshot F)) (memory : SingleVenueMemory F)
    (crosses : List (CrossVenueFeatureSnapshot F)) (counts : OutputCounts) : FeatureRuntime F :=
  { runtime with
    timeline := { runtime.timeline with memory }
    history := singles.foldl (RuntimeHistory.append (some engines.historyItems)) runtime.history
    featureTicks := runtime.featureTicks + 1
    singleSnapshots := runtime.singleSnapshots + singles.length
    crossSnapshots := runtime.crossSnapshots + crosses.length
    counts
    written := runtime.written ++ (singles.map .singleVenue ++ crosses.map .crossVenue) }

namespace FeatureRuntime

variable {runtime after : FeatureRuntime F}

/-- `_started` and not `_closed` -/
def Active (runtime : FeatureRuntime F) : Prop := runtime.started = true ∧ runtime.closed = false

omit [Field F] [LinearOrder F] in
theorem not_inactive_iff : ¬ (!runtime.started || runtime.closed) = true ↔ runtime.Active := by
  unfold Active
  cases runtime.started <;> cases runtime.closed <;> simp

theorem consumeTick_signal_ok {timestamp : Int} :
    runtime.consumeTick engines ⟨timestamp, .signal⟩ = .ok after ↔
      runtime.Active ∧ after = { runtime with signalBoundaries := runtime.signalBoundaries + 1 } := by
  unfold consumeTick consumeTickWith
  rw [← not_inactive_iff]
  split_ifs with hinactive
  · simp [hinactive]
  · simp [hinactive, eq_comm]

theorem consumeTick_feature_ok {decision : Int} :
    runtime.consumeTick engines ⟨decision, .feature⟩ = .ok after ↔
      runtime.Active ∧ ∃ singles memory crosses counts,
        TickDone engines runtime decision singles memory crosses counts ∧
          after = runtime.ticked engines singles memory crosses counts := by
  unfold consumeTick consumeTickWith
  rw [← not_inactive_iff]
  split_ifs with hinactive
  · simp [hinactive]
  · refine Iff.trans ?_ (and_iff_right (by simp [hinactive])).symm
    constructor
    · intro h
      obtain ⟨⟨singles, memory⟩, hcalculated, h⟩ := bind_eq_ok_iff.mp h
      obtain ⟨crosses, hcrosses, h⟩ := bind_eq_ok_iff.mp h
      obtain ⟨⟨counts, written⟩, hemitted, h⟩ := bind_eq_ok_iff.mp h
      obtain ⟨hcounts, htaken, rfl⟩ := foldlM_emit_ok_iff.mp hemitted
      rw [crosses_eq, mapM_eq_ok_iff_forall₂, List.forall₂_map_left_iff] at hcrosses
      exact ⟨singles, memory, crosses, counts, ⟨hcalculated, hcrosses, hcounts, htaken⟩,
        (Except.ok.inj h).symm⟩
    · rintro ⟨singles, memory, crosses, counts, ⟨hcalculated, hcrosses, hcounts, htaken⟩, rfl⟩
      refine bind_eq_ok_iff.mpr ⟨(singles, memory), hcalculated, ?_⟩
      refine bind_eq_ok_iff.mpr ⟨crosses, ?_, bind_eq_ok_iff.mpr
        ⟨(counts, _), foldlM_emit_ok_iff.mpr ⟨hcounts, htaken, rfl⟩, rfl⟩⟩
      rw [crosses_eq, mapM_eq_ok_iff_forall₂, List.forall₂_map_left_iff]
      exact hcrosses

/-- What an event that is taken in leaves behind. -/
theorem consumeEvent_ok {event : NormalizedMarketEvent} :
    runtime.consumeEvent engines event = .ok after ↔
      runtime.Active ∧ eventRefusal engines event = none ∧ ∃ store result,
        runtime.timeline.store.ingest engines.single.digest event = .ok (store, result) ∧
          after = noteBook
            { runtime with
              timeline := { runtime.timeline with store }
              healthChannels := runtime.noteChannel event store
              pipeline := runtime.pipeline.record result
              normalizedEvents := runtime.normalizedEvents + 1
              receiveLatency := runtime.receiveLatency.add (engines.single.math.milliseconds
                (event.base.localReceiveTimestamp - event.base.exchangeTimestamp)) } event := by
  unfold consumeEvent
  rw [← not_inactive_iff]
  split_ifs with hinactive
  · simp [hinactive]
  · refine Iff.trans ?_ (and_iff_right (by simp [hinactive])).symm
    cases hrefusal : eventRefusal engines event with
    | some text => simp
    | none =>
      cases hingest : runtime.timeline.store.ingest engines.single.digest event with
      | error text => simp
      | ok ingested =>
        obtain ⟨store, result⟩ := ingested
        simp [eq_comm]

omit [Field F] [LinearOrder F] in
/-- A book event keeps the snapshots of a key or drops them all. -/
theorem noteBook_history (runtime : FeatureRuntime F) (event : NormalizedMarketEvent)
    (key : Exchange × String × Int) :
    ((noteBook runtime event).history.history key).Sublist (runtime.history.history key) := by
  unfold noteBook
  split_ifs with hbook
  · show List.Sublist (if _ then [] else runtime.history.history key) _
    split_ifs
    · exact List.nil_sublist _
    · exact List.Sublist.refl _
  · exact List.Sublist.refl _

omit [Field F] [LinearOrder F] in
/-- Besides, it is only counted. -/
theorem noteBook_eq (runtime : FeatureRuntime F) (event : NormalizedMarketEvent) :
    noteBook runtime event =
      { runtime with
        bookGenerationRebuilds := (noteBook runtime event).bookGenerationRebuilds
        history := (noteBook runtime event).history } := by
  unfold noteBook
  split_ifs <;> rfl

/-! ## The invariant -/

end FeatureRuntime

/-- An output rests on those before it: a pair on the two snapshots that it joins. -/
def RestsOn (before : List (PersistableFeatureSnapshot F)) (output : PersistableFeatureSnapshot F) : Prop :=
  ∀ cross, output = .crossVenue cross → ∃ binance okx, .singleVenue binance ∈ before ∧
    .singleVenue okx ∈ before ∧ Joins binance okx cross

/-- The counters are those of the calls. -/
structure Tallied (engines : RuntimeEngines F) (calls : List RuntimeCall) (runtime : FeatureRuntime F) :
    Prop where
  normalizedEvents : runtime.normalizedEvents = (consumedEvents calls).length
  judgedEvents : runtime.pipeline.acceptedEvents + runtime.pipeline.rejectedEvents =
    runtime.normalizedEvents
  receiveLatency : runtime.receiveLatency.samples = runtime.normalizedEvents
  featureTicks : runtime.featureTicks = (tickTimes .feature calls).length
  signalBoundaries : runtime.signalBoundaries = (tickTimes .signal calls).length
  singleSnapshots : runtime.singleSnapshots =
    2 * (engines.symbols.length * engines.windows.length) * runtime.featureTicks
  crossSnapshots : runtime.crossSnapshots =
    engines.symbols.length * engines.windows.length * runtime.featureTicks

/-- What holds of a runtime after any calls. -/
structure Running (engines : RuntimeEngines F) (calls : List RuntimeCall) (runtime : FeatureRuntime F) :
    Prop where
  traced : Traced engines (consumedEvents calls) runtime.timeline
  keys : runtime.timeline.store.keys = engines.featureUniverse
  held : ∀ key, ∀ snapshot ∈ runtime.history.history key,
    RuntimeHistory.historyKey snapshot = key ∧ .singleVenue snapshot ∈ runtime.written
  produced : ∀ snapshot, .singleVenue snapshot ∈ runtime.written → engines.single.Produced snapshot
  grounded : Grounded RestsOn runtime.written
  labels : runtime.written.map (·.label) = (tickTimes .feature calls).flatMap engines.tickLabels
  accounts : Accounts runtime.written runtime.counts
  tallied : Tallied engines calls runtime

/-! ## The tick -/

section

variable {runtime : FeatureRuntime F} {decision : Int} {singles : List (FeatureSnapshot F)}
  {memory : SingleVenueMemory F} {crosses : List (CrossVenueFeatureSnapshot F)} {counts : OutputCounts}
  {calls : List RuntimeCall}

/-- Each market and window has its snapshot, and each snapshot its market and window. -/
theorem Running.calculated (h : Running engines calls runtime)
    (hdone : TickDone engines runtime decision singles memory crosses counts) :
    List.Forall₂ (TickSnapshot engines decision) (engines.asked runtime.timeline.store) singles ∧
      Traced engines (consumedEvents calls) ⟨runtime.timeline.store, memory⟩ :=
  calculateEach_ok (askedStates h.keys) h.traced hdone.calculated

/-- The key of a market and window got a snapshot of the tick. -/
theorem Running.exists_candidate (h : Running engines calls runtime)
    (hdone : TickDone engines runtime decision singles memory crosses counts) {exchange : Exchange}
    (hexchange : exchange = .binance ∨ exchange = .okx) {pair : String × Int} (hpair : pair ∈ engines.pairs) :
    ∃ snapshot ∈ (singles.foldl (RuntimeHistory.append (some engines.historyItems))
        runtime.history).candidates pair.1 pair.2,
      snapshot.exchange = exchange ∧ snapshot.symbol = pair.1 ∧ snapshot.windowSeconds = pair.2 ∧
        snapshot.decisionTimestamp = decision := by
  obtain ⟨hcalculated, -⟩ := h.calculated hdone
  obtain ⟨hsymbol, hwindow⟩ := engines.mem_pairs.mp hpair
  have hkey : (exchange, pair.1) ∈ runtime.timeline.store.keys := by
    rw [h.keys, engines.mem_featureUniverse]
    refine ⟨?_, hsymbol⟩
    rcases hexchange with rfl | rfl <;> rfl
  obtain ⟨state, hstate, hstateKey⟩ := List.mem_map.mp hkey
  have hasked : (state, pair.2) ∈ engines.asked runtime.timeline.store :=
    engines.mem_asked.mpr ⟨hstate, hwindow⟩
  have hcomputed : ∃ snapshot ∈ singles, RuntimeHistory.historyKey snapshot = (exchange, pair.1, pair.2) := by
    obtain ⟨snapshot, hsnapshot, htick⟩ := exists_of_mem_forall₂_left hcalculated hasked
    refine ⟨snapshot, hsnapshot, ?_⟩
    show (snapshot.exchange, snapshot.symbol, snapshot.windowSeconds) = _
    rw [htick.exchange, htick.symbol, htick.windowSeconds, ← Prod.mk.inj hstateKey |>.1,
      ← Prod.mk.inj hstateKey |>.2]
  obtain ⟨snapshot, hsnapshot, hsnapshotKey, hkept⟩ : ∃ snapshot ∈ singles,
      RuntimeHistory.historyKey snapshot = (exchange, pair.1, pair.2) ∧
        snapshot ∈ (singles.foldl (RuntimeHistory.append (some engines.historyItems))
          runtime.history).history (exchange, pair.1, pair.2) :=
    RuntimeHistory.exists_appended (RuntimeHistory.historyItems_pos _ _) hcomputed
  obtain ⟨_, _, htick⟩ := exists_of_mem_forall₂_right hcalculated hsnapshot
  obtain ⟨hvenue, hrest⟩ := Prod.mk.inj hsnapshotKey
  obtain ⟨hsnapshotSymbol, hsnapshotWindow⟩ := Prod.mk.inj hrest
  refine ⟨snapshot, RuntimeHistory.mem_candidates.mpr ?_, hvenue, hsnapshotSymbol, hsnapshotWindow,
    htick.decisionTimestamp⟩
  rcases hexchange with rfl | rfl
  · exact .inl hkept
  · exact .inr hkept

/-- What the deques hold after the calculations of a tick was written before, or is written by it. -/
theorem Running.held_after (h : Running engines calls runtime) {key : Exchange × String × Int}
    {snapshot : FeatureSnapshot F}
    (hin : snapshot ∈ (singles.foldl (RuntimeHistory.append (some engines.historyItems))
      runtime.history).history key) :
    RuntimeHistory.historyKey snapshot = key ∧ PersistableFeatureSnapshot.singleVenue snapshot ∈
      runtime.written ++ singles.map .singleVenue := by
  rcases RuntimeHistory.mem_foldl_append hin with hold | ⟨hnew, hkey⟩
  · obtain ⟨hkey, hwritten⟩ := h.held key snapshot hold
    exact ⟨hkey, List.mem_append_left _ hwritten⟩
  · exact ⟨hkey, List.mem_append_right _ (List.mem_map_of_mem hnew)⟩

theorem Running.joins (h : Running engines calls runtime)
    (hdone : TickDone engines runtime decision singles memory crosses counts)
    {cross : CrossVenueFeatureSnapshot F} (hcross : cross ∈ crosses) :
    ∃ binance okx,
      PersistableFeatureSnapshot.singleVenue binance ∈ runtime.written ++ singles.map .singleVenue ∧
      PersistableFeatureSnapshot.singleVenue okx ∈ runtime.written ++ singles.map .singleVenue ∧
        Joins binance okx cross := by
  obtain ⟨pair, hpair, hcalculate⟩ := exists_of_mem_forall₂_right hdone.paired hcross
  obtain ⟨binance, hbinance, okx, hokx, hjoins⟩ := CrossVenueFeatureEngine.calculate_joins hcalculate
    fun exchange hexchange => h.exists_candidate hdone hexchange hpair
  have hwritten : ∀ snapshot ∈ (singles.foldl (RuntimeHistory.append (some engines.historyItems))
      runtime.history).candidates pair.1 pair.2, PersistableFeatureSnapshot.singleVenue snapshot ∈
        runtime.written ++ singles.map .singleVenue := by
    intro snapshot hin
    rcases RuntimeHistory.mem_candidates.mp hin with hin | hin
    · exact (h.held_after hin).2
    · exact (h.held_after hin).2
  exact ⟨binance, okx, hwritten binance hbinance, hwritten okx hokx, hjoins⟩

/-- The outputs of a tick, one for each thing that is asked for. -/
theorem Running.labels_tick (h : Running engines calls runtime)
    (hdone : TickDone engines runtime decision singles memory crosses counts) :
    (singles.map PersistableFeatureSnapshot.singleVenue ++
      crosses.map PersistableFeatureSnapshot.crossVenue).map (·.label) = engines.tickLabels decision := by
  obtain ⟨hcalculated, -⟩ := h.calculated hdone
  have hsingles : singles.map (fun s => (PersistableFeatureSnapshot.singleVenue s).label) =
      (engines.asked runtime.timeline.store).map fun pair =>
        .singleVenue pair.1.exchange pair.1.symbol pair.2 decision := by
    refine (map_eq_map_of_forall₂ (fun pair snapshot htick => ?_) hcalculated).symm
    show _ = OutputLabel.singleVenue snapshot.exchange snapshot.symbol snapshot.windowSeconds
      snapshot.decisionTimestamp
    rw [htick.exchange, htick.symbol, htick.windowSeconds, htick.decisionTimestamp]
  have hcrosses : crosses.map (fun s => (PersistableFeatureSnapshot.crossVenue s).label) =
      engines.pairs.map fun pair => .crossVenue pair.1 pair.2 decision := by
    refine (map_eq_map_of_forall₂ (fun pair cross hcalculate => ?_) hdone.paired).symm
    obtain ⟨rfl, -⟩ := CrossVenueFeatureEngine.calculate_ok hcalculate
    rfl
  rw [List.map_append, List.map_map, List.map_map]
  show singles.map (fun s => (PersistableFeatureSnapshot.singleVenue s).label) ++
    crosses.map (fun s => (PersistableFeatureSnapshot.crossVenue s).label) = _
  rw [hsingles, hcrosses]
  unfold RuntimeEngines.tickLabels RuntimeEngines.asked RuntimeEngines.pairs
  rw [← h.keys, MarketStateStore.keys, List.flatMap_map, List.map_flatMap, List.map_flatMap]
  simp only [List.map_map, Function.comp_def]

theorem Running.featureTick (h : Running engines calls runtime)
    (hdone : TickDone engines runtime decision singles memory crosses counts) :
    Running engines (calls ++ [.consumeTick ⟨decision, .feature⟩])
      (runtime.ticked engines singles memory crosses counts) := by
  obtain ⟨hcalculated, htraced⟩ := h.calculated hdone
  have hevents : consumedEvents (calls ++ [.consumeTick ⟨decision, .feature⟩]) = consumedEvents calls := by
    rw [consumedEvents_concat]
    exact List.append_nil _
  have htimes : tickTimes .feature (calls ++ [.consumeTick ⟨decision, .feature⟩]) =
      tickTimes .feature calls ++ [decision] := tickTimes_concat ..
  have hsignals : tickTimes .signal (calls ++ [.consumeTick ⟨decision, .feature⟩]) =
      tickTimes .signal calls := by
    rw [tickTimes_concat]
    exact List.append_nil _
  have hlength : runtime.timeline.store.states.length = 2 * engines.symbols.length := by
    rw [← engines.length_featureUniverse, ← h.keys]
    exact (List.length_map _).symm
  have hsingles : singles.length = 2 * (engines.symbols.length * engines.windows.length) := by
    rw [← hcalculated.length_eq]
    unfold RuntimeEngines.asked
    simp only [List.length_flatMap, List.length_map, List.map_const', List.sum_replicate, smul_eq_mul, hlength]
    exact Nat.mul_assoc _ _ _
  have hcrosses : crosses.length = engines.symbols.length * engines.windows.length := by
    rw [← hdone.paired.length_eq]
    unfold RuntimeEngines.pairs
    simp only [List.length_flatMap, List.length_map, List.map_const', List.sum_replicate, smul_eq_mul]
  refine
    { traced := ?_
      keys := h.keys
      held := ?_
      produced := ?_
      grounded := h.grounded.append ?_
      labels := ?_
      accounts := h.accounts.foldlM hdone.recorded
      tallied := ?_ }
  · rw [hevents]
    exact htraced
  · intro key snapshot hin
    obtain ⟨hkey, hwritten⟩ := h.held_after hin
    refine ⟨hkey, ?_⟩
    show _ ∈ runtime.written ++ (singles.map _ ++ crosses.map _)
    rw [← List.append_assoc]
    exact List.mem_append_left _ hwritten
  · intro snapshot hin
    rcases List.mem_append.mp hin with hin | hin
    · exact h.produced snapshot hin
    · rcases List.mem_append.mp hin with hin | hin
      · obtain ⟨single, hsingle, heq⟩ := List.mem_map.mp hin
        obtain rfl := PersistableFeatureSnapshot.singleVenue.inj heq
        obtain ⟨pair, -, htick⟩ := exists_of_mem_forall₂_right hcalculated hsingle
        exact htick.produced
      · obtain ⟨cross, -, heq⟩ := List.mem_map.mp hin
        cases heq
  · -- a pair stands behind all single-venue snapshots of its tick
    rintro before output later heq cross rfl
    rcases append_eq_append_cons_iff.mp heq with ⟨rest, hrest, -⟩ | ⟨earlier, rfl, hearlier⟩
    · have hin : PersistableFeatureSnapshot.crossVenue cross ∈
          singles.map PersistableFeatureSnapshot.singleVenue := by
        rw [hrest]
        exact List.mem_append_right _ List.mem_cons_self
      obtain ⟨single, -, heq⟩ := List.mem_map.mp hin
      cases heq
    · have hin : PersistableFeatureSnapshot.crossVenue cross ∈
          crosses.map PersistableFeatureSnapshot.crossVenue := by
        rw [hearlier]
        exact List.mem_append_right _ List.mem_cons_self
      obtain ⟨other, hother, heq⟩ := List.mem_map.mp hin
      obtain rfl := PersistableFeatureSnapshot.crossVenue.inj heq
      obtain ⟨binance, okx, hbinance, hokx, hjoins⟩ := h.joins hdone hother
      rw [← List.append_assoc]
      exact ⟨binance, okx, List.mem_append_left _ hbinance, List.mem_append_left _ hokx, hjoins⟩
  · show (runtime.written ++ _).map _ = _
    rw [htimes, List.map_append, List.flatMap_append, List.flatMap_singleton, h.labels, h.labels_tick hdone]
  · have htallied := h.tallied
    constructor
    · rw [hevents]
      exact htallied.normalizedEvents
    · exact htallied.judgedEvents
    · exact htallied.receiveLatency
    · show runtime.featureTicks + 1 = _
      rw [htimes, List.length_append, List.length_singleton, htallied.featureTicks]
    · rw [hsignals]
      exact htallied.signalBoundaries
    · show runtime.singleSnapshots + singles.length = _ * (runtime.featureTicks + 1)
      rw [hsingles, htallied.singleSnapshots, Nat.mul_succ]
    · show runtime.crossSnapshots + crosses.length = _ * (runtime.featureTicks + 1)
      rw [hcrosses, htallied.crossSnapshots, Nat.mul_succ]

end

/-! ## The other calls -/

/-- Every result is counted as accepted or as rejected. -/
theorem FeatureStatePipeline.judged_record (pipeline : FeatureStatePipeline) (result : StateUpdateResult) :
    (pipeline.record result).acceptedEvents + (pipeline.record result).rejectedEvents =
      pipeline.acceptedEvents + pipeline.rejectedEvents + 1 := by
  unfold record
  dsimp only
  split_ifs <;> omega

section

variable {runtime after : FeatureRuntime F} {calls : List RuntimeCall}

omit [Field F] [LinearOrder F] in
/-- An event that is not refused is of the universe, or is the health of a whole exchange. -/
theorem mem_featureUniverse_of_accepted {event : NormalizedMarketEvent}
    (h : FeatureRuntime.eventRefusal engines event = none) :
    (event.base.symbol = "*" ∧ event.eventType = .exchangeHealth) ∨
      (event.base.exchange, event.base.symbol) ∈ engines.featureUniverse := by
  unfold FeatureRuntime.eventRefusal at h
  split_ifs at h with hconcrete hwildcard hhealth hmember
  · exact .inl ⟨hwildcard, hhealth⟩
  · exact .inr hmember

theorem Running.consumeEvent (h : Running engines calls runtime) {event : NormalizedMarketEvent}
    (hconsumed : runtime.consumeEvent engines event = .ok after) :
    Running engines (calls ++ [.consumeEvent event]) after := by
  obtain ⟨-, haccepted, store, result, hingest, rfl⟩ := FeatureRuntime.consumeEvent_ok.mp hconsumed
  have hevents : consumedEvents (calls ++ [.consumeEvent event]) = consumedEvents calls ++ [event] :=
    consumedEvents_concat ..
  have htimes : ∀ kind, tickTimes kind (calls ++ [.consumeEvent event]) = tickTimes kind calls := by
    intro kind
    rw [tickTimes_concat]
    exact List.append_nil _
  have hstore : runtime.timeline.store.perform engines.single.digest (.ingest event) = store := by
    unfold MarketStateStore.perform
    dsimp only
    rw [hingest]
    rfl
  have hkey : (event.base.symbol = "*" ∧ event.eventType = .exchangeHealth) ∨
      (event.base.exchange, event.base.symbol) ∈ runtime.timeline.store.keys := by
    rw [h.keys]
    exact mem_featureUniverse_of_accepted haccepted
  -- an event takes snapshots out of the deques at most
  have hhistory := FeatureRuntime.noteBook_history
    { runtime with
      timeline := { runtime.timeline with store }
      healthChannels := runtime.noteChannel event store
      pipeline := runtime.pipeline.record result
      normalizedEvents := runtime.normalizedEvents + 1
      receiveLatency := runtime.receiveLatency.add (engines.single.math.milliseconds
        (event.base.localReceiveTimestamp - event.base.exchangeTimestamp)) } event
  rw [FeatureRuntime.noteBook_eq]
  refine
    { traced := ?_
      keys := (MarketStateStore.keys_ingest hingest hkey).trans h.keys
      held := fun key snapshot hin => h.held key snapshot ((hhistory key).subset hin)
      produced := h.produced
      grounded := h.grounded
      labels := ?_
      accounts := h.accounts
      tallied := ?_ }
  · rw [hevents, ← hstore]
    exact h.traced.ingest event
  · rw [htimes]
    exact h.labels
  · have htallied := h.tallied
    constructor
    · show runtime.normalizedEvents + 1 = _
      rw [hevents, List.length_append, List.length_singleton, htallied.normalizedEvents]
    · show (runtime.pipeline.record result).acceptedEvents + (runtime.pipeline.record result).rejectedEvents =
        runtime.normalizedEvents + 1
      rw [FeatureStatePipeline.judged_record, htallied.judgedEvents]
    · show runtime.receiveLatency.samples + 1 = runtime.normalizedEvents + 1
      rw [htallied.receiveLatency]
    · rw [htimes]
      exact htallied.featureTicks
    · rw [htimes]
      exact htallied.signalBoundaries
    · exact htallied.singleSnapshots
    · exact htallied.crossSnapshots

theorem Running.signalTick (h : Running engines calls runtime) (timestamp : Int) :
    Running engines (calls ++ [.consumeTick ⟨timestamp, .signal⟩])
      { runtime with signalBoundaries := runtime.signalBoundaries + 1 } := by
  have hevents : consumedEvents (calls ++ [.consumeTick ⟨timestamp, .signal⟩]) = consumedEvents calls := by
    rw [consumedEvents_concat]
    exact List.append_nil _
  have htimes : tickTimes .feature (calls ++ [.consumeTick ⟨timestamp, .signal⟩]) =
      tickTimes .feature calls := by
    rw [tickTimes_concat]
    exact List.append_nil _
  have hsignals : tickTimes .signal (calls ++ [.consumeTick ⟨timestamp, .signal⟩]) =
      tickTimes .signal calls ++ [timestamp] := tickTimes_concat ..
  have htallied := h.tallied
  refine
    { h with
      traced := by rw [hevents]; exact h.traced
      labels := by rw [htimes]; exact h.labels
      tallied :=
        { htallied with
          normalizedEvents := by rw [hevents]; exact htallied.normalizedEvents
          featureTicks := by rw [htimes]; exact htallied.featureTicks
          signalBoundaries := ?_ } }
  show runtime.signalBoundaries + 1 = _
  rw [hsignals, List.length_append, List.length_singleton, htallied.signalBoundaries]

/-- Starting and closing leave what was done as it is. -/
theorem Running.lifecycle (h : Running engines calls runtime) {call : RuntimeCall} (started closed : Bool)
    (hcall : call = .start ∨ call = .close) :
    Running engines (calls ++ [call]) { runtime with started, closed } := by
  have hevents : consumedEvents (calls ++ [call]) = consumedEvents calls := by
    rw [consumedEvents_concat]
    rcases hcall with rfl | rfl <;> exact List.append_nil _
  have htimes : ∀ kind, tickTimes kind (calls ++ [call]) = tickTimes kind calls := by
    intro kind
    rw [tickTimes_concat]
    rcases hcall with rfl | rfl <;> exact List.append_nil _
  have htallied := h.tallied
  exact
    { h with
      traced := by rw [hevents]; exact h.traced
      labels := by rw [htimes]; exact h.labels
      tallied :=
        { htallied with
          normalizedEvents := by rw [hevents]; exact htallied.normalizedEvents
          featureTicks := by rw [htimes]; exact htallied.featureTicks
          signalBoundaries := by rw [htimes]; exact htallied.signalBoundaries } }

theorem Running.perform (h : Running engines calls runtime) {call : RuntimeCall}
    (hperformed : runtime.perform engines call = .ok after) : Running engines (calls ++ [call]) after := by
  cases call with
  | start =>
    unfold FeatureRuntime.perform at hperformed
    dsimp only at hperformed
    split_ifs at hperformed
    obtain rfl := Except.ok.inj hperformed
    exact h.lifecycle true runtime.closed (.inl rfl)
  | close =>
    obtain rfl := Except.ok.inj hperformed
    exact h.lifecycle runtime.started true (.inr rfl)
  | consumeEvent event => exact h.consumeEvent hperformed
  | consumeTick tick =>
    obtain ⟨timestamp, kind⟩ := tick
    cases kind with
    | feature =>
      obtain ⟨-, singles, memory, crosses, counts, hdone, rfl⟩ :=
        FeatureRuntime.consumeTick_feature_ok.mp hperformed
      exact h.featureTick hdone
    | signal =>
      have hsignal : runtime.consumeTick engines ⟨timestamp, .signal⟩ = .ok after := hperformed
      obtain ⟨-, rfl⟩ := FeatureRuntime.consumeTick_signal_ok.mp hsignal
      exact h.signalTick timestamp

theorem Running.new : Running engines [] (FeatureRuntime.new engines) where
  traced := .start
  keys := by
    have hkeys : (engines.featureUniverse.foldl (fun store key =>
        store.perform engines.single.digest (.state key.1 key.2))
          (MarketStateStore.new engines.single.settings.features)).keys =
        (MarketStateStore.new engines.single.settings.features).keys ++ engines.featureUniverse :=
      MarketStateStore.keys_foldl_state engines.single.digest
        (fun key hkey => (engines.mem_featureUniverse.mp hkey).1) engines.featureUniverse_nodup
    exact hkeys
  held := fun key snapshot hin => absurd hin List.not_mem_nil
  produced := fun snapshot hin => absurd hin List.not_mem_nil
  grounded := .nil
  labels := rfl
  accounts := .new
  tallied := ⟨rfl, rfl, rfl, rfl, rfl, rfl, rfl⟩

namespace FeatureRuntime

theorem run_concat (calls : List RuntimeCall) (last : RuntimeCall) :
    run engines (calls ++ [last]) = run engines calls >>= fun runtime => runtime.perform engines last := by
  unfold run
  rw [List.foldlM_append]
  congr 1
  funext runtime
  rw [List.foldlM_cons]
  exact bind_pure (x := runtime.perform engines last)

end FeatureRuntime

theorem Running.run (hrun : FeatureRuntime.run engines calls = .ok runtime) :
    Running engines calls runtime := by
  induction calls using List.reverseRecOn generalizing runtime with
  | nil =>
    obtain rfl := Except.ok.inj hrun
    exact .new
  | append_singleton calls last ih =>
    rw [FeatureRuntime.run_concat] at hrun
    obtain ⟨before, hbefore, hlast⟩ := bind_eq_ok_iff.mp hrun
    exact (ih hbefore).perform hlast

end

end

end Cvf
