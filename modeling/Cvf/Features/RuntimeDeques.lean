/-
# Cvf.Features.RuntimeDeques — the length of the deques.

`runUnbounded` is the runtime with deques that forget nothing.  Where each window is configured once, the
lookback has at most `2 ^ 50` feature intervals and the feature ticks are on the grid of the configured
interval, one after another, it does what the runtime does: the same calls fail, and what is written is the
same (`bounded_runtime_writes_the_same`).
-/
import Cvf.Features.RuntimeGenerations
import Cvf.Library.Outcome

namespace Cvf

open Cvf.Library

namespace FeatureRuntime

variable {F : Type} [Field F] [LinearOrder F] (engines : RuntimeEngines F)

def performUnbounded (runtime : FeatureRuntime F) : RuntimeCall → Except String (FeatureRuntime F)
  | .consumeTick tick => runtime.consumeTickWith engines none tick
  | call => runtime.perform engines call

/-- A run with deques of no length. -/
def runUnbounded (calls : List RuntimeCall) : Except String (FeatureRuntime F) :=
  calls.foldlM (performUnbounded engines) (new engines)

end FeatureRuntime

/-- The lookback has at most `2 ^ 50` feature intervals, so that a `float` counts them. -/
def CountsLookback {F : Type} (engines : RuntimeEngines F) : Prop :=
  engines.single.settings.zscoreLookbackSeconds * 1000000 ≤ 2 ^ 50 * engines.featureUpdateMicros

section

variable {F : Type} [Field F] [LinearOrder F] {engines : RuntimeEngines F}

omit [Field F] [LinearOrder F] in
theorem askedKeys_nodup {states : List VenueSymbolState}
    (hnodup : (states.map fun state => (state.exchange, state.symbol)).Nodup)
    (hwindows : engines.windows.Nodup) :
    ((states.flatMap fun state => engines.windows.map (state, ·)).map fun pair =>
      (pair.1.exchange, pair.1.symbol, pair.2)).Nodup := by
  have hproduct : (states.flatMap fun state => engines.windows.map (state, ·)).map (fun pair =>
      (pair.1.exchange, pair.1.symbol, pair.2)) =
        ((states.map fun state => (state.exchange, state.symbol)) ×ˢ engines.windows).map fun pair =>
          (pair.1.1, pair.1.2, pair.2) := by
    show _ = ((states.map fun state => (state.exchange, state.symbol)).flatMap fun key =>
      engines.windows.map (key, ·)).map _
    rw [List.flatMap_map, List.map_flatMap, List.map_flatMap]
    simp only [List.map_map, Function.comp_def]
  rw [hproduct]
  refine (hnodup.product hwindows).map ?_
  rintro ⟨⟨exchange, symbol⟩, windowSeconds⟩ ⟨⟨exchange', symbol'⟩, windowSeconds'⟩ heq
  obtain ⟨rfl, hrest⟩ := Prod.mk.inj heq
  obtain ⟨rfl, rfl⟩ := Prod.mk.inj hrest
  rfl

/-- Where the keys tell the elements apart, the one with a key is found by it. -/
theorem getD_find?_of_nodup {α κ : Type} [DecidableEq κ] {key : α → κ} {xs : List α}
    (hdistinct : (xs.map key).Nodup) {x : α} (hx : x ∈ xs) {k : κ} (hkey : key x = k) (default : α) :
    (xs.find? fun y => key y = k).getD default = x := by
  cases hfind : xs.find? fun y => key y = k with
  | none => exact absurd (decide_eq_true hkey) (List.find?_eq_none.mp hfind x hx)
  | some found =>
    have hfound : key found = k := by simpa using List.find?_some hfind
    exact List.inj_on_of_nodup_map hdistinct (List.mem_of_find?_eq_some hfind) hx (hfound.trans hkey.symm)

/-- Each market and window has one snapshot at a tick, so the snapshots are a function of them. -/
theorem exists_single {decision : Int} {states : List VenueSymbolState} (hstates : states ≠ [])
    (hnodup : (states.map fun state => (state.exchange, state.symbol)).Nodup)
    (hwindows : engines.windows.Nodup) {singles : List (FeatureSnapshot F)}
    (h : List.Forall₂ (TickSnapshot engines decision)
      (states.flatMap fun state => engines.windows.map (state, ·)) singles) :
    ∃ single, singles = RuntimeHistory.calculateAll engines.windows decision
      (states.map fun state => (state.exchange, state.symbol)) single := by
  obtain ⟨first, hfirst⟩ : ∃ first, first ∈ singles := by
    obtain ⟨state, hstate⟩ := List.exists_mem_of_ne_nil _ hstates
    obtain ⟨windowSeconds, hwindow⟩ := List.exists_mem_of_ne_nil _ engines.windows_nonempty
    have hasked : (state, windowSeconds) ∈ states.flatMap fun state => engines.windows.map (state, ·) :=
      List.mem_flatMap.mpr ⟨state, hstate, List.mem_map_of_mem hwindow⟩
    obtain ⟨snapshot, hin, -⟩ := exists_of_mem_forall₂_left h hasked
    exact ⟨snapshot, hin⟩
  -- the calculation of a market and window is looked up among what was calculated
  let single : Exchange → String → Int → FeatureSnapshot F := fun exchange symbol windowSeconds =>
    (singles.find? fun snapshot =>
      RuntimeHistory.historyKey snapshot = (exchange, symbol, windowSeconds)).getD first
  have hkeys : singles.map RuntimeHistory.historyKey =
      (states.flatMap fun state => engines.windows.map (state, ·)).map fun pair =>
        (pair.1.exchange, pair.1.symbol, pair.2) := by
    refine (map_eq_map_of_forall₂ (fun pair snapshot htick => ?_) h).symm
    show _ = (snapshot.exchange, snapshot.symbol, snapshot.windowSeconds)
    rw [htick.exchange, htick.symbol, htick.windowSeconds]
  have hdistinct : (singles.map RuntimeHistory.historyKey).Nodup := by
    rw [hkeys]
    exact askedKeys_nodup hnodup hwindows
  have hflip : List.Forall₂ (fun snapshot pair => TickSnapshot engines decision pair snapshot) singles
      (states.flatMap fun state => engines.windows.map (state, ·)) := h.flip
  have hmembers : List.Forall₂ (fun snapshot pair => snapshot ∈ singles ∧
      TickSnapshot engines decision pair snapshot) singles
        (states.flatMap fun state => engines.windows.map (state, ·)) :=
    (List.forall₂_and_left _ _).mpr ⟨fun snapshot hin => hin, hflip⟩
  refine ⟨single, ?_⟩
  have hsingles : singles.map id =
      (states.flatMap fun state => engines.windows.map (state, ·)).map fun pair =>
        RuntimeHistory.snapshotAt decision single pair.1.exchange pair.1.symbol pair.2 := by
    refine map_eq_map_of_forall₂ (fun snapshot pair hboth => ?_) hmembers
    obtain ⟨hin, htick⟩ := hboth
    have hkey : RuntimeHistory.historyKey snapshot = (pair.1.exchange, pair.1.symbol, pair.2) := by
      show (snapshot.exchange, snapshot.symbol, snapshot.windowSeconds) = _
      rw [htick.exchange, htick.symbol, htick.windowSeconds]
    have hfound : single pair.1.exchange pair.1.symbol pair.2 = snapshot :=
      getD_find?_of_nodup hdistinct hin hkey first
    unfold RuntimeHistory.snapshotAt
    rw [hfound, ← htick.exchange, ← htick.symbol, ← htick.windowSeconds, ← htick.decisionTimestamp]
    rfl
  rw [List.map_id] at hsingles
  rw [hsingles]
  unfold RuntimeHistory.calculateAll
  rw [List.map_flatMap, List.flatMap_map]
  simp only [List.map_map, Function.comp_def]

theorem Running.exists_single {runtime : FeatureRuntime F} {calls : List RuntimeCall} {decision : Int}
    (h : Running engines calls runtime) (hwindows : engines.windows.Nodup) {singles : List (FeatureSnapshot F)}
    (hsingles : List.Forall₂ (TickSnapshot engines decision) (engines.asked runtime.timeline.store) singles) :
    ∃ single, singles =
      RuntimeHistory.calculateAll engines.windows decision engines.featureUniverse single := by
  have hkeys : runtime.timeline.store.states.map (fun state => (state.exchange, state.symbol)) =
      engines.featureUniverse := h.keys
  have hnodup := engines.featureUniverse_nodup
  rw [← hkeys] at hnodup ⊢
  obtain ⟨state, hstate⟩ := engines.exists_state h.keys
  exact Cvf.exists_single (List.ne_nil_of_mem hstate) hnodup hwindows hsingles

/-! ## Side by side -/

/-- The runtimes with and without a length, after the same calls. -/
structure Alike (engines : RuntimeEngines F) (last : Option Int) (bounded full : FeatureRuntime F) : Prop where
  rest : full = { bounded with history := full.history }
  bounds : RuntimeHistory.Bounds engines.historyItems bounded.history full.history
  ticked : RuntimeHistory.Ticked engines.windows engines.featureUpdateMicros last full.history

variable {last : Option Int} {bounded full : FeatureRuntime F} {calls : List RuntimeCall}

omit [Field F] [LinearOrder F] in
theorem Alike.noteBook (h : Alike engines last bounded full) (event : NormalizedMarketEvent) :
    Alike engines last (FeatureRuntime.noteBook bounded event) (FeatureRuntime.noteBook full event) := by
  obtain ⟨history, rfl⟩ : ∃ history, full = { bounded with history } := ⟨_, h.rest⟩
  unfold FeatureRuntime.noteBook
  by_cases hbook : event.isBook = true
  · rw [if_pos hbook, if_pos hbook]
    refine ⟨?_, h.bounds.consumeBookEvent _ _ _, h.ticked.consumeBookEvent _ _ _⟩
    have hnotes : bounded.history.bookGenerations = history.bookGenerations := h.bounds.bookGenerations
    dsimp only
    rw [hnotes]
  · rw [if_neg hbook, if_neg hbook]
    exact h

theorem Alike.consumeEvent (h : Alike engines last bounded full) (event : NormalizedMarketEvent) :
    Outcome (Alike engines last) (bounded.consumeEvent engines event) (full.consumeEvent engines event) := by
  obtain ⟨history, rfl⟩ : ∃ history, full = { bounded with history } := ⟨_, h.rest⟩
  unfold FeatureRuntime.consumeEvent
  dsimp only
  split_ifs with hinactive
  · exact .error _
  · cases FeatureRuntime.eventRefusal engines event with
    | some text => exact .error _
    | none =>
      dsimp only
      cases bounded.timeline.store.ingest engines.single.digest event with
      | error text => exact .error _
      | ok ingested =>
        refine .ok (Alike.noteBook ?_ event)
        exact ⟨rfl, h.bounds, h.ticked⟩

/-- The pairs of a tick do not see what a deque with a length forgets. -/
theorem Alike.crosses_eq (h : Alike engines last bounded full) (hwindows : engines.windows.Nodup)
    (hcounts : CountsLookback engines) {decision : Int}
    (hlast : ∀ before ∈ last, before < decision ∧ engines.featureUpdateMicros ∣ decision - before)
    (single : Exchange → String → Int → FeatureSnapshot F) :
    ((RuntimeHistory.calculateAll engines.windows decision engines.featureUniverse single).foldl
        (RuntimeHistory.append (some engines.historyItems)) bounded.history).crosses engines.cross decision =
      ((RuntimeHistory.calculateAll engines.windows decision engines.featureUniverse single).foldl
        (RuntimeHistory.append none) full.history).crosses engines.cross decision := by
  have hlookback : 0 < engines.cross.settings.zscoreLookbackSeconds := by
    rw [engines.lookback_eq]
    exact Int.natCast_pos.mpr engines.single.settings.zscoreLookbackSeconds_pos
  have hitems : engines.historyItems = RuntimeHistory.historyItems
      engines.cross.settings.zscoreLookbackSeconds engines.featureUpdateMicros := by
    unfold RuntimeEngines.historyItems
    rw [engines.lookback_eq]
  unfold CountsLookback at hcounts
  rw [← engines.lookback_eq] at hcounts
  have hconfigured : engines.windows = engines.cross.settings.featureWindowsSeconds := engines.windows_eq.symm
  have hbounds := h.bounds
  have hticked := h.ticked
  rw [hitems] at hbounds ⊢
  rw [hconfigured] at hticked hwindows ⊢
  rw [RuntimeHistory.crosses, RuntimeHistory.crosses]
  apply List.flatMap_congr
  intro symbol hsymbol
  apply List.map_congr_left
  intro windowSeconds hwindow
  have hvenues : ∀ exchange : Exchange, exchange.isConcrete = true →
      (exchange, symbol) ∈ engines.featureUniverse :=
    fun exchange hconcrete => engines.mem_featureUniverse.mpr ⟨hconcrete, hsymbol⟩
  exact (RuntimeHistory.asGoodAs_candidates engines.featureUpdateMicros_pos hlookback
    (RuntimeHistory.fits_of_nodup engines.featureUpdateMicros_pos hlookback hcounts hwindows) hbounds hticked
      hlast engines.featureUniverse_nodup single ⟨hvenues .binance rfl, hvenues .okx rfl⟩
        hwindow).calculate_eq engines.cross

theorem Alike.featureTick (h : Alike engines last bounded full) (hrunning : Running engines calls bounded)
    (hwindows : engines.windows.Nodup) (hcounts : CountsLookback engines) {decision : Int}
    (hlast : ∀ before ∈ last, before < decision ∧ engines.featureUpdateMicros ∣ decision - before) :
    Outcome (Alike engines (some decision)) (bounded.consumeTick engines ⟨decision, .feature⟩)
      (full.consumeTickWith engines none ⟨decision, .feature⟩) := by
  obtain ⟨history, rfl⟩ : ∃ history, full = { bounded with history } := ⟨_, h.rest⟩
  unfold FeatureRuntime.consumeTick FeatureRuntime.consumeTickWith
  dsimp only
  split_ifs with hinactive
  · exact .error _
  · cases hcalculated : engines.single.calculateAll bounded.timeline.store bounded.healthChannels
        bounded.timeline.memory decision with
    | error text => exact .error _
    | ok calculated =>
      obtain ⟨singles, memory⟩ := calculated
      obtain ⟨hsingles, -⟩ := calculateEach_ok (askedStates hrunning.keys) hrunning.traced hcalculated
      obtain ⟨single, rfl⟩ := hrunning.exists_single hwindows hsingles
      have hcrosses := h.crosses_eq hwindows hcounts hlast single
      dsimp only [bind, Except.bind] at hcrosses ⊢
      rw [hcrosses]
      -- from here on nothing reads the deques
      cases (List.mapM id (((RuntimeHistory.calculateAll engines.windows decision engines.featureUniverse
          single).foldl (RuntimeHistory.append none) history).crosses engines.cross decision)) with
      | error text => exact .error _
      | ok crosses =>
        dsimp only
        cases ((RuntimeHistory.calculateAll engines.windows decision engines.featureUniverse single).map
            PersistableFeatureSnapshot.singleVenue ++
              crosses.map PersistableFeatureSnapshot.crossVenue).foldlM (FeatureRuntime.emit engines)
                (bounded.counts, bounded.written) with
        | error text => exact .error _
        | ok emitted =>
          refine .ok ⟨rfl, h.bounds.foldl_append _, fun key => ?_⟩
          obtain ⟨ticks, hticks, hspaced, hkeys, -⟩ :=
            h.ticked.featureTick hlast engines.featureUniverse_nodup single key
          exact ⟨ticks, hticks, hspaced, hkeys⟩

/-- Calls between feature ticks. -/
theorem Alike.perform (h : Alike engines last bounded full) {call : RuntimeCall}
    (hcall : tickTimes .feature [call] = []) :
    Outcome (Alike engines last) (bounded.perform engines call) (full.performUnbounded engines call) := by
  have hevent := fun event => h.consumeEvent event
  obtain ⟨history, rfl⟩ : ∃ history, full = { bounded with history } := ⟨_, h.rest⟩
  cases call with
  | start =>
    show Outcome _ (if bounded.closed = true then _ else _) (if bounded.closed = true then _ else _)
    split_ifs
    · exact .error _
    · exact .ok ⟨rfl, h.bounds, h.ticked⟩
  | close => exact .ok ⟨rfl, h.bounds, h.ticked⟩
  | consumeEvent event => exact hevent event
  | consumeTick tick =>
    obtain ⟨timestamp, kind⟩ := tick
    cases kind with
    | feature => cases hcall
    | signal =>
      show Outcome _ (if (!bounded.started || bounded.closed) = true then _ else _)
        (if (!bounded.started || bounded.closed) = true then _ else _)
      split_ifs
      · exact .error _
      · exact .ok ⟨rfl, h.bounds, h.ticked⟩

/-- The feature ticks come one after another, whole intervals apart. -/
def TicksOnGrid (engines : RuntimeEngines F) (calls : List RuntimeCall) : Prop :=
  (tickTimes .feature calls).Pairwise fun earlier later =>
    earlier < later ∧ engines.featureUpdateMicros ∣ later - earlier

theorem alike_run (hwindows : engines.windows.Nodup) (hcounts : CountsLookback engines)
    (hgrid : TicksOnGrid engines calls) :
    Outcome (fun bounded full => Running engines calls bounded ∧
        Alike engines (tickTimes .feature calls).getLast? bounded full)
      (FeatureRuntime.run engines calls) (FeatureRuntime.runUnbounded engines calls) := by
  have hnew : Alike engines (tickTimes .feature []).getLast? (FeatureRuntime.new engines)
      (FeatureRuntime.new engines) := ⟨rfl, .start _, .start _ _⟩
  apply foldlM_outcome (R := fun calls bounded full => Running engines calls bounded ∧
    Alike engines (tickTimes .feature calls).getLast? bounded full) ⟨.new, hnew⟩
  rintro earlier next hwithin bounded full ⟨hrunning, halike⟩
  refine Outcome.and_left ?_ fun after hafter => hrunning.perform hafter
  by_cases hnext : tickTimes .feature [next] = []
  · rw [tickTimes_concat, hnext, List.append_nil]
    exact halike.perform hnext
  · obtain ⟨decision, rfl⟩ : ∃ decision, next = .consumeTick ⟨decision, .feature⟩ := by
      cases next with
      | consumeTick tick =>
        obtain ⟨timestamp, kind⟩ := tick
        cases kind with
        | feature => exact ⟨timestamp, rfl⟩
        | signal => exact absurd rfl hnext
      | _ => exact absurd rfl hnext
    have htimes : tickTimes .feature (earlier ++ [.consumeTick ⟨decision, .feature⟩]) =
        tickTimes .feature earlier ++ [decision] := tickTimes_concat ..
    -- the grid up to this tick
    have hpairs := hgrid.sublist (hwithin.sublist.filterMap _)
    change (tickTimes .feature (earlier ++ [.consumeTick ⟨decision, .feature⟩])).Pairwise _ at hpairs
    rw [htimes] at hpairs ⊢
    rw [List.getLast?_concat]
    refine halike.featureTick hrunning hwindows hcounts fun before hbefore => ?_
    exact (List.pairwise_append.mp hpairs).2.2 before (List.mem_of_getLast? hbefore) decision
      List.mem_cons_self

/-- Where each window is configured once, a `float` counts the intervals of the lookback and the feature ticks
are on the grid, the length of the deques is never seen: the same calls fail, and the same is written. -/
theorem bounded_runtime_writes_the_same (hwindows : engines.windows.Nodup)
    (hcounts : CountsLookback engines) (hgrid : TicksOnGrid engines calls) :
    (FeatureRuntime.run engines calls).map (·.written) =
      (FeatureRuntime.runUnbounded engines calls).map (·.written) := by
  refine (alike_run hwindows hcounts hgrid).map_eq fun bounded full h => ?_
  rw [h.2.rest]

end

/-- The deques of the example hold sixty-two snapshots. -/
theorem bounded_runtime_writes_the_same_example :
    (FeatureRuntime.run exampleRuntimeEngines (timelineCalls exampleRuntimeTimeline)).map (·.written) =
      (FeatureRuntime.runUnbounded exampleRuntimeEngines (timelineCalls exampleRuntimeTimeline)).map
        (·.written) := by
  apply bounded_runtime_writes_the_same
  · exact List.nodup_singleton _
  · show (60 : Int) * 1000000 ≤ 2 ^ 50 * 1000000
    decide
  · show (tickTimes .feature (timelineCalls exampleRuntimeTimeline)).Pairwise fun earlier later =>
      earlier < later ∧ (1000000 : Int) ∣ later - earlier
    decide +kernel

end Cvf
