/-
# Cvf.Features.CrossVenueRules — what one engine makes, the other one accepts.

The cross-venue engine gives a snapshot reasons for each paired input that is missing, and the rules of
that snapshot allow no reason when both venues are warm and healthy.  So it relies on the single-venue
engine: a warm snapshot has every paired input.  That holds through the history of the metrics, where what is
remembered as ready had a value (`ReadyValued`), and through every run (`Produced.sound`).

From such snapshots whatever is put together keeps the rules (`assemble_accepts`).
-/
import Cvf.Features.CrossVenueInputs
import Cvf.Features.SnapshotRules

namespace Cvf

open Cvf.Library

/-! ## Ready metrics have values -/

/-- What is remembered as ready had a value. -/
def ReadyValued {F : Type} (history : MetricHistory F) : Prop :=
  ∀ key cached, history.last key = some cached → cached.ready = true → cached.value.isSome = true

namespace ReadyValued

variable {F : Type} [Field F] [LinearOrder F] {history : MetricHistory F}

omit [Field F] [LinearOrder F] in
theorem clearScope (h : ReadyValued history) (scopeStart : String) :
    ReadyValued (history.clearScope scopeStart) := by
  intro key cached hlast
  have hkept : (if scopeStart.toList.isPrefixOf key.toList then none else history.last key) =
      some cached := hlast
  split_ifs at hkept
  exact h key cached hkept

/-- A record is ready only of a value. -/
theorem record (h : ReadyValued history) (math : MetricMath F) (key : String) (timestamp : Int)
    (value : Option F) :
    ((history.record math key timestamp value).1.2 = true → value.isSome = true) ∧
      ReadyValued (history.record math key timestamp value).2 := by
  cases hremembered : (history.track key).remembered timestamp value with
  | some cached =>
    obtain ⟨hlast, hsame⟩ := Option.filter_eq_some_iff.mp hremembered
    obtain ⟨-, rfl⟩ := of_decide_eq_true hsame
    rw [history.record_of_remembered math hremembered]
    exact ⟨h key cached hlast, h⟩
  | none =>
    obtain ⟨window, -, hrecord⟩ := history.record_of_not_remembered math hremembered
    have hready : (history.recordInto math key timestamp value window).1.2 = true →
        value.isSome = true := by
      show (_ && (math.zscore _ value).isSome) = true → value.isSome = true
      intro hready
      cases value with
      | none =>
        rw [Bool.and_eq_true] at hready
        cases hready.2
      | some value => rfl
    rw [hrecord]
    refine ⟨hready, fun other cached hlast => ?_⟩
    have hupdated : Function.update history.last key (some ⟨timestamp, value,
        (history.recordInto math key timestamp value window).1.1,
        (history.recordInto math key timestamp value window).1.2⟩) other = some cached := hlast
    by_cases hkey : other = key
    · subst hkey
      rw [Function.update_self] at hupdated
      obtain rfl := Option.some.inj hupdated
      exact hready
    · rw [Function.update_of_ne hkey] at hupdated
      exact h other cached hupdated

omit [Field F] [LinearOrder F] in
theorem enterGeneration {memory : SingleVenueMemory F} (h : ReadyValued memory.history)
    (state : VenueSymbolState) (generation : Nat) :
    ReadyValued (memory.enterGeneration state generation) := by
  unfold SingleVenueMemory.enterGeneration
  split
  · exact h
  · split_ifs
    · exact h
    · exact h.clearScope _

end ReadyValued

namespace SingleVenueFeatureEngine

variable {F : Type} [Field F] [LinearOrder F] {engine : SingleVenueFeatureEngine F}

/-- What the z-scores that are ready are of. -/
structure ReadyMetrics (engine : SingleVenueFeatureEngine F) (reads : SingleVenueReads F) (decision : Int)
    (metrics : SingleVenueMetrics F) : Prop where
  imbalance : metrics.imbalance.2 = true → (takerImbalance engine.math reads.trades).isSome = true
  ofi : metrics.ofi.2 = true →
    ((engine.orderBook reads decision none).bind (·.orderFlowImbalance)).isSome = true
  returned : metrics.returned.2 = true → (returnValue engine.math reads.priceRange).isSome = true
  openInterest : metrics.openInterest.2 = true → (engine.oiChange reads).isSome = true
  funding : metrics.funding.2 = true → reads.fundingRate.isSome = true

theorem metrics_ready (engine : SingleVenueFeatureEngine F) {history : MetricHistory F}
    (h : ReadyValued history) (state : VenueSymbolState) (reads : SingleVenueReads F)
    (decision windowSeconds : Int) :
    ReadyMetrics engine reads decision
        (engine.metrics history state reads decision windowSeconds).1 ∧
      ReadyValued (engine.metrics history state reads decision windowSeconds).2 := by
  unfold metrics
  dsimp only
  obtain ⟨himbalance, h⟩ := h.record engine.math.toMetricMath
    (metricKey state windowSeconds "taker_imbalance") decision (takerImbalance engine.math reads.trades)
  generalize history.record engine.math.toMetricMath (metricKey state windowSeconds "taker_imbalance")
    decision (takerImbalance engine.math reads.trades) = imbalance at himbalance h ⊢
  obtain ⟨hofi, h⟩ := h.record engine.math.toMetricMath (metricKey state windowSeconds "ofi") decision
    ((engine.orderBook reads decision none).bind (·.orderFlowImbalance))
  generalize imbalance.2.record engine.math.toMetricMath (metricKey state windowSeconds "ofi") decision
    ((engine.orderBook reads decision none).bind (·.orderFlowImbalance)) = ofi at hofi h ⊢
  obtain ⟨hreturned, h⟩ := h.record engine.math.toMetricMath (metricKey state windowSeconds "return")
    decision (returnValue engine.math reads.priceRange)
  generalize ofi.2.record engine.math.toMetricMath (metricKey state windowSeconds "return") decision
    (returnValue engine.math reads.priceRange) = returned at hreturned h ⊢
  -- the records after that of the open interest
  have hlater : ∀ openInterest : (Option F × Bool) × MetricHistory F,
      (openInterest.1.2 = true → (engine.oiChange reads).isSome = true) → ReadyValued openInterest.2 →
      let premium := openInterest.2.record engine.math.toMetricMath (metricKey state windowSeconds "premium")
        decision (markIndexPremium engine.math reads.markPrice reads.indexPrice)
      let funding := premium.2.record engine.math.toMetricMath (metricKey state windowSeconds "funding")
        decision (reads.fundingRate.map fun rate => engine.math.toFloat rate.value.fundingRate)
      let liquidation := funding.2.record engine.math.toMetricMath
        (metricKey state windowSeconds "liquidation") decision
          (some (liquidationActivity engine.math reads.liquidations))
      ReadyMetrics engine reads decision
          { imbalance := imbalance.1
            ofi := ofi.1
            returned := returned.1
            openInterest := openInterest.1
            premium := premium.1
            funding := funding.1
            liquidation := liquidation.1 } ∧
        ReadyValued liquidation.2 := by
    intro openInterest hopenInterest h premium funding liquidation
    obtain ⟨-, h⟩ := h.record engine.math.toMetricMath (metricKey state windowSeconds "premium") decision
      (markIndexPremium engine.math reads.markPrice reads.indexPrice)
    obtain ⟨hfunding, h⟩ := h.record engine.math.toMetricMath (metricKey state windowSeconds "funding")
      decision (reads.fundingRate.map fun rate => engine.math.toFloat rate.value.fundingRate)
    obtain ⟨-, h⟩ := h.record engine.math.toMetricMath (metricKey state windowSeconds "liquidation")
      decision (some (liquidationActivity engine.math reads.liquidations))
    rw [Option.isSome_map] at hfunding
    exact ⟨⟨himbalance, hofi, hreturned, hopenInterest, hfunding⟩, h⟩
  unfold oiChange at hlater
  cases hlatest : reads.latestOpenInterest with
  | none =>
    rw [hlatest] at hlater
    exact hlater ((none, false), returned.2) (fun hready => by cases hready) h
  | some latest =>
    rw [hlatest] at hlater
    obtain ⟨hready, hvalued⟩ := h.record engine.math.toMetricMath
      (metricKey state windowSeconds "oi_change") decision
        (percentageChange engine.math latest.value reads.anchorOpenInterest)
    exact hlater _ hready hvalued

/-- Every paired input is there. -/
structure Paired (snapshot : FeatureSnapshot F) : Prop where
  takerImbalance : (snapshot.tradeFlow.bind (·.takerImbalance)).isSome = true
  orderFlowImbalance : (snapshot.orderBook.bind (·.orderFlowImbalance)).isSome = true
  returnValue : (snapshot.price.bind (·.returnValue)).isSome = true
  percentageChange : (snapshot.openInterest.bind (·.percentageChange)).isSome = true
  fundingRate : (snapshot.crowding.bind (·.fundingRate)).isSome = true

/-- A snapshot that keeps its rules and, when warm, has every paired input. -/
structure Sound (snapshot : FeatureSnapshot F) : Prop where
  valid : snapshot.validateSnapshotBoundaries = none
  paired : snapshot.isWarm = true → Paired snapshot

theorem snapshot_paired (state : VenueSymbolState) {reads : SingleVenueReads F} {decision : Int}
    {metrics : SingleVenueMetrics F} (h : ReadyMetrics engine reads decision metrics)
    (windowSeconds : Int)
    (hwarm : (engine.snapshot state reads metrics decision windowSeconds).isWarm = true) :
    Paired (engine.snapshot state reads metrics decision windowSeconds) := by
  have hready : (reads.availability.isWarm && (metrics.imbalance.2 && metrics.ofi.2 &&
      metrics.returned.2 && metrics.openInterest.2 && (metrics.premium.2 && metrics.funding.2) &&
        metrics.liquidation.2) && !reads.trades.isEmpty) = true := hwarm
  simp only [Bool.and_eq_true] at hready
  obtain ⟨⟨-, ⟨⟨⟨⟨himbalance, hofi⟩, hreturned⟩, hopenInterest⟩, -, hfunding⟩, -⟩, -⟩ := hready
  refine ⟨h.imbalance himbalance, ?_, h.returned hreturned, ?_, ?_⟩
  · -- the z-score of the imbalance does not decide whether there is a book
    have hbook := h.ofi hofi
    show ((engine.orderBook reads decision metrics.ofi.1).bind (·.orderFlowImbalance)).isSome = true
    unfold orderBook at hbook ⊢
    split at hbook
    · split_ifs at hbook ⊢
      · rfl
      · cases hbook
    · cases hbook
  · have hchange := h.openInterest hopenInterest
    show ((reads.latestOpenInterest.map _).bind _).isSome = true
    unfold oiChange at hchange
    cases hlatest : reads.latestOpenInterest with
    | none =>
      rw [hlatest] at hchange
      cases hchange
    | some latest =>
      rw [hlatest] at hchange
      exact hchange
  · show (reads.fundingRate.map (·.value.fundingRate)).isSome = true
    rw [Option.isSome_map]
    exact h.funding hfunding

/-- A snapshot that some run of the engine returns. -/
def Produced (engine : SingleVenueFeatureEngine F) (snapshot : FeatureSnapshot F) : Prop :=
  ∃ steps timeline, EngineTimeline.run engine steps = .ok timeline ∧
    ∃ exchange symbol channels decision windowSeconds memory,
      timeline.calculate engine exchange symbol channels decision windowSeconds = .ok (snapshot, memory)

/-- Through every run, what the memory has as ready had a value. -/
theorem readyValued_run {steps : List EngineStep} {timeline : EngineTimeline F}
    (hrun : EngineTimeline.run engine steps = .ok timeline) : ReadyValued timeline.memory.history := by
  induction steps using List.reverseRecOn generalizing timeline with
  | nil =>
    obtain rfl := Except.ok.inj hrun
    intro key cached hlast
    cases hlast
  | append_singleton steps last ih =>
    rw [EngineTimeline.run_concat] at hrun
    obtain ⟨before, hbefore, hlast⟩ := bind_eq_ok_iff.mp hrun
    have hvalued := ih hbefore
    cases last with
    | store operation =>
      obtain rfl := Except.ok.inj hlast
      exact hvalued
    | calculate exchange symbol channels decision windowSeconds =>
      obtain ⟨snapshot, memory, hcalculate, rfl⟩ := EngineTimeline.perform_calculate_ok engine hlast
      obtain ⟨priceCache, reads, hdone⟩ := calculate_ok_iff.mp hcalculate
      rw [hdone.after]
      exact (metrics_ready engine (hvalued.enterGeneration _ _) _ reads decision windowSeconds).2

theorem Produced.sound {snapshot : FeatureSnapshot F} (h : Produced engine snapshot) : Sound snapshot := by
  obtain ⟨steps, timeline, hrun, exchange, symbol, channels, decision, windowSeconds, memory,
    hcalculate⟩ := h
  obtain ⟨priceCache, reads, hdone⟩ := calculate_ok_iff.mp hcalculate
  have hready := (metrics_ready engine ((readyValued_run hrun).enterGeneration
    (timeline.store.lookup exchange symbol) reads.bookView.generation)
      (timeline.store.lookup exchange symbol) reads decision windowSeconds).1
  refine ⟨hdone.valid, fun hwarm => ?_⟩
  rw [hdone.assembled] at hwarm ⊢
  -- the check of the symbol leaves the values as they are
  obtain ⟨himbalance, hofi, hreturned, hchange, hfunding⟩ :=
    snapshot_paired (timeline.store.lookup exchange symbol) hready windowSeconds hwarm
  exact ⟨himbalance, hofi, hreturned, hchange, hfunding⟩

end SingleVenueFeatureEngine

/-! ## The sources of a pair -/

/-- A count and the bounds of its sources, none of them after an instant. -/
inductive SourceFields (instant : Int) : Nat → Option Int → Option Int → Prop where
  | empty : SourceFields instant 0 none none
  | bounded {count : Nat} {oldest newest : Int} (hcount : count ≠ 0) (hle : oldest ≤ newest)
      (hinstant : newest ≤ instant) : SourceFields instant count (some oldest) (some newest)

section

variable {F : Type}

/-- Such fields with an age exactly where there is a bound break no rule. -/
theorem SourceFields.kept {instant : Int} {count : Nat} {oldest newest : Option Int}
    (h : SourceFields instant count oldest newest) (texts : SourceRuleTexts) {dataAge : Option F}
    (hage : dataAge.isSome = newest.isSome) :
    ∀ rule ∈ sourceRules texts count oldest newest dataAge instant, rule.1 = false := by
  cases h with
  | empty =>
    have hnone : dataAge = none := Option.isNone_iff_eq_none.mp (by simpa using hage)
    simp [sourceRules, hnone]
  | bounded hcount hle hinstant =>
    obtain ⟨age, rfl⟩ := Option.isSome_iff_exists.mp hage
    simp [sourceRules, hcount, hle, hinstant]

theorem SourceFields.bounds_le {instant : Int} {count : Nat} {oldest newest : Option Int}
    (h : SourceFields instant count oldest newest) :
    ∀ timestamp ∈ [oldest, newest].filterMap id, timestamp ≤ instant := by
  cases h with
  | empty => simp
  | bounded hcount hle hinstant => simp [hinstant, hle.trans hinstant]

theorem SourceFields.count_eq_zero_iff {instant : Int} {count : Nat} {oldest newest : Option Int}
    (h : SourceFields instant count oldest newest) :
    count = 0 ↔ [oldest, newest].filterMap id = [] := by
  cases h with
  | empty => simp
  | bounded hcount hle hinstant => simp [hcount]

theorem SourceFields.newest_eq_none_iff {instant : Int} {count : Nat} {oldest newest : Option Int}
    (h : SourceFields instant count oldest newest) :
    newest = none ↔ [oldest, newest].filterMap id = [] := by
  cases h with
  | empty => simp
  | bounded hcount hle hinstant => simp

/-- A snapshot that keeps its rules has such fields. -/
theorem FeatureSnapshot.sourceFields {snapshot : FeatureSnapshot F}
    (hvalid : snapshot.validateSnapshotBoundaries = none) :
    SourceFields snapshot.decisionTimestamp snapshot.sourceEventCount snapshot.oldestSourceTimestamp
      snapshot.newestSourceTimestamp := by
  have hrules := firstBroken_eq_none_iff.mp hvalid
  unfold sourceRules at hrules
  simp only [List.mem_append, List.mem_cons, List.not_mem_nil, or_false, forall_eq, or_imp,
    forall_and] at hrules
  obtain ⟨⟨-, hclaimed, -, hmissing, -, hreversed, hfuture⟩, -⟩ := hrules
  generalize snapshot.sourceEventCount = count at *
  generalize snapshot.oldestSourceTimestamp = oldest at *
  generalize snapshot.newestSourceTimestamp = newest at *
  by_cases hzero : count = 0
  · subst hzero
    simp only [beq_self_eq_true, Bool.true_and, Bool.or_eq_false_iff, Option.isSome_eq_false_iff,
      Option.isNone_iff_eq_none] at hclaimed
    obtain ⟨rfl, rfl⟩ := hclaimed
    exact .empty
  · cases oldest with
    | none => simp [hzero] at hmissing
    | some oldest =>
      cases newest with
      | none => simp [hzero] at hmissing
      | some newest =>
        exact .bounded hzero (by simpa using hreversed) (by simpa using hfuture)

namespace SingleVenueFeatureEngine

/-- The source fields of a sound snapshot, as of a decision that it is eligible for. -/
theorem Sound.sourceFields {snapshot : FeatureSnapshot F} (h : Sound snapshot) {decision : Int}
    (hpast : snapshot.decisionTimestamp ≤ decision) :
    SourceFields decision snapshot.sourceEventCount snapshot.oldestSourceTimestamp
      snapshot.newestSourceTimestamp := by
  have hfields := FeatureSnapshot.sourceFields h.valid
  generalize snapshot.sourceEventCount = count at hfields ⊢
  generalize snapshot.oldestSourceTimestamp = oldest at hfields ⊢
  generalize snapshot.newestSourceTimestamp = newest at hfields ⊢
  cases hfields with
  | empty => exact .empty
  | bounded hcount hle hinstant => exact .bounded hcount hle (hinstant.trans hpast)

end SingleVenueFeatureEngine

namespace CrossVenueFeatureEngine

/-- The sources of several snapshots taken together. -/
theorem sourceFields_sum {decision : Int} {sources : List (FeatureSnapshot F)}
    (h : ∀ source ∈ sources, SourceFields decision source.sourceEventCount source.oldestSourceTimestamp
      source.newestSourceTimestamp) :
    SourceFields decision (sources.map (·.sourceEventCount)).sum (sourceTimestamps sources).min?
      (sourceTimestamps sources).max? := by
  have hle : ∀ timestamp ∈ sourceTimestamps sources, timestamp ≤ decision := by
    intro timestamp hin
    obtain ⟨source, hsource, hbound⟩ := List.mem_flatMap.mp hin
    exact (h source hsource).bounds_le timestamp hbound
  have hcounted : (sources.map (·.sourceEventCount)).sum = 0 ↔ sourceTimestamps sources = [] := by
    unfold sourceTimestamps
    rw [List.sum_eq_zero_iff, List.flatMap_eq_nil_iff, List.forall_mem_map]
    exact forall₂_congr fun source hsource => (h source hsource).count_eq_zero_iff
  cases htimes : sourceTimestamps sources with
  | nil =>
    rw [hcounted.mpr htimes]
    exact .empty
  | cons first later =>
    rw [htimes] at hle
    obtain ⟨oldest, holdest⟩ : ∃ oldest, (first :: later).min? = some oldest :=
      Option.ne_none_iff_exists'.mp fun hnone => by cases List.min?_eq_none_iff.mp hnone
    obtain ⟨newest, hnewest⟩ : ∃ newest, (first :: later).max? = some newest :=
      Option.ne_none_iff_exists'.mp fun hnone => by cases List.max?_eq_none_iff.mp hnone
    rw [holdest, hnewest]
    refine .bounded (fun hzero => ?_) ?_ ?_
    · rw [hcounted.mp hzero] at htimes
      cases htimes
    · exact (List.min?_eq_some_iff.mp holdest).2 _ (List.max?_eq_some_iff.mp hnewest).1
    · exact hle _ (List.max?_eq_some_iff.mp hnewest).1

/-! ## Selection and alignment -/

/-- A venue has an eligible candidate selected, or a reason given. -/
theorem selectSnapshot_cases (candidates : List (FeatureSnapshot F)) (exchange : Exchange)
    (decision : Int) :
    (∃ selected ∈ candidates, selected.exchange = exchange ∧ selected.decisionTimestamp ≤ decision ∧
        selectSnapshot candidates exchange decision = (some selected, none)) ∨
      ∃ reason, selectSnapshot candidates exchange decision = (none, some reason) := by
  unfold selectSnapshot
  dsimp only
  cases hfirst : firstMax selectionKey ((candidates.filter (·.exchange = exchange)).filter
      (·.decisionTimestamp ≤ decision)) with
  | some selected =>
    have hin := firstMax_mem hfirst
    simp only [List.mem_filter, decide_eq_true_eq] at hin
    exact .inl ⟨selected, hin.1.1, hin.1.2, hin.2, rfl⟩
  | none =>
    right
    dsimp only
    split_ifs <;> exact ⟨_, rfl⟩

/-- Two selected snapshots are aligned exactly when there is no reason against it. -/
theorem pairStatus_aligned_iff (binance okx : FeatureSnapshot F)
    (binanceStale okxStale badTimeAlignment : Bool) :
    pairStatus binance okx binanceStale okxStale badTimeAlignment = .aligned ↔
      pairReasons binance okx binanceStale okxStale badTimeAlignment = [] := by
  unfold pairStatus pairReasons
  simp only [List.append_eq_nil_iff, ite_eq_right_iff, reduceCtorEq, imp_false]
  cases binanceStale <;> cases okxStale <;> simp
  grind

/-- Aligned snapshots are warm and healthy. -/
theorem available_of_aligned {binance okx : FeatureSnapshot F}
    {binanceStale okxStale badTimeAlignment : Bool}
    (h : pairStatus binance okx binanceStale okxStale badTimeAlignment = .aligned) :
    (binance.isWarm = true ∧ okx.isWarm = true) ∧ binance.isHealthy = true ∧ okx.isHealthy = true := by
  unfold pairStatus at h
  split_ifs at h with hboth hfirst hsecond hdegraded
  simp only [Bool.or_eq_true, Bool.not_eq_true', not_or, Bool.not_eq_false] at hdegraded
  obtain ⟨⟨⟨⟨-, hbinanceWarm⟩, hokxWarm⟩, hbinanceHealthy⟩, hokxHealthy⟩ := hdegraded
  exact ⟨⟨hbinanceWarm, hokxWarm⟩, hbinanceHealthy, hokxHealthy⟩

/-! ## The groups -/

variable [Field F] [LinearOrder F] {engine : CrossVenueFeatureEngine F}
  {alignment : CrossVenueAlignmentResult F} {groups : PairedGroups F}

/-- Groups that go with an alignment: as the rules on the groups, the flags and the reasons ask. -/
structure Fitting (alignment : CrossVenueAlignmentResult F) (groups : PairedGroups F) : Prop where
  absent : alignment.status = .unavailable → groups.price = none ∧ groups.orderFlow = none ∧
    groups.positioning = none ∧ groups.confirmation = none
  hashed : (groups.spreadHistory.getD (0, none)).2 = none → (groups.spreadHistory.getD (0, none)).1 = 0
  priced : groups.price = none → groups.spreadHistory.getD (0, none) = (0, none)
  scored : groups.price.any (·.midPricePercentageSpread.isSome) = true →
    (groups.spreadHistory.getD (0, none)).2.isSome = true
  healthy : groups.isHealthy = true → alignment.status = .aligned
  available : (groups.isWarm = true ∧ groups.isHealthy = true) ↔ groups.unavailableReasons = []

omit [Field F] [LinearOrder F] in
/-- No group is given where the alignment is unavailable, which has a reason. -/
theorem absentGroups_fitting (hreasons : alignment.unavailableReasons ≠ []) :
    Fitting alignment (absentGroups alignment) where
  absent := fun _ => ⟨rfl, rfl, rfl, rfl⟩
  hashed := fun _ => rfl
  priced := fun _ => rfl
  scored := fun h => by cases h
  healthy := fun h => by cases h
  available := by
    constructor
    · rintro ⟨hwarm, -⟩
      cases hwarm
    · exact fun hnone => absurd hnone hreasons

omit [Field F] [LinearOrder F] in
theorem missingPair_eq_nil {α : Type} {left right : Option α} (label channel : String)
    (hleft : left.isSome = true) (hright : right.isSome = true) :
    missingPair label left right channel = [] := by
  obtain ⟨left, rfl⟩ := Option.isSome_iff_exists.mp hleft
  obtain ⟨right, rfl⟩ := Option.isSome_iff_exists.mp hright
  rfl

omit [Field F] [LinearOrder F] in
/-- A percentage spread is one of two mid prices whose denominator is not zero. -/
theorem noPriceReasons {binance okx : FeatureSnapshot F}
    (hspread : (engine.percentageSpread (midPrice binance) (midPrice okx)).isSome = true)
    (hbinance : (binance.price.bind (·.returnValue)).isSome = true)
    (hokx : (okx.price.bind (·.returnValue)).isSome = true) : priceReasons binance okx = [] := by
  unfold priceReasons
  rw [missingPair_eq_nil _ _ hbinance hokx, List.append_nil]
  unfold percentageSpread at hspread
  cases hbinanceMid : midPrice binance with
  | none =>
    rw [hbinanceMid] at hspread
    cases hspread
  | some binanceMid =>
    cases hokxMid : midPrice okx with
    | none =>
      rw [hbinanceMid, hokxMid] at hspread
      cases hspread
    | some okxMid =>
      rw [hbinanceMid, hokxMid] at hspread
      dsimp only at hspread
      split_ifs at hspread with hzero
      · cases hspread
      · unfold zeroDenominator
        dsimp only
        rw [if_neg hzero]
        rfl

/-- A z-score is one of a spread. -/
theorem spread_of_zscore {candidates : List (FeatureSnapshot F)} {symbol : String}
    {decision windowSeconds : Int} {value : Option F}
    (h : (engine.spreadZscore candidates symbol decision windowSeconds value).1.isSome = true) :
    value.isSome = true := by
  cases value with
  | none => cases h
  | some value => rfl

/-- Two aligned snapshots with their inputs leave no reason but that of the history. -/
theorem pairedGroups_available {binance okx : FeatureSnapshot F}
    (hbinance : SingleVenueFeatureEngine.Sound binance) (hokx : SingleVenueFeatureEngine.Sound okx)
    {binanceStale okxStale badTimeAlignment : Bool}
    (hstatus : alignment.status = pairStatus binance okx binanceStale okxStale badTimeAlignment)
    (hreasons : alignment.unavailableReasons =
      uniqueReasons (pairReasons binance okx binanceStale okxStale badTimeAlignment))
    (candidates : List (FeatureSnapshot F)) (decision windowSeconds : Int) :
    ((engine.pairedGroups candidates binance okx decision windowSeconds alignment).isWarm = true ∧
        (engine.pairedGroups candidates binance okx decision windowSeconds alignment).isHealthy = true) ↔
      (engine.pairedGroups candidates binance okx decision windowSeconds alignment).unavailableReasons =
        [] := by
  unfold pairedGroups
  dsimp only
  generalize hspread : engine.spreadZscore candidates binance.symbol decision windowSeconds
    (engine.percentageSpread (midPrice binance) (midPrice okx)) = spread
  rw [uniqueReasons_eq_nil_iff, List.append_eq_nil_iff, List.append_eq_nil_iff, List.append_eq_nil_iff,
    List.append_eq_nil_iff, hreasons, uniqueReasons_eq_nil_iff, ← pairStatus_aligned_iff, ← hstatus]
  have hhistory : (if spread.1.isSome = true then [] else [engine.insufficientHistory]) = [] ↔
      spread.1.isSome = true := by
    split_ifs with hsome <;> simp [hsome]
  rw [hhistory]
  simp only [Bool.and_eq_true, decide_eq_true_eq]
  constructor
  · rintro ⟨⟨⟨hbinanceWarm, hokxWarm⟩, hscored⟩, ⟨haligned, -⟩, -⟩
    have hbinancePaired := hbinance.paired hbinanceWarm
    have hokxPaired := hokx.paired hokxWarm
    -- a z-score needs a spread, and the spread both prices
    have hvalue := hscored
    rw [← hspread] at hvalue
    refine ⟨⟨⟨⟨haligned, ?_⟩, ?_⟩, ?_⟩, hscored⟩
    · exact noPriceReasons (spread_of_zscore hvalue) hbinancePaired.returnValue hokxPaired.returnValue
    · unfold orderFlowReasons
      rw [missingPair_eq_nil _ _ hbinancePaired.takerImbalance hokxPaired.takerImbalance,
        missingPair_eq_nil _ _ hbinancePaired.orderFlowImbalance hokxPaired.orderFlowImbalance]
      rfl
    · unfold positioningReasons
      rw [missingPair_eq_nil _ _ hbinancePaired.percentageChange hokxPaired.percentageChange,
        missingPair_eq_nil _ _ hbinancePaired.fundingRate hokxPaired.fundingRate]
      rfl
  · rintro ⟨⟨⟨⟨haligned, -⟩, -⟩, -⟩, hscored⟩
    rw [hstatus] at haligned
    obtain ⟨⟨hbinanceWarm, hokxWarm⟩, hbinanceHealthy, hokxHealthy⟩ := available_of_aligned haligned
    exact ⟨⟨⟨hbinanceWarm, hokxWarm⟩, hscored⟩, ⟨hstatus.trans haligned, hbinanceHealthy⟩, hokxHealthy⟩

theorem pairedGroups_fitting {binance okx : FeatureSnapshot F}
    (hbinance : SingleVenueFeatureEngine.Sound binance) (hokx : SingleVenueFeatureEngine.Sound okx)
    {binanceStale okxStale badTimeAlignment : Bool}
    (hstatus : alignment.status = pairStatus binance okx binanceStale okxStale badTimeAlignment)
    (hreasons : alignment.unavailableReasons =
      uniqueReasons (pairReasons binance okx binanceStale okxStale badTimeAlignment))
    (hpaired : alignment.status ≠ .unavailable) (candidates : List (FeatureSnapshot F))
    (decision windowSeconds : Int) :
    Fitting alignment
      (engine.pairedGroups candidates binance okx decision windowSeconds alignment) where
  absent := fun hnot => absurd hnot hpaired
  hashed := by
    show (engine.spreadZscore candidates binance.symbol decision windowSeconds
      (engine.percentageSpread (midPrice binance) (midPrice okx))).2.2 = none → _
    cases hvalue : engine.percentageSpread (midPrice binance) (midPrice okx) with
    | none =>
      intro _
      show (engine.spreadZscore candidates binance.symbol decision windowSeconds
        (engine.percentageSpread (midPrice binance) (midPrice okx))).2.1 = 0
      rw [hvalue]
      rfl
    | some value =>
      intro hnone
      cases hnone
  priced := fun hnone => by cases hnone
  scored := by
    show (engine.percentageSpread (midPrice binance) (midPrice okx)).isSome = true →
      (engine.spreadZscore candidates binance.symbol decision windowSeconds
        (engine.percentageSpread (midPrice binance) (midPrice okx))).2.2.isSome = true
    cases engine.percentageSpread (midPrice binance) (midPrice okx) with
    | none =>
      intro hsome
      cases hsome
    | some value => exact fun _ => rfl
  healthy := by
    show (decide (alignment.status = .aligned) && binance.isHealthy && okx.isHealthy) = true → _
    rw [Bool.and_eq_true, Bool.and_eq_true]
    exact fun h => of_decide_eq_true h.1.1
  available := pairedGroups_available hbinance hokx hstatus hreasons candidates decision windowSeconds

/-! ## The snapshot -/

omit [Field F] [LinearOrder F] in
theorem filterMap_pair_eq_nil_iff {α : Type} {first second : Option α} :
    [first, second].filterMap id = [] ↔ first = none ∧ second = none := by
  cases first <;> cases second <;> simp

omit [Field F] [LinearOrder F] in
theorem forall_mem_filterMap_pair {α : Type} {first second : Option α} {P : α → Prop} :
    (∀ a ∈ [first, second].filterMap id, P a) ↔ (∀ a ∈ first, P a) ∧ ∀ a ∈ second, P a := by
  cases first <;> cases second <;> simp

variable {binance okx : Option (FeatureSnapshot F)} {symbol : String} {decision windowSeconds : Int}
  {selectionReasons : List FeatureUnavailableReason}

/-- The rules on the source ids and the spread history. -/
theorem historyRules_kept
    (hdistinct : (([binance, okx].filterMap id).map (·.featureSnapshotId)).Nodup)
    (h : Fitting (engine.align binance okx decision selectionReasons) groups) :
    ∀ rule ∈ (engine.snapshotOf (engine.identity symbol decision windowSeconds binance okx
      (engine.align binance okx decision selectionReasons) groups)).historyRules, rule.1 = false := by
  have hlength : (([binance, okx].filterMap id).map (·.featureSnapshotId)).length ≤ 2 := by
    rw [List.length_map]
    exact List.length_filterMap_le id [binance, okx]
  have hexpected : ([binance, okx].filterMap id).map (·.featureSnapshotId) =
      CrossVenueFeatureSnapshot.expectedIds
        (engine.align binance okx decision selectionReasons) := by
    cases binance <;> cases okx <;> rfl
  obtain ⟨history, hhistory⟩ : ∃ history, groups.spreadHistory.getD (0, none) = history := ⟨_, rfl⟩
  have hhashed := h.hashed
  have hpriced := h.priced
  have hscored := h.scored
  rw [hhistory] at hhashed hpriced hscored
  unfold CrossVenueFeatureSnapshot.historyRules snapshotOf
  dsimp only
  rw [show (engine.identity symbol decision windowSeconds binance okx
    (engine.align binance okx decision selectionReasons) groups).groups = groups from rfl, hhistory]
  simp only [List.forall_mem_cons, List.not_mem_nil, false_imp_iff, implies_true, and_true]
  refine ⟨?_, ?_, ?_, ?_, ?_⟩
  -- at most one snapshot of each venue, their ids distinct by assumption
  · show (decide (2 < (([binance, okx].filterMap id).map (·.featureSnapshotId)).length) ||
      !decide (([binance, okx].filterMap id).map (·.featureSnapshotId)).Nodup) = false
    rw [decide_eq_true hdistinct, decide_eq_false (not_lt.mpr hlength)]
    rfl
  · show (!decide (([binance, okx].filterMap id).map (·.featureSnapshotId) =
      CrossVenueFeatureSnapshot.expectedIds (engine.align binance okx decision selectionReasons))) =
        false
    rw [decide_eq_true hexpected]
    rfl
  · cases hsha : history.2 with
    | none =>
      rw [hhashed hsha]
      rfl
    | some sha => rfl
  · cases hprice : groups.price with
    | none =>
      rw [hpriced hprice]
      rfl
    | some price => rfl
  · cases hsome : groups.price.any (·.midPricePercentageSpread.isSome) with
    | false => rfl
    | true =>
      obtain ⟨sha, hsha⟩ := Option.isSome_iff_exists.mp (hscored hsome)
      rw [hsha]
      rfl

/-- The rules on the sources. -/
theorem sourceRules_kept (engine : CrossVenueFeatureEngine F) (symbol : String) (windowSeconds : Int)
    (selectionReasons : List FeatureUnavailableReason) (groups : PairedGroups F) (texts : SourceRuleTexts)
    (hfields : ∀ source ∈ [binance, okx].filterMap id, SourceFields decision source.sourceEventCount
      source.oldestSourceTimestamp source.newestSourceTimestamp) :
    let identity := engine.identity symbol decision windowSeconds binance okx
      (engine.align binance okx decision selectionReasons) groups
    ∀ rule ∈ sourceRules texts identity.sourceEventCount identity.oldestSourceTimestamp
      identity.newestSourceTimestamp identity.dataAgeMs decision, rule.1 = false := by
  apply (sourceFields_sum hfields).kept
  show (([engine.sourceAge decision (binance.bind (·.newestSourceTimestamp)),
    engine.sourceAge decision (okx.bind (·.newestSourceTimestamp))].filterMap id).max?).isSome =
      ((sourceTimestamps ([binance, okx].filterMap id)).max?).isSome
  rw [Bool.eq_iff_iff, Option.isSome_iff_ne_none, Option.isSome_iff_ne_none, ne_eq, ne_eq,
    List.max?_eq_none_iff, List.max?_eq_none_iff, not_iff_not, filterMap_pair_eq_nil_iff]
  unfold sourceTimestamps
  rw [List.flatMap_eq_nil_iff, forall_mem_filterMap_pair] at *
  -- an age is one of a newest source
  have hage : ∀ source : Option (FeatureSnapshot F),
      (∀ one ∈ source, SourceFields decision one.sourceEventCount one.oldestSourceTimestamp
        one.newestSourceTimestamp) →
      (engine.sourceAge decision (source.bind (·.newestSourceTimestamp)) = none ↔
        ∀ one ∈ source, [one.oldestSourceTimestamp, one.newestSourceTimestamp].filterMap id = []) := by
    intro source hsource
    cases source with
    | none => exact iff_of_true rfl fun one hone => by cases hone
    | some one =>
      unfold sourceAge
      rw [Option.map_eq_none_iff, Option.bind_some]
      constructor
      · intro hnone other hother
        obtain rfl := Option.some.inj hother
        exact (hsource one rfl).newest_eq_none_iff.mp hnone
      · intro hnil
        exact (hsource one rfl).newest_eq_none_iff.mpr (hnil one rfl)
  rw [hage binance hfields.1, hage okx hfields.2]

/-- The rules on the alignment, the flags and the reasons. -/
theorem availabilityRules_kept
    (h : Fitting (engine.align binance okx decision selectionReasons) groups) :
    ∀ rule ∈ (engine.snapshotOf (engine.identity symbol decision windowSeconds binance okx
      (engine.align binance okx decision selectionReasons) groups)).availabilityRules,
        rule.1 = false := by
  have hdecided : (engine.align binance okx decision selectionReasons).decisionTimestamp = decision := rfl
  generalize hsnapshot : engine.snapshotOf (engine.identity symbol decision windowSeconds binance okx
    (engine.align binance okx decision selectionReasons) groups) = snapshot
  have halignment : snapshot.alignment = engine.align binance okx decision selectionReasons := by
    rw [← hsnapshot]; rfl
  have hdecision : snapshot.decisionTimestamp = decision := by rw [← hsnapshot]; rfl
  have hwarm : snapshot.isWarm = groups.isWarm := by rw [← hsnapshot]; rfl
  have hhealthy : snapshot.isHealthy = groups.isHealthy := by rw [← hsnapshot]; rfl
  have hreasons : snapshot.unavailableReasons = groups.unavailableReasons := by rw [← hsnapshot]; rfl
  have hgroups : snapshot.price = groups.price ∧ snapshot.orderFlow = groups.orderFlow ∧
      snapshot.positioning = groups.positioning ∧ snapshot.confirmation = groups.confirmation := by
    rw [← hsnapshot]
    exact ⟨rfl, rfl, rfl, rfl⟩
  unfold CrossVenueFeatureSnapshot.availabilityRules
  rw [halignment, hdecided, hdecision, hwarm, hhealthy, hreasons, hgroups.1, hgroups.2.1, hgroups.2.2.1,
    hgroups.2.2.2]
  generalize engine.align binance okx decision selectionReasons = alignment at h
  simp only [List.forall_mem_cons, List.not_mem_nil, false_imp_iff, implies_true, and_true]
  refine ⟨?_, ?_, ?_, ?_, ?_⟩
  · simp
  · by_cases habsent : alignment.status = .unavailable
    · obtain ⟨hprice, horderFlow, hpositioning, hconfirmation⟩ := h.absent habsent
      simp [hprice, horderFlow, hpositioning, hconfirmation]
    · simp [habsent]
  · by_cases hhealthy : groups.isHealthy = true
    · simp [h.healthy hhealthy]
    · simp [hhealthy]
  · by_cases havailable : groups.isWarm = true ∧ groups.isHealthy = true
    · rw [h.available.mp havailable]
      simp
    · rw [← Bool.and_eq_true] at havailable
      simp [havailable]
  · by_cases hnone : groups.unavailableReasons = []
    · obtain ⟨hwarm, hhealthy⟩ := h.available.mpr hnone
      rw [hwarm, hhealthy]
      rfl
    · simp [hnone]

/-- A snapshot of groups that fit breaks no rule. -/
theorem validate_of_fitting
    (hfields : ∀ source ∈ [binance, okx].filterMap id, SourceFields decision source.sourceEventCount
      source.oldestSourceTimestamp source.newestSourceTimestamp)
    (hdistinct : (([binance, okx].filterMap id).map (·.featureSnapshotId)).Nodup)
    (h : Fitting (engine.align binance okx decision selectionReasons) groups) :
    (engine.snapshotOf (engine.identity symbol decision windowSeconds binance okx
      (engine.align binance okx decision selectionReasons) groups)).validateCrossVenueBoundaries =
        none := by
  unfold CrossVenueFeatureSnapshot.validateCrossVenueBoundaries
  rw [firstBroken_eq_none_iff, List.forall_mem_append, List.forall_mem_append, List.forall_mem_append]
  refine ⟨⟨⟨?_, historyRules_kept hdistinct h⟩,
    sourceRules_kept engine symbol windowSeconds selectionReasons groups _ hfields⟩,
    availabilityRules_kept h⟩
  intro rule hrule
  rw [List.mem_singleton.mp hrule]
  exact decide_eq_false (lt_irrefl decision)

/-- No snapshot of one venue has the id of one of the other. -/
def VenueIdsApart (snapshots : List (FeatureSnapshot F)) : Prop :=
  ∀ binance ∈ snapshots, ∀ okx ∈ snapshots, binance.exchange = .binance → okx.exchange = .okx →
    binance.featureSnapshotId ≠ okx.featureSnapshotId

/-- The snapshot put together from candidates that keep their own rules. -/
theorem assemble_accepts (engine : CrossVenueFeatureEngine F) {candidates : List (FeatureSnapshot F)}
    (hsound : ∀ candidate ∈ candidates, SingleVenueFeatureEngine.Sound candidate)
    (hids : VenueIdsApart candidates) (symbol : String) (decision windowSeconds : Int) :
    (engine.assemble candidates symbol decision windowSeconds).validateCrossVenueBoundaries = none ∧
      (((engine.assemble candidates symbol decision windowSeconds).isWarm = true ∧
          (engine.assemble candidates symbol decision windowSeconds).isHealthy = true) ↔
        (engine.assemble candidates symbol decision windowSeconds).unavailableReasons = []) := by
  unfold assemble
  dsimp only
  -- an alignment of fewer than two snapshots has the reason of the missing one
  have halone : ∀ (binance okx : Option (FeatureSnapshot F)) (reasons : List FeatureUnavailableReason),
      binance = none ∨ okx = none → reasons ≠ [] →
        Fitting (engine.align binance okx decision reasons)
          (absentGroups (engine.align binance okx decision reasons)) := by
    intro binance okx reasons hmissing hreasons
    apply absentGroups_fitting
    have hlist : (engine.align binance okx decision reasons).unavailableReasons =
        uniqueReasons reasons := by
      rcases hmissing with rfl | rfl
      · rfl
      · cases binance <;> rfl
    rw [hlist]
    exact fun hnil => hreasons (uniqueReasons_eq_nil_iff.mp hnil)
  rcases selectSnapshot_cases candidates .binance decision with
    ⟨binance, hbinance, hbinanceVenue, hbinancePast, hselected⟩ | ⟨binanceReason, hselected⟩
  · have hbinanceFields := (hsound binance hbinance).sourceFields hbinancePast
    rcases selectSnapshot_cases candidates .okx decision with
      ⟨okx, hokx, hokxVenue, hokxPast, hselectedOkx⟩ | ⟨okxReason, hselectedOkx⟩
    · have hokxFields := (hsound okx hokx).sourceFields hokxPast
      have hne : binance.featureSnapshotId ≠ okx.featureSnapshotId :=
        hids binance hbinance okx hokx hbinanceVenue hokxVenue
      rw [hselected, hselectedOkx]
      dsimp only [Option.toList_none, List.append_nil]
      obtain ⟨binanceStale, okxStale, badTimeAlignment, hstatus, hreasons⟩ :
          ∃ binanceStale okxStale badTimeAlignment,
            (engine.align (some binance) (some okx) decision []).status =
                pairStatus binance okx binanceStale okxStale badTimeAlignment ∧
              (engine.align (some binance) (some okx) decision []).unavailableReasons =
                uniqueReasons (pairReasons binance okx binanceStale okxStale badTimeAlignment) :=
        ⟨_, _, _, rfl, rfl⟩
      have hfitting : Fitting (engine.align (some binance) (some okx) decision [])
          (if (engine.align (some binance) (some okx) decision []).status = .unavailable then
            absentGroups (engine.align (some binance) (some okx) decision [])
          else engine.pairedGroups candidates binance okx decision windowSeconds
            (engine.align (some binance) (some okx) decision [])) := by
        split_ifs with habsent
        · apply absentGroups_fitting
          rw [hreasons]
          intro hnil
          rw [uniqueReasons_eq_nil_iff, ← pairStatus_aligned_iff, ← hstatus, habsent] at hnil
          cases hnil
        · exact pairedGroups_fitting (hsound binance hbinance) (hsound okx hokx) hstatus hreasons habsent
            candidates decision windowSeconds
      refine ⟨validate_of_fitting ?_ ?_ hfitting, hfitting.available⟩
      · intro source hin
        rcases List.mem_cons.mp hin with rfl | hin
        · exact hbinanceFields
        · rw [List.mem_singleton.mp hin]
          exact hokxFields
      · show [binance.featureSnapshotId, okx.featureSnapshotId].Nodup
        simpa using hne
    · rw [hselected, hselectedOkx]
      have hfitting := halone (some binance) none [okxReason] (.inr rfl) (List.cons_ne_nil _ _)
      refine ⟨validate_of_fitting ?_ (List.nodup_singleton _) hfitting, hfitting.available⟩
      intro source hin
      rw [List.mem_singleton.mp hin]
      exact hbinanceFields
  · rcases selectSnapshot_cases candidates .okx decision with
      ⟨okx, hokx, hokxVenue, hokxPast, hselectedOkx⟩ | ⟨okxReason, hselectedOkx⟩
    · have hokxFields := (hsound okx hokx).sourceFields hokxPast
      rw [hselected, hselectedOkx]
      have hfitting := halone none (some okx) [binanceReason] (.inl rfl) (List.cons_ne_nil _ _)
      refine ⟨validate_of_fitting ?_ (List.nodup_singleton _) hfitting, hfitting.available⟩
      intro source hin
      rw [List.mem_singleton.mp hin]
      exact hokxFields
    · rw [hselected, hselectedOkx]
      have hfitting := halone none none [binanceReason, okxReason] (.inl rfl) (List.cons_ne_nil _ _)
      refine ⟨validate_of_fitting ?_ List.nodup_nil hfitting, hfitting.available⟩
      intro source hin
      cases hin

end CrossVenueFeatureEngine

end

end Cvf
