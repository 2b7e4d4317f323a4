/-
# Cvf.Features.SnapshotRules — when a calculation raises.

The validator of a snapshot has nine rules.  The engine keeps eight of them by how it puts a snapshot
together: the count, the bounds and the age come from one lineage, the flags and the reasons from one list.
The ninth it cannot keep by itself, since the view of the book may count an update of a later instant.

So over every run a calculation for a configured window of positive length raises for that one reason
(`calculate_raises_iff`), and where the books only move forward it never does (`forward_run_completes`).
-/
import Cvf.Features.SourceLineage

namespace Cvf

open Cvf.Library LineageFields

/-! ## No query fails -/

namespace PriceHistoryCache

variable {α R : Type} {cache : PriceHistoryCache α R} {start stop : Int}
  {front selected behind : List (CachedPricePoint α R)}

/-- The two ends of a stretch that is not empty. -/
theorem Stretch.exists_ends (hs : cache.Stretch start stop front selected behind)
    (hne : ¬ front.length + selected.length ≤ front.length) :
    ∃ first last, cache.points[front.length]? = some first ∧
      cache.points[front.length + selected.length - 1]? = some last := by
  obtain ⟨first, rest, rfl⟩ := List.exists_cons_of_ne_nil (l := selected) (by rintro rfl; simp at hne)
  obtain ⟨last, hlast⟩ : ∃ last, (first :: rest).getLast? = some last :=
    ⟨_, List.getLast?_eq_getLast_of_ne_nil (List.cons_ne_nil _ _)⟩
  exact ⟨first, last, hs.ends rfl hlast⟩

theorem Stretch.exists_range [Ring R] [LinearOrder R] (math : PriceMath α R)
    (hs : cache.Stretch start stop front selected behind) :
    ∃ range, cache.range math start stop = .ok range := by
  unfold PriceHistoryCache.range
  rw [hs.bounds]
  dsimp only
  split_ifs with hempty
  · exact ⟨_, rfl⟩
  · obtain ⟨first, last, hfirst, hlast⟩ := hs.exists_ends hempty
    rw [hfirst, hlast]
    exact ⟨_, rfl⟩

theorem Stretch.exists_buckets (hs : cache.Stretch start stop front selected behind) :
    ∃ buckets, cache.bucketsBetween start stop = .ok buckets := by
  unfold bucketsBetween
  rw [hs.bounds]
  dsimp only
  split_ifs with hempty
  · exact ⟨_, rfl⟩
  · obtain ⟨first, last, hfirst, hlast⟩ := hs.exists_ends hempty
    rw [hfirst, hlast]
    exact ⟨_, rfl⟩

theorem Stretch.exists_highLow (hs : cache.Stretch start stop front selected behind) :
    ∃ extremes, cache.highLow start stop = .ok extremes := by
  obtain ⟨buckets, hbuckets⟩ := hs.exists_buckets
  unfold PriceHistoryCache.highLow
  rw [hbuckets]
  exact ⟨_, rfl⟩

theorem Stretch.exists_atr (hs : cache.Stretch start stop front selected behind) :
    ∃ atr, cache.atr start stop = .ok atr := by
  obtain ⟨buckets, hbuckets⟩ := hs.exists_buckets
  unfold PriceHistoryCache.atr
  rw [hs.bounds, hbuckets]
  dsimp only
  split_ifs
  · exact ⟨_, rfl⟩
  · cases buckets with
    | nil => exact ⟨_, rfl⟩
    | cons bucket later => exact ⟨_, rfl⟩

end PriceHistoryCache

theorem BoundedTimeWindow.timestamp_le_of_latest {α : Type} {window : BoundedTimeWindow α} {boundary : Int}
    {item : TimedValue α} (h : window.latestAtOrBefore boundary = some item) :
    item.timestamp ≤ boundary := by
  rw [window.latestAtOrBefore_eq] at h
  exact of_decide_eq_true (List.mem_filter.mp (List.mem_of_getLast? h)).2

theorem BoundedTimeWindow.exists_between {α : Type} (window : BoundedTimeWindow α) {start stop : Int}
    (hle : start ≤ stop) : ∃ items, window.between start stop = .ok items :=
  ⟨_, window.between_eq hle⟩

/-! ## The rules -/

theorem newest_after_iff {leaves : List (Int × BitVec 256)} {decision : Int} :
    (∃ newest ∈ (typedSummary leaves).newestTimestamp, decision < newest) ↔
      ∃ leaf ∈ leaves, decision < leaf.1 := by
  show (∃ newest ∈ (leaves.map Prod.fst).max?, decision < newest) ↔ _
  constructor
  · rintro ⟨newest, hnewest, hlt⟩
    obtain ⟨leaf, hleaf, rfl⟩ := List.mem_map.mp (List.max?_eq_some_iff.mp hnewest).1
    exact ⟨leaf, hleaf, hlt⟩
  · rintro ⟨leaf, hleaf, hlt⟩
    have hin : leaf.1 ∈ leaves.map Prod.fst := List.mem_map_of_mem hleaf
    cases hmax : (leaves.map Prod.fst).max? with
    | none =>
      rw [List.max?_eq_none_iff.mp hmax] at hin
      exact absurd hin List.not_mem_nil
    | some newest =>
      have hle := (List.max?_eq_some_iff.mp hmax).2 _ hin
      exact ⟨newest, rfl, hlt.trans_le hle⟩

/-- The bounds of some sources are there together, and in order. -/
theorem bounds_typedSummary (leaves : List (Int × BitVec 256)) :
    (leaves = [] ∧ typedSummary leaves = {}) ∨
      ∃ oldest newest, (typedSummary leaves).oldestTimestamp = some oldest ∧
        (typedSummary leaves).newestTimestamp = some newest ∧ oldest ≤ newest ∧
        (typedSummary leaves).count ≠ 0 := by
  cases leaves with
  | nil => exact .inl ⟨rfl, rfl⟩
  | cons leaf later =>
    right
    obtain ⟨oldest, holdest⟩ : ∃ oldest, ((leaf :: later).map Prod.fst).min? = some oldest :=
      Option.ne_none_iff_exists'.mp fun hnone => by
        have := List.min?_eq_none_iff.mp hnone
        cases this
    obtain ⟨newest, hnewest⟩ : ∃ newest, ((leaf :: later).map Prod.fst).max? = some newest :=
      Option.ne_none_iff_exists'.mp fun hnone => by
        have := List.max?_eq_none_iff.mp hnone
        cases this
    refine ⟨oldest, newest, holdest, hnewest, ?_, Nat.succ_ne_zero _⟩
    exact (List.min?_eq_some_iff.mp holdest).2 _ (List.max?_eq_some_iff.mp hnewest).1

/-- The one rule that is left of those on the sources. -/
theorem sourceRules_typedSummary {F : Type} (texts : SourceRuleTexts) (leaves : List (Int × BitVec 256))
    {dataAge : Option F} (hage : dataAge.isSome = (typedSummary leaves).newestTimestamp.isSome)
    (decision : Int) (later : List (Bool × String)) :
    firstBroken (sourceRules texts (typedSummary leaves).count (typedSummary leaves).oldestTimestamp
        (typedSummary leaves).newestTimestamp dataAge decision ++ later) =
      if ∃ newest ∈ (typedSummary leaves).newestTimestamp, decision < newest then some texts.future
      else firstBroken later := by
  rcases bounds_typedSummary leaves with ⟨-, hempty⟩ | ⟨oldest, newest, holdest, hnewest, hle, hcount⟩
  · rw [hempty] at hage ⊢
    have hnone : dataAge = none := Option.isNone_iff_eq_none.mp (by simpa using hage)
    subst hnone
    simp [firstBroken, sourceRules]
  · rw [hnewest] at hage
    obtain ⟨age, rfl⟩ := Option.isSome_iff_exists.mp hage
    rw [holdest, hnewest]
    generalize (typedSummary leaves).count = count at hcount
    by_cases hfuture : decision < newest
    · simp [firstBroken, sourceRules, hcount, not_lt.mpr hle, hfuture]
    · simp [firstBroken, sourceRules, hcount, not_lt.mpr hle, hfuture]

/-- A checked snapshot is warm and healthy exactly when it gives no reasons. -/
theorem FeatureSnapshot.available_iff_of_valid {F : Type} {snapshot : FeatureSnapshot F}
    (hvalid : snapshot.validateSnapshotBoundaries = none) :
    (snapshot.isWarm = true ∧ snapshot.isHealthy = true) ↔ snapshot.unavailableReasons = [] := by
  have hrules := firstBroken_eq_none_iff.mp hvalid
  rw [List.forall_mem_append] at hrules
  obtain ⟨-, havailability⟩ := hrules
  simp only [List.mem_cons, List.not_mem_nil, or_false, forall_eq_or_imp, forall_eq] at havailability
  obtain ⟨hgiven, hmissing⟩ := havailability
  rw [← List.isEmpty_iff]
  cases hwarm : snapshot.isWarm <;> cases hhealthy : snapshot.isHealthy <;>
    cases hempty : snapshot.unavailableReasons.isEmpty <;> simp_all

/-- The rules on the sources leave no source of a later instant. -/
theorem newest_le_of_sourceRules {F : Type} {texts : SourceRuleTexts} {count : Nat}
    {oldest newest : Option Int} {dataAge : Option F} {decision : Int}
    (hrules : ∀ rule ∈ sourceRules texts count oldest newest dataAge decision, rule.1 = false) :
    ∀ last ∈ newest, last ≤ decision := by
  intro last hlast
  obtain rfl : newest = some last := hlast
  unfold sourceRules at hrules
  simp only [List.mem_cons, List.not_mem_nil, or_false, forall_eq_or_imp, forall_eq] at hrules
  obtain ⟨hclaimed, -, hmissing, -, -, hfuture⟩ := hrules
  by_contra hlater
  cases oldest with
  | none =>
    by_cases hzero : count = 0
    · simp [hzero] at hclaimed
    · simp [hzero] at hmissing
  | some first => simp [not_le.mp hlater] at hfuture

/-- A checked snapshot has no source of a later instant. -/
theorem FeatureSnapshot.newest_le_of_valid {F : Type} {snapshot : FeatureSnapshot F}
    (hvalid : snapshot.validateSnapshotBoundaries = none) :
    ∀ newest ∈ snapshot.newestSourceTimestamp, newest ≤ snapshot.decisionTimestamp := by
  have hrules := firstBroken_eq_none_iff.mp hvalid
  rw [List.forall_mem_append, List.forall_mem_append] at hrules
  exact newest_le_of_sourceRules hrules.1.2

namespace SingleVenueFeatureEngine

variable {F : Type} [Field F] [LinearOrder F] {engine : SingleVenueFeatureEngine F}
  {reads : SingleVenueReads F} {decision windowSeconds : Int}

omit [Field F] [LinearOrder F] in
/-- No reasons are left when the availability has none, trades are in the window and the statistics are
warm. -/
theorem unavailableReasons_eq_nil_iff (hgraded : reads.availability.Graded) (statisticalWarm : Bool) :
    unavailableReasons reads statisticalWarm = [] ↔
      (reads.availability.isWarm = true ∧ reads.availability.isHealthy = true) ∧
        reads.trades ≠ [] ∧ statisticalWarm = true := by
  rw [hgraded.available_iff]
  have hgiven : ∀ (condition : Prop) [Decidable condition] (reason : FeatureUnavailableReason),
      givenIf condition reason = [] ↔ ¬ condition := by
    intro condition _ reason
    unfold givenIf
    split_ifs with h <;> simp [h]
  unfold unavailableReasons
  rw [uniqueReasons_eq_nil_iff, List.append_eq_nil_iff, List.append_eq_nil_iff, hgiven, hgiven]
  constructor
  · rintro ⟨⟨havailable, htrades⟩, hwarm⟩
    rw [havailable] at htrades
    exact ⟨havailable, fun hnone => htrades ⟨hnone, by simp⟩, by simpa using hwarm⟩
  · rintro ⟨havailable, htrades, hwarm⟩
    exact ⟨⟨havailable, fun hnone => htrades hnone.1⟩, by simp [hwarm]⟩

/-- A snapshot is warm and healthy exactly when it gives no reasons. -/
theorem snapshot_available (engine : SingleVenueFeatureEngine F) (state : VenueSymbolState)
    (hgraded : reads.availability.Graded) (metrics : SingleVenueMetrics F)
    (decision windowSeconds : Int) :
    ((engine.snapshot state reads metrics decision windowSeconds).isWarm &&
        (engine.snapshot state reads metrics decision windowSeconds).isHealthy) =
      (engine.snapshot state reads metrics decision windowSeconds).unavailableReasons.isEmpty := by
  unfold snapshot
  dsimp only
  generalize (metrics.imbalance.2 && metrics.ofi.2 && metrics.returned.2 && metrics.openInterest.2 &&
    (metrics.premium.2 && metrics.funding.2) && metrics.liquidation.2) = statisticalWarm
  rw [Bool.eq_iff_iff, List.isEmpty_iff, unavailableReasons_eq_nil_iff hgraded]
  simp only [Bool.and_eq_true, Bool.not_eq_true', List.isEmpty_eq_false_iff]
  tauto

/-- Of the rules of a snapshot only the one on future sources can be broken. -/
theorem validate_snapshot (engine : SingleVenueFeatureEngine F) (state : VenueSymbolState)
    (hgraded : reads.availability.Graded) {leaves : List (Int × BitVec 256)}
    (hlineage : reads.lineage = typedSummary leaves) (metrics : SingleVenueMetrics F)
    (decision windowSeconds : Int) :
    (engine.snapshot state reads metrics decision windowSeconds).validateSnapshotBoundaries =
      if ∃ newest ∈ reads.lineage.newestTimestamp, decision < newest then
        some "feature snapshot contains a future source event"
      else none := by
  have havailable := snapshot_available engine state hgraded metrics decision windowSeconds
  generalize hsnapshot : engine.snapshot state reads metrics decision windowSeconds = snapshot
    at havailable
  have hcount : snapshot.sourceEventCount = reads.lineage.count := by rw [← hsnapshot]; rfl
  have holdest : snapshot.oldestSourceTimestamp = reads.lineage.oldestTimestamp := by
    rw [← hsnapshot]; rfl
  have hnewest : snapshot.newestSourceTimestamp = reads.lineage.newestTimestamp := by
    rw [← hsnapshot]; rfl
  have hage : snapshot.dataAgeMs.isSome = reads.lineage.newestTimestamp.isSome := by
    rw [← hsnapshot]
    exact Option.isSome_map
  have hcalculated : snapshot.calculationTimestamp = decision := by rw [← hsnapshot]; rfl
  have hdecided : snapshot.decisionTimestamp = decision := by rw [← hsnapshot]; rfl
  unfold FeatureSnapshot.validateSnapshotBoundaries
  rw [hcount, holdest, hnewest, hcalculated, hdecided, hlineage, List.append_assoc]
  rw [hlineage] at hage
  have hrules := sourceRules_typedSummary
    { claimedBounds := "empty snapshots cannot claim source timestamp bounds"
      fabricatedAge := "empty snapshots cannot fabricate a data age"
      missingBounds := "nonempty snapshots require both source timestamp bounds"
      missingAge := "nonempty snapshots require a data age"
      reversed := "source timestamp bounds are reversed"
      future := "feature snapshot contains a future source event" } leaves hage decision
    [(snapshot.isWarm && snapshot.isHealthy && !snapshot.unavailableReasons.isEmpty,
        "available snapshots cannot have unavailable reasons"),
      ((!snapshot.isWarm || !snapshot.isHealthy) && snapshot.unavailableReasons.isEmpty,
        "unavailable snapshots require structured reasons")]
  have hfirst : ∀ rules : List (Bool × String),
      firstBroken ([(decide (decision < decision),
        "calculation_timestamp cannot precede decision_timestamp")] ++ rules) = firstBroken rules := by
    intro rules
    simp [firstBroken]
  rw [hfirst, hrules]
  congr 1
  -- the flags and the reasons
  cases hwarm : snapshot.isWarm <;> cases hhealthy : snapshot.isHealthy <;>
    rw [hwarm, hhealthy] at havailable <;> simp [firstBroken, ← havailable]

/-! ## A calculation over an attended store -/

variable {events : List NormalizedMarketEvent} {timeline : EngineTimeline F} {exchange : Exchange}
  {symbol : String} {channels : List String} {priceCache : SourcedPriceCache NormalizedMarketEvent F}

omit [Field F] [LinearOrder F] in
/-- No direct source is of a later instant. -/
theorem DirectSource.timestamp_le {state : VenueSymbolState}
    {exchangeHealthEvents : BoundedTimeWindow ExchangeHealth} {start : Int}
    {item : TimedValue NormalizedMarketEvent} (hle : start ≤ decision)
    (hitem : engine.DirectSource state exchangeHealthEvents start decision item) :
    item.timestamp ≤ decision := by
  cases hitem with
  | trade trade hin hstart hstop hprice => exact hstop
  | openInterest interest h =>
    show interest.timestamp ≤ decision
    rcases h with hanchor | hlatest
    · exact (BoundedTimeWindow.timestamp_le_of_latest hanchor).trans hle
    · exact BoundedTimeWindow.timestamp_le_of_latest hlatest
  | fundingRate rate h =>
    show rate.timestamp ≤ decision
    exact BoundedTimeWindow.timestamp_le_of_latest h
  | indexPrice index h =>
    show index.timestamp ≤ decision
    exact BoundedTimeWindow.timestamp_le_of_latest h
  | markPrice mark h hprice =>
    show mark.timestamp ≤ decision
    exact BoundedTimeWindow.timestamp_le_of_latest h
  | liquidation liquidation hin hstart hstop => exact hstop
  | health health hin =>
    obtain ⟨scope, hcandidate, -⟩ := (VenueSymbolState.mem_healthSources_iff ..).mp hin
    rcases List.mem_append.mp hcandidate with hcandidate | hcandidate
    · exact (mem_healthCandidates.mp hcandidate).2.2
    · exact (mem_healthCandidates.mp hcandidate).2.2

omit [Field F] [LinearOrder F] in
/-- Only the book view can bring a source of a later instant in. -/
theorem sourceLineage_future {state : VenueSymbolState}
    (hcounts : SourcedPriceCache.Counts engine.priceMath events state.prices priceCache)
    (exchangeHealthEvents : BoundedTimeWindow ExchangeHealth) {bookView : FeatureBookView}
    {booked : List (Int × BitVec 256)} (hbook : bookView.lineage = typedSummary booked) {start : Int}
    (hle : start ≤ decision) :
    ∃ leaves, engine.sourceLineage state exchangeHealthEvents bookView priceCache start decision =
        .ok (typedSummary leaves) ∧
      ((∃ leaf ∈ leaves, decision < leaf.1) ↔ ∃ leaf ∈ booked, decision < leaf.1) := by
  obtain ⟨direct, hdirect, hmem⟩ := mem_directSources hcounts exchangeHealthEvents hle
  obtain ⟨unique, hunique, -, -, hlineage⟩ := directLineage_leaves engine.digest direct
  refine ⟨(engine.pricesRead state start decision).map (PriceHistoryCache.leaf engine.priceMath) ++
    booked ++ unique.map fun item => (item.timestamp, engine.digest item.timestamp item.value), ?_, ?_⟩
  · unfold sourceLineage
    rw [hdirect, hcounts.lineage ((engine.priceStart_le start decision).trans hle)]
    show Except.ok (((typedSummary ((engine.pricesRead state start decision).map
      (PriceHistoryCache.leaf engine.priceMath))).combine bookView.lineage).combine
        (directLineage engine.digest direct)) = _
    rw [hbook, hlineage, typedSummary_append, typedSummary_append]
  · constructor
    · rintro ⟨leaf, hleaf, hlt⟩
      rcases List.mem_append.mp hleaf with hleaf | hleaf
      · rcases List.mem_append.mp hleaf with hprice | hin
        · obtain ⟨item, hitem, rfl⟩ := List.mem_map.mp hprice
          have hwithin := of_decide_eq_true (List.mem_filter.mp hitem).2
          exact absurd hlt (not_lt.mpr hwithin.2)
        · exact ⟨leaf, hin, hlt⟩
      · obtain ⟨item, hitem, rfl⟩ := List.mem_map.mp hleaf
        exact absurd hlt (not_lt.mpr (((hmem item).mp (hunique item hitem)).timestamp_le hle))
    · rintro ⟨leaf, hleaf, hlt⟩
      exact ⟨leaf, List.mem_append_left _ (List.mem_append_right _ hleaf), hlt⟩

/-- Every query of a window with a length is answered. -/
theorem exists_reads {state : VenueSymbolState}
    (hcounts : SourcedPriceCache.Counts engine.priceMath events state.prices priceCache)
    (exchangeHealthEvents : BoundedTimeWindow ExchangeHealth) (channels : List String)
    {booked : List (Int × BitVec 256)}
    (hbook : (state.bookViewAsOf engine.settings.features decision).lineage = typedSummary booked)
    (hpos : 0 < windowSeconds) :
    ∃ reads leaves, engine.reads state exchangeHealthEvents channels priceCache decision windowSeconds =
        .ok reads ∧ reads.availability.Graded ∧ reads.lineage = typedSummary leaves ∧
      ((∃ leaf ∈ leaves, decision < leaf.1) ↔ ∃ leaf ∈ booked, decision < leaf.1) := by
  have hstale : 0 < engine.policy.openInterestStaleAfter := by
    have := engine.settings.openInterestStaleAfterMs_pos
    show (0 : Int) < engine.settings.openInterestStaleAfterMs * 1000
    omega
  have hlength : 0 < windowSeconds * secondMicros := by
    unfold secondMicros
    omega
  have hle : windowStart decision windowSeconds ≤ decision := (windowStart_lt hpos).le
  have hprevious : windowStart decision windowSeconds - windowSeconds * secondMicros ≤
      windowStart decision windowSeconds := by omega
  -- every query of the price cache is over some stretch of its points
  have hstretch : ∀ start : Int, start ≤ decision → ∃ front selected behind,
      priceCache.cache.Stretch start decision front selected behind := by
    intro start hstart
    obtain ⟨front, selected, behind, hs, -⟩ := PriceHistoryCache.exists_stretch hcounts.behind.sorted
      hcounts.behind.start_le hcounts.active hstart
    exact ⟨front, selected, behind, hs⟩
  have hback : ∀ seconds : Nat, decision - seconds * secondMicros ≤ decision := by
    intro seconds
    unfold secondMicros
    omega
  obtain ⟨_, _, _, hrange⟩ := hstretch _ hle
  obtain ⟨priceRange, hpriceRange⟩ := hrange.exists_range engine.priceMath
  obtain ⟨_, _, _, hatrStretch⟩ := hstretch _ (hback engine.settings.atrPeriodSeconds)
  obtain ⟨atr, hatr⟩ := hatrStretch.exists_atr
  obtain ⟨_, _, _, htrailingStretch⟩ := hstretch _ (hback engine.settings.breakoutLookbackSeconds)
  obtain ⟨trailing, htrailing⟩ := htrailingStretch.exists_highLow
  obtain ⟨leaves, hlineage, hfuture⟩ := sourceLineage_future hcounts exchangeHealthEvents hbook hle
  obtain ⟨availability, havailability⟩ : ∃ availability, state.availabilityAsOf engine.policy
      exchangeHealthEvents channels decision (windowSeconds * secondMicros)
        (state.bookViewAsOf engine.settings.features decision) = .ok availability :=
    ⟨_, state.availabilityAsOf_eq hstale exchangeHealthEvents channels decision hlength _⟩
  have hgraded := VenueSymbolState.availabilityAsOf_graded hstale havailability
  obtain ⟨trades, htrades⟩ := state.trades.exists_between hle
  obtain ⟨previousTrades, hpreviousTrades⟩ := state.trades.exists_between hprevious
  obtain ⟨checkpoints, hcheckpoints⟩ := state.bookHistory.exists_between hle
  obtain ⟨liquidations, hliquidations⟩ := state.liquidations.exists_between hle
  let reads : SingleVenueReads F :=
    { bookView := state.bookViewAsOf engine.settings.features decision
      availability
      trades
      previousTrades
      checkpoints
      priceRange
      atr
      trailing
      latestOpenInterest := state.openInterest.latestAtOrBefore decision
      anchorOpenInterest :=
        state.openInterest.latestAtOrBefore (windowStart decision windowSeconds)
      fundingRate := state.fundingRates.latestAtOrBefore decision
      markPrice := state.markPrices.latestAtOrBefore decision
      indexPrice := state.indexPrices.latestAtOrBefore decision
      liquidations
      lineage := typedSummary leaves }
  have hread : ReadFrom engine state exchangeHealthEvents channels priceCache decision windowSeconds
      reads :=
    { bookView := rfl
      availability := havailability
      trades := htrades
      previousTrades := hpreviousTrades
      checkpoints := hcheckpoints
      priceRange := hpriceRange
      atr := hatr
      trailing := htrailing
      latestOpenInterest := rfl
      anchorOpenInterest := rfl
      fundingRate := rfl
      markPrice := rfl
      indexPrice := rfl
      liquidations := hliquidations
      lineage := hlineage }
  exact ⟨reads, leaves, reads_ok_iff.mpr hread, hgraded, rfl, hfuture⟩

section

variable {memory after : SingleVenueMemory F} {state : VenueSymbolState}
  {exchangeHealthEvents : BoundedTimeWindow ExchangeHealth} {snapshot : FeatureSnapshot F} {text : String}

theorem calculate_unassembled
    (h : engine.assemble memory state exchangeHealthEvents channels decision windowSeconds = .error text) :
    engine.calculate memory state exchangeHealthEvents channels decision windowSeconds = .error text := by
  unfold calculate
  rw [h]
  rfl

/-- What is put together is checked number by number, and then as a snapshot. -/
theorem calculate_assembled
    (h : engine.assemble memory state exchangeHealthEvents channels decision windowSeconds =
      .ok (snapshot, after)) :
    engine.calculate memory state exchangeHealthEvents channels decision windowSeconds =
      if snapshot.checkedNumbers.all engine.math.isFinite then
        snapshot.validated.map fun checked => (checked, after)
      else .error "feature values must be finite" := by
  unfold calculate FeatureMath.ensureFinite
  rw [h]
  dsimp only [bind, Except.bind]
  split_ifs
  · cases snapshot.validated <;> rfl
  · rfl

end

/-- The book as of a decision counts an update of a later instant. -/
def BookAhead (engine : SingleVenueFeatureEngine F) (store : MarketStateStore) (exchange : Exchange)
    (symbol : String) (decision : Int) : Prop :=
  ∃ newest ∈ ((store.lookup exchange symbol).bookViewAsOf engine.settings.features
    decision).lineage.newestTimestamp, decision < newest

/-- A number that the calculation puts together is not finite. -/
def Overflows (engine : SingleVenueFeatureEngine F) (timeline : EngineTimeline F) (exchange : Exchange)
    (symbol : String) (channels : List String) (decision windowSeconds : Int) : Prop :=
  ∃ snapshot memory, timeline.assemble engine exchange symbol channels decision windowSeconds =
    .ok (snapshot, memory) ∧ ∃ number ∈ snapshot.checkedNumbers, engine.math.isFinite number = false

/-- What is put together for a configured window with a length breaks no rule but the one on future sources,
which it breaks where the book is ahead. -/
theorem exists_assembled (h : Attended engine events timeline)
    (hconfigured : windowSeconds ∈ engine.settings.featureWindowsSeconds) (hpos : 0 < windowSeconds)
    (exchange : Exchange) (symbol : String) (channels : List String) (decision : Int) :
    ∃ snapshot memory, timeline.assemble engine exchange symbol channels decision windowSeconds =
        .ok (snapshot, memory) ∧ snapshot.symbol = symbol ∧
      (BookAhead engine timeline.store exchange symbol decision →
        snapshot.validateSnapshotBoundaries = some "feature snapshot contains a future source event") ∧
      (¬ BookAhead engine timeline.store exchange symbol decision →
        snapshot.validateSnapshotBoundaries = none) := by
  obtain ⟨taken, htaken⟩ := (h.holds.book exchange symbol).bookViewAsOf engine.settings.features decision
  obtain ⟨priceCache, hupdated, hcounts⟩ := h.updated exchange symbol
  obtain ⟨reads, leaves, hreads, hgraded, hlineage, hfuture⟩ := exists_reads hcounts
    (timeline.store.exchangeHealthEvents exchange) channels htaken.lineage hpos
  obtain ⟨hexchange, hsymbol⟩ := timeline.store.lookup_key exchange symbol
  have hvalid := validate_snapshot engine (timeline.store.lookup exchange symbol) hgraded hlineage
    (engine.metrics (timeline.memory.enterGeneration (timeline.store.lookup exchange symbol)
      reads.bookView.generation) (timeline.store.lookup exchange symbol) reads decision windowSeconds).1
        decision windowSeconds
  have hafter : (∃ newest ∈ reads.lineage.newestTimestamp, decision < newest) ↔
      BookAhead engine timeline.store exchange symbol decision := by
    unfold BookAhead
    rw [htaken.lineage, hlineage, newest_after_iff, newest_after_iff, hfuture]
  have hkey : (timeline.memory.priceCaches ((timeline.store.lookup exchange symbol).exchange,
      (timeline.store.lookup exchange symbol).symbol)).update engine.priceMath
        (timeline.store.lookup exchange symbol).prices = .ok priceCache := by
    rw [hexchange, hsymbol]
    exact hupdated
  refine ⟨_, _, assemble_ok_iff.mpr ⟨priceCache, reads, hconfigured, hkey, hreads, rfl, rfl⟩, hsymbol, ?_, ?_⟩
  · intro hahead
    rw [hvalid, if_pos (hafter.mpr hahead)]
  · intro hnot
    rw [hvalid, if_neg (mt hafter.mp hnot)]

/-- A calculation for a configured window with a length ends in one of four ways. -/
theorem calculate_cases (h : Attended engine events timeline)
    (hconfigured : windowSeconds ∈ engine.settings.featureWindowsSeconds) (hpos : 0 < windowSeconds)
    (exchange : Exchange) (symbol : String) (channels : List String) (decision : Int) :
    (Overflows engine timeline exchange symbol channels decision windowSeconds ∧
        timeline.calculate engine exchange symbol channels decision windowSeconds =
          .error "feature values must be finite") ∨
      ¬ Overflows engine timeline exchange symbol channels decision windowSeconds ∧
        ((∃ text, checkedSymbol symbol = .error text ∧
            timeline.calculate engine exchange symbol channels decision windowSeconds = .error text) ∨
          (∃ canonical, checkedSymbol symbol = .ok canonical) ∧
            ((BookAhead engine timeline.store exchange symbol decision ∧
                timeline.calculate engine exchange symbol channels decision windowSeconds =
                  .error "feature snapshot contains a future source event") ∨
              (¬ BookAhead engine timeline.store exchange symbol decision ∧
                ∃ snapshot memory,
                  timeline.calculate engine exchange symbol channels decision windowSeconds =
                    .ok (snapshot, memory)))) := by
  obtain ⟨assembled, memory, hassembled, hsymbol, hfuture, hpast⟩ :=
    exists_assembled h hconfigured hpos exchange symbol channels decision
  have hcalculate : timeline.calculate engine exchange symbol channels decision windowSeconds = _ :=
    calculate_assembled hassembled
  have hoverflows : Overflows engine timeline exchange symbol channels decision windowSeconds ↔
      ¬ assembled.checkedNumbers.all engine.math.isFinite = true := by
    rw [List.all_eq_true]
    push Not
    constructor
    · rintro ⟨other, otherMemory, hother, number, hin, hnumber⟩
      obtain ⟨rfl, -⟩ := Prod.mk.inj (Except.ok.inj (hother.symm.trans hassembled))
      exact ⟨number, hin, Bool.eq_false_iff.mp hnumber⟩
    · rintro ⟨number, hin, hnumber⟩
      exact ⟨assembled, memory, hassembled, number, hin, Bool.eq_false_iff.mpr hnumber⟩
  rw [hcalculate]
  by_cases hfinite : assembled.checkedNumbers.all engine.math.isFinite = true
  · refine .inr ⟨fun hover => hoverflows.mp hover hfinite, ?_⟩
    rw [if_pos hfinite]
    unfold FeatureSnapshot.validated
    rw [hsymbol]
    cases hchecked : checkedSymbol symbol with
    | error text => exact .inl ⟨text, rfl, rfl⟩
    | ok canonical =>
      refine .inr ⟨⟨canonical, rfl⟩, ?_⟩
      dsimp only [bind, Except.bind]
      by_cases hahead : BookAhead engine timeline.store exchange symbol decision
      · rw [hfuture hahead]
        exact .inl ⟨hahead, rfl⟩
      · rw [hpast hahead]
        exact .inr ⟨hahead, _, _, rfl⟩
  · rw [if_neg hfinite]
    exact .inl ⟨hoverflows.mpr hfinite, rfl⟩

/-- A configured window without a length is refused, whatever the symbol. -/
theorem calculate_short (h : Attended engine events timeline)
    (hconfigured : windowSeconds ∈ engine.settings.featureWindowsSeconds) (hneg : windowSeconds ≤ 0)
    (exchange : Exchange) (symbol : String) (channels : List String) (decision : Int) :
    timeline.calculate engine exchange symbol channels decision windowSeconds =
      .error "warmup must be positive" := by
  have hwarmup : windowSeconds * secondMicros ≤ 0 := by
    unfold secondMicros
    omega
  obtain ⟨priceCache, hupdated, -⟩ := h.updated exchange symbol
  obtain ⟨hexchange, hsymbol⟩ := timeline.store.lookup_key exchange symbol
  apply calculate_unassembled
  unfold assemble
  rw [if_neg (not_not.mpr hconfigured)]
  dsimp only
  rw [hexchange, hsymbol, hupdated]
  dsimp only [bind, Except.bind]
  unfold SingleVenueFeatureEngine.reads
  dsimp only
  rw [VenueSymbolState.availabilityAsOf_error _ _ _ _ hwarmup]
  rfl

/-- In every run of different events a calculation raises for a window that is not configured or has no
length, then for a number that is not finite, then for a symbol that no event may have, and otherwise exactly
when the book as of the decision counts an update of a later instant. -/
theorem calculate_raises_iff {steps : List EngineStep} (hevents : (engineEvents steps).Nodup)
    (hrun : EngineTimeline.run engine steps = .ok timeline) (exchange : Exchange) (symbol : String)
    (channels : List String) (decision windowSeconds : Int) (text : String) :
    timeline.calculate engine exchange symbol channels decision windowSeconds = .error text ↔
      (windowSeconds ∉ engine.settings.featureWindowsSeconds ∧
        text = "window_seconds is not a configured feature window") ∨
      (windowSeconds ∈ engine.settings.featureWindowsSeconds ∧ windowSeconds ≤ 0 ∧
        text = "warmup must be positive") ∨
      (windowSeconds ∈ engine.settings.featureWindowsSeconds ∧ 0 < windowSeconds ∧
        Overflows engine timeline exchange symbol channels decision windowSeconds ∧
        text = "feature values must be finite") ∨
      (windowSeconds ∈ engine.settings.featureWindowsSeconds ∧ 0 < windowSeconds ∧
        ¬ Overflows engine timeline exchange symbol channels decision windowSeconds ∧
        checkedSymbol symbol = .error text) ∨
      (windowSeconds ∈ engine.settings.featureWindowsSeconds ∧ 0 < windowSeconds ∧
        ¬ Overflows engine timeline exchange symbol channels decision windowSeconds ∧
        (∃ canonical, checkedSymbol symbol = .ok canonical) ∧
        BookAhead engine timeline.store exchange symbol decision ∧
        text = "feature snapshot contains a future source event") := by
  have h := Attended.run hevents hrun
  by_cases hconfigured : windowSeconds ∈ engine.settings.featureWindowsSeconds
  · rcases lt_or_ge 0 windowSeconds with hpos | hneg
    · have hnotNeg := not_le.mpr hpos
      rcases calculate_cases h hconfigured hpos exchange symbol channels decision with
        ⟨hover, hraised⟩ | ⟨hfinite, ⟨refusal, hrefused, hraised⟩ | ⟨⟨canonical, haccepted⟩,
          ⟨hahead, hraised⟩ | ⟨hnot, snapshot, memory, hreturned⟩⟩⟩
      · rw [hraised]
        simp [hconfigured, hpos, hnotNeg, hover, eq_comm]
      · rw [hraised, hrefused]
        simp [hconfigured, hpos, hnotNeg, hfinite]
      · rw [hraised, haccepted]
        simp [hconfigured, hpos, hnotNeg, hfinite, hahead, eq_comm]
      · rw [hreturned, haccepted]
        simp [hconfigured, hpos, hnotNeg, hfinite, hnot]
    · have hraised := calculate_short h hconfigured hneg exchange symbol channels decision
      rw [hraised]
      simp [hconfigured, hneg, not_lt.mpr hneg, eq_comm]
  · have hraised : timeline.calculate engine exchange symbol channels decision windowSeconds =
        .error "window_seconds is not a configured feature window" := by
      apply calculate_unassembled
      exact if_pos hconfigured
    rw [hraised]
    simp [hconfigured, eq_comm]

/-- An update that waited at ten seconds is counted by the snapshot that arrives for five. -/
def exampleFutureSteps : List EngineStep :=
  [.store (.ingest (.orderBookUpdate exampleBuffered)),
    .store (.ingest (.orderBookSnapshot (exampleSnapshot 5000000 1)))]

theorem calculate_raises_iff_buffered : ∃ timeline,
    EngineTimeline.run exampleEngine exampleFutureSteps = .ok timeline ∧
      timeline.calculate exampleEngine .binance "BTC-USDT-PERP" [] 7000000 5 =
        .error "feature snapshot contains a future source event" := by
  let store := MarketStateStore.run exampleEngine.digest exampleFeatures
    [.ingest (.orderBookUpdate exampleBuffered),
      .ingest (.orderBookSnapshot (exampleSnapshot 5000000 1))]
  let timeline : EngineTimeline ℚ := { store, memory := .new exampleEngineSettings }
  have hrun : EngineTimeline.run exampleEngine exampleFutureSteps = .ok timeline := rfl
  have hnewest : ((store.lookup .binance "BTC-USDT-PERP").bookViewAsOf exampleFeatures
      7000000).lineage.newestTimestamp = some 10000000 := by decide +kernel
  have hdistinct : (engineEvents exampleFutureSteps).Nodup := by decide +kernel
  have hsymbol : ∃ canonical, checkedSymbol "BTC-USDT-PERP" = .ok canonical :=
    ⟨"BTC-USDT-PERP", by decide +kernel⟩
  have hnumbers : (timeline.assemble exampleEngine .binance "BTC-USDT-PERP" [] 7000000 5).toOption.all
      (fun assembled => assembled.1.checkedNumbers.all exampleEngine.math.isFinite) = true := by
    decide +kernel
  have hfinite : ¬ Overflows exampleEngine timeline .binance "BTC-USDT-PERP" [] 7000000 5 := by
    rintro ⟨snapshot, memory, hassembled, number, hin, hnumber⟩
    rw [hassembled] at hnumbers
    exact Bool.eq_false_iff.mp hnumber (List.all_eq_true.mp hnumbers number hin)
  refine ⟨timeline, hrun, (calculate_raises_iff hdistinct hrun .binance "BTC-USDT-PERP" [] 7000000 5 _).mpr
    (.inr (.inr (.inr (.inr ⟨?_, by norm_num, hfinite, hsymbol, ⟨10000000, hnewest, by norm_num⟩, rfl⟩))))⟩
  exact List.mem_cons_self

/-- A trade of one contract, and one of `10 ^ 400` a window later. -/
def exampleHugeSteps : List EngineStep :=
  [.store (.ingest (.trade exampleTrade)),
    .store (.ingest (.trade
      { exampleTrade with exchangeTimestamp := 9000000, tradeId := "2", quantity := 10 ^ 400 }))]

example : (EngineTimeline.run exampleEngine exampleHugeSteps >>= fun timeline =>
    (timeline.calculate exampleEngine .binance "BTC-USDT-PERP" [] 10000000 5).map fun _ => ()) =
      .error "feature values must be finite" := by decide +kernel

end SingleVenueFeatureEngine

/-! ## Books that only move forward -/

/-- The book and every checkpoint count no event of a later instant. -/
structure LineageBehind (state : VenueSymbolState) : Prop where
  current : ∀ newest ∈ state.orderBook.lineage.newestTimestamp,
    ∃ mark ∈ state.bookHistory.watermark, newest ≤ mark
  checkpoints : ∀ item ∈ state.bookHistory.items,
    ∀ newest ∈ item.value.view.lineage.newestTimestamp, newest ≤ item.timestamp

namespace LineageBehind

variable {digest : SourceDigest} {config : FeaturesConfig} {state : VenueSymbolState}

theorem create (config : FeaturesConfig) (exchange : Exchange) (symbol : String) :
    LineageBehind (.create config exchange symbol) where
  current := fun _ hnewest => by cases hnewest
  checkpoints := fun _ hitem => absurd hitem List.not_mem_nil

theorem congr (h : LineageBehind state) {after : VenueSymbolState}
    (hbook : after.orderBook = state.orderBook) (hhistory : after.bookHistory = state.bookHistory) :
    LineageBehind after where
  current := by
    rw [hbook, hhistory]
    exact h.current
  checkpoints := by
    rw [hhistory]
    exact h.checkpoints

/-- What is combined of sources up to an instant has none of a later one. -/
theorem newest_combine {a b : SourceLineage} {instant : Int}
    (ha : ∀ newest ∈ a.newestTimestamp, newest ≤ instant)
    (hb : ∀ newest ∈ b.newestTimestamp, newest ≤ instant) :
    ∀ newest ∈ (a.combine b).newestTimestamp, newest ≤ instant := by
  unfold SourceLineage.combine
  split_ifs
  · intro newest hnewest
    cases hnewest
  · show ∀ newest ∈ maxOption a.newestTimestamp b.newestTimestamp, newest ≤ instant
    cases hfirst : a.newestTimestamp with
    | none => exact hb
    | some first =>
      cases hsecond : b.newestTimestamp with
      | none =>
        rw [hfirst] at ha
        exact ha
      | some second =>
        intro newest hnewest
        obtain rfl : max first second = newest := Option.some.inj hnewest
        exact max_le (ha first hfirst) (hb second hsecond)

/-- A taken event that is not before the newest checkpoint. -/
theorem ingestBook (h : LineageBehind state) {event : NormalizedMarketEvent}
    (htaken : BookTaken digest config state event)
    (hforward : ∀ mark ∈ state.bookHistory.watermark, mark ≤ event.base.exchangeTimestamp) :
    LineageBehind (state.ingestBook digest config event).1 := by
  have hrecorded := htaken.recorded
  obtain ⟨checkpoint, hview, hhistory⟩ := htaken.history
  have hforwardHistory := forward_iff.mpr hforward
  obtain ⟨hsuffix, -⟩ := BoundedTimeWindow.append_forward checkpoint hforwardHistory
  have hwatermark : (state.bookHistory.append event.base.exchangeTimestamp checkpoint).1.watermark =
      some event.base.exchangeTimestamp := by
    rw [(BoundedTimeWindow.append_of_accepted checkpoint
      (BoundedTimeWindow.admissibility_of_forward hforwardHistory)).2.2.1,
      BoundedTimeWindow.advanced_of_forward hforwardHistory]
  obtain ⟨-, -, hlineage, -⟩ := (state.ingestBook digest config event).1.bookView_fields config
  -- the lineage the event is recorded in is up to the newest checkpoint, and so up to the event
  have hnewest : ∀ newest ∈ (state.ingestBook digest config event).1.orderBook.lineage.newestTimestamp,
      newest ≤ event.base.exchangeTimestamp := by
    rw [hrecorded.lineage]
    apply newest_combine
    · intro newest hold
      unfold FeatureOrderBookState.lineageIn at hold
      split_ifs at hold
      · obtain ⟨mark, hmark, hle⟩ := h.current newest hold
        exact hle.trans (hforward mark hmark)
      · cases hold
    · intro newest hnew
      exact (Option.some.inj hnew).ge
  rw [← hview] at hlineage
  rw [← hhistory] at hsuffix hwatermark
  refine ⟨fun newest hin => ⟨_, hwatermark, hnewest newest hin⟩, fun item hitem => ?_⟩
  rcases List.mem_append.mp (hsuffix.subset hitem) with hold | hnew
  · exact h.checkpoints item hold
  · obtain rfl := List.mem_singleton.mp hnew
    show ∀ newest ∈ checkpoint.view.lineage.newestTimestamp, newest ≤ event.base.exchangeTimestamp
    rw [hlineage]
    exact hnewest

/-- The view as of a decision counts nothing of a later instant. -/
theorem bookViewAsOf (h : LineageBehind state) (config : FeaturesConfig) (decision : Int) :
    ¬ ∃ newest ∈ (state.bookViewAsOf config decision).lineage.newestTimestamp, decision < newest := by
  rintro ⟨newest, hnewest, hlt⟩
  unfold VenueSymbolState.bookViewAsOf at hnewest
  cases hlatest : state.bookHistory.latestAtOrBefore decision with
  | none =>
    rw [hlatest] at hnewest
    cases hnewest
  | some checkpoint =>
    rw [hlatest] at hnewest
    have hle := h.checkpoints checkpoint (BoundedTimeWindow.mem_of_latest hlatest) newest hnewest
    have hdecision := BoundedTimeWindow.timestamp_le_of_latest hlatest
    omega

/-- An operation whose book event, if it takes one, is not before the newest checkpoint. -/
theorem perform {store : MarketStateStore}
    (h : ∀ exchange symbol, LineageBehind (store.lookup exchange symbol))
    (hordered : ∀ exchange symbol, BookWindowsOrdered (store.lookup exchange symbol))
    {operation : MarketStateStore.StoreOperation} (hforward : BookMovesForward digest store operation)
    (exchange : Exchange) (symbol : String) :
    LineageBehind ((store.perform digest operation).lookup exchange symbol) := by
  rcases store.lookup_perform digest operation exchange symbol with
    ⟨event, rfl, -, rfl, rfl, hlookup⟩ | ⟨events, channels, hlookup⟩
  · rw [hlookup]
    have hstate := h event.base.exchange event.base.symbol
    cases hbook : event.isBook with
    | false =>
      obtain ⟨horderBook, hhistory, -⟩ := VenueSymbolState.ingest_scalar_book digest store.config
        (store.lookup event.base.exchange event.base.symbol) hbook
      exact hstate.congr horderBook hhistory
    | true =>
      rw [VenueSymbolState.ingest_eq_ingestBook digest store.config _ hbook]
      rcases VenueSymbolState.ingestBook_cases digest store.config
          (hordered event.base.exchange event.base.symbol) hbook with
        ⟨status, reason, hreject, -⟩ | htaken
      · rw [hreject]
        exact hstate.congr rfl rfl
      · apply hstate.ingestBook htaken
        apply forward_iff.mp
        refine hforward ⟨hbook, BoundedTimeWindow.admissibility_of_forward htaken.admitted, ?_⟩
        have htook := htaken.recorded.taken
        revert htook
        cases ((store.lookup event.base.exchange event.base.symbol).orderBook.apply digest event).2 <;>
          simp [StateUpdateStatus.isTaken, StateUpdateStatus.isStale]
  · rw [hlookup]
    exact (h exchange symbol).congr rfl rfl

end LineageBehind

/-- The operations on the store among the steps. -/
def storeOperations (steps : List EngineStep) : List MarketStateStore.StoreOperation :=
  steps.filterMap fun
    | .store operation => some operation
    | .calculate .. => none

/-- The steps ask for windows that are configured and have a length, and for canonical symbols. -/
def AsksConfigured {F : Type} (engine : SingleVenueFeatureEngine F) (steps : List EngineStep) : Prop :=
  ∀ exchange symbol channels decision windowSeconds,
    .calculate exchange symbol channels decision windowSeconds ∈ steps →
      windowSeconds ∈ engine.settings.featureWindowsSeconds ∧ 0 < windowSeconds ∧
        checkedSymbol symbol = .ok symbol

namespace SingleVenueFeatureEngine

variable {F : Type} [Field F] [LinearOrder F] {engine : SingleVenueFeatureEngine F}

/-- A calculation of the run, over what the steps before it leave behind, puts together a number that is not
finite. -/
def RunOverflows (engine : SingleVenueFeatureEngine F) (steps : List EngineStep) : Prop :=
  ∃ earlier timeline exchange symbol channels decision windowSeconds,
    earlier ++ [.calculate exchange symbol channels decision windowSeconds] <+: steps ∧
      EngineTimeline.run engine earlier = .ok timeline ∧
      Overflows engine timeline exchange symbol channels decision windowSeconds

/-- Over a book that is not ahead of any decision, a calculation of a canonical symbol is refused only for a
number that is not finite. -/
theorem calculate_behind {events : List NormalizedMarketEvent} {timeline : EngineTimeline F}
    (h : Attended engine events timeline) {exchange : Exchange} {symbol : String}
    (hbehind : LineageBehind (timeline.store.lookup exchange symbol)) {windowSeconds : Int}
    (hconfigured : windowSeconds ∈ engine.settings.featureWindowsSeconds) (hpos : 0 < windowSeconds)
    (hcanonical : checkedSymbol symbol = .ok symbol) (channels : List String) (decision : Int) :
    (Overflows engine timeline exchange symbol channels decision windowSeconds ∧
        timeline.calculate engine exchange symbol channels decision windowSeconds =
          .error "feature values must be finite") ∨
      ∃ snapshot memory, timeline.calculate engine exchange symbol channels decision windowSeconds =
        .ok (snapshot, memory) := by
  rcases calculate_cases h hconfigured hpos exchange symbol channels decision with
    hover | ⟨-, ⟨text, hrefused, -⟩ | ⟨-, ⟨hahead, -⟩ | ⟨-, hreturned⟩⟩⟩
  · exact .inl hover
  · rw [hcanonical] at hrefused
    cases hrefused
  · exact absurd hahead (hbehind.bookViewAsOf engine.settings.features decision)
  · exact .inr hreturned

theorem RunOverflows.concat {steps : List EngineStep} (h : RunOverflows engine steps) (last : EngineStep) :
    RunOverflows engine (steps ++ [last]) := by
  obtain ⟨earlier, timeline, exchange, symbol, channels, decision, windowSeconds, hprefix, hrest⟩ := h
  exact ⟨earlier, timeline, exchange, symbol, channels, decision, windowSeconds,
    hprefix.trans (List.prefix_append _ _), hrest⟩

/-- A run whose books only move forward, by itself. -/
theorem forward_run {steps : List EngineStep} (hevents : (engineEvents steps).Nodup)
    (hforward : Admitted (MarketStateStore.perform engine.digest) (BookMovesForward engine.digest)
      (.new engine.settings.features) (storeOperations steps))
    (hasks : AsksConfigured engine steps) :
    (RunOverflows engine steps ∧
        EngineTimeline.run engine steps = .error "feature values must be finite") ∨
      ∃ timeline, EngineTimeline.run engine steps = .ok timeline ∧
        timeline.store = MarketStateStore.run engine.digest engine.settings.features
          (storeOperations steps) ∧
        ∀ exchange symbol, LineageBehind (timeline.store.lookup exchange symbol) := by
  induction steps using List.reverseRecOn with
  | nil => exact .inr ⟨_, rfl, rfl, fun exchange symbol => .create _ exchange symbol⟩
  | append_singleton steps last ih =>
    have hevents' := hevents
    rw [engineEvents_concat] at hevents'
    have hasks' : AsksConfigured engine steps := fun exchange symbol channels decision windowSeconds hin =>
      hasks exchange symbol channels decision windowSeconds (List.mem_append_left _ hin)
    have hoperations : storeOperations (steps ++ [last]) =
        storeOperations steps ++ storeOperations [last] := List.filterMap_append
    rw [hoperations, admitted_append] at hforward
    rcases ih (List.nodup_append.mp hevents').1 hforward.1 hasks' with
      ⟨hover, hraised⟩ | ⟨timeline, hrun, hstore, hbehind⟩
    · refine .inl ⟨hover.concat last, ?_⟩
      rw [EngineTimeline.run_concat, hraised]
      rfl
    have h := Attended.run (List.nodup_append.mp hevents').1 hrun
    rw [EngineTimeline.run_concat, hrun, hoperations]
    cases last with
    | store operation =>
      have hmoves : BookMovesForward engine.digest timeline.store operation := by
        rw [hstore]
        exact hforward.2.1
      refine .inr ⟨_, rfl, ?_, LineageBehind.perform hbehind h.holds.ordered hmoves⟩
      show timeline.store.perform engine.digest operation =
        MarketStateStore.run engine.digest engine.settings.features
          (storeOperations steps ++ [operation])
      unfold MarketStateStore.run
      rw [List.foldl_append, hstore]
      rfl
    | calculate exchange symbol channels decision windowSeconds =>
      obtain ⟨hconfigured, hpos, hcanonical⟩ := hasks exchange symbol channels decision windowSeconds
        (List.mem_append_right _ List.mem_cons_self)
      rcases calculate_behind h (hbehind exchange symbol) hconfigured hpos hcanonical channels decision with
        ⟨hover, hraised⟩ | ⟨snapshot, memory, hreturned⟩
      · refine .inl ⟨⟨steps, timeline, exchange, symbol, channels, decision, windowSeconds,
          List.prefix_refl _, hrun, hover⟩, ?_⟩
        show timeline.perform engine (.calculate exchange symbol channels decision windowSeconds) = _
        unfold EngineTimeline.perform
        dsimp only
        rw [hraised]
      · -- a calculation leaves the store alone
        refine .inr ⟨{ timeline with memory }, ?_, ?_, hbehind⟩
        · show timeline.perform engine (.calculate exchange symbol channels decision windowSeconds) = _
          unfold EngineTimeline.perform
          dsimp only
          rw [hreturned]
        · show timeline.store = MarketStateStore.run engine.digest engine.settings.features
            (storeOperations steps ++ [])
          rw [List.append_nil, hstore]

/-- Where no book event is taken that is before the newest checkpoint, a run of configured windows and
canonical symbols ends early only for a number that is not finite, and so does each further calculation: all
others return a snapshot without a source of a later instant. -/
theorem forward_run_completes {steps : List EngineStep} (hevents : (engineEvents steps).Nodup)
    (hforward : Admitted (MarketStateStore.perform engine.digest) (BookMovesForward engine.digest)
      (.new engine.settings.features) (storeOperations steps))
    (hasks : AsksConfigured engine steps) :
    (RunOverflows engine steps ∧
        EngineTimeline.run engine steps = .error "feature values must be finite") ∨
      ∃ timeline, EngineTimeline.run engine steps = .ok timeline ∧
        ∀ exchange symbol channels decision, ∀ windowSeconds ∈ engine.settings.featureWindowsSeconds,
          0 < windowSeconds → checkedSymbol symbol = .ok symbol →
            (Overflows engine timeline exchange symbol channels decision windowSeconds ∧
                timeline.calculate engine exchange symbol channels decision windowSeconds =
                  .error "feature values must be finite") ∨
              ∃ snapshot memory,
                timeline.calculate engine exchange symbol channels decision windowSeconds =
                    .ok (snapshot, memory) ∧
                  ((snapshot.isWarm = true ∧ snapshot.isHealthy = true) ↔
                    snapshot.unavailableReasons = []) ∧
                  ∀ newest ∈ snapshot.newestSourceTimestamp, newest ≤ decision := by
  refine (forward_run hevents hforward hasks).imp_right ?_
  rintro ⟨timeline, hrun, -, hbehind⟩
  have h := Attended.run hevents hrun
  refine ⟨timeline, hrun,
    fun exchange symbol channels decision windowSeconds hconfigured hpos hcanonical => ?_⟩
  rcases calculate_behind h (hbehind exchange symbol) hconfigured hpos hcanonical channels decision with
    hover | ⟨snapshot, memory, hreturned⟩
  · exact .inl hover
  · obtain ⟨priceCache, reads, hdone⟩ := calculate_ok_iff.mp hreturned
    refine .inr ⟨snapshot, memory, hreturned, ?_, ?_⟩
    · exact FeatureSnapshot.available_iff_of_valid hdone.valid
    · have hdecided : snapshot.decisionTimestamp = decision := by
        rw [hdone.assembled]
        rfl
      rw [← hdecided]
      exact FeatureSnapshot.newest_le_of_valid hdone.valid

/-- A trade, a snapshot of the book and a calculation between them. -/
def exampleForwardSteps : List EngineStep :=
  [.store (.ingest (.trade exampleTrade)), .calculate .binance "BTC-USDT-PERP" [] 6000000 5,
    .store (.ingest (.orderBookSnapshot (exampleSnapshot 7000000 1)))]

theorem forward_run_completes_snapshot : ∃ timeline snapshot memory,
    EngineTimeline.run exampleEngine exampleForwardSteps = .ok timeline ∧
      timeline.calculate exampleEngine .binance "BTC-USDT-PERP" [] 8000000 5 = .ok (snapshot, memory) ∧
      ((snapshot.isWarm = true ∧ snapshot.isHealthy = true) ↔ snapshot.unavailableReasons = []) := by
  have hforward : Admitted (MarketStateStore.perform exampleEngine.digest)
      (BookMovesForward exampleEngine.digest) (.new exampleEngine.settings.features)
      (storeOperations exampleForwardSteps) := by decide +kernel
  have hasks : AsksConfigured exampleEngine exampleForwardSteps := by
    intro exchange symbol channels decision windowSeconds hin
    simp only [exampleForwardSteps, List.mem_cons, reduceCtorEq, List.not_mem_nil, or_false, false_or,
      EngineStep.calculate.injEq] at hin
    obtain ⟨-, rfl, -, -, rfl⟩ := hin
    exact ⟨List.mem_cons_self, by norm_num, by decide +kernel⟩
  have hreturn : (EngineTimeline.run exampleEngine exampleForwardSteps >>= fun timeline =>
      timeline.calculate exampleEngine .binance "BTC-USDT-PERP" [] 8000000 5).toBool = true := by
    decide +kernel
  rcases forward_run_completes (show (engineEvents exampleForwardSteps).Nodup by decide +kernel)
      hforward hasks with ⟨-, hraised⟩ | ⟨timeline, hrun, hreturns⟩
  · rw [hraised] at hreturn
    cases hreturn
  rw [hrun] at hreturn
  rcases hreturns .binance "BTC-USDT-PERP" [] 8000000 5 List.mem_cons_self (by norm_num)
      (by decide +kernel) with ⟨-, hraised⟩ | ⟨snapshot, memory, hreturned, havailable, -⟩
  · change (timeline.calculate exampleEngine .binance "BTC-USDT-PERP" [] 8000000 5).toBool = true at hreturn
    rw [hraised] at hreturn
    cases hreturn
  · exact ⟨timeline, snapshot, memory, hrun, hreturned, havailable⟩

end SingleVenueFeatureEngine

end Cvf
