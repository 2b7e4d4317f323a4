/-
# Cvf.Features.SourceLineage — each source of a snapshot is counted once.

A trade or a mark price is held in two windows, whose capacities fill at different rates.  What the price
cache counts is left out of the direct sources; what it no longer counts is not.  The direct sources are told
apart by their digests, so an open interest that is both the latest and the anchor counts once.

In every run of events with different digests, the sources a snapshot commits to are those of the book view,
and each event that one of its queries answers with, once (`each_source_counted_once`).
-/
import Cvf.Features.EngineRuns

namespace Cvf

open Cvf.Library LineageFields

/-! ## Combining leaves -/

theorem foldl_combine_leaves (digest : SourceDigest) (items : List (TimedValue NormalizedMarketEvent))
    (leaves : List (Int × BitVec 256)) :
    items.foldl (fun lineage item => lineage.combine
        (.fromDigest item.timestamp (digest item.timestamp item.value))) (typedSummary leaves) =
      typedSummary (leaves ++ items.map fun item =>
        (item.timestamp, digest item.timestamp item.value)) := by
  induction items generalizing leaves with
  | nil =>
    rw [List.map_nil, List.append_nil]
    rfl
  | cons item items ih =>
    rw [List.foldl_cons, ← typedSummary_singleton, typedSummary_append, ih, List.append_assoc,
      List.map_cons]
    rfl

/-- Items that are events of a list, at their own times. -/
def TimedBy (events : List NormalizedMarketEvent) (items : List (TimedValue NormalizedMarketEvent)) :
    Prop :=
  ∀ item ∈ items, item.value ∈ events ∧ item.timestamp = item.value.base.exchangeTimestamp

/-- The digests of some events tell them apart. -/
def DistinctDigests (digest : SourceDigest) (events : List NormalizedMarketEvent) : Prop :=
  (events.map fun event => (sourceLeaf digest event).2).Nodup

section

variable {digest : SourceDigest} {events : List NormalizedMarketEvent}

theorem DistinctDigests.nodup (h : DistinctDigests digest events) : events.Nodup := List.Nodup.of_map _ h

theorem DistinctDigests.eq (h : DistinctDigests digest events) {a b : NormalizedMarketEvent}
    (ha : a ∈ events) (hb : b ∈ events) (heq : (sourceLeaf digest a).2 = (sourceLeaf digest b).2) :
    a = b := List.inj_on_of_nodup_map h ha hb heq

theorem TimedBy.leaf {items : List (TimedValue NormalizedMarketEvent)} (h : TimedBy events items)
    {item : TimedValue NormalizedMarketEvent} (hitem : item ∈ items) :
    (item.timestamp, digest item.timestamp item.value) = sourceLeaf digest item.value := by
  rw [(h item hitem).2]
  rfl

/-- The direct lineage is that of the first source of each digest. -/
theorem directLineage_leaves (digest : SourceDigest) (sources : List (TimedValue NormalizedMarketEvent)) :
    ∃ unique : List (TimedValue NormalizedMarketEvent), (∀ item ∈ unique, item ∈ sources) ∧
      (unique.map fun item => (digest item.timestamp item.value).toNat).Nodup ∧
      (∀ item ∈ sources, ∃ first ∈ unique,
        (digest first.timestamp first.value).toNat = (digest item.timestamp item.value).toNat) ∧
      directLineage digest sources =
        typedSummary (unique.map fun item => (item.timestamp, digest item.timestamp item.value)) := by
  let key (item : TimedValue NormalizedMarketEvent) : Nat := (digest item.timestamp item.value).toNat
  refine ⟨lastValues key sources.reverse, ?_, nodup_lastValues key sources.reverse, ?_, ?_⟩
  · intro item hitem
    have hfound := mem_lastValues.mp hitem
    rw [List.reverse_reverse] at hfound
    exact List.mem_of_find?_eq_some hfound
  · intro item hitem
    -- the first source of the digest stands for all of them
    obtain ⟨first, hfirst⟩ : ∃ first, sources.find? (fun other => key other = key item) = some first :=
      Option.isSome_iff_exists.mp (List.find?_isSome.mpr ⟨item, hitem, decide_eq_true rfl⟩)
    have hsame : key first = key item := of_decide_eq_true (List.find?_some
      (p := fun other => decide (key other = key item)) hfirst)
    refine ⟨first, mem_lastValues.mpr ?_, hsame⟩
    rw [List.reverse_reverse, hsame]
    exact hfirst
  · show (lastValues key sources.reverse).foldl _ (typedSummary []) = _
    rw [foldl_combine_leaves, List.nil_append]

/-- The direct lineage is that of the different events among its sources. -/
theorem directLineage_eq {sources : List (TimedValue NormalizedMarketEvent)}
    (htimed : TimedBy events sources) (hdigests : DistinctDigests digest events) :
    ∃ distinct : List NormalizedMarketEvent, distinct.Nodup ∧
      (∀ event, event ∈ distinct ↔ ∃ item ∈ sources, item.value = event) ∧
      directLineage digest sources = typedSummary (distinct.map (sourceLeaf digest)) := by
  obtain ⟨unique, hmem, hkeys, hfirst, hlineage⟩ := directLineage_leaves digest sources
  have hkey : ∀ item ∈ sources,
      (digest item.timestamp item.value).toNat = (sourceLeaf digest item.value).2.toNat := by
    intro item hitem
    rw [(htimed item hitem).2]
    rfl
  refine ⟨unique.map (·.value), ?_, ?_, ?_⟩
  · -- two items of one event would have one key
    have hfactor : unique.map (fun item => (digest item.timestamp item.value).toNat) =
        (unique.map (·.value)).map fun event => (sourceLeaf digest event).2.toNat := by
      rw [List.map_map]
      exact List.map_congr_left fun item hitem => hkey item (hmem item hitem)
    rw [hfactor] at hkeys
    exact List.Nodup.of_map _ hkeys
  · intro event
    rw [List.mem_map]
    constructor
    · rintro ⟨item, hitem, rfl⟩
      exact ⟨item, hmem item hitem, rfl⟩
    · rintro ⟨item, hitem, rfl⟩
      obtain ⟨first, hin, hsame⟩ := hfirst item hitem
      refine ⟨first, hin, hdigests.eq (htimed first (hmem first hin)).1 (htimed item hitem).1 ?_⟩
      apply BitVec.eq_of_toNat_eq
      rw [← hkey first (hmem first hin), ← hkey item hitem, hsame]
  · rw [hlineage, List.map_map]
    congr 1
    exact List.map_congr_left fun item hitem => htimed.leaf (hmem item hitem)

end

/-! ## The lineage of the price cache -/

namespace SourcedPriceCache

variable {α R : Type} [DecidableEq α] [Ring R] {math : PriceMath α R} {past : List α}
  {window : BoundedTimeWindow α} {sourced : SourcedPriceCache α R}

omit [DecidableEq α] [Ring R] in
/-- Right after an update a query is answered from the window's items. -/
theorem Counts.lineage (h : Counts math past window sourced) {start stop : Int} (hle : start ≤ stop) :
    sourced.cache.lineage start stop =
      .ok (typedSummary ((window.items.filter fun item =>
        start < item.timestamp ∧ item.timestamp ≤ stop).map (PriceHistoryCache.leaf math))) := by
  obtain ⟨front, selected, behind, hstretch, hbetween⟩ := PriceHistoryCache.exists_stretch
    h.behind.sorted h.behind.start_le h.active hle
  rw [window.itemsBetween_eq hle] at hbetween
  rw [Option.some.inj hbetween]
  have hitems : sourced.cache.points.map (·.item) =
      front.map (·.item) ++ selected.map (·.item) ++ behind.map (·.item) := by
    rw [hstretch.points, List.map_append, List.map_append]
  have hselected : ((sourced.cache.points.map (·.item)).take
      (front.length + selected.length)).drop front.length = selected.map (·.item) := by
    rw [hitems, List.take_left' (by simp), List.drop_left' (by simp)]
  have hbound : front.length + selected.length ≤ (sourced.cache.points.map (·.item)).length := by
    rw [hitems]
    simp
  have htimes : ((((sourced.cache.points.map (·.item)).take (front.length + selected.length)).drop
      front.length).map (·.timestamp)).Pairwise (· ≤ ·) := by
    rw [hselected, List.pairwise_map]
    have hsorted := h.behind.sorted
    rw [hitems] at hsorted
    have hmiddle := (List.pairwise_append.mp (List.pairwise_append.mp hsorted).1).2.1
    exact hmiddle.imp fun hab => hab.timestamp_le
  have hanswer := h.digested.lineageBetween hbound htimes
  rw [PriceHistoryCache.lineage_eq, hstretch.bounds]
  show sourced.cache.lineageBetween front.length (front.length + selected.length) = _
  rw [hanswer, hselected]

omit [DecidableEq α] [Ring R] in
/-- A source is covered where it is an item of the window within the interval. -/
theorem Counts.coversSource_iff (h : Counts math past window sourced) {source : α} {start stop : Int} :
    sourced.coversSource source start stop = true ↔
      ∃ item ∈ window.items, item.value = source ∧ start < item.timestamp ∧ item.timestamp ≤ stop := by
  have hlocated := h.located
  rw [h.active] at hlocated
  unfold coversSource
  constructor
  · intro hcovered
    cases hfound : sourced.sourcePositions source with
    | none =>
      rw [hfound] at hcovered
      cases hcovered
    | some timestamp =>
      rw [hfound] at hcovered
      obtain ⟨item, hitem, hvalue, rfl⟩ := (hlocated source timestamp).mp hfound
      obtain ⟨hstart, hstop⟩ := of_decide_eq_true hcovered
      exact ⟨item, hitem, hvalue, hstart, hstop⟩
  · rintro ⟨item, hitem, rfl, hstart, hstop⟩
    rw [(hlocated item.value item.timestamp).mpr ⟨item, hitem, rfl, rfl⟩]
    exact decide_eq_true ⟨hstart, hstop⟩

end SourcedPriceCache

/-! ## The sources of a calculation -/

/-- An item that a query for the latest answers with is in the window. -/
theorem BoundedTimeWindow.mem_of_latest {α : Type} {window : BoundedTimeWindow α} {boundary : Int}
    {item : TimedValue α} (h : window.latestAtOrBefore boundary = some item) : item ∈ window.items := by
  unfold latestAtOrBefore at h
  exact List.mem_reverse.mp (List.mem_of_find?_eq_some h)

namespace SingleVenueFeatureEngine

variable {F : Type}

/-- The events that the queries of `_source_lineage` answer with. -/
inductive ReadsSource (engine : SingleVenueFeatureEngine F) (state : VenueSymbolState)
    (exchangeHealthEvents : BoundedTimeWindow ExchangeHealth) (start decision : Int) :
    NormalizedMarketEvent → Prop where
  | price (item : TimedValue NormalizedMarketEvent) (hitem : item ∈ state.prices.items)
      (hstart : engine.priceStart start decision < item.timestamp) (hstop : item.timestamp ≤ decision) :
      ReadsSource engine state exchangeHealthEvents start decision item.value
  | trade (item : TimedValue Trade) (hitem : item ∈ state.trades.items)
      (hstart : start - (decision - start) < item.timestamp) (hstop : item.timestamp ≤ decision) :
      ReadsSource engine state exchangeHealthEvents start decision (.trade item.value)
  | openInterest (item : TimedValue OpenInterest)
      (h : state.openInterest.latestAtOrBefore start = some item ∨
        state.openInterest.latestAtOrBefore decision = some item) :
      ReadsSource engine state exchangeHealthEvents start decision (.openInterest item.value)
  | fundingRate (item : TimedValue FundingRate)
      (h : state.fundingRates.latestAtOrBefore decision = some item) :
      ReadsSource engine state exchangeHealthEvents start decision (.fundingRate item.value)
  | indexPrice (item : TimedValue IndexPrice)
      (h : state.indexPrices.latestAtOrBefore decision = some item) :
      ReadsSource engine state exchangeHealthEvents start decision (.indexPrice item.value)
  | markPrice (item : TimedValue MarkPrice)
      (h : state.markPrices.latestAtOrBefore decision = some item) :
      ReadsSource engine state exchangeHealthEvents start decision (.markPrice item.value)
  | liquidation (item : TimedValue LiquidationEvent) (hitem : item ∈ state.liquidations.items)
      (hstart : start < item.timestamp) (hstop : item.timestamp ≤ decision) :
      ReadsSource engine state exchangeHealthEvents start decision (.liquidation item.value)
  | health (item : TimedValue ExchangeHealth)
      (hitem : item ∈ state.healthSourcesAtOrBefore exchangeHealthEvents decision) :
      ReadsSource engine state exchangeHealthEvents start decision (.exchangeHealth item.value)

theorem priceStart_le (engine : SingleVenueFeatureEngine F) (start decision : Int) :
    engine.priceStart start decision ≤ start :=
  (min_le_left _ _).trans (min_le_left _ _)

/-- The price items within the lookback. -/
def pricesRead (engine : SingleVenueFeatureEngine F) (state : VenueSymbolState) (start decision : Int) :
    List (TimedValue NormalizedMarketEvent) :=
  state.prices.items.filter fun item =>
    engine.priceStart start decision < item.timestamp ∧ item.timestamp ≤ decision

/-- The items of `direct_sources`: what is read, but for what is counted with the prices. -/
inductive DirectSource (engine : SingleVenueFeatureEngine F) (state : VenueSymbolState)
    (exchangeHealthEvents : BoundedTimeWindow ExchangeHealth) (start decision : Int) :
    TimedValue NormalizedMarketEvent → Prop where
  | trade (item : TimedValue Trade) (hitem : item ∈ state.trades.items)
      (hstart : start - (decision - start) < item.timestamp) (hstop : item.timestamp ≤ decision)
      (hprice : .trade item.value ∉ (engine.pricesRead state start decision).map (·.value)) :
      DirectSource engine state exchangeHealthEvents start decision (item.asSource .trade)
  | openInterest (item : TimedValue OpenInterest)
      (h : state.openInterest.latestAtOrBefore start = some item ∨
        state.openInterest.latestAtOrBefore decision = some item) :
      DirectSource engine state exchangeHealthEvents start decision (item.asSource .openInterest)
  | fundingRate (item : TimedValue FundingRate)
      (h : state.fundingRates.latestAtOrBefore decision = some item) :
      DirectSource engine state exchangeHealthEvents start decision (item.asSource .fundingRate)
  | indexPrice (item : TimedValue IndexPrice)
      (h : state.indexPrices.latestAtOrBefore decision = some item) :
      DirectSource engine state exchangeHealthEvents start decision (item.asSource .indexPrice)
  | markPrice (item : TimedValue MarkPrice)
      (h : state.markPrices.latestAtOrBefore decision = some item)
      (hprice : .markPrice item.value ∉ (engine.pricesRead state start decision).map (·.value)) :
      DirectSource engine state exchangeHealthEvents start decision (item.asSource .markPrice)
  | liquidation (item : TimedValue LiquidationEvent) (hitem : item ∈ state.liquidations.items)
      (hstart : start < item.timestamp) (hstop : item.timestamp ≤ decision) :
      DirectSource engine state exchangeHealthEvents start decision (item.asSource .liquidation)
  | health (item : TimedValue ExchangeHealth)
      (hitem : item ∈ state.healthSourcesAtOrBefore exchangeHealthEvents decision) :
      DirectSource engine state exchangeHealthEvents start decision (item.asSource .exchangeHealth)

variable [Field F] [LinearOrder F] {engine : SingleVenueFeatureEngine F}
  {events : List NormalizedMarketEvent} {timeline : EngineTimeline F} {exchange : Exchange}
  {symbol : String} {priceCache : SourcedPriceCache NormalizedMarketEvent F}

omit [Field F] [LinearOrder F] in
/-- The list holds the direct sources, where the price cache counts the window's items. -/
theorem mem_directSources {state : VenueSymbolState}
    (hcounts : SourcedPriceCache.Counts engine.priceMath events state.prices priceCache)
    (exchangeHealthEvents : BoundedTimeWindow ExchangeHealth) {start decision : Int}
    (hle : start ≤ decision) :
    ∃ sources, engine.directSources state exchangeHealthEvents priceCache start decision = .ok sources ∧
      ∀ item, item ∈ sources ↔
        engine.DirectSource state exchangeHealthEvents start decision item := by
  -- what the price cache covers is what it counts
  have hcovered : ∀ event, priceCache.coversSource event (engine.priceStart start decision) decision =
      true ↔ event ∈ (engine.pricesRead state start decision).map (·.value) := by
    intro event
    rw [hcounts.coversSource_iff, List.mem_map]
    constructor
    · rintro ⟨item, hitem, hvalue, hwithin⟩
      exact ⟨item, List.mem_filter.mpr ⟨hitem, decide_eq_true hwithin⟩, hvalue⟩
    · rintro ⟨item, hitem, hvalue⟩
      obtain ⟨hin, hwithin⟩ := List.mem_filter.mp hitem
      exact ⟨item, hin, hvalue, of_decide_eq_true hwithin⟩
  have hspan : start - (decision - start) ≤ decision := by omega
  refine ⟨_, by
    unfold directSources
    rw [state.trades.between_eq hspan, state.liquidations.between_eq hle]
    rfl, fun item => ?_⟩
  simp only [List.mem_append, List.mem_filter, List.mem_map, Option.mem_toList, Bool.not_eq_true',
    ← Bool.not_eq_true, hcovered, decide_eq_true_eq]
  constructor
  · rintro ((((((⟨⟨trade, ⟨hitem, hstart, hstop⟩, rfl⟩, hprice⟩ | ⟨interest, h, rfl⟩) | ⟨rate, h, rfl⟩) |
      ⟨index, h, rfl⟩) | ⟨⟨mark, h, rfl⟩, hprice⟩) | ⟨liquidation, ⟨hitem, hstart, hstop⟩, rfl⟩) |
      ⟨health, hitem, rfl⟩)
    · exact .trade trade hitem hstart hstop (mt List.mem_map.mp hprice)
    · exact .openInterest interest h
    · exact .fundingRate rate h
    · exact .indexPrice index h
    · exact .markPrice mark h (mt List.mem_map.mp hprice)
    · exact .liquidation liquidation hitem hstart hstop
    · exact .health health hitem
  · intro h
    cases h with
    | trade trade hitem hstart hstop hprice =>
      exact .inl (.inl (.inl (.inl (.inl (.inl
        ⟨⟨trade, ⟨hitem, hstart, hstop⟩, rfl⟩, mt List.mem_map.mpr hprice⟩)))))
    | openInterest interest h => exact .inl (.inl (.inl (.inl (.inl (.inr ⟨interest, h, rfl⟩)))))
    | fundingRate rate h => exact .inl (.inl (.inl (.inl (.inr ⟨rate, h, rfl⟩))))
    | indexPrice index h => exact .inl (.inl (.inl (.inr ⟨index, h, rfl⟩)))
    | markPrice mark h hprice =>
      exact .inl (.inl (.inr ⟨⟨mark, h, rfl⟩, mt List.mem_map.mpr hprice⟩))
    | liquidation liquidation hitem hstart hstop =>
      exact .inl (.inr ⟨liquidation, ⟨hitem, hstart, hstop⟩, rfl⟩)
    | health health hitem => exact .inr ⟨health, hitem, rfl⟩

/-- A direct source is an ingested event at its own time, no book event, and not counted with the
prices. -/
theorem DirectSource.spec (h : Attended engine events timeline) {start decision : Int}
    {item : TimedValue NormalizedMarketEvent}
    (hitem : engine.DirectSource (timeline.store.lookup exchange symbol)
      (timeline.store.exchangeHealthEvents exchange) start decision item) :
    (item.value ∈ events ∧ item.timestamp = item.value.base.exchangeTimestamp) ∧
      item.value.isBook = false ∧
      item.value ∉ (engine.pricesRead (timeline.store.lookup exchange symbol) start decision).map
        (·.value) := by
  have hwindows := h.holds.windows exchange symbol
  -- an event without a price is not among the prices
  have hnotPrice : ∀ event : NormalizedMarketEvent, event.isPrice = false →
      event ∉ (engine.pricesRead (timeline.store.lookup exchange symbol) start decision).map
        (·.value) := by
    intro event hprice hin
    obtain ⟨item, hitem, rfl⟩ := List.mem_map.mp hin
    rw [h.holds.priced exchange symbol item (List.mem_filter.mp hitem).1] at hprice
    cases hprice
  cases hitem with
  | trade trade hin _ _ hprice => exact ⟨hwindows.trades trade hin, rfl, hprice⟩
  | openInterest interest hlatest =>
    refine ⟨hwindows.openInterest interest ?_, rfl, hnotPrice _ rfl⟩
    exact hlatest.elim BoundedTimeWindow.mem_of_latest BoundedTimeWindow.mem_of_latest
  | fundingRate rate hlatest =>
    exact ⟨hwindows.fundingRates rate (BoundedTimeWindow.mem_of_latest hlatest), rfl, hnotPrice _ rfl⟩
  | indexPrice index hlatest =>
    exact ⟨hwindows.indexPrices index (BoundedTimeWindow.mem_of_latest hlatest), rfl, hnotPrice _ rfl⟩
  | markPrice mark hlatest hprice =>
    exact ⟨hwindows.markPrices mark (BoundedTimeWindow.mem_of_latest hlatest), rfl, hprice⟩
  | liquidation liquidation hin _ _ =>
    exact ⟨hwindows.liquidations liquidation hin, rfl, hnotPrice _ rfl⟩
  | health health hin =>
    refine ⟨?_, rfl, hnotPrice _ rfl⟩
    obtain ⟨scope, hcandidate, -⟩ := (VenueSymbolState.mem_healthSources_iff ..).mp hin
    rcases List.mem_append.mp hcandidate with hcandidate | hcandidate
    · exact h.holds.health.exchangeHealth exchange health (mem_healthCandidates.mp hcandidate).2.1
    · exact h.holds.health.health exchange symbol health (mem_healthCandidates.mp hcandidate).2.1

omit [Field F] [LinearOrder F] in
/-- What is read is counted with the prices or is a direct source. -/
theorem readsSource_iff {state : VenueSymbolState} {exchangeHealthEvents : BoundedTimeWindow ExchangeHealth}
    {start decision : Int} {event : NormalizedMarketEvent} :
    engine.ReadsSource state exchangeHealthEvents start decision event ↔
      event ∈ (engine.pricesRead state start decision).map (·.value) ∨
        ∃ item, engine.DirectSource state exchangeHealthEvents start decision item ∧
          item.value = event := by
  constructor
  · intro h
    by_cases hprice : event ∈ (engine.pricesRead state start decision).map (·.value)
    · exact .inl hprice
    right
    cases h with
    | price item hitem hstart hstop =>
      refine absurd (List.mem_map.mpr ⟨item, ?_, rfl⟩) hprice
      exact List.mem_filter.mpr ⟨hitem, decide_eq_true ⟨hstart, hstop⟩⟩
    | trade item hitem hstart hstop => exact ⟨_, .trade item hitem hstart hstop hprice, rfl⟩
    | openInterest item hlatest => exact ⟨_, .openInterest item hlatest, rfl⟩
    | fundingRate item hlatest => exact ⟨_, .fundingRate item hlatest, rfl⟩
    | indexPrice item hlatest => exact ⟨_, .indexPrice item hlatest, rfl⟩
    | markPrice item hlatest => exact ⟨_, .markPrice item hlatest hprice, rfl⟩
    | liquidation item hitem hstart hstop => exact ⟨_, .liquidation item hitem hstart hstop, rfl⟩
    | health item hitem => exact ⟨_, .health item hitem, rfl⟩
  · rintro (hprice | ⟨item, hitem, rfl⟩)
    · obtain ⟨item, hitem, rfl⟩ := List.mem_map.mp hprice
      obtain ⟨hin, hwithin⟩ := List.mem_filter.mp hitem
      obtain ⟨hstart, hstop⟩ := of_decide_eq_true hwithin
      exact .price item hin hstart hstop
    · cases hitem with
      | trade item hin hstart hstop _ => exact .trade item hin hstart hstop
      | openInterest item hlatest => exact .openInterest item hlatest
      | fundingRate item hlatest => exact .fundingRate item hlatest
      | indexPrice item hlatest => exact .indexPrice item hlatest
      | markPrice item hlatest _ => exact .markPrice item hlatest
      | liquidation item hin hstart hstop => exact .liquidation item hin hstart hstop
      | health item hin => exact .health item hin

/-- Prices, the book and the direct sources have no event in common. -/
theorem sources_apart (h : Attended engine events timeline)
    (hcounts : SourcedPriceCache.Counts engine.priceMath events
      (timeline.store.lookup exchange symbol).prices priceCache)
    {start decision : Int} {taken distinct : List NormalizedMarketEvent} (hevents : events.Nodup)
    (hsublist : taken.Sublist events) (hbook : ∀ event ∈ taken, event.isBook = true)
    (hdistinct : distinct.Nodup)
    (hdirect : ∀ event ∈ distinct, ∃ item, engine.DirectSource (timeline.store.lookup exchange symbol)
      (timeline.store.exchangeHealthEvents exchange) start decision item ∧ item.value = event) :
    ((engine.pricesRead (timeline.store.lookup exchange symbol) start decision).map (·.value) ++ taken ++
      distinct).Nodup := by
  have hprices : ((engine.pricesRead (timeline.store.lookup exchange symbol) start decision).map
      (·.value)).Nodup := by
    apply SourcedPriceCache.values_nodup
      ((timeline.store.lookup exchange symbol).prices.retained.sorted.sublist List.filter_sublist)
    intro a ha b hb
    exact hcounts.apart a (List.mem_append_right _ (List.mem_filter.mp ha).1) b
      (List.mem_append_right _ (List.mem_filter.mp hb).1)
  refine List.nodup_append.mpr ⟨List.nodup_append.mpr ⟨hprices, hevents.sublist hsublist, ?_⟩,
    hdistinct, ?_⟩
  · -- an event with a price is no book event
    rintro event hprice _ htaken rfl
    obtain ⟨item, hitem, rfl⟩ := List.mem_map.mp hprice
    have hpriced := h.holds.priced exchange symbol item (List.mem_filter.mp hitem).1
    have hbooked := hbook _ htaken
    rw [NormalizedMarketEvent.isBook_of_isPrice hpriced] at hbooked
    cases hbooked
  · rintro event hearlier _ hin rfl
    obtain ⟨item, hitem, rfl⟩ := hdirect event hin
    obtain ⟨-, hnotBook, hnotPrice⟩ := hitem.spec h
    rcases List.mem_append.mp hearlier with hprice | htaken
    · exact hnotPrice hprice
    · rw [hbook _ htaken] at hnotBook
      cases hnotBook

/-- What a calculation commits to, when its reads succeed. -/
theorem committed_sources (h : Attended engine events timeline)
    (hdigests : DistinctDigests engine.digest events)
    (hcounts : SourcedPriceCache.Counts engine.priceMath events
      (timeline.store.lookup exchange symbol).prices priceCache)
    (bookView : FeatureBookView) {taken : List NormalizedMarketEvent} {generation : Nat}
    (htaken : CountsBook engine.digest exchange symbol events generation taken bookView.lineage)
    {start decision : Int} (hle : start ≤ decision) :
    ∃ sources : List NormalizedMarketEvent, sources.Nodup ∧
      (∀ event, event ∈ sources ↔ event ∈ taken ∨
        engine.ReadsSource (timeline.store.lookup exchange symbol)
          (timeline.store.exchangeHealthEvents exchange) start decision event) ∧
      sources ⊆ events ∧
      engine.sourceLineage (timeline.store.lookup exchange symbol)
          (timeline.store.exchangeHealthEvents exchange) bookView priceCache start decision =
        .ok (typedSummary (sources.map (sourceLeaf engine.digest))) := by
  obtain ⟨direct, hdirect, hmem⟩ := mem_directSources hcounts
    (timeline.store.exchangeHealthEvents exchange) hle
  have htimed : TimedBy events direct := fun item hitem => (((hmem item).mp hitem).spec h).1
  obtain ⟨distinct, hnodup, hvalues, hlineage⟩ := directLineage_eq htimed hdigests
  have hdistinct : ∀ event, event ∈ distinct ↔ ∃ item,
      engine.DirectSource (timeline.store.lookup exchange symbol)
        (timeline.store.exchangeHealthEvents exchange) start decision item ∧ item.value = event := by
    intro event
    rw [hvalues]
    exact exists_congr fun item => and_congr_left fun _ => hmem item
  have hprices : TimedBy events (engine.pricesRead (timeline.store.lookup exchange symbol) start
      decision) :=
    fun item hitem => (h.holds.windows exchange symbol).prices item (List.mem_filter.mp hitem).1
  refine ⟨(engine.pricesRead (timeline.store.lookup exchange symbol) start decision).map (·.value) ++
    taken ++ distinct, ?_, ?_, ?_, ?_⟩
  · exact sources_apart h hcounts hdigests.nodup htaken.sublist htaken.book hnodup fun event hevent =>
      (hdistinct event).mp hevent
  · intro event
    rw [readsSource_iff, List.mem_append, List.mem_append, hdistinct]
    tauto
  · intro event hevent
    rcases List.mem_append.mp hevent with hearlier | hin
    · rcases List.mem_append.mp hearlier with hprice | htook
      · obtain ⟨item, hitem, rfl⟩ := List.mem_map.mp hprice
        exact (hprices item hitem).1
      · exact htaken.sublist.subset htook
    · obtain ⟨item, hitem, rfl⟩ := (hdistinct event).mp hin
      exact (hitem.spec h).1.1
  · have hstart := (engine.priceStart_le start decision).trans hle
    have hleaves : (engine.pricesRead (timeline.store.lookup exchange symbol) start decision).map
        (PriceHistoryCache.leaf engine.priceMath) =
          ((engine.pricesRead (timeline.store.lookup exchange symbol) start decision).map
            (·.value)).map (sourceLeaf engine.digest) := by
      rw [List.map_map]
      exact List.map_congr_left fun item hitem => hprices.leaf hitem
    unfold sourceLineage
    rw [hdirect, hcounts.lineage hstart]
    show Except.ok (((typedSummary ((engine.pricesRead (timeline.store.lookup exchange symbol) start
      decision).map (PriceHistoryCache.leaf engine.priceMath))).combine bookView.lineage).combine
        (directLineage engine.digest direct)) = _
    rw [hleaves, htaken.lineage, hlineage, typedSummary_append, typedSummary_append, List.map_append,
      List.map_append]

/-- In every run of events with different digests, a snapshot counts the book events of its generation
that the book view took in and every event that a query answered with, each once. -/
theorem each_source_counted_once {steps : List EngineStep} {channels : List String}
    {decision windowSeconds : Int} {snapshot : FeatureSnapshot F} {memory : SingleVenueMemory F}
    (hdigests : DistinctDigests engine.digest (engineEvents steps))
    (hrun : EngineTimeline.run engine steps = .ok timeline)
    (hcalculate : timeline.calculate engine exchange symbol channels decision windowSeconds =
      .ok (snapshot, memory)) :
    ∃ taken sources : List NormalizedMarketEvent,
      CountsBook engine.digest exchange symbol (engineEvents steps) snapshot.bookGeneration taken
        ((timeline.store.lookup exchange symbol).bookViewAsOf engine.settings.features decision).lineage ∧
      (sources.Nodup ∧ sources ⊆ engineEvents steps) ∧
      (∀ event, event ∈ sources ↔ event ∈ taken ∨
        engine.ReadsSource (timeline.store.lookup exchange symbol)
          (timeline.store.exchangeHealthEvents exchange) (windowStart decision windowSeconds) decision
          event) ∧
      snapshot.sourceEventCount = sources.length ∧
      snapshot.oldestSourceTimestamp = (sources.map (·.base.exchangeTimestamp)).min? ∧
      snapshot.newestSourceTimestamp = (sources.map (·.base.exchangeTimestamp)).max? ∧
      snapshot.rawPayloadReference = some ("feature-sources://sha256-sum-xor-v1/" ++
        engine.fingerprint (typedSummary (sources.map (sourceLeaf engine.digest)))) := by
  have h := Attended.run hdigests.nodup hrun
  obtain ⟨priceCache, reads, hdone⟩ := calculate_ok_iff.mp hcalculate
  obtain ⟨hexchange, hsymbol⟩ := timeline.store.lookup_key exchange symbol
  have hupdated := hdone.updated
  rw [hexchange, hsymbol] at hupdated
  obtain ⟨counted, hcounted, hcounts⟩ := h.updated exchange symbol
  obtain rfl : counted = priceCache := Except.ok.inj (hcounted.symm.trans hupdated)
  have hread := reads_ok_iff.mp hdone.read
  obtain ⟨taken, htaken⟩ := (h.holds.book exchange symbol).bookViewAsOf engine.settings.features decision
  have hlineage := hread.lineage
  have hgeneration : snapshot.bookGeneration = reads.bookView.generation := by
    rw [hdone.assembled]
    rfl
  rw [← hread.bookView] at htaken ⊢
  obtain ⟨sources, hnodup, hmem, hsubset, hcommitted⟩ := committed_sources h hdigests hcounts
    reads.bookView htaken (windowStart_lt hread.window_pos).le
  obtain hsummary : reads.lineage = typedSummary (sources.map (sourceLeaf engine.digest)) :=
    Except.ok.inj (hlineage.symm.trans hcommitted)
  have htimes : (sources.map (sourceLeaf engine.digest)).map Prod.fst =
      sources.map (·.base.exchangeTimestamp) := by
    rw [List.map_map]
    rfl
  refine ⟨taken, sources, ?_, ⟨hnodup, hsubset⟩, hmem, ?_, ?_, ?_, ?_⟩
  · rw [hgeneration]
    exact htaken
  · rw [hdone.assembled]
    show reads.lineage.count = _
    rw [hsummary]
    exact List.length_map _
  · rw [hdone.assembled]
    show reads.lineage.oldestTimestamp = _
    rw [hsummary, ← htimes]
    rfl
  · rw [hdone.assembled]
    show reads.lineage.newestTimestamp = _
    rw [hsummary, ← htimes]
    rfl
  · rw [hdone.assembled, ← hsummary]
    rfl

/-- The two trades are prices as well: three windows hold them, and both count once. -/
theorem each_source_counted_once_two : ∃ timeline snapshot memory,
    EngineTimeline.run exampleEngine exampleTradeSteps = .ok timeline ∧
      timeline.calculate exampleEngine .binance "BTC-USDT-PERP" [] 8000000 5 = .ok (snapshot, memory) ∧
      ∃ sources : List NormalizedMarketEvent, sources ⊆ engineEvents exampleTradeSteps ∧
        snapshot.sourceEventCount = sources.length := by
  obtain ⟨timeline, snapshot, memory, hrun, hcalculate⟩ := exampleTradeSteps_calculated
  obtain ⟨-, sources, -, ⟨-, hsubset⟩, -, hcount, -⟩ := each_source_counted_once
    (show DistinctDigests exampleEngine.digest (engineEvents exampleTradeSteps) by
      unfold DistinctDigests; decide +kernel) hrun hcalculate
  exact ⟨timeline, snapshot, memory, hrun, hcalculate, sources, hsubset, hcount⟩

end SingleVenueFeatureEngine

end Cvf
