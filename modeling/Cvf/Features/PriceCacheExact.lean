/-
# Cvf.Features.PriceCacheExact — the price cache answers as a recomputation would.

A schedule appends to one price window, updates the cache from it and compacts the cache, in any order.
No step fails, and after an update every query gives what the window's own items give.
-/
import Cvf.Features.PriceCacheQuery
import Cvf.Library.Run

namespace Cvf

open Cvf.Library

/-- `_PriceEvent`. -/
inductive PriceEvent where
  | trade (event : Trade)
  | bestBidAsk (event : BestBidAsk)
  | markPrice (event : MarkPrice)
  deriving DecidableEq, Repr

/-- `_reference_price`. -/
def PriceEvent.referencePrice : PriceEvent → Decimal
  | .trade event => event.price
  | .bestBidAsk event => event.midPrice
  | .markPrice event => event.markPrice

/-- The price arithmetic over the reals; the digest of a source is the parameter. -/
noncomputable def realPriceMath (digest : Int → PriceEvent → BitVec 256) :
    PriceMath PriceEvent ℝ :=
  { referencePrice := PriceEvent.referencePrice
    digest
    log := fun quotient => Real.log quotient
    sqrt := Real.sqrt }

inductive PriceStep (α : Type*) where
  | append (timestamp : Int) (value : α)
  | update
  | compact
  deriving DecidableEq, Repr

namespace PriceStep

variable {α R : Type*}

/-- A price window and the cache over it. -/
abbrev State (α R : Type*) := BoundedTimeWindow α × PriceHistoryCache α R

/-- The exchange timestamp of an append is not before 1970. -/
def AfterEpoch : PriceStep α → Prop
  | .append timestamp _ => 0 ≤ timestamp
  | _ => True

section

variable [Ring R] (math : PriceMath α R)

def perform (state : State α R) : PriceStep α → Except String (State α R)
  | .append timestamp value => .ok ((state.1.append timestamp value).1, state.2)
  | .update => (state.2.update math state.1).map fun cache => (state.1, cache)
  | .compact => state.2.compact.map fun cache => (state.1, cache)

/-- A schedule from a fresh window and cache. -/
def run (bounds : WindowBounds) (steps : List (PriceStep α)) : Except String (State α R) :=
  steps.foldlM (perform math) (.empty bounds, .new)

variable {math : PriceMath α R}

theorem perform_trails {state : State α R} {step : PriceStep α}
    (h : PriceHistoryCache.Trails math state.1 state.2) (hepoch : step.AfterEpoch) :
    ∃ after, perform math state step = .ok after ∧
      PriceHistoryCache.Trails math after.1 after.2 := by
  cases step with
  | append timestamp value => exact ⟨_, rfl, h.append hepoch value⟩
  | update =>
    obtain ⟨cache, hcache, hmirrors⟩ := h.update
    exact ⟨(state.1, cache), by rw [perform, hcache]; rfl, hmirrors.trails⟩
  | compact =>
    obtain ⟨cache, hcache, htrails⟩ := h.compact
    exact ⟨(state.1, cache), by rw [perform, hcache]; rfl, htrails⟩

/-- Compacting right after an update leaves the cache a mirror of its window. -/
theorem perform_update_compacts {state : State α R}
    (h : PriceHistoryCache.Trails math state.1 state.2) (compactions : Nat) :
    ∃ after, (.update :: List.replicate compactions .compact).foldlM (perform math) state =
        .ok after ∧ PriceHistoryCache.Mirrors math after.1 after.2 := by
  obtain ⟨cache, hcache, hmirrors⟩ := h.update
  have hupdate : perform math state .update = .ok (state.1, cache) := by
    rw [perform, hcache]
    rfl
  have hcompact : ∀ (state : State α R) (step : PriceStep α),
      PriceHistoryCache.Mirrors math state.1 state.2 → step = .compact →
        ∃ after, perform math state step = .ok after ∧
          PriceHistoryCache.Mirrors math after.1 after.2 := by
    rintro state step hmirrors rfl
    obtain ⟨cache, hcache, hcompacted⟩ := hmirrors.compact
    exact ⟨(state.1, cache), by rw [perform, hcache]; rfl, hcompacted⟩
  obtain ⟨after, hafter, hend⟩ := exists_foldlM_ok hcompact (s := (state.1, cache)) hmirrors
    fun step hstep => List.eq_of_mem_replicate hstep
  refine ⟨after, ?_, hend⟩
  rw [List.foldlM_cons, hupdate]
  exact hafter

end

end PriceStep

/-- Whatever was appended to the price window, updated and compacted, in whatever order: no step
fails, and after an update every query of the cache gives what the items between its bounds give. -/
theorem price_cache_equals_recomputation (digest : Int → PriceEvent → BitVec 256)
    (bounds : WindowBounds) (steps : List (PriceStep PriceEvent))
    (hepoch : ∀ step ∈ steps, step.AfterEpoch) (compactions : Nat) :
    ∃ window cache,
      PriceStep.run (realPriceMath digest) bounds
          (steps ++ .update :: List.replicate compactions .compact) = .ok (window, cache) ∧
        ∀ start stop, start ≤ stop → ∃ items, window.itemsBetween start stop = some items ∧
          cache.range (realPriceMath digest) start stop =
              .ok (Direct.range (realPriceMath digest) items) ∧
            cache.lineage start stop = .ok (Direct.lineage (realPriceMath digest) items) ∧
            cache.highLow start stop = .ok (Direct.highLow (realPriceMath digest) items) ∧
            cache.atr start stop = .ok (Direct.oneSecondAtr (realPriceMath digest) items) := by
  have hperform : ∀ (state : PriceStep.State PriceEvent ℝ) (step : PriceStep PriceEvent),
      PriceHistoryCache.Trails (realPriceMath digest) state.1 state.2 → step.AfterEpoch →
        ∃ after, PriceStep.perform (realPriceMath digest) state step = .ok after ∧
          PriceHistoryCache.Trails (realPriceMath digest) after.1 after.2 :=
    fun state step h hstep => PriceStep.perform_trails h hstep
  obtain ⟨before, hbefore, htrails⟩ :=
    exists_foldlM_ok hperform (s := (.empty bounds, .new)) (.empty bounds) hepoch
  obtain ⟨⟨window, cache⟩, hafter, hmirrors⟩ :=
    PriceStep.perform_update_compacts htrails compactions
  refine ⟨window, cache, ?_, ?_⟩
  · rw [PriceStep.run, List.foldlM_append, hbefore]
    exact hafter
  · intro start stop hle
    obtain ⟨front, selected, behind, hstretch, hitems⟩ := hmirrors.exists_stretch hle
    have hindexed := hmirrors.indexed
    exact ⟨_, hitems, hstretch.range hindexed, hstretch.lineage hindexed,
      hstretch.highLow hindexed, hstretch.atr hindexed⟩

/-- A minute of prices under late inserts. -/
def exampleBounds : WindowBounds :=
  { retention := 60000000
    maximumItems := 3
    lateEventPolicy := .insert
    maximumLateness := 5000000
    retention_pos := by norm_num
    maximumItems_pos := by norm_num
    maximumLateness_nonneg := by norm_num }

def exampleMark (timestamp : Int) (price : Decimal) : PriceEvent :=
  .markPrice
    { exchange := .binance
      symbol := "BTC-USDT-PERP"
      exchangeTimestamp := timestamp
      localReceiveTimestamp := timestamp
      normalizationTimestamp := timestamp
      markPrice := price }

/-- A mark price, a late one of the same second, an update and a compaction. -/
theorem price_cache_equals_recomputation_late_mark :
    ∃ window cache,
      PriceStep.run (realPriceMath fun _ _ => 1) exampleBounds
          ([.append 10500000 (exampleMark 10500000 100),
            .append 10200000 (exampleMark 10200000 99)] ++
              .update :: List.replicate 1 .compact) = .ok (window, cache) ∧
        ∀ start stop, start ≤ stop → ∃ items, window.itemsBetween start stop = some items ∧
          cache.range (realPriceMath fun _ _ => 1) start stop =
              .ok (Direct.range (realPriceMath fun _ _ => 1) items) ∧
            cache.lineage start stop =
              .ok (Direct.lineage (realPriceMath fun _ _ => 1) items) ∧
            cache.highLow start stop =
              .ok (Direct.highLow (realPriceMath fun _ _ => 1) items) ∧
            cache.atr start stop =
              .ok (Direct.oneSecondAtr (realPriceMath fun _ _ => 1) items) := by
  apply price_cache_equals_recomputation
  intro step hstep
  simp only [List.mem_cons, List.not_mem_nil, or_false] at hstep
  rcases hstep with rfl | rfl
  · show (0 : Int) ≤ 10500000
    norm_num
  · show (0 : Int) ≤ 10200000
    norm_num

end Cvf
