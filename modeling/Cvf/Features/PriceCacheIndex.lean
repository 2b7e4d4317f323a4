/-
# Cvf.Features.PriceCacheIndex — what the price cache keeps through every update.

`Indexed` is the invariant of the cache by itself: points in key order whose running sums continue one
another from the base, and buckets that describe them.  Appending, rebuilding and compacting keep it;
compacting keeps the active points as well, and with them every later answer.
-/
import Cvf.Features.PriceBuckets

namespace Cvf

open Cvf.Library

theorem TimedValue.Precedes.trans {α : Type*} {a b c : TimedValue α} (h : a.Precedes b)
    (h' : b.Precedes c) : a.Precedes c := by
  unfold TimedValue.Precedes at *
  omega

theorem wholeSecond_eq_iff {timestamp second : Int} (hepoch : 0 ≤ timestamp) :
    wholeSecond timestamp = second ↔
      secondStart second ≤ timestamp ∧ timestamp < secondStart (second + 1) := by
  unfold wholeSecond secondStart
  rw [Int.tdiv_eq_ediv_of_nonneg hepoch]
  omega

theorem wholeSecond_mono {a b : Int} (hepoch : 0 ≤ a) (hle : a ≤ b) :
    wholeSecond a ≤ wholeSecond b := by
  unfold wholeSecond
  rw [Int.tdiv_eq_ediv_of_nonneg hepoch, Int.tdiv_eq_ediv_of_nonneg (hepoch.trans hle)]
  omega

/-- The second and the price of a point. -/
def CachedPricePoint.quote {α R : Type*} (point : CachedPricePoint α R) : Int × Decimal :=
  (wholeSecond point.timestamp, point.price)

namespace PriceHistoryCache

variable {α R : Type*} [Ring R] {math : PriceMath α R}

/-- The running sums of `next` continue those of `previous`. -/
structure Follows (math : PriceMath α R) (previous next : CachedPricePoint α R) : Prop where
  squared : next.prefixSquaredLogReturn =
    previous.prefixSquaredLogReturn + squaredReturn math previous.price next.price
  valid : next.prefixValidLogReturns =
    previous.prefixValidLogReturns + validReturn previous.price next.price
  digestSum : next.prefixDigestSum =
    previous.prefixDigestSum + math.digest next.timestamp next.source
  digestXor : next.prefixDigestXor =
    previous.prefixDigestXor ^^^ math.digest next.timestamp next.source

/-- What the cache keeps by itself. -/
structure Indexed (math : PriceMath α R) (cache : PriceHistoryCache α R) : Prop where
  price : ∀ point ∈ cache.points, point.price = math.referencePrice point.source
  sorted : (cache.points.map (·.item)).Pairwise TimedValue.Precedes
  epoch : ∀ point ∈ cache.points, 0 ≤ point.timestamp
  chained : cache.points.IsChain (Follows math)
  base : ∀ first ∈ cache.points.head?,
    first.prefixDigestSum = cache.baseDigestSum + math.digest first.timestamp first.source ∧
      first.prefixDigestXor = cache.baseDigestXor ^^^ math.digest first.timestamp first.source
  described : Describes cache.buckets (cache.points.map (·.quote))
  start_le : cache.activeStart ≤ cache.points.length

theorem nextPoint_item (math : PriceMath α R) (cache : PriceHistoryCache α R) (item : TimedValue α) :
    (cache.nextPoint math item).item = item := by
  unfold nextPoint
  split <;> rfl

theorem nextPoint_price (math : PriceMath α R) (cache : PriceHistoryCache α R) (item : TimedValue α) :
    (cache.nextPoint math item).price = math.referencePrice item.value ∧
      (cache.nextPoint math item).source = item.value ∧
      (cache.nextPoint math item).timestamp = item.timestamp := by
  unfold nextPoint
  split <;> exact ⟨rfl, rfl, rfl⟩

theorem append_items (math : PriceMath α R) (cache : PriceHistoryCache α R) (item : TimedValue α) :
    (cache.append math item).points.map (·.item) = cache.points.map (·.item) ++ [item] := by
  show (cache.points ++ [cache.nextPoint math item]).map (·.item) = _
  rw [List.map_append, List.map_singleton, nextPoint_item]

/-- Appending items adds their points, and moves neither the start nor the ordinal. -/
theorem foldl_append (math : PriceMath α R) (items : List (TimedValue α))
    (cache : PriceHistoryCache α R) :
    (items.foldl (append math) cache).points.map (·.item) = cache.points.map (·.item) ++ items ∧
      (items.foldl (append math) cache).activeStart = cache.activeStart ∧
      (items.foldl (append math) cache).lastOrdinal = cache.lastOrdinal := by
  induction items generalizing cache with
  | nil => exact ⟨(List.append_nil _).symm, rfl, rfl⟩
  | cons item later ih =>
    obtain ⟨hmap, hstart, hordinal⟩ := ih (cache.append math item)
    refine ⟨?_, hstart, hordinal⟩
    rw [List.foldl_cons, hmap, append_items, List.append_assoc]
    rfl

theorem rebuild_items (math : PriceMath α R) (items : List (TimedValue α)) (latestOrdinal : Nat) :
    (rebuild math items latestOrdinal).points.map (·.item) = items :=
  (foldl_append math items new).1

theorem rebuild_activeStart (math : PriceMath α R) (items : List (TimedValue α)) (latestOrdinal : Nat) :
    (rebuild math items latestOrdinal).activeStart = 0 :=
  (foldl_append math items new).2.1

namespace Indexed

theorem new : Indexed math (PriceHistoryCache.new : PriceHistoryCache α R) where
  price := by simp [PriceHistoryCache.new]
  sorted := .nil
  epoch := by simp [PriceHistoryCache.new]
  chained := .nil
  base := by simp [PriceHistoryCache.new]
  described := .nil
  start_le := le_rfl

/-- In key order, earlier points are not later. -/
theorem timestamps_le {cache : PriceHistoryCache α R} (h : Indexed math cache) :
    cache.points.Pairwise fun a b => a.timestamp ≤ b.timestamp :=
  (List.pairwise_map.mp h.sorted).imp fun hab => hab.timestamp_le

/-- Appending an item behind the last point. -/
theorem append {cache : PriceHistoryCache α R} (h : Indexed math cache) {item : TimedValue α}
    (hepoch : 0 ≤ item.timestamp)
    (hbehind : ∀ point ∈ cache.points, point.item.Precedes item) :
    Indexed math (cache.append math item) := by
  obtain ⟨hprice, hsource, htime⟩ := nextPoint_price math cache item
  have hitem := nextPoint_item math cache item
  exact
    { price := by
        intro point hpoint
        rcases List.mem_append.mp hpoint with hpoint | hpoint
        · exact h.price point hpoint
        · rw [List.mem_singleton.mp hpoint, hprice, hsource]
      sorted := by
        show ((cache.points ++ [cache.nextPoint math item]).map (·.item)).Pairwise _
        rw [List.map_append, List.map_singleton, hitem]
        refine List.pairwise_append.mpr ⟨h.sorted, List.pairwise_singleton .., ?_⟩
        intro before hbefore next hnext
        obtain ⟨point, hpoint, rfl⟩ := List.mem_map.mp hbefore
        rw [List.mem_singleton.mp hnext]
        exact hbehind point hpoint
      epoch := by
        intro point hpoint
        rcases List.mem_append.mp hpoint with hpoint | hpoint
        · exact h.epoch point hpoint
        · rw [List.mem_singleton.mp hpoint, htime]
          exact hepoch
      chained := by
        refine List.isChain_append.mpr ⟨h.chained, .singleton _, ?_⟩
        intro previous hprevious next hnext
        obtain rfl := Option.some.inj hnext
        have hlast : cache.points.getLast? = some previous := hprevious
        refine ⟨?_, ?_, ?_, ?_⟩ <;> simp only [nextPoint, hlast]
      base := by
        intro first hfirst
        cases hpoints : cache.points with
        | nil =>
          have hempty : (cache.append math item).points = [cache.nextPoint math item] := by
            show cache.points ++ _ = _
            rw [hpoints]
            rfl
          rw [hempty] at hfirst
          obtain rfl := Option.some.inj hfirst
          have hlast : cache.points.getLast? = none := by rw [hpoints]; rfl
          constructor <;> simp only [nextPoint, hlast, PriceHistoryCache.append]
        | cons point later =>
          have hhead : (cache.append math item).points.head? = some point := by
            show (cache.points ++ _).head? = _
            rw [hpoints]
            rfl
          rw [hhead] at hfirst
          obtain rfl := Option.some.inj hfirst
          exact h.base point (by rw [hpoints]; rfl)
      described := by
        have hquote : (cache.nextPoint math item).quote =
            (wholeSecond item.timestamp, math.referencePrice item.value) := by
          rw [CachedPricePoint.quote, hprice, htime]
        show Describes (PriceHistoryCache.appendPrice cache.buckets _ _)
          ((cache.points ++ [cache.nextPoint math item]).map (·.quote))
        rw [List.map_append, List.map_singleton, hquote]
        apply h.described.appendPrice
        intro quote hin
        obtain ⟨point, hpoint, rfl⟩ := List.mem_map.mp hin
        exact wholeSecond_mono (h.epoch point hpoint) (hbehind point hpoint).timestamp_le
      start_le := by
        show cache.activeStart ≤ (cache.points ++ _).length
        rw [List.length_append]
        exact h.start_le.trans (Nat.le_add_right _ _) }

/-- Appending a run of items, in key order behind the points there are. -/
theorem foldl {cache : PriceHistoryCache α R} (h : Indexed math cache)
    {items : List (TimedValue α)} (hepoch : ∀ item ∈ items, 0 ≤ item.timestamp)
    (hsorted : (cache.points.map (·.item) ++ items).Pairwise TimedValue.Precedes) :
    Indexed math (items.foldl (PriceHistoryCache.append math) cache) := by
  induction items generalizing cache with
  | nil => exact h
  | cons item later ih =>
    have hbehind : ∀ point ∈ cache.points, point.item.Precedes item := by
      intro point hpoint
      exact (List.pairwise_append.mp hsorted).2.2 _ (List.mem_map_of_mem hpoint) item (by simp)
    apply ih (h.append (hepoch item (by simp)) hbehind) fun item hitem => hepoch item (by simp [hitem])
    rw [append_items, List.append_assoc]
    exact hsorted

/-- A rebuild, from any items in key order. -/
theorem rebuild (math : PriceMath α R) {items : List (TimedValue α)}
    (hepoch : ∀ item ∈ items, 0 ≤ item.timestamp)
    (hsorted : items.Pairwise TimedValue.Precedes) (latestOrdinal : Nat) :
    Indexed math (PriceHistoryCache.rebuild math items latestOrdinal) := by
  have hnew : Indexed math (PriceHistoryCache.new : PriceHistoryCache α R) := .new
  have hindexed := hnew.foldl hepoch (by simpa [PriceHistoryCache.new] using hsorted)
  exact ⟨hindexed.price, hindexed.sorted, hindexed.epoch, hindexed.chained, hindexed.base,
    hindexed.described, hindexed.start_le⟩

/-! ## Compacting -/

/-- What a step keeps that drops only inactive points. -/
structure SameActive (before after : PriceHistoryCache α R) : Prop where
  active : after.points.drop after.activeStart = before.points.drop before.activeStart
  points : after.points <:+ before.points
  lastOrdinal : after.lastOrdinal = before.lastOrdinal

/-- Seconds ascend along the points. -/
theorem quotes_le {cache : PriceHistoryCache α R} (h : Indexed math cache) :
    cache.points.Pairwise fun a b => a.quote.1 ≤ b.quote.1 :=
  h.timestamps_le.imp_of_mem fun ha _ hle => wholeSecond_mono (h.epoch _ ha) hle

/-- From the second of the first active point on, the buckets start with that second's. -/
theorem dropped_buckets {cache : PriceHistoryCache α R} (h : Indexed math cache)
    {removed kept : List (CachedPricePoint α R)} {first : CachedPricePoint α R}
    (hpoints : cache.points = removed ++ first :: kept) :
    ∃ bucket later,
      cache.buckets.drop (bisectLeft cache.bucketSeconds (wholeSecond first.timestamp) 0) =
          bucket :: later ∧
        bucket.second = wholeSecond first.timestamp ∧
        (∀ other ∈ later, wholeSecond first.timestamp < other.second) ∧
        cache.buckets.filter (fun other => wholeSecond first.timestamp ≤ other.second) =
          bucket :: later := by
  have hinitial : Initial (fun other : PriceSecondBucket =>
      decide (other.second < wholeSecond first.timestamp)) cache.buckets := by
    apply h.described.increasing.imp
    intro a b hab hb
    exact decide_eq_true (hab.trans (of_decide_eq_true hb))
  have hdrop : cache.buckets.drop
      (bisectLeft cache.bucketSeconds (wholeSecond first.timestamp) 0) =
        cache.buckets.filter (fun other => wholeSecond first.timestamp ≤ other.second) := by
    rw [bucketSeconds, bisectLeft_map, List.drop_zero, Nat.zero_add, hinitial.drop_takeWhile]
    apply List.filter_congr
    intro other _
    rw [← decide_not]
    exact decide_eq_decide.mpr not_lt
  obtain ⟨found, hfound, hsecond⟩ := h.described.covers first.quote (by simp [hpoints])
  have hin : found ∈ cache.buckets.filter
      (fun other => wholeSecond first.timestamp ≤ other.second) :=
    List.mem_filter.mpr ⟨hfound, decide_eq_true hsecond.ge⟩
  obtain ⟨bucket, later, hcons⟩ := List.exists_cons_of_ne_nil (List.ne_nil_of_mem hin)
  have hsorted := h.described.increasing.filter
    (fun other => wholeSecond first.timestamp ≤ other.second)
  rw [hcons] at hsorted hin
  obtain ⟨hlater, -⟩ := List.pairwise_cons.mp hsorted
  have hfirst : bucket.second = wholeSecond first.timestamp := by
    have hle : wholeSecond first.timestamp ≤ bucket.second := by
      have hmem : bucket ∈ cache.buckets.filter
          (fun other => wholeSecond first.timestamp ≤ other.second) := by
        rw [hcons]
        simp
      exact of_decide_eq_true (List.mem_filter.mp hmem).2
    rcases List.mem_cons.mp hin with rfl | hin
    · exact hsecond
    · have hlt := hlater found hin
      have heq : found.second = wholeSecond first.timestamp := hsecond
      omega
  refine ⟨bucket, later, hdrop.trans hcons, hfirst, ?_, hcons⟩
  intro other hother
  rw [← hfirst]
  exact hlater other hother

/-- The first bucket rebuilt from the points that are left. -/
theorem rebuildFirstBucket_spec {cache trimmed : PriceHistoryCache α R} (h : Indexed math cache)
    {removed kept : List (CachedPricePoint α R)} {first : CachedPricePoint α R}
    (hpoints : cache.points = removed ++ first :: kept) (htrimmed : trimmed.points = first :: kept)
    (hbuckets : trimmed.buckets =
      cache.buckets.drop (bisectLeft cache.bucketSeconds (wholeSecond first.timestamp) 0)) :
    ∃ buckets, trimmed.rebuildFirstBucket = .ok { trimmed with buckets } ∧
      Describes buckets ((first :: kept).map (·.quote)) := by
  obtain ⟨bucket, later, hdrop, hsecond, hlater, hfilter⟩ := h.dropped_buckets hpoints
  rw [hdrop] at hbuckets
  have hquotes := h.quotes_le
  rw [hpoints] at hquotes
  obtain ⟨-, hkept, hbefore⟩ := List.pairwise_append.mp hquotes
  have hfirstLe : ∀ point ∈ first :: kept, first.quote.1 ≤ point.quote.1 := by
    intro point hpoint
    rcases List.mem_cons.mp hpoint with rfl | hpoint
    · exact le_rfl
    · exact (List.pairwise_cons.mp hkept).1 point hpoint
  -- the points of the first second are the ones before the next second starts
  have hepoch : ∀ point ∈ first :: kept, 0 ≤ point.timestamp := fun point hpoint =>
    h.epoch point (by rw [hpoints]; exact List.mem_append_right _ hpoint)
  have hprices : ((first :: kept).take
      (bisectLeft trimmed.timestamps (secondStart (wholeSecond first.timestamp + 1)) 0)).map
        (·.price) = pricesAt ((first :: kept).map (·.quote)) (wholeSecond first.timestamp) := by
    have hinitial : Initial (fun point : CachedPricePoint α R =>
        decide (point.timestamp < secondStart (wholeSecond first.timestamp + 1)))
          (first :: kept) := by
      have htimes := h.timestamps_le
      rw [hpoints] at htimes
      apply (List.pairwise_append.mp htimes).2.1.imp
      intro a b hab hb
      exact decide_eq_true (hab.trans_lt (of_decide_eq_true hb))
    have htake : (first :: kept).take
        (bisectLeft trimmed.timestamps (secondStart (wholeSecond first.timestamp + 1)) 0) =
          (first :: kept).filter
            (fun point => point.timestamp < secondStart (wholeSecond first.timestamp + 1)) := by
      rw [timestamps, htrimmed, bisectLeft_map, List.drop_zero, Nat.zero_add,
        ← hinitial.takeWhile_eq_filter]
      exact (List.prefix_iff_eq_take.mp (List.takeWhile_prefix _)).symm
    rw [htake, pricesAt, List.filter_map, List.map_map]
    have hsame : (first :: kept).filter
        (fun point => point.timestamp < secondStart (wholeSecond first.timestamp + 1)) =
          (first :: kept).filter
            ((fun quote : Int × Decimal => decide (quote.1 = wholeSecond first.timestamp)) ∘
              (·.quote)) := by
      apply List.filter_congr
      intro point hpoint
      apply decide_eq_decide.mpr
      show _ ↔ wholeSecond point.timestamp = wholeSecond first.timestamp
      have hle : wholeSecond first.timestamp ≤ wholeSecond point.timestamp :=
        hfirstLe point hpoint
      have hpointEpoch := hepoch point hpoint
      constructor
      · intro hlt
        obtain ⟨hstart, -⟩ := (wholeSecond_eq_iff hpointEpoch).mp rfl
        unfold secondStart at hstart hlt
        omega
      · exact fun heq => ((wholeSecond_eq_iff hpointEpoch).mp heq).2
    rw [hsame]
    rfl
  have hnonempty :
      pricesAt ((first :: kept).map (·.quote)) (wholeSecond first.timestamp) ≠ [] := by
    apply List.ne_nil_of_mem (a := first.price)
    rw [mem_pricesAt]
    exact List.mem_cons_self
  obtain ⟨rebuilt, hrebuilt⟩ : ∃ rebuilt, PriceSecondBucket.ofPrices
      (wholeSecond first.timestamp)
      (pricesAt ((first :: kept).map (·.quote)) (wholeSecond first.timestamp)) = some rebuilt :=
    Option.ne_none_iff_exists'.mp fun hnone =>
      hnonempty (PriceSecondBucket.ofPrices_eq_none_iff.mp hnone)
  refine ⟨rebuilt :: later, ?_, ?_⟩
  · unfold rebuildFirstBucket
    rw [htrimmed, hbuckets]
    dsimp only
    rw [if_neg (not_not.mpr hsecond), hprices, hrebuilt]
  · -- the later buckets keep all their prices
    have hall : Describes cache.buckets
        (removed.map (·.quote) ++ (first :: kept).map (·.quote) ++ []) := by
      rw [List.append_nil, ← List.map_append, ← hpoints]
      exact h.described
    have hkept : ∀ quote ∈ (first :: kept).map (·.quote),
        decide (wholeSecond first.timestamp ≤ quote.1) = true := by
      intro quote hquote
      obtain ⟨point, hpoint, rfl⟩ := List.mem_map.mp hquote
      exact decide_eq_true (hfirstLe point hpoint)
    have hrestrict := Describes.restrict hall
      (fun second => decide (wholeSecond first.timestamp ≤ second)) hkept
    have hsame : ((bucket :: later).filterMap fun other =>
        PriceSecondBucket.ofPrices other.second
          (pricesAt ((first :: kept).map (·.quote)) other.second)) = rebuilt :: later := by
      rw [List.filterMap_cons_some (b := rebuilt)]
      · congr 1
        have hsome : later.filterMap some = later := List.filterMap_some
        rw [← hsome, List.filterMap_filterMap]
        apply List.filterMap_congr
        intro other hother
        have hremoved : ∀ quote ∈ removed.map (·.quote), quote.1 ≠ other.second := by
          intro quote hquote
          obtain ⟨point, hpoint, rfl⟩ := List.mem_map.mp hquote
          have hle := hbefore point hpoint first (by simp)
          have hlt := hlater other hother
          exact (hle.trans_lt hlt).ne
        have hkeptPrices := pricesAt_stretch ((first :: kept).map (·.quote)) hremoved
          fun quote hquote => absurd hquote List.not_mem_nil
        have hmem : other ∈ cache.buckets := by
          have hin : other ∈ cache.buckets.filter
              (fun other => wholeSecond first.timestamp ≤ other.second) := by
            rw [hfilter]
            exact List.mem_cons_of_mem _ hother
          exact (List.mem_filter.mp hin).1
        have hexact := hall.exact other hmem
        rw [hkeptPrices] at hexact
        exact hexact
      · rw [hsecond]
        exact hrebuilt
    rw [hfilter, hsame] at hrestrict
    exact hrestrict

/-- Compacting never fails, and keeps the invariant and the active points. -/
theorem compact {cache : PriceHistoryCache α R} (h : Indexed math cache) :
    ∃ after, cache.compact = .ok after ∧ Indexed math after ∧ SameActive cache after := by
  unfold PriceHistoryCache.compact
  by_cases hstart : cache.activeStart = 0
  · rw [if_pos hstart]
    exact ⟨cache, rfl, h, rfl, List.suffix_rfl, rfl⟩
  rw [if_neg hstart]
  have hne : cache.points.take cache.activeStart ≠ [] := by
    have hle := h.start_le
    apply List.ne_nil_of_length_pos
    rw [List.length_take]
    omega
  obtain ⟨removed, hremoved⟩ : ∃ removed,
      (cache.points.take cache.activeStart).getLast? = some removed :=
    ⟨_, List.getLast?_eq_getLast_of_ne_nil hne⟩
  rw [hremoved]
  dsimp only
  have hsplit := (List.take_append_drop cache.activeStart cache.points).symm
  -- what is dropped ends with the point the base is taken from
  have hchain := h.chained
  rw [hsplit] at hchain
  obtain ⟨-, hkeptChain, hjoin⟩ := List.isChain_append.mp hchain
  have hmem : ∀ point ∈ cache.points.drop cache.activeStart, point ∈ cache.points :=
    fun point hpoint => List.mem_of_mem_drop hpoint
  have hsorted : ((cache.points.drop cache.activeStart).map (·.item)).Pairwise
      TimedValue.Precedes := by
    rw [List.map_drop]
    exact h.sorted.sublist (List.drop_sublist _ _)
  cases hkept : cache.points.drop cache.activeStart with
  | nil =>
    exact ⟨_, rfl,
      { price := by simp
        sorted := .nil
        epoch := by simp
        chained := .nil
        base := by simp
        described := .nil
        start_le := le_rfl }, by simp [hkept], List.nil_suffix, rfl⟩
  | cons first kept =>
    rw [hkept] at hsplit hkeptChain hjoin hmem hsorted
    dsimp only
    let trimmed : PriceHistoryCache α R :=
      { cache with
        points := first :: kept
        buckets := cache.buckets.drop
          (bisectLeft cache.bucketSeconds (wholeSecond first.timestamp) 0)
        activeStart := 0
        baseSquaredLogReturn := removed.prefixSquaredLogReturn
        baseDigestSum := removed.prefixDigestSum
        baseDigestXor := removed.prefixDigestXor }
    have htrimmed : trimmed.points = first :: kept := rfl
    obtain ⟨buckets, hrebuilt, hdescribed⟩ := h.rebuildFirstBucket_spec hsplit htrimmed rfl
    have hsuffix : first :: kept <:+ cache.points := by
      rw [← hkept]
      exact List.drop_suffix _ _
    have hactive : trimmed.points.drop trimmed.activeStart =
        cache.points.drop cache.activeStart := hkept.symm
    refine ⟨_, hrebuilt, ?_, hactive, hsuffix, rfl⟩
    exact
      { price := fun point hpoint => h.price point (hmem point hpoint)
        sorted := hsorted
        epoch := fun point hpoint => h.epoch point (hmem point hpoint)
        chained := hkeptChain
        base := by
          intro point hpoint
          obtain rfl := Option.some.inj hpoint
          have hfollows := hjoin removed hremoved first rfl
          exact ⟨hfollows.digestSum, hfollows.digestXor⟩
        described := hdescribed
        start_le := Nat.zero_le _ }

end Indexed

end PriceHistoryCache

end Cvf
