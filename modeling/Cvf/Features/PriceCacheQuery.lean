/-
# Cvf.Features.PriceCacheQuery — a query is a stretch of the active points.

The two positions of `_bounds` cut the points into what lies before the query, the points of the query
and what lies behind it (`Stretch`).  Differences of running sums over a stretch are the sums over its
items, and the buckets of a stretch are those of its seconds with the edges cut to it, so every query
answers with what its items alone give.
-/
import Cvf.Features.PriceCacheUpdate

namespace Cvf

open Cvf.Library

namespace PriceHistoryCache

variable {α R : Type*}

/-- The points a query asks for, among all points. -/
structure Stretch (cache : PriceHistoryCache α R) (start stop : Int)
    (front selected behind : List (CachedPricePoint α R)) : Prop where
  points : cache.points = front ++ selected ++ behind
  bounds : cache.bounds start stop = .ok (front.length, front.length + selected.length)

/-- Where the active points are the window's items, the stretch of a query is the window's answer. -/
theorem exists_stretch {window : BoundedTimeWindow α} {cache : PriceHistoryCache α R}
    (hsorted : (cache.points.map (·.item)).Pairwise TimedValue.Precedes)
    (hstart : cache.activeStart ≤ cache.points.length) (hactive : cache.activeItems = window.items)
    {start stop : Int} (hle : start ≤ stop) :
    ∃ front selected behind, cache.Stretch start stop front selected behind ∧
      window.itemsBetween start stop = some (selected.map (·.item)) := by
  let active := cache.points.drop cache.activeStart
  have htimes : active.Pairwise fun a b => a.timestamp ≤ b.timestamp := by
    apply List.Pairwise.sublist (List.drop_sublist _ _)
    exact (List.pairwise_map.mp hsorted).imp fun hab => hab.timestamp_le
  have hinitial : ∀ bound : Int,
      Initial (fun point : CachedPricePoint α R => decide (point.timestamp ≤ bound)) active := by
    intro bound
    apply htimes.imp
    intro a b hab hb
    exact decide_eq_true (hab.trans (of_decide_eq_true hb))
  have hwithin := (hinitial start).takeWhile_eq_append (hinitial stop) (by
    intro point _ hstart
    exact decide_eq_true ((of_decide_eq_true hstart).trans hle))
  let selected := active.filter fun point =>
    !decide (point.timestamp ≤ start) && decide (point.timestamp ≤ stop)
  have hlength : (cache.points.take cache.activeStart).length = cache.activeStart := by
    rw [List.length_take]
    exact min_eq_left hstart
  refine ⟨cache.points.take cache.activeStart ++ active.takeWhile (·.timestamp ≤ start), selected,
    active.dropWhile (·.timestamp ≤ stop), ⟨?_, ?_⟩, ?_⟩
  · calc cache.points
        = cache.points.take cache.activeStart ++ active := (List.take_append_drop _ _).symm
      _ = cache.points.take cache.activeStart ++
            (active.takeWhile (·.timestamp ≤ stop) ++ active.dropWhile (·.timestamp ≤ stop)) := by
          rw [List.takeWhile_append_dropWhile]
      _ = _ := by rw [hwithin, List.append_assoc, List.append_assoc, List.append_assoc]
  · rw [bounds, if_neg (not_lt.mpr hle), timestamps, bisectRight_map, bisectRight_map]
    show Except.ok (cache.activeStart + _,
      cache.activeStart + (active.takeWhile (·.timestamp ≤ stop)).length) = _
    rw [hwithin, List.length_append, List.length_append, hlength, Nat.add_assoc]
  · rw [window.itemsBetween_eq hle, ← hactive, activeItems, List.filter_map]
    refine congrArg (some ∘ List.map CachedPricePoint.item) (List.filter_congr ?_)
    intro point _
    rw [Function.comp_apply, ← decide_not, ← Bool.decide_and]
    exact decide_eq_decide.mpr (and_congr_left' not_le.symm)

section

variable [Ring R] {math : PriceMath α R}

theorem Mirrors.exists_stretch {window : BoundedTimeWindow α} {cache : PriceHistoryCache α R}
    (h : Mirrors math window cache) {start stop : Int} (hle : start ≤ stop) :
    ∃ front selected behind, cache.Stretch start stop front selected behind ∧
      window.itemsBetween start stop = some (selected.map (·.item)) :=
  PriceHistoryCache.exists_stretch h.indexed.sorted h.indexed.start_le h.active hle

/-! ## Differences of running sums -/

/-- Along a chain, the running sums grow by the returns between the prices. -/
theorem Follows.returns {first last : CachedPricePoint α R} {rest : List (CachedPricePoint α R)}
    (h : (first :: rest).IsChain (Follows math)) (hlast : (first :: rest).getLast? = some last) :
    last.prefixSquaredLogReturn = first.prefixSquaredLogReturn +
        Direct.squaredReturns math ((first :: rest).map (·.price)) ∧
      last.prefixValidLogReturns = first.prefixValidLogReturns +
        Direct.validReturns ((first :: rest).map (·.price)) := by
  induction rest generalizing first with
  | nil =>
    obtain rfl := Option.some.inj hlast
    simp [Direct.squaredReturns, Direct.validReturns]
  | cons second later ih =>
    obtain ⟨hfollows, hchain⟩ := List.isChain_cons_cons.mp h
    rw [List.getLast?_cons_cons] at hlast
    obtain ⟨hsquared, hvalid⟩ := ih hchain hlast
    constructor
    · rw [hsquared, hfollows.squared, add_assoc]
      rfl
    · rw [hvalid, hfollows.valid, Nat.add_assoc]
      rfl

/-- Along a chain, the lineage grows by the sources after the first. -/
theorem Follows.lineage {first last : CachedPricePoint α R} {rest : List (CachedPricePoint α R)}
    (h : (first :: rest).IsChain (Follows math)) (hlast : (first :: rest).getLast? = some last)
    (htimes : (first :: rest).Pairwise fun a b => a.timestamp ≤ b.timestamp)
    {sofar : SourceLineage} {oldest : Int} (hcount : sofar.count ≠ 0)
    (holdest : sofar.oldestTimestamp = some oldest) (hle : oldest ≤ first.timestamp)
    (hnewest : sofar.newestTimestamp = some first.timestamp) :
    (rest.map (·.item)).foldl
        (fun lineage item => lineage.combine
          (.fromDigest item.timestamp (math.digest item.timestamp item.value))) sofar =
      { count := sofar.count + rest.length
        digestSum := sofar.digestSum + (last.prefixDigestSum - first.prefixDigestSum)
        digestXor := sofar.digestXor ^^^ (last.prefixDigestXor ^^^ first.prefixDigestXor)
        oldestTimestamp := some oldest
        newestTimestamp := some last.timestamp } := by
  induction rest generalizing first sofar with
  | nil =>
    obtain rfl := Option.some.inj hlast
    simp [← holdest, ← hnewest]
  | cons second later ih =>
    obtain ⟨hfollows, hchain⟩ := List.isChain_cons_cons.mp h
    obtain ⟨hfirst, hrest⟩ := List.pairwise_cons.mp htimes
    rw [List.getLast?_cons_cons] at hlast
    have hsecond := hfirst second List.mem_cons_self
    have hnext : sofar.combine (.fromDigest second.timestamp
        (math.digest second.timestamp second.source)) =
          { count := sofar.count + 1
            digestSum := sofar.digestSum + math.digest second.timestamp second.source
            digestXor := sofar.digestXor ^^^ math.digest second.timestamp second.source
            oldestTimestamp := some oldest
            newestTimestamp := some second.timestamp } := by
      unfold SourceLineage.combine SourceLineage.fromDigest
      dsimp only
      rw [if_neg (Nat.succ_ne_zero _), holdest, hnewest]
      simp only [minOption, maxOption, min_eq_left (hle.trans hsecond), max_eq_right hsecond]
    rw [List.map_cons, List.foldl_cons]
    show List.foldl _ (sofar.combine (.fromDigest second.timestamp
        (math.digest second.timestamp second.source))) (later.map (·.item)) = _
    rw [hnext, ih hchain hlast hrest (Nat.succ_ne_zero _) rfl (hle.trans hsecond) rfl,
      hfollows.digestSum, hfollows.digestXor]
    dsimp only
    congr 1
    · rw [List.length_cons]
      omega
    · ring
    · rw [BitVec.xor_assoc, xor_cancel]

/-! ## The queries -/

variable {cache : PriceHistoryCache α R} {start stop : Int}
  {front selected behind : List (CachedPricePoint α R)}

namespace Stretch

/-- The prices of the points are those of their items. -/
theorem prices_eq (hs : cache.Stretch start stop front selected behind)
    (h : Indexed math cache) :
    selected.map (·.price) = Direct.prices math (selected.map (·.item)) := by
  unfold Direct.prices
  rw [List.map_map]
  apply List.map_congr_left
  intro point hpoint
  apply h.price point
  rw [hs.points]
  simp [hpoint]

theorem chained (hs : cache.Stretch start stop front selected behind) (h : Indexed math cache) :
    selected.IsChain (Follows math) := by
  have hchain := h.chained
  rw [hs.points] at hchain
  exact (List.isChain_append.mp (List.isChain_append.mp hchain).1).2.1

theorem times (hs : cache.Stretch start stop front selected behind) (h : Indexed math cache) :
    (front ++ selected ++ behind).Pairwise fun a b => a.timestamp ≤ b.timestamp := by
  rw [← hs.points]
  exact h.timestamps_le

omit [Ring R] in
/-- The points at the two ends of a stretch. -/
theorem ends (hs : cache.Stretch start stop front selected behind)
    {first last : CachedPricePoint α R} (hfirst : selected.head? = some first)
    (hlast : selected.getLast? = some last) :
    cache.points[front.length]? = some first ∧
      cache.points[front.length + selected.length - 1]? = some last := by
  obtain ⟨rest, rfl⟩ := List.head?_eq_some_iff.mp hfirst
  constructor
  · rw [hs.points, List.append_assoc, List.getElem?_append_right le_rfl, Nat.sub_self]
    rfl
  · have hindex : front.length + (first :: rest).length - 1 =
        front.length + ((first :: rest).length - 1) := by
      rw [List.length_cons]
      omega
    rw [hindex, hs.points, List.append_assoc, List.getElem?_append_right (Nat.le_add_right _ _),
      Nat.add_sub_cancel_left, List.getElem?_append_left (by simp), ← List.getLast?_eq_getElem?,
      hlast]

end Stretch

end

section

variable [CommRing R] [LinearOrder R] [IsStrictOrderedRing R] {math : PriceMath α R}

theorem squaredReturns_nonneg (prices : List Decimal) : 0 ≤ Direct.squaredReturns math prices := by
  induction prices with
  | nil => exact le_rfl
  | cons first later ih =>
    cases later with
    | nil => exact le_rfl
    | cons second later =>
      apply add_nonneg _ ih
      unfold squaredReturn
      split_ifs
      · exact mul_self_nonneg _
      · exact le_rfl

variable {cache : PriceHistoryCache α R} {start stop : Int}
  {front selected behind : List (CachedPricePoint α R)}

/-- `range` answers with the count, the end prices and the volatility of the stretch. -/
theorem Stretch.range (hs : cache.Stretch start stop front selected behind)
    (h : Indexed math cache) :
    cache.range math start stop = .ok (Direct.range math (selected.map (·.item))) := by
  have hprices := hs.prices_eq h
  unfold PriceHistoryCache.range Direct.range
  rw [hs.bounds]
  dsimp only
  rw [← hprices]
  cases hselected : selected with
  | nil => simp [Direct.validReturns]
  | cons first rest =>
    obtain ⟨last, hlast⟩ : ∃ last, (first :: rest).getLast? = some last :=
      ⟨_, List.getLast?_eq_getLast_of_ne_nil (List.cons_ne_nil _ _)⟩
    have hchain := hs.chained h
    rw [hselected] at hs hchain
    obtain ⟨hleft, hright⟩ := hs.ends rfl hlast
    obtain ⟨hsquared, hvalid⟩ := Follows.returns hchain hlast
    have hdefined : (last.prefixValidLogReturns : Int) - first.prefixValidLogReturns < 2 ↔
        Direct.validReturns ((first :: rest).map (·.price)) < 2 := by
      rw [hvalid]
      omega
    have hdifference : max 0 (last.prefixSquaredLogReturn - first.prefixSquaredLogReturn) =
        Direct.squaredReturns math ((first :: rest).map (·.price)) := by
      rw [hsquared, add_sub_cancel_left]
      exact max_eq_right (squaredReturns_nonneg _)
    rw [if_neg (by simp), hleft, hright]
    dsimp only
    rw [hdifference, Nat.add_sub_cancel_left, List.length_map, List.getLast?_map, hlast]
    simp only [hdefined]
    rfl

end

/-! ## Lineage, buckets and what is made of them -/

section

variable [Ring R] {math : PriceMath α R} {cache : PriceHistoryCache α R} {start stop : Int}
  {front selected behind : List (CachedPricePoint α R)}

/-- The running digests before a stretch, from its first point or from the base. -/
theorem Stretch.before_digests (hs : cache.Stretch start stop front selected behind)
    (h : Indexed math cache) {first : CachedPricePoint α R}
    (hfirst : selected.head? = some first) :
    let before := if front.length = 0 then none else cache.points[front.length - 1]?
    first.prefixDigestSum = (before.map (·.prefixDigestSum)).getD cache.baseDigestSum +
        math.digest first.timestamp first.source ∧
      first.prefixDigestXor = (before.map (·.prefixDigestXor)).getD cache.baseDigestXor ^^^
        math.digest first.timestamp first.source := by
  intro before
  rcases List.eq_nil_or_concat front with rfl | ⟨earlier, previous, rfl⟩
  · apply h.base first
    rw [hs.points, List.nil_append, List.head?_append, hfirst]
    rfl
  · rw [List.concat_eq_append] at hs
    have hlength : (earlier.concat previous).length = earlier.length + 1 := by simp
    have hbefore : before = some previous := by
      show (if (earlier.concat previous).length = 0 then none
        else cache.points[(earlier.concat previous).length - 1]?) = some previous
      rw [hlength, if_neg (Nat.succ_ne_zero _), Nat.add_sub_cancel, hs.points, List.append_assoc,
        List.append_assoc, List.getElem?_append_right le_rfl, Nat.sub_self]
      rfl
    have hchain := h.chained
    rw [hs.points, List.append_assoc, List.isChain_append] at hchain
    have hfollows := hchain.2.2 previous (by simp) first (by
      rw [List.head?_append, hfirst]
      rfl)
    rw [hbefore]
    exact ⟨hfollows.digestSum, hfollows.digestXor⟩

/-- `lineage` answers with the lineage of the stretch. -/
theorem Stretch.lineage (hs : cache.Stretch start stop front selected behind)
    (h : Indexed math cache) :
    cache.lineage start stop = .ok (Direct.lineage math (selected.map (·.item))) := by
  unfold PriceHistoryCache.lineage PriceHistoryCache.lineageBetween Direct.lineage
  rw [hs.bounds]
  dsimp only
  cases hselected : selected with
  | nil => simp
  | cons first rest =>
    obtain ⟨last, hlast⟩ : ∃ last, (first :: rest).getLast? = some last :=
      ⟨_, List.getLast?_eq_getLast_of_ne_nil (List.cons_ne_nil _ _)⟩
    have hchain := hs.chained h
    have htimes := (List.pairwise_append.mp (List.pairwise_append.mp (hs.times h)).1).2.1
    rw [hselected] at hs hchain htimes
    obtain ⟨hleft, hright⟩ := hs.ends rfl hlast
    obtain ⟨hsum, hxor⟩ := hs.before_digests h rfl
    rw [if_neg (by simp), hleft, hright, List.map_cons, List.foldl_cons]
    show _ = Except.ok (List.foldl _ (SourceLineage.combine {} (.fromDigest first.timestamp
      (math.digest first.timestamp first.source))) (rest.map (·.item)))
    rw [SourceLineage.empty_combine_fromDigest,
      Follows.lineage hchain hlast htimes Nat.one_ne_zero rfl le_rfl rfl, hsum, hxor]
    dsimp only [SourceLineage.fromDigest]
    congr 2
    · rw [List.length_cons]
      omega
    · ring
    · rw [xor_cancel]

/-- `_partial_bucket` is the bucket of a second's prices within the stretch. -/
theorem Stretch.partialBucket (hs : cache.Stretch start stop front selected behind)
    (h : Indexed math cache) (second : Int) :
    cache.partialBucket second front.length (front.length + selected.length) =
      PriceSecondBucket.ofPrices second (pricesAt (selected.map (·.quote)) second) := by
  have hinitial : ∀ bound : Int, Initial
      (fun point : CachedPricePoint α R => decide (point.timestamp < bound)) cache.points := by
    intro bound
    apply h.timestamps_le.imp
    intro a b hab hb
    exact decide_eq_true (hab.trans_lt (of_decide_eq_true hb))
  have hcut : (cache.points.take (front.length + selected.length)).drop front.length =
      selected := by
    rw [hs.points, ← List.length_append, List.take_left, List.drop_left]
  -- the points of the stretch within the second
  have hslice := slice_eq_filter (hinitial (secondStart second))
    (hinitial (secondStart (second + 1))) front.length (front.length + selected.length)
  rw [hcut] at hslice
  have hprices : (selected.filter fun point => !decide (point.timestamp < secondStart second) &&
      decide (point.timestamp < secondStart (second + 1))).map (·.price) =
        pricesAt (selected.map (·.quote)) second := by
    rw [pricesAt, List.filter_map, List.map_map]
    refine congrArg (List.map CachedPricePoint.price) (List.filter_congr ?_)
    intro point hpoint
    have hepoch : 0 ≤ point.timestamp := by
      apply h.epoch point
      rw [hs.points]
      simp [hpoint]
    rw [Function.comp_apply, ← decide_not, ← Bool.decide_and]
    apply decide_eq_decide.mpr
    exact (and_congr_left' not_lt).trans (wholeSecond_eq_iff hepoch).symm
  unfold PriceHistoryCache.partialBucket
  dsimp only
  rw [timestamps, bisectLeft_map, bisectLeft_map, Nat.zero_add, Nat.zero_add, List.drop_zero]
  rw [hslice, hprices]
  split_ifs with hempty
  · have hnone : pricesAt (selected.map (·.quote)) second = [] := by
      rw [← hprices, ← hslice, List.drop_eq_nil_of_le, List.map_nil]
      rw [List.length_take]
      exact (min_le_left _ _).trans hempty
    rw [hnone]
    rfl
  · rfl

/-- The seconds of a stretch lie between those of its ends, and the other points around them. -/
theorem Stretch.seconds (hs : cache.Stretch start stop front selected behind)
    (h : Indexed math cache) {first last : CachedPricePoint α R}
    (hfirst : selected.head? = some first) (hlast : selected.getLast? = some last) :
    (∀ point ∈ front, point.quote.1 ≤ first.quote.1) ∧
      (∀ point ∈ selected, first.quote.1 ≤ point.quote.1 ∧ point.quote.1 ≤ last.quote.1) ∧
      ∀ point ∈ behind, last.quote.1 ≤ point.quote.1 := by
  have hquotes := h.quotes_le
  rw [hs.points] at hquotes
  obtain ⟨hbefore, -, hbehind⟩ := List.pairwise_append.mp hquotes
  obtain ⟨-, hselected, hfront⟩ := List.pairwise_append.mp hbefore
  have hmem := List.mem_of_head? hfirst
  refine ⟨fun point hpoint => hfront point hpoint first hmem, fun point hpoint => ⟨?_, ?_⟩, ?_⟩
  · obtain ⟨rest, hrest⟩ := List.head?_eq_some_iff.mp hfirst
    rw [hrest] at hpoint hselected
    rcases List.mem_cons.mp hpoint with rfl | hpoint
    · exact le_rfl
    · exact (List.pairwise_cons.mp hselected).1 point hpoint
  · obtain ⟨rest, hrest⟩ := List.getLast?_eq_some_iff.mp hlast
    rw [hrest] at hpoint hselected
    rcases List.mem_append.mp hpoint with hpoint | hpoint
    · exact (List.pairwise_append.mp hselected).2.2 point hpoint last (by simp)
    · rw [List.mem_singleton.mp hpoint]
  · intro point hpoint
    exact hbehind last (List.mem_append_right _ (List.mem_of_getLast? hlast)) point hpoint

/-- `buckets` answers with the buckets of the stretch. -/
theorem Stretch.buckets (hs : cache.Stretch start stop front selected behind)
    (h : Indexed math cache) :
    ∃ buckets, cache.bucketsBetween start stop = .ok buckets ∧
      Describes buckets (selected.map (·.quote)) := by
  unfold bucketsBetween
  rw [hs.bounds]
  dsimp only
  cases hselected : selected with
  | nil => exact ⟨[], if_pos (by simp), .nil⟩
  | cons first rest =>
    obtain ⟨last, hlast⟩ : ∃ last, (first :: rest).getLast? = some last :=
      ⟨_, List.getLast?_eq_getLast_of_ne_nil (List.cons_ne_nil _ _)⟩
    rw [hselected] at hs
    obtain ⟨hleft, hright⟩ := hs.ends rfl hlast
    obtain ⟨hfront, hwithin, hbehind⟩ := hs.seconds h rfl hlast
    rw [if_neg (by simp), hleft, hright]
    dsimp only
    let kept : Int → Bool := fun second =>
      !decide (second < first.quote.1) && decide (second ≤ last.quote.1)
    have hslice : (cache.buckets.take
        (bisectRight cache.bucketSeconds (wholeSecond last.timestamp) 0)).drop
          (bisectLeft cache.bucketSeconds (wholeSecond first.timestamp) 0) =
            cache.buckets.filter fun bucket => kept bucket.second := by
      have hincreasing := h.described.increasing
      have hbefore : Initial (fun bucket : PriceSecondBucket =>
          decide (bucket.second < first.quote.1)) cache.buckets :=
        hincreasing.imp fun hab hb => decide_eq_true (hab.trans (of_decide_eq_true hb))
      have hupto : Initial (fun bucket : PriceSecondBucket =>
          decide (bucket.second ≤ last.quote.1)) cache.buckets :=
        hincreasing.imp fun hab hb => decide_eq_true (hab.le.trans (of_decide_eq_true hb))
      rw [bucketSeconds, bisectLeft_map, bisectRight_map, Nat.zero_add, Nat.zero_add,
        List.drop_zero]
      exact slice_eq_filter_all hbefore hupto
    have hdescribed := h.described
    rw [hs.points, List.map_append, List.map_append] at hdescribed
    have hrestrict := hdescribed.restrict kept (by
      intro quote hquote
      obtain ⟨point, hpoint, rfl⟩ := List.mem_map.mp hquote
      obtain ⟨hge, hle⟩ := hwithin point hpoint
      show (!decide _ && decide _) = true
      rw [decide_eq_false (not_lt.mpr hge), decide_eq_true hle]
      rfl)
    refine ⟨_, rfl, ?_⟩
    rw [hslice]
    have hsame : ∀ bucket ∈ cache.buckets.filter fun bucket => kept bucket.second,
        (if bucket.second = wholeSecond first.timestamp ∨
            bucket.second = wholeSecond last.timestamp then
          cache.partialBucket bucket.second front.length
            (front.length + (first :: rest).length)
        else some bucket) =
          PriceSecondBucket.ofPrices bucket.second
            (pricesAt ((first :: rest).map (·.quote)) bucket.second) := by
      intro bucket hbucket
      obtain ⟨hmem, hkept⟩ := List.mem_filter.mp hbucket
      split_ifs with hedge
      · exact hs.partialBucket h bucket.second
      -- a bucket strictly between the ends has no price outside the stretch
      obtain ⟨hge, hle⟩ := (Bool.and_eq_true _ _).mp hkept
      rw [← decide_not] at hge
      have hge := not_lt.mp (of_decide_eq_true hge)
      have hle := of_decide_eq_true hle
      have hfirst : first.quote.1 < bucket.second :=
        lt_of_le_of_ne hge fun heq => hedge (.inl heq.symm)
      have hlastLt : bucket.second < last.quote.1 :=
        lt_of_le_of_ne hle fun heq => hedge (.inr heq)
      have hbefore : ∀ quote ∈ front.map (·.quote), quote.1 ≠ bucket.second := by
        intro quote hquote
        obtain ⟨point, hpoint, rfl⟩ := List.mem_map.mp hquote
        exact ((hfront point hpoint).trans_lt hfirst).ne
      have hafter : ∀ quote ∈ behind.map (·.quote), quote.1 ≠ bucket.second := by
        intro quote hquote
        obtain ⟨point, hpoint, rfl⟩ := List.mem_map.mp hquote
        exact (hlastLt.trans_le (hbehind point hpoint)).ne'
      rw [← pricesAt_stretch ((first :: rest).map (·.quote)) hbefore hafter]
      exact (hdescribed.exact bucket hmem).symm
    rw [List.filterMap_congr hsame]
    exact hrestrict

/-- `high_low` answers with the extremes of the stretch. -/
theorem Stretch.highLow (hs : cache.Stretch start stop front selected behind)
    (h : Indexed math cache) :
    cache.highLow start stop = .ok (Direct.highLow math (selected.map (·.item))) := by
  obtain ⟨buckets, hbuckets, hdescribed⟩ := hs.buckets h
  unfold PriceHistoryCache.highLow Direct.highLow
  rw [hbuckets]
  dsimp only
  rw [hdescribed.max?_high, hdescribed.min?_low, List.map_map, ← hs.prices_eq h]
  rfl

/-- `atr` answers with `_one_second_atr` of the stretch. -/
theorem Stretch.atr (hs : cache.Stretch start stop front selected behind)
    (h : Indexed math cache) :
    cache.atr start stop = .ok (Direct.oneSecondAtr math (selected.map (·.item))) := by
  obtain ⟨buckets, hbuckets, hdescribed⟩ := hs.buckets h
  have hquotes : selected.map (·.quote) = (selected.map (·.item)).map (itemQuote math) := by
    rw [List.map_map]
    apply List.map_congr_left
    intro point hpoint
    have hprice := h.price point (by rw [hs.points]; simp [hpoint])
    rw [CachedPricePoint.quote, hprice]
    rfl
  rw [hquotes] at hdescribed
  have hsame := hdescribed.unique (describes_bySecond math _)
  unfold PriceHistoryCache.atr Direct.oneSecondAtr
  rw [hs.bounds, List.length_map]
  dsimp only
  have hcount : front.length + selected.length < front.length + 2 ↔ selected.length < 2 := by
    omega
  simp only [hcount, hbuckets, hsame]
  split_ifs
  · rfl
  · split <;> simp_all

end

end PriceHistoryCache

end Cvf
