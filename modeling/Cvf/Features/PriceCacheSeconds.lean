/-
# Cvf.Features.PriceCacheSeconds — no update of the price cache fails.

Instants before 1970 round towards zero, so that a second around the epoch has two halves and its bucket may
take prices of the next.  `Indexed` leaves such instants out.  The seconds of the buckets still are those of
the points, in ascending order, and that is all compacting needs in order not to fail.
-/
import Cvf.Features.PriceCacheUpdate

namespace Cvf

open Cvf.Library

theorem wholeSecond_le_of_le {a b : Int} (hle : a ≤ b) : wholeSecond a ≤ wholeSecond b := by
  have hsign : Int.sign 1000000 = 1 := rfl
  unfold wholeSecond
  rw [Int.tdiv_eq_ediv, Int.tdiv_eq_ediv]
  split_ifs <;> omega

theorem lt_secondStart_succ (timestamp : Int) :
    timestamp < secondStart (wholeSecond timestamp + 1) := by
  have hsign : Int.sign 1000000 = 1 := rfl
  unfold secondStart wholeSecond
  rw [Int.tdiv_eq_ediv]
  split_ifs <;> omega

namespace PriceHistoryCache

variable {α R : Type*}

/-- The buckets ascend, and are those of the seconds of the points. -/
structure Seconds (cache : PriceHistoryCache α R) : Prop where
  ascending : cache.bucketSeconds.Pairwise (· < ·)
  same : ∀ second, second ∈ cache.bucketSeconds ↔
    ∃ point ∈ cache.points, wholeSecond point.timestamp = second

/-- A price goes into the last bucket when that is of its second, and otherwise into a new one. -/
theorem appendPrice_seconds (buckets : List PriceSecondBucket) (second : Int) (price : Decimal) :
    (appendPrice buckets second price).map (·.second) =
      if (buckets.map (·.second)).getLast? = some second then buckets.map (·.second)
      else buckets.map (·.second) ++ [second] := by
  unfold appendPrice
  rcases List.eq_nil_or_concat buckets with rfl | ⟨front, last, rfl⟩
  · rfl
  · rw [List.concat_eq_append, List.getLast?_concat, List.map_append, List.map_singleton,
      List.getLast?_concat]
    dsimp only
    by_cases hsecond : last.second = second
    · rw [if_pos hsecond, if_pos (congrArg some hsecond), List.dropLast_concat, List.map_append]
      rfl
    · rw [if_neg hsecond, if_neg fun heq => hsecond (Option.some.inj heq), List.map_append, List.map_append]
      rfl

variable {cache : PriceHistoryCache α R}

/-- From the second of the first kept point on, the buckets start with that second's. -/
theorem Seconds.dropped (h : Seconds cache) {removed kept : List (CachedPricePoint α R)}
    {first : CachedPricePoint α R} (hpoints : cache.points = removed ++ first :: kept) :
    cache.bucketSeconds.drop (bisectLeft cache.bucketSeconds (wholeSecond first.timestamp) 0) =
      cache.bucketSeconds.filter (wholeSecond first.timestamp ≤ ·) ∧
    (cache.bucketSeconds.filter (wholeSecond first.timestamp ≤ ·)).head? =
      some (wholeSecond first.timestamp) := by
  have hinitial : Initial (fun second => decide (second < wholeSecond first.timestamp))
      cache.bucketSeconds := by
    apply h.ascending.imp
    intro a b hab hb
    exact decide_eq_true (hab.trans (of_decide_eq_true hb))
  constructor
  · unfold bisectLeft
    rw [List.drop_zero, Nat.zero_add, hinitial.drop_takeWhile]
    apply List.filter_congr
    intro second _
    rw [← decide_not]
    exact decide_eq_decide.mpr not_lt
  · have hin : wholeSecond first.timestamp ∈
        cache.bucketSeconds.filter (wholeSecond first.timestamp ≤ ·) := by
      refine List.mem_filter.mpr ⟨(h.same _).mpr ⟨first, ?_, rfl⟩, decide_eq_true le_rfl⟩
      rw [hpoints]
      exact List.mem_append_right _ List.mem_cons_self
    obtain ⟨least, later, hcons⟩ := List.exists_cons_of_ne_nil (List.ne_nil_of_mem hin)
    have hleast : wholeSecond first.timestamp ≤ least := by
      have hmem : least ∈ cache.bucketSeconds.filter (wholeSecond first.timestamp ≤ ·) := by
        rw [hcons]
        exact List.mem_cons_self
      exact of_decide_eq_true (List.mem_filter.mp hmem).2
    have hsorted := h.ascending.filter (wholeSecond first.timestamp ≤ ·)
    rw [hcons] at hsorted hin ⊢
    rw [List.head?_cons]
    rcases List.mem_cons.mp hin with heq | hlater
    · rw [heq]
    · have hlt := (List.pairwise_cons.mp hsorted).1 _ hlater
      omega

/-- Rebuilding the first bucket leaves its second. -/
theorem rebuildFirstBucket_seconds {first : CachedPricePoint α R} {kept : List (CachedPricePoint α R)}
    (hpoints : cache.points = first :: kept)
    (hhead : cache.bucketSeconds.head? = some (wholeSecond first.timestamp)) :
    ∃ buckets, cache.rebuildFirstBucket = .ok { cache with buckets } ∧
      buckets.map (·.second) = cache.bucketSeconds := by
  unfold bucketSeconds at hhead
  cases hbuckets : cache.buckets with
  | nil =>
    rw [hbuckets] at hhead
    cases hhead
  | cons bucket later =>
    rw [hbuckets] at hhead
    have hsecond : bucket.second = wholeSecond first.timestamp := Option.some.inj hhead
    -- the first point lies in its second, so there are prices
    let stop := bisectLeft cache.timestamps (secondStart (wholeSecond first.timestamp + 1)) 0
    have hstop : 0 < stop := by
      show 0 < 0 + _
      rw [timestamps, hpoints, List.map_cons, List.drop_zero, List.takeWhile_cons,
        if_pos (decide_eq_true (lt_secondStart_succ first.timestamp)), List.length_cons]
      omega
    have hprices : ((cache.points.take stop).map (·.price)) ≠ [] := by
      rw [hpoints]
      obtain ⟨n, hn⟩ := Nat.exists_eq_succ_of_ne_zero hstop.ne'
      rw [hn, List.take_succ_cons]
      exact List.cons_ne_nil _ _
    obtain ⟨rebuilt, hrebuilt⟩ : ∃ rebuilt, PriceSecondBucket.ofPrices (wholeSecond first.timestamp)
        ((cache.points.take stop).map (·.price)) = some rebuilt :=
      Option.ne_none_iff_exists'.mp fun hnone =>
        hprices (PriceSecondBucket.ofPrices_eq_none_iff.mp hnone)
    refine ⟨rebuilt :: later, ?_, ?_⟩
    · unfold rebuildFirstBucket
      dsimp only
      rw [hpoints] at hrebuilt ⊢
      rw [hbuckets]
      dsimp only
      rw [if_neg (not_not.mpr hsecond), hrebuilt]
    · unfold bucketSeconds
      rw [hbuckets, List.map_cons, List.map_cons, hsecond, PriceSecondBucket.ofPrices_second hrebuilt]

/-- Compacting never fails, whatever the instants. -/
theorem Seconds.compact (h : Seconds cache)
    (hsorted : (cache.points.map (·.item)).Pairwise TimedValue.Precedes)
    (hstart : cache.activeStart ≤ cache.points.length) :
    ∃ after, cache.compact = .ok after ∧ Seconds after ∧ Indexed.SameActive cache after ∧
      after.activeStart ≤ after.points.length := by
  unfold PriceHistoryCache.compact
  by_cases hzero : cache.activeStart = 0
  · rw [if_pos hzero]
    exact ⟨cache, rfl, h, ⟨rfl, List.suffix_rfl, rfl⟩, hstart⟩
  rw [if_neg hzero]
  have hne : cache.points.take cache.activeStart ≠ [] := by
    apply List.ne_nil_of_length_pos
    rw [List.length_take]
    omega
  obtain ⟨removed, hremoved⟩ : ∃ removed,
      (cache.points.take cache.activeStart).getLast? = some removed :=
    ⟨_, List.getLast?_eq_getLast_of_ne_nil hne⟩
  rw [hremoved]
  dsimp only
  cases hkept : cache.points.drop cache.activeStart with
  | nil =>
    refine ⟨_, rfl, ⟨.nil, by simp [bucketSeconds]⟩, ⟨?_, List.nil_suffix, rfl⟩, Nat.zero_le _⟩
    rw [hkept]
    rfl
  | cons first kept =>
    have hsplit : cache.points = cache.points.take cache.activeStart ++ first :: kept := by
      rw [← hkept, List.take_append_drop]
    obtain ⟨hdrop, hhead⟩ := h.dropped hsplit
    dsimp only
    let trimmed : PriceHistoryCache α R :=
      { cache with
        points := first :: kept
        buckets := cache.buckets.drop
          (bisectLeft cache.bucketSeconds (wholeSecond first.timestamp) 0)
        activeStart := 0
        baseSquaredLogReturn := removed.prefixSquaredLogReturn
        baseDigestSum := removed.prefixDigestSum
        baseDigestXor := removed.prefixDigestXor }
    have htrimmed : trimmed.bucketSeconds =
        cache.bucketSeconds.filter (wholeSecond first.timestamp ≤ ·) := by
      rw [← hdrop]
      exact List.map_drop
    obtain ⟨buckets, hrebuilt, hseconds⟩ := @rebuildFirstBucket_seconds α R trimmed first kept rfl
      (by rw [htrimmed]; exact hhead)
    refine ⟨_, hrebuilt, ⟨?_, ?_⟩, ⟨hkept.symm, ?_, rfl⟩, Nat.zero_le _⟩
    · show (buckets.map (·.second)).Pairwise (· < ·)
      rw [hseconds, htrimmed]
      exact h.ascending.filter _
    · intro second
      show second ∈ buckets.map (·.second) ↔ ∃ point ∈ first :: kept, _
      rw [hseconds, htrimmed, List.mem_filter, h.same]
      constructor
      · rintro ⟨⟨point, hpoint, rfl⟩, hle⟩
        rw [hsplit] at hpoint
        rcases List.mem_append.mp hpoint with hremoved | hkept
        · -- a removed point of a second that is left is of the first one
          have hprecedes := hsorted
          rw [hsplit, List.map_append] at hprecedes
          have hbefore := (List.pairwise_append.mp hprecedes).2.2 _ (List.mem_map_of_mem hremoved)
            first.item List.mem_cons_self
          exact ⟨first, List.mem_cons_self,
            le_antisymm (of_decide_eq_true hle) (wholeSecond_le_of_le hbefore.timestamp_le)⟩
        · exact ⟨point, hkept, rfl⟩
      · rintro ⟨point, hpoint, rfl⟩
        refine ⟨⟨point, by rw [hsplit]; exact List.mem_append_right _ hpoint, rfl⟩, decide_eq_true ?_⟩
        apply wholeSecond_le_of_le
        rcases List.mem_cons.mp hpoint with rfl | hlater
        · exact le_rfl
        · have hprecedes := hsorted
          rw [hsplit, List.map_append, List.map_cons] at hprecedes
          exact ((List.pairwise_cons.mp (List.pairwise_append.mp hprecedes).2.1).1 _
            (List.mem_map_of_mem hlater)).timestamp_le
    · show first :: kept <:+ cache.points
      rw [← hkept]
      exact List.drop_suffix _ _

section

variable [Ring R] {math : PriceMath α R}

theorem append_points (item : TimedValue α) (point : CachedPricePoint α R) :
    point ∈ (cache.append math item).points ↔ point ∈ cache.points ∨ point = cache.nextPoint math item := by
  show point ∈ cache.points ++ [cache.nextPoint math item] ↔ _
  rw [List.mem_append, List.mem_singleton]

/-- An item behind the points leads to a bucket behind the others, or into the last one. -/
theorem Seconds.append (h : Seconds cache) {item : TimedValue α}
    (hbehind : ∀ point ∈ cache.points, point.timestamp ≤ item.timestamp) :
    Seconds (cache.append math item) := by
  have hseconds : (cache.append math item).bucketSeconds =
      if cache.bucketSeconds.getLast? = some (wholeSecond item.timestamp) then cache.bucketSeconds
      else cache.bucketSeconds ++ [wholeSecond item.timestamp] := appendPrice_seconds ..
  have htime : (cache.nextPoint math item).timestamp = item.timestamp :=
    (nextPoint_price math cache item).2.2
  have hpoint : ∀ second, (∃ point ∈ (cache.append math item).points,
      wholeSecond point.timestamp = second) ↔
        second ∈ cache.bucketSeconds ∨ wholeSecond item.timestamp = second := by
    intro second
    rw [h.same]
    constructor
    · rintro ⟨point, hpoint, hsecond⟩
      rcases (append_points item point).mp hpoint with hpoint | rfl
      · exact .inl ⟨point, hpoint, hsecond⟩
      · rw [htime] at hsecond
        exact .inr hsecond
    · rintro (⟨point, hpoint, hsecond⟩ | hsecond)
      · exact ⟨point, (append_points item point).mpr (.inl hpoint), hsecond⟩
      · exact ⟨_, (append_points item _).mpr (.inr rfl), by rw [htime]; exact hsecond⟩
  have hle : ∀ second ∈ cache.bucketSeconds, second ≤ wholeSecond item.timestamp := by
    intro second hsecond
    obtain ⟨point, hin, rfl⟩ := (h.same second).mp hsecond
    exact wholeSecond_le_of_le (hbehind point hin)
  by_cases hlast : cache.bucketSeconds.getLast? = some (wholeSecond item.timestamp)
  · rw [if_pos hlast] at hseconds
    refine ⟨by rw [hseconds]; exact h.ascending, fun second => ?_⟩
    rw [hseconds, hpoint]
    constructor
    · exact .inl
    · rintro (hin | rfl)
      · exact hin
      · exact List.mem_of_getLast? hlast
  · rw [if_neg hlast] at hseconds
    refine ⟨?_, fun second => ?_⟩
    · rw [hseconds]
      refine List.pairwise_append.mpr ⟨h.ascending, List.pairwise_singleton .., ?_⟩
      intro second hsecond next hnext
      rw [List.mem_singleton.mp hnext]
      refine lt_of_le_of_ne (hle second hsecond) ?_
      rintro rfl
      -- the greatest second is the last
      apply hlast
      obtain ⟨front, later, hsplit⟩ := List.append_of_mem hsecond
      have hsorted := h.ascending
      rw [hsplit] at hsorted ⊢
      have hnone : later = [] := by
        rw [List.eq_nil_iff_forall_not_mem]
        intro greater hgreater
        have hlt := (List.pairwise_cons.mp (List.pairwise_append.mp hsorted).2.1).1 greater hgreater
        have hgreatest := hle greater (by rw [hsplit]; simp [hgreater])
        omega
      rw [hnone]
      exact List.getLast?_concat
    · rw [hseconds, hpoint, List.mem_append, List.mem_singleton, eq_comm]

theorem Seconds.new : Seconds (PriceHistoryCache.new : PriceHistoryCache α R) :=
  ⟨.nil, by simp [bucketSeconds, PriceHistoryCache.new]⟩

/-- Appending a run of items, in key order behind the points there are. -/
theorem Seconds.foldl (math : PriceMath α R) (h : Seconds cache) {items : List (TimedValue α)}
    (hsorted : (cache.points.map (·.item) ++ items).Pairwise TimedValue.Precedes) :
    Seconds (items.foldl (PriceHistoryCache.append math) cache) := by
  induction items generalizing cache with
  | nil => exact h
  | cons item later ih =>
    have hbehind : ∀ point ∈ cache.points, point.timestamp ≤ item.timestamp := by
      intro point hpoint
      exact ((List.pairwise_append.mp hsorted).2.2 _ (List.mem_map_of_mem hpoint) item
        List.mem_cons_self).timestamp_le
    refine ih (h.append hbehind) ?_
    rw [append_items, List.append_assoc]
    exact hsorted

end

end PriceHistoryCache

end Cvf
