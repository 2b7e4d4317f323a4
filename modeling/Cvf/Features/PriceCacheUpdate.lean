/-
# Cvf.Features.PriceCacheUpdate — the cache follows its window.

Between updates a cache trails its window: of the items it has seen, those still retained are the end
of its active points, for a window evicts from the front and admits nothing older than what it evicted
for good.  An update either rebuilds, because the new items do not come in key order behind the last
point, or appends them and moves the active start to the window's earliest item.  Either way the active
points are then exactly the window's items.
-/
import Cvf.Features.PriceCacheIndex
import Cvf.Features.RollingQueries

namespace Cvf

open Cvf.Library

/-! ## What a window hands over -/

/-- Items in key order, and behind the last of them more in key order. -/
theorem sorted_append_of_last {α : Type*} {front later : List (TimedValue α)}
    (hfront : front.Pairwise TimedValue.Precedes)
    (hlater : (front.getLast?.toList ++ later).Pairwise TimedValue.Precedes) :
    (front ++ later).Pairwise TimedValue.Precedes := by
  rcases List.eq_nil_or_concat front with rfl | ⟨before, last, rfl⟩
  · exact hlater
  · rw [List.concat_eq_append] at *
    rw [List.getLast?_concat] at hlater
    obtain ⟨-, hrest, hlast⟩ := List.pairwise_append.mp hlater
    refine List.pairwise_append.mpr ⟨hfront, hrest, ?_⟩
    intro item hitem next hnext
    have hle := hlast last (by simp) next hnext
    rcases List.mem_append.mp hitem with hitem | hitem
    · exact ((List.pairwise_append.mp hfront).2.2 item hitem last (by simp)).trans hle
    · rw [List.mem_singleton.mp hitem]
      exact hle

/-- A window has seen all its items. -/
theorem BoundedTimeWindow.filter_ordinal_le {α : Type*} (window : BoundedTimeWindow α) :
    window.items.filter (·.ordinal ≤ window.ordinal) = window.items :=
  List.filter_eq_self.mpr fun item hitem => decide_eq_true (window.retained.ordinal_le item hitem)

namespace PriceHistoryCache

variable {α R : Type*} [Ring R] {math : PriceMath α R}

/-- The items the active points were made of. -/
def activeItems (cache : PriceHistoryCache α R) : List (TimedValue α) :=
  (cache.points.drop cache.activeStart).map (·.item)

/-- A cache and a window that has moved on since the last update. -/
structure Trails (math : PriceMath α R) (window : BoundedTimeWindow α)
    (cache : PriceHistoryCache α R) : Prop where
  indexed : Indexed math cache
  seen : cache.lastOrdinal ≤ window.ordinal
  known : ∀ point ∈ cache.points, point.ordinal ≤ cache.lastOrdinal
  suffix : window.items.filter (·.ordinal ≤ cache.lastOrdinal) <:+ cache.activeItems
  epoch : ∀ item ∈ window.items, 0 ≤ item.timestamp

/-- A cache right after an update. -/
structure Mirrors (math : PriceMath α R) (window : BoundedTimeWindow α)
    (cache : PriceHistoryCache α R) : Prop where
  indexed : Indexed math cache
  seen : cache.lastOrdinal = window.ordinal
  known : ∀ point ∈ cache.points, point.ordinal ≤ cache.lastOrdinal
  active : cache.activeItems = window.items
  epoch : ∀ item ∈ window.items, 0 ≤ item.timestamp

theorem Mirrors.trails {window : BoundedTimeWindow α} {cache : PriceHistoryCache α R}
    (h : Mirrors math window cache) : Trails math window cache where
  indexed := h.indexed
  seen := h.seen.le
  known := h.known
  suffix := by
    rw [h.seen, window.filter_ordinal_le, h.active]
  epoch := h.epoch

theorem Trails.empty (bounds : WindowBounds) :
    Trails math (BoundedTimeWindow.empty bounds) (new : PriceHistoryCache α R) where
  indexed := .new
  seen := le_rfl
  known := by simp [new]
  suffix := List.suffix_rfl
  epoch := by simp [BoundedTimeWindow.empty]

/-- Appending to the window leaves the cache trailing it. -/
theorem Trails.append {window : BoundedTimeWindow α} {cache : PriceHistoryCache α R}
    (h : Trails math window cache) {timestamp : Int} (hepoch : 0 ≤ timestamp) (value : α) :
    Trails math (window.append timestamp value).1 cache where
  indexed := h.indexed
  seen := h.seen.trans (window.append_ordinal_le timestamp value)
  known := h.known
  suffix := (window.append_filter_suffix timestamp value h.seen).trans h.suffix
  epoch := by
    intro item hitem
    rcases BoundedTimeWindow.append_mem hitem with hmem | rfl
    · exact h.epoch item hmem
    · exact hepoch

/-- Compacting leaves the cache trailing, or mirroring, its window. -/
theorem Trails.compact {window : BoundedTimeWindow α} {cache : PriceHistoryCache α R}
    (h : Trails math window cache) :
    ∃ after, cache.compact = .ok after ∧ Trails math window after := by
  obtain ⟨after, hcompact, hindexed, hsame⟩ := h.indexed.compact
  refine ⟨after, hcompact, hindexed, hsame.lastOrdinal.le.trans h.seen, ?_, ?_, h.epoch⟩
  · intro point hpoint
    rw [hsame.lastOrdinal]
    exact h.known point (hsame.points.subset hpoint)
  unfold activeItems
  rw [hsame.lastOrdinal, hsame.active]
  exact h.suffix

theorem Mirrors.compact {window : BoundedTimeWindow α} {cache : PriceHistoryCache α R}
    (h : Mirrors math window cache) :
    ∃ after, cache.compact = .ok after ∧ Mirrors math window after := by
  obtain ⟨after, hcompact, hindexed, hsame⟩ := h.indexed.compact
  refine ⟨after, hcompact, hindexed, hsame.lastOrdinal.trans h.seen, ?_, ?_, h.epoch⟩
  · intro point hpoint
    rw [hsame.lastOrdinal]
    exact h.known point (hsame.points.subset hpoint)
  unfold activeItems
  rw [hsame.active]
  exact h.active

/-! ## Updating -/

/-- Without a step back, items of different keys follow one another. -/
theorem sorted_of_not_stepsBack {previous : Option (TimedValue α)} {items : List (TimedValue α)}
    (hsteps : stepsBack previous items = false)
    (hdistinct : (previous.toList ++ items).Pairwise fun a b => a.Precedes b ∨ b.Precedes a) :
    (previous.toList ++ items).Pairwise TimedValue.Precedes := by
  induction items generalizing previous with
  | nil => cases previous <;> simp
  | cons item later ih =>
    simp only [stepsBack, Bool.or_eq_false_iff] at hsteps
    have hrest : (item :: later).Pairwise TimedValue.Precedes :=
      ih hsteps.2 (hdistinct.sublist (List.sublist_append_right _ _))
    cases previous with
    | none => exact hrest
    | some before =>
      have hitem : before.Precedes item :=
        ((List.pairwise_cons.mp hdistinct).1 item List.mem_cons_self).resolve_right
          (of_decide_eq_false hsteps.1)
      refine List.pairwise_cons.mpr ⟨?_, hrest⟩
      intro next hnext
      rcases List.mem_cons.mp hnext with rfl | hnext
      · exact hitem
      · exact hitem.trans ((List.pairwise_cons.mp hrest).1 next hnext)

/-- What an update relies on: points in key order, of which the items seen before are the end. -/
structure Behind (window : BoundedTimeWindow α) (cache : PriceHistoryCache α R) : Prop where
  sorted : (cache.points.map (·.item)).Pairwise TimedValue.Precedes
  start_le : cache.activeStart ≤ cache.points.length
  seen : cache.lastOrdinal ≤ window.ordinal
  known : ∀ point ∈ cache.points, point.ordinal ≤ cache.lastOrdinal
  suffix : window.items.filter (·.ordinal ≤ cache.lastOrdinal) <:+ cache.activeItems

theorem Trails.behind {window : BoundedTimeWindow α} {cache : PriceHistoryCache α R}
    (h : Trails math window cache) : Behind window cache :=
  ⟨h.indexed.sorted, h.indexed.start_le, h.seen, h.known, h.suffix⟩

omit [Ring R] in
theorem activeItems_sorted {cache : PriceHistoryCache α R}
    (h : (cache.points.map (·.item)).Pairwise TimedValue.Precedes) :
    cache.activeItems.Pairwise TimedValue.Precedes := by
  unfold activeItems
  rw [List.map_drop]
  exact h.sublist (List.drop_sublist _ _)

omit [Ring R] in
/-- New items without a step back are the window's newest items, in the window's order. -/
theorem Behind.appended {window : BoundedTimeWindow α} {cache : PriceHistoryCache α R}
    (h : Behind window cache)
    (hsteps : stepsBack (cache.points.getLast?.map (·.item))
      (window.itemsAppendedAfter cache.lastOrdinal) = false) :
    (cache.points.map (·.item) ++ window.itemsAppendedAfter cache.lastOrdinal).Pairwise
        TimedValue.Precedes ∧
      window.itemsAppendedAfter cache.lastOrdinal =
        window.items.filter (cache.lastOrdinal < ·.ordinal) ∧
      window.items <:+ cache.activeItems ++ window.itemsAppendedAfter cache.lastOrdinal := by
  have hperm := window.itemsAppendedAfter_perm cache.lastOrdinal
  have hsorted := window.retained.sorted
  have hlater : ∀ item ∈ window.itemsAppendedAfter cache.lastOrdinal,
      cache.lastOrdinal < item.ordinal := by
    intro item hitem
    exact of_decide_eq_true (List.mem_filter.mp (hperm.subset hitem)).2
  have hdistinct : ((cache.points.getLast?.map (·.item)).toList ++
      window.itemsAppendedAfter cache.lastOrdinal).Pairwise
        fun a b => a.Precedes b ∨ b.Precedes a := by
    refine List.pairwise_append.mpr ⟨?_, ?_, ?_⟩
    · cases cache.points.getLast? <;> simp
    · apply (hperm.pairwise_iff fun hor => hor.symm).mpr
      exact (hsorted.filter _).imp .inl
    · intro before hbefore item hitem
      obtain ⟨point, hpoint, rfl⟩ := Option.map_eq_some_iff.mp (Option.mem_toList.mp hbefore)
      have hle := h.known point (List.mem_of_getLast? hpoint)
      exact TimedValue.precedes_or_precedes (hle.trans_lt (hlater item hitem)).ne
  have hpoints : (cache.points.map (·.item) ++
      window.itemsAppendedAfter cache.lastOrdinal).Pairwise TimedValue.Precedes := by
    apply sorted_append_of_last h.sorted
    rw [List.getLast?_map]
    exact sorted_of_not_stepsBack hsteps hdistinct
  obtain ⟨-, hsortedNew, hbehind⟩ := List.pairwise_append.mp hpoints
  have hnew : window.itemsAppendedAfter cache.lastOrdinal =
      window.items.filter (cache.lastOrdinal < ·.ordinal) :=
    eq_of_perm_of_sorted hperm hsortedNew (hsorted.filter _)
  have hsplit : window.items = window.items.filter (·.ordinal ≤ cache.lastOrdinal) ++
      window.itemsAppendedAfter cache.lastOrdinal := by
    have hactive : ∀ item ∈ window.items.filter (·.ordinal ≤ cache.lastOrdinal),
        item ∈ cache.points.map (·.item) := by
      intro item hitem
      obtain ⟨point, hpoint, rfl⟩ := List.mem_map.mp (h.suffix.subset hitem)
      exact List.mem_map_of_mem (List.mem_of_mem_drop hpoint)
    apply eq_of_perm_of_sorted _ hsorted
    · refine List.pairwise_append.mpr ⟨hsorted.filter _, hsortedNew, ?_⟩
      intro old hold item hitem
      exact hbehind old (hactive old hold) item hitem
    · rw [hnew]
      have hrest : window.items.filter (cache.lastOrdinal < ·.ordinal) =
          window.items.filter (fun item => !decide (item.ordinal ≤ cache.lastOrdinal)) := by
        apply List.filter_congr
        intro item _
        rw [← decide_not]
        exact decide_eq_decide.mpr not_le.symm
      rw [hrest]
      exact (List.filter_append_perm _ _).symm
  refine ⟨hpoints, hnew, ?_⟩
  obtain ⟨front, hfront⟩ := h.suffix
  refine ⟨front, ?_⟩
  calc front ++ window.items
      = front ++ (window.items.filter (·.ordinal ≤ cache.lastOrdinal) ++
          window.itemsAppendedAfter cache.lastOrdinal) := congrArg (front ++ ·) hsplit
    _ = cache.activeItems ++ window.itemsAppendedAfter cache.lastOrdinal := by
        rw [← List.append_assoc, hfront]

theorem activeItems_foldl (math : PriceMath α R) (items : List (TimedValue α))
    {cache : PriceHistoryCache α R} (hstart : cache.activeStart ≤ cache.points.length) :
    (items.foldl (PriceHistoryCache.append math) cache).activeItems = cache.activeItems ++ items := by
  obtain ⟨hmap, hsame, -⟩ := foldl_append math items cache
  unfold activeItems
  rw [hsame, List.map_drop, hmap, List.map_drop,
    List.drop_append_of_le_length (by rw [List.length_map]; exact hstart)]

/-- The cache behind the new items. -/
theorem Behind.foldl {window : BoundedTimeWindow α} {cache : PriceHistoryCache α R}
    (h : Behind window cache) (math : PriceMath α R)
    (hsteps : stepsBack (cache.points.getLast?.map (·.item))
      (window.itemsAppendedAfter cache.lastOrdinal) = false) :
    let appended : PriceHistoryCache α R :=
      { (window.itemsAppendedAfter cache.lastOrdinal).foldl (PriceHistoryCache.append math) cache with
        lastOrdinal := window.ordinal }
    Behind window appended ∧ window.items <:+ appended.activeItems := by
  obtain ⟨hpoints, hnew, hsuffix⟩ := h.appended hsteps
  obtain ⟨hmap, hstart, -⟩ :=
    foldl_append math (window.itemsAppendedAfter cache.lastOrdinal) cache
  have hend : window.items <:+ ((window.itemsAppendedAfter cache.lastOrdinal).foldl
      (PriceHistoryCache.append math) cache).activeItems := by
    rw [activeItems_foldl math _ h.start_le]
    exact hsuffix
  have hlength := congrArg List.length hmap
  rw [List.length_map, List.length_append, List.length_map] at hlength
  refine ⟨⟨?_, ?_, le_rfl, ?_, ?_⟩, hend⟩
  · show (((window.itemsAppendedAfter cache.lastOrdinal).foldl
      (PriceHistoryCache.append math) cache).points.map (·.item)).Pairwise _
    rw [hmap]
    exact hpoints
  · show ((window.itemsAppendedAfter cache.lastOrdinal).foldl
      (PriceHistoryCache.append math) cache).activeStart ≤ List.length _
    rw [hstart, hlength]
    exact h.start_le.trans (Nat.le_add_right _ _)
  · intro point hpoint
    have hitem : point.item ∈ cache.points.map (·.item) ++
        window.itemsAppendedAfter cache.lastOrdinal := by
      rw [← hmap]
      exact List.mem_map_of_mem hpoint
    show point.item.ordinal ≤ window.ordinal
    rcases List.mem_append.mp hitem with hold | hitem
    · obtain ⟨old, hmem, heq⟩ := List.mem_map.mp hold
      rw [← heq]
      exact (h.known old hmem).trans h.seen
    · rw [hnew] at hitem
      exact window.retained.ordinal_le _ (List.mem_of_mem_filter hitem)
  · show window.items.filter (·.ordinal ≤ window.ordinal) <:+ _
    rw [window.filter_ordinal_le]
    exact hend

omit [Ring R] in
/-- The search for the window's earliest item stops at its point. -/
theorem seek_spec {cache : PriceHistoryCache α R}
    (h : (cache.points.map (·.item)).Pairwise TimedValue.Precedes)
    {front rest : List (TimedValue α)} {earliest : TimedValue α}
    (hactive : cache.activeItems = front ++ earliest :: rest) :
    cache.seek earliest = cache.activeStart + front.length := by
  have hsorted := activeItems_sorted h
  rw [hactive] at hsorted
  obtain ⟨-, -, hbefore⟩ := List.pairwise_append.mp hsorted
  obtain ⟨before, behind, hpoints, rfl, hbehind⟩ := List.map_eq_append_iff.mp hactive
  obtain ⟨point, later, rfl, rfl, -⟩ := List.map_eq_cons_iff.mp hbehind
  have hinitial : Initial (fun other : CachedPricePoint α R =>
      decide (other.timestamp < point.item.timestamp)) (before ++ point :: later) := by
    have htimes : cache.points.Pairwise fun a b => a.timestamp ≤ b.timestamp :=
      (List.pairwise_map.mp h).imp fun hab => hab.timestamp_le
    rw [← hpoints]
    apply (List.Pairwise.sublist (List.drop_sublist _ _) htimes).imp
    intro a b hab hb
    exact decide_eq_true (hab.trans_lt (of_decide_eq_true hb))
  -- of the points before, those of the same time differ in their ordinal
  have hskip := hinitial.skip_length (q := fun other : CachedPricePoint α R =>
      decide (other.timestamp = point.item.timestamp ∧ other.ordinal ≠ point.item.ordinal))
    (decide_eq_false (lt_irrefl _)) (decide_eq_false fun hboth => hboth.2 rfl)
    (by
      intro other hother hnot
      have hprecedes := hbefore _ (List.mem_map_of_mem hother) point.item List.mem_cons_self
      have hle := of_decide_eq_false hnot
      apply decide_eq_true
      rcases hprecedes with hlt | ⟨heq, hlt⟩
      · exact absurd hlt hle
      · exact ⟨heq, hlt.ne⟩)
  rw [← hpoints, List.drop_drop] at hskip
  rw [seek, timestamps, bisectLeft_map, List.length_map, Nat.add_assoc, hskip]

omit [Ring R] in
/-- The point the search stops at, and what lies behind it. -/
theorem seek_found {cache : PriceHistoryCache α R} {window : BoundedTimeWindow α}
    (h : (cache.points.map (·.item)).Pairwise TimedValue.Precedes)
    (hsuffix : window.items <:+ cache.activeItems) {earliest : TimedValue α}
    (hearliest : window.items.head? = some earliest) :
    ∃ point, cache.points[cache.seek earliest]? = some point ∧ point.ordinal = earliest.ordinal ∧
      cache.activeStart ≤ cache.seek earliest ∧
      (cache.points.drop (cache.seek earliest)).map (·.item) = window.items := by
  obtain ⟨rest, hitems⟩ := List.head?_eq_some_iff.mp hearliest
  obtain ⟨front, hactive⟩ := hsuffix
  rw [hitems] at hactive ⊢
  have hseek := seek_spec h hactive.symm
  have hmoved : (cache.points.drop (cache.seek earliest)).map (·.item) = earliest :: rest := by
    rw [hseek, ← List.drop_drop, List.map_drop]
    show cache.activeItems.drop front.length = _
    rw [← hactive, List.drop_left]
  obtain ⟨point, later, hpoints, hpoint, -⟩ := List.map_eq_cons_iff.mp hmoved
  refine ⟨point, ?_, congrArg TimedValue.ordinal hpoint, ?_, hmoved⟩
  · rw [← List.head?_drop, hpoints]
    rfl
  · rw [hseek]
    exact Nat.le_add_right _ _

/-- A rebuild from the window's items. -/
theorem Mirrors.of_rebuild {window : BoundedTimeWindow α}
    (hepoch : ∀ item ∈ window.items, 0 ≤ item.timestamp) :
    Mirrors math window (rebuild math window.items window.ordinal) := by
  have hmap := rebuild_items math window.items window.ordinal
  refine ⟨.rebuild math hepoch window.retained.sorted window.ordinal, rfl, ?_, ?_, hepoch⟩
  · intro point hpoint
    show point.item.ordinal ≤ window.ordinal
    apply window.retained.ordinal_le point.item
    rw [← hmap]
    exact List.mem_map_of_mem hpoint
  · rw [activeItems, rebuild_activeStart, List.drop_zero, hmap]

/-- Moving the active start to the window's earliest item. -/
theorem trim_spec {window : BoundedTimeWindow α} {cache : PriceHistoryCache α R}
    (h : Indexed math cache) (hseen : cache.lastOrdinal = window.ordinal)
    (hknown : ∀ point ∈ cache.points, point.ordinal ≤ cache.lastOrdinal)
    (hepoch : ∀ item ∈ window.items, 0 ≤ item.timestamp)
    (hsuffix : window.items <:+ cache.activeItems) :
    ∃ after, cache.trimToRetainedWindow math window = .ok after ∧ Mirrors math window after := by
  unfold trimToRetainedWindow
  cases hearliest : window.items.head? with
  | none =>
    have hitems := List.head?_eq_none_iff.mp hearliest
    have hrebuilt : Mirrors math window (rebuild math window.items window.ordinal) :=
      .of_rebuild hepoch
    rw [hitems] at hrebuilt
    cases hpoints : cache.points with
    | nil =>
      refine ⟨cache, rfl, h, hseen, hknown, ?_, hepoch⟩
      rw [activeItems, hpoints, hitems, List.drop_nil, List.map_nil]
    | cons first later => exact ⟨_, rfl, hrebuilt⟩
  | some earliest =>
    obtain ⟨point, hfound, hsame, hforward, hmoved⟩ := seek_found h.sorted hsuffix hearliest
    have hmirrors : Mirrors math window { cache with activeStart := cache.seek earliest } :=
      { indexed :=
          ⟨h.price, h.sorted, h.epoch, h.chained, h.base, h.described,
            (List.getElem?_eq_some_iff.mp hfound).1.le⟩
        seen := hseen
        known := hknown
        active := hmoved
        epoch := hepoch }
    dsimp only
    rw [hfound, Option.all_some, if_neg (by simp [hsame]), if_neg (not_lt.mpr hforward)]
    split_ifs
    · exact ⟨_, rfl, hmirrors⟩
    · exact hmirrors.compact

/-- An update leaves the cache with exactly the window's items. -/
theorem Trails.update {window : BoundedTimeWindow α} {cache : PriceHistoryCache α R}
    (h : Trails math window cache) :
    ∃ after, cache.update math window = .ok after ∧ Mirrors math window after := by
  unfold PriceHistoryCache.update
  dsimp only
  split_ifs with hsteps
  · exact ⟨_, rfl, .of_rebuild h.epoch⟩
  have hforward := Bool.eq_false_iff.mpr hsteps
  obtain ⟨hpoints, hnew, -⟩ := h.behind.appended hforward
  obtain ⟨hbehind, hsuffix⟩ := h.behind.foldl math hforward
  have hindexed := h.indexed.foldl (by
    intro item hitem
    rw [hnew] at hitem
    exact h.epoch item (List.mem_of_mem_filter hitem)) hpoints
  exact trim_spec
    ⟨hindexed.price, hindexed.sorted, hindexed.epoch, hindexed.chained, hindexed.base,
      hindexed.described, hindexed.start_le⟩ rfl hbehind.known h.epoch hsuffix

end PriceHistoryCache

end Cvf
