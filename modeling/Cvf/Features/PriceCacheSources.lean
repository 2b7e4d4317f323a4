/-
# Cvf.Features.PriceCacheSources — which sources the price cache counts.

`_PriceHistoryCache` keeps an index from the sources of its active points to their timestamps, so that a
source of another window that it has already counted is not counted again (`covers_source`).  Whatever the
window evicts leaves the index when the active start moves, and a rebuild starts it anew: after an update the
index and the active points are those of the window's items (`Tracks.update`).

The index is keyed by objects.  Here an object is its event, which tells objects apart where the events of a
run are different.  Unlike in `Trails`, instants before 1970 are allowed: their buckets may be wrong, but
no update fails.
-/
import Cvf.Features.PriceCacheLineage
import Cvf.Features.PriceCacheQuery
import Cvf.Features.PriceCacheSeconds

namespace Cvf

open Cvf.Library

/-- A price cache with `_source_positions_by_object`: the timestamp under each source. -/
structure SourcedPriceCache (α R : Type*) where
  cache : PriceHistoryCache α R
  sourcePositions : α → Option Int

namespace SourcedPriceCache

variable {α R : Type*} [DecidableEq α] [Ring R] (math : PriceMath α R)

/-- `_PriceHistoryCache()`. -/
def new : SourcedPriceCache α R := { cache := .new, sourcePositions := fun _ => none }

/-- `_append`. -/
def append (sourced : SourcedPriceCache α R) (item : TimedValue α) : SourcedPriceCache α R :=
  { cache := sourced.cache.append math item
    sourcePositions := Function.update sourced.sourcePositions item.value (some item.timestamp) }

/-- `_rebuild`. -/
def rebuild (items : List (TimedValue α)) (latestOrdinal : Nat) : SourcedPriceCache α R :=
  let appended := items.foldl (append math) new
  { appended with cache := { appended.cache with lastOrdinal := latestOrdinal } }

/-- The loop of `_trim_to_retained_window` over the points it passes. -/
def forget (sourcePositions : α → Option Int) (points : List (CachedPricePoint α R)) : α → Option Int :=
  points.foldl (fun positions point =>
    if positions point.source = some point.timestamp then Function.update positions point.source none
    else positions) sourcePositions

/-- `_trim_to_retained_window`. -/
def trimToRetainedWindow (sourced : SourcedPriceCache α R) (window : BoundedTimeWindow α) :
    Except String (SourcedPriceCache α R) :=
  match window.items.head? with
  | none =>
    .ok (match sourced.cache.points with
      | [] => sourced
      | _ => rebuild math [] window.ordinal)
  | some earliest =>
    let trim := sourced.cache.seek earliest
    if (sourced.cache.points[trim]?).all (·.ordinal ≠ earliest.ordinal) then
      .ok (rebuild math window.items window.ordinal)
    else if trim < sourced.cache.activeStart then .error "price cache active boundary moved backwards"
    else
      let passed := (sourced.cache.points.take trim).drop sourced.cache.activeStart
      let sourcePositions := forget sourced.sourcePositions passed
      let cache := { sourced.cache with activeStart := trim }
      if trim < PriceHistoryCache.trimBatch ∧
          cache.points.length ≤ window.bounds.maximumItems + PriceHistoryCache.trimBatch then
        .ok { cache, sourcePositions }
      else
        match cache.compact with
        | .error e => .error e
        | .ok cache => .ok { cache, sourcePositions }

/-- `update`. -/
def update (sourced : SourcedPriceCache α R) (window : BoundedTimeWindow α) :
    Except String (SourcedPriceCache α R) :=
  let newItems := window.itemsAppendedAfter sourced.cache.lastOrdinal
  if PriceHistoryCache.stepsBack (sourced.cache.points.getLast?.map (·.item)) newItems then
    .ok (rebuild math window.items window.ordinal)
  else
    let appended := newItems.foldl (append math) sourced
    { appended with cache := { appended.cache with lastOrdinal := window.ordinal } }.trimToRetainedWindow
      math window

/-- `covers_source`. -/
def coversSource (sourced : SourcedPriceCache α R) (source : α) (start stop : Int) : Bool :=
  (sourced.sourcePositions source).any fun timestamp => start < timestamp ∧ timestamp ≤ stop

variable {math}

/-! ## The cache without the index -/

theorem foldl_append_cache (math : PriceMath α R) (items : List (TimedValue α))
    (sourced : SourcedPriceCache α R) :
    (items.foldl (append math) sourced).cache =
      items.foldl (PriceHistoryCache.append math) sourced.cache := by
  induction items generalizing sourced with
  | nil => rfl
  | cons item later ih => exact ih (sourced.append math item)

theorem rebuild_cache (items : List (TimedValue α)) (latestOrdinal : Nat) :
    (rebuild math items latestOrdinal).cache =
      PriceHistoryCache.rebuild math items latestOrdinal := by
  show { (items.foldl (append math) new).cache with lastOrdinal := latestOrdinal } = _
  rw [foldl_append_cache]
  rfl

/-! ## The index -/

/-- The index of some items. -/
def Located (sourcePositions : α → Option Int) (items : List (TimedValue α)) : Prop :=
  ∀ source timestamp, sourcePositions source = some timestamp ↔
    ∃ item ∈ items, item.value = source ∧ item.timestamp = timestamp

omit [DecidableEq α] in
theorem Located.nil : Located (fun _ : α => none) [] := by
  intro source timestamp
  simp

theorem Located.append {sourcePositions : α → Option Int} {items : List (TimedValue α)}
    (h : Located sourcePositions items) {item : TimedValue α} (hnew : item.value ∉ items.map (·.value)) :
    Located (Function.update sourcePositions item.value (some item.timestamp)) (items ++ [item]) := by
  intro source timestamp
  by_cases hsource : source = item.value
  · subst hsource
    rw [Function.update_self]
    constructor
    · intro heq
      exact ⟨item, by simp, rfl, Option.some.inj heq⟩
    · rintro ⟨other, hother, hvalue, rfl⟩
      rcases List.mem_append.mp hother with hother | hother
      · exact absurd (hvalue ▸ List.mem_map_of_mem hother) hnew
      · rw [List.mem_singleton.mp hother]
  · rw [Function.update_of_ne hsource, h source timestamp]
    constructor
    · rintro ⟨other, hother, hvalue⟩
      exact ⟨other, List.mem_append_left _ hother, hvalue⟩
    · rintro ⟨other, hother, hvalue, htime⟩
      rcases List.mem_append.mp hother with hother | hother
      · exact ⟨other, hother, hvalue, htime⟩
      · rw [List.mem_singleton.mp hother] at hvalue
        exact absurd hvalue.symm hsource

theorem Located.foldl (math : PriceMath α R) {later items : List (TimedValue α)}
    {sourced : SourcedPriceCache α R} (h : Located sourced.sourcePositions items)
    (hdistinct : ((items ++ later).map (·.value)).Nodup) :
    Located (later.foldl (SourcedPriceCache.append math) sourced).sourcePositions (items ++ later) := by
  induction later generalizing items sourced with
  | nil =>
    rw [List.append_nil]
    exact h
  | cons item later ih =>
    have hnew : item.value ∉ items.map (·.value) := by
      rw [List.map_append, List.map_cons] at hdistinct
      intro hin
      exact (List.nodup_append.mp hdistinct).2.2 _ hin _ List.mem_cons_self rfl
    rw [List.append_cons] at hdistinct ⊢
    exact ih (h.append hnew) hdistinct

theorem Located.rebuild {items : List (TimedValue α)} (hdistinct : (items.map (·.value)).Nodup)
    (latestOrdinal : Nat) :
    Located (SourcedPriceCache.rebuild math items latestOrdinal).sourcePositions items := by
  have hnone : Located (SourcedPriceCache.new : SourcedPriceCache α R).sourcePositions [] := .nil
  exact hnone.foldl math hdistinct

omit [Ring R] in
/-- Forgetting the points in front leaves the index of the rest. -/
theorem Located.forget {sourcePositions : α → Option Int} {passed : List (CachedPricePoint α R)}
    {items : List (TimedValue α)} (h : Located sourcePositions (passed.map (·.item) ++ items))
    (hdistinct : ((passed.map (·.item) ++ items).map (·.value)).Nodup) :
    Located (SourcedPriceCache.forget sourcePositions passed) items := by
  induction passed generalizing sourcePositions with
  | nil => exact h
  | cons point passed ih =>
    rw [List.map_cons, List.cons_append, List.map_cons, List.nodup_cons] at hdistinct
    have hfound : sourcePositions point.source = some point.timestamp :=
      (h point.source point.timestamp).mpr ⟨point.item, List.mem_cons_self, rfl, rfl⟩
    refine ih ?_ hdistinct.2
    dsimp only
    rw [if_pos hfound]
    intro source timestamp
    by_cases hsource : source = point.source
    · subst hsource
      rw [Function.update_self]
      constructor
      · intro hnone
        cases hnone
      · rintro ⟨other, hother, hvalue, -⟩
        exact absurd (List.mem_map.mpr ⟨other, hother, hvalue⟩) hdistinct.1
    · rw [Function.update_of_ne hsource, h source timestamp]
      constructor
      · rintro ⟨other, hother, hvalue, htime⟩
        rcases List.mem_cons.mp hother with rfl | hother
        · exact absurd hvalue.symm hsource
        · exact ⟨other, hother, hvalue, htime⟩
      · rintro ⟨other, hother, hvalue⟩
        exact ⟨other, List.mem_cons_of_mem _ hother, hvalue⟩

/-! ## A cache and its window -/

/-- The items that the points are made of, and those of the window. -/
def held (window : BoundedTimeWindow α) (sourced : SourcedPriceCache α R) : List (TimedValue α) :=
  sourced.cache.points.map (·.item) ++ window.items

/-- A cache and a window that has moved on since the last update; `past` is what was appended to it. -/
structure Tracks (math : PriceMath α R) (past : List α) (window : BoundedTimeWindow α)
    (sourced : SourcedPriceCache α R) : Prop where
  behind : PriceHistoryCache.Behind window sourced.cache
  seconds : PriceHistoryCache.Seconds sourced.cache
  digested : PriceHistoryCache.Digested math sourced.cache (sourced.cache.points.map (·.item))
  located : Located sourced.sourcePositions sourced.cache.activeItems
  past : ∀ item ∈ held window sourced, item.value ∈ past
  apart : ∀ a ∈ held window sourced, ∀ b ∈ held window sourced, a.value = b.value → a = b

omit [DecidableEq α] in
theorem Tracks.new (bounds : WindowBounds) :
    Tracks math [] (.empty bounds) (SourcedPriceCache.new : SourcedPriceCache α R) where
  behind :=
    have htrails : PriceHistoryCache.Trails math (.empty bounds) (.new : PriceHistoryCache α R) :=
      .empty bounds
    htrails.behind
  seconds := .new
  digested := .new
  located := .nil
  past := by simp [held, SourcedPriceCache.new, PriceHistoryCache.new, BoundedTimeWindow.empty]
  apart := by simp [held, SourcedPriceCache.new, PriceHistoryCache.new, BoundedTimeWindow.empty]

omit [DecidableEq α] in
/-- Items in key order that differ in their values have no value twice. -/
theorem values_nodup {items : List (TimedValue α)} (hsorted : items.Pairwise TimedValue.Precedes)
    (hapart : ∀ a ∈ items, ∀ b ∈ items, a.value = b.value → a = b) : (items.map (·.value)).Nodup := by
  rw [List.Nodup, List.pairwise_map]
  refine hsorted.imp_of_mem ?_
  intro a b ha hb hprecedes hvalue
  obtain rfl := hapart a ha b hb hvalue
  exact hprecedes.asymm hprecedes

variable {past : List α} {window : BoundedTimeWindow α} {sourced : SourcedPriceCache α R}

omit [DecidableEq α] [Ring R] in
/-- A value that was not appended before. -/
theorem Tracks.append (h : Tracks math past window sourced) (timestamp : Int) {value : α}
    (hnew : value ∉ past) :
    Tracks math (past ++ [value]) (window.append timestamp value).1 sourced := by
  -- what is held afterwards was held before, or is the new item
  have hheld : ∀ item ∈ held (window.append timestamp value).1 sourced,
      item ∈ held window sourced ∨ item = window.nextItem timestamp value := by
    intro item hitem
    rcases List.mem_append.mp hitem with hpoint | hitem
    · exact .inl (List.mem_append_left _ hpoint)
    · exact (BoundedTimeWindow.append_mem hitem).imp_left (List.mem_append_right _)
  exact
    { behind :=
        { sorted := h.behind.sorted
          start_le := h.behind.start_le
          seen := h.behind.seen.trans (window.append_ordinal_le timestamp value)
          known := h.behind.known
          suffix := (window.append_filter_suffix timestamp value h.behind.seen).trans h.behind.suffix }
      seconds := h.seconds
      digested := h.digested
      located := h.located
      past := by
        intro item hitem
        rcases hheld item hitem with hitem | rfl
        · exact List.mem_append_left _ (h.past item hitem)
        · exact List.mem_append_right _ List.mem_cons_self
      apart := by
        intro a ha b hb heq
        rcases hheld a ha with ha | rfl
        · rcases hheld b hb with hb | rfl
          · exact h.apart a ha b hb heq
          · have hvalue : a.value = value := heq
            exact absurd (hvalue ▸ h.past a ha) hnew
        · rcases hheld b hb with hb | rfl
          · have hvalue : value = b.value := heq
            exact absurd (hvalue ▸ h.past b hb) hnew
          · rfl }

omit [DecidableEq α] [Ring R] in
/-- A value that went elsewhere. -/
theorem Tracks.past_mono (h : Tracks math past window sourced) (value : α) :
    Tracks math (past ++ [value]) window sourced :=
  { h with past := fun item hitem => List.mem_append_left _ (h.past item hitem) }

/-- A cache right after an update. -/
structure Counts (math : PriceMath α R) (past : List α) (window : BoundedTimeWindow α)
    (sourced : SourcedPriceCache α R) : Prop extends Tracks math past window sourced where
  seen : sourced.cache.lastOrdinal = window.ordinal
  active : sourced.cache.activeItems = window.items

/-- A rebuild from the window's items. -/
theorem Counts.rebuild (hpast : ∀ item ∈ window.items, item.value ∈ past)
    (hapart : ∀ a ∈ window.items, ∀ b ∈ window.items, a.value = b.value → a = b) :
    Counts math past window (SourcedPriceCache.rebuild math window.items window.ordinal) := by
  have hmap := PriceHistoryCache.rebuild_items math window.items window.ordinal
  have hactive : (PriceHistoryCache.rebuild math window.items window.ordinal).activeItems =
      window.items := by
    rw [PriceHistoryCache.activeItems, PriceHistoryCache.rebuild_activeStart, List.drop_zero, hmap]
  have hheld : ∀ item ∈ held window (SourcedPriceCache.rebuild math window.items window.ordinal),
      item ∈ window.items := by
    intro item hitem
    unfold held at hitem
    rw [rebuild_cache, hmap] at hitem
    exact (List.mem_append.mp hitem).elim id id
  have hknown : ∀ point ∈ (PriceHistoryCache.rebuild math window.items window.ordinal).points,
      point.ordinal ≤ window.ordinal := by
    intro point hpoint
    apply window.retained.ordinal_le point.item
    rw [← hmap]
    exact List.mem_map_of_mem hpoint
  exact
    { behind := by
        rw [rebuild_cache]
        exact
          { sorted := by
              rw [hmap]
              exact window.retained.sorted
            start_le := by
              rw [PriceHistoryCache.rebuild_activeStart]
              exact Nat.zero_le _
            seen := le_rfl
            known := hknown
            suffix := by
              rw [hactive]
              show window.items.filter (·.ordinal ≤ window.ordinal) <:+ window.items
              rw [window.filter_ordinal_le] }
      seconds := by
        rw [rebuild_cache]
        have hnew : PriceHistoryCache.Seconds (PriceHistoryCache.new : PriceHistoryCache α R) := .new
        have hfold := hnew.foldl math window.retained.sorted
        exact ⟨hfold.ascending, hfold.same⟩
      digested := by
        rw [rebuild_cache, hmap]
        exact (PriceHistoryCache.Kept.rebuild math window.items window.ordinal).digested
      located := by
        rw [rebuild_cache, hactive]
        exact .rebuild (values_nodup window.retained.sorted hapart) window.ordinal
      past := fun item hitem => hpast item (hheld item hitem)
      apart := fun a ha b hb => hapart a (hheld a ha) b (hheld b hb)
      seen := by
        rw [rebuild_cache]
        rfl
      active := by rw [rebuild_cache, hactive] }

omit [DecidableEq α] [Ring R] in
/-- Compacting leaves the active points, and with them the index. -/
theorem Counts.compact (h : Counts math past window sourced) :
    ∃ cache, sourced.cache.compact = .ok cache ∧
      Counts math past window { cache, sourcePositions := sourced.sourcePositions } := by
  obtain ⟨cache, hcompact, hseconds, hsame, hstart⟩ :=
    h.seconds.compact h.behind.sorted h.behind.start_le
  have hdigested := h.digested.compact hcompact
  rw [← hdigested.made] at hdigested
  have hactive : cache.activeItems = sourced.cache.activeItems := by
    unfold PriceHistoryCache.activeItems
    rw [hsame.active]
  have hheld : ∀ item ∈ held window { cache, sourcePositions := sourced.sourcePositions },
      item ∈ held window sourced := by
    intro item hitem
    rcases List.mem_append.mp hitem with hpoint | hitem
    · exact List.mem_append_left _ ((hsame.points.map _).subset hpoint)
    · exact List.mem_append_right _ hitem
  refine ⟨cache, hcompact, ?_⟩
  exact
    { behind :=
        { sorted := h.behind.sorted.sublist (hsame.points.map _).sublist
          start_le := hstart
          seen := by
            rw [hsame.lastOrdinal]
            exact h.behind.seen
          known := by
            intro point hpoint
            rw [hsame.lastOrdinal]
            exact h.behind.known point (hsame.points.subset hpoint)
          suffix := by
            rw [hsame.lastOrdinal, hactive]
            exact h.behind.suffix }
      seconds := hseconds
      digested := hdigested
      located := by
        rw [hactive]
        exact h.located
      past := fun item hitem => h.past item (hheld item hitem)
      apart := fun a ha b hb => h.apart a (hheld a ha) b (hheld b hb)
      seen := hsame.lastOrdinal.trans h.seen
      active := hactive.trans h.active }

/-- Moving the active start to the window's earliest item. -/
theorem Counts.trim (h : Tracks math past window sourced)
    (hseen : sourced.cache.lastOrdinal = window.ordinal)
    (hsuffix : window.items <:+ sourced.cache.activeItems) :
    ∃ after, sourced.trimToRetainedWindow math window = .ok after ∧ Counts math past window after := by
  have hrebuilt : Counts math past window (SourcedPriceCache.rebuild math window.items window.ordinal) :=
    .rebuild (fun item hitem => h.past item (List.mem_append_right _ hitem)) fun a ha b hb =>
      h.apart a (List.mem_append_right _ ha) b (List.mem_append_right _ hb)
  unfold trimToRetainedWindow
  cases hearliest : window.items.head? with
  | none =>
    have hitems := List.head?_eq_none_iff.mp hearliest
    rw [hitems] at hrebuilt
    cases hpoints : sourced.cache.points with
    | nil =>
      refine ⟨sourced, rfl, h, hseen, ?_⟩
      rw [PriceHistoryCache.activeItems, hpoints, hitems, List.drop_nil, List.map_nil]
    | cons first later => exact ⟨_, rfl, hrebuilt⟩
  | some earliest =>
    obtain ⟨point, hfound, hsame, hforward, hmoved⟩ :=
      PriceHistoryCache.seek_found h.behind.sorted hsuffix hearliest
    dsimp only
    rw [hfound, Option.all_some, if_neg (by simp [hsame]), if_neg (not_lt.mpr hforward)]
    generalize sourced.cache.seek earliest = trim at hfound hforward hmoved ⊢
    have htrim := (List.getElem?_eq_some_iff.mp hfound).1.le
    -- what is passed stands before the window's items
    have hactive : ((sourced.cache.points.take trim).drop sourced.cache.activeStart).map (·.item) ++
        window.items = sourced.cache.activeItems := by
      have hsplit : sourced.cache.points.drop sourced.cache.activeStart =
          (sourced.cache.points.take trim).drop sourced.cache.activeStart ++
            sourced.cache.points.drop trim := by
        conv_lhs => rw [← List.take_append_drop trim sourced.cache.points]
        rw [List.drop_append_of_le_length (by rw [List.length_take]; omega)]
      unfold PriceHistoryCache.activeItems
      rw [hsplit, List.map_append, hmoved]
    have hlocated : Located (forget sourced.sourcePositions
        ((sourced.cache.points.take trim).drop sourced.cache.activeStart)) window.items := by
      apply Located.forget
      · rw [hactive]
        exact h.located
      · rw [hactive]
        apply values_nodup (PriceHistoryCache.activeItems_sorted h.behind.sorted)
        intro a ha b hb
        have hmem : ∀ item ∈ sourced.cache.activeItems, item ∈ held window sourced := by
          intro item hitem
          obtain ⟨point, hpoint, rfl⟩ := List.mem_map.mp hitem
          exact List.mem_append_left _ (List.mem_map_of_mem (List.mem_of_mem_drop hpoint))
        exact h.apart a (hmem a ha) b (hmem b hb)
    have hmoved' : Counts math past window
        { cache := { sourced.cache with activeStart := trim }
          sourcePositions := forget sourced.sourcePositions
            ((sourced.cache.points.take trim).drop sourced.cache.activeStart) } :=
      { behind :=
          { sorted := h.behind.sorted
            start_le := htrim
            seen := h.behind.seen
            known := h.behind.known
            suffix := by
              show _ <:+ (sourced.cache.points.drop trim).map (·.item)
              rw [hmoved]
              show window.items.filter (·.ordinal ≤ sourced.cache.lastOrdinal) <:+ window.items
              rw [hseen, window.filter_ordinal_le] }
        seconds := ⟨h.seconds.ascending, h.seconds.same⟩
        digested := ⟨h.digested.made, h.digested.digestSum, h.digested.digestXor⟩
        located := by
          show Located _ ((sourced.cache.points.drop trim).map (·.item))
          rw [hmoved]
          exact hlocated
        past := h.past
        apart := h.apart
        seen := hseen
        active := hmoved }
    split_ifs
    · exact ⟨_, rfl, hmoved'⟩
    · obtain ⟨cache, hcompact, hcounts⟩ := hmoved'.compact
      rw [hcompact]
      exact ⟨_, rfl, hcounts⟩

/-- An update leaves the cache with exactly the window's items, and the index with their sources. -/
theorem Tracks.update (h : Tracks math past window sourced) :
    ∃ after, sourced.update math window = .ok after ∧ Counts math past window after := by
  unfold SourcedPriceCache.update
  dsimp only
  split_ifs with hsteps
  · exact ⟨_, rfl, .rebuild (fun item hitem => h.past item (List.mem_append_right _ hitem)) fun a ha b hb =>
      h.apart a (List.mem_append_right _ ha) b (List.mem_append_right _ hb)⟩
  have hforward := Bool.eq_false_iff.mpr hsteps
  obtain ⟨hpoints, hnew, -⟩ := h.behind.appended hforward
  obtain ⟨hbehind, hsuffix⟩ := h.behind.foldl math hforward
  have hmap := (PriceHistoryCache.foldl_append math
    (window.itemsAppendedAfter sourced.cache.lastOrdinal) sourced.cache).1
  have hactive := PriceHistoryCache.activeItems_foldl math
    (window.itemsAppendedAfter sourced.cache.lastOrdinal) h.behind.start_le
  have hseconds := h.seconds.foldl math hpoints
  have hdigested := h.digested.foldl (window.itemsAppendedAfter sourced.cache.lastOrdinal)
  -- nothing is held that was not held before
  have hincluded : ∀ item ∈ sourced.cache.points.map (·.item) ++
      window.itemsAppendedAfter sourced.cache.lastOrdinal ++ window.items, item ∈ held window sourced := by
    intro item hitem
    rcases List.mem_append.mp hitem with hitem | hitem
    · rcases List.mem_append.mp hitem with hpoint | hitem
      · exact List.mem_append_left _ hpoint
      · rw [hnew] at hitem
        exact List.mem_append_right _ (List.mem_of_mem_filter hitem)
    · exact List.mem_append_right _ hitem
  have hdistinct : ((sourced.cache.activeItems ++
      window.itemsAppendedAfter sourced.cache.lastOrdinal).map (·.value)).Nodup := by
    rw [← hactive]
    apply values_nodup (PriceHistoryCache.activeItems_sorted hbehind.sorted)
    intro a ha b hb
    have hmem : ∀ item ∈ ((window.itemsAppendedAfter sourced.cache.lastOrdinal).foldl
        (PriceHistoryCache.append math) sourced.cache).activeItems, item ∈ held window sourced := by
      intro item hitem
      apply hincluded
      rw [← hmap]
      obtain ⟨point, hpoint, rfl⟩ := List.mem_map.mp hitem
      exact List.mem_append_left _ (List.mem_map_of_mem (List.mem_of_mem_drop hpoint))
    exact h.apart a (hmem a ha) b (hmem b hb)
  have hlocated := h.located.foldl math hdistinct
  generalize window.itemsAppendedAfter sourced.cache.lastOrdinal = newItems at *
  have hcache := foldl_append_cache math newItems sourced
  generalize newItems.foldl (SourcedPriceCache.append math) sourced = appended at *
  rw [← hcache] at hbehind hsuffix hmap hactive hseconds hdigested
  have hheld : ∀ item ∈ held window appended, item ∈ held window sourced := by
    intro item hitem
    unfold held at hitem
    rw [hmap] at hitem
    exact hincluded item hitem
  have htracks : Tracks math past window
      { appended with cache := { appended.cache with lastOrdinal := window.ordinal } } :=
    { behind := hbehind
      seconds := ⟨hseconds.ascending, hseconds.same⟩
      digested := by
        rw [← hmap] at hdigested
        exact ⟨hdigested.made, hdigested.digestSum, hdigested.digestXor⟩
      located := by
        show Located appended.sourcePositions appended.cache.activeItems
        rw [hactive]
        exact hlocated
      past := fun item hitem => h.past item (hheld item hitem)
      apart := fun a ha b hb => h.apart a (hheld a ha) b (hheld b hb) }
  exact Counts.trim htracks rfl hsuffix

end SourcedPriceCache

end Cvf
