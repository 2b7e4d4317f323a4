/-
# Cvf.Features.RollingOrder — what a window retains does not depend on the order of its appends.

A window prunes after every append, so two runs that append the same values in different orders evict
different items at different times.  Still each retains the newest of all it was given above its last
cutoff: an item the cap evicted is older than everything kept, and one the cutoff evicted stays below
every later cutoff.
-/
import Cvf.Features.RollingQueries
import Cvf.Library.Newest
import Cvf.Library.Run

namespace Cvf

open Cvf.Library

/-- What a query of a window shows of an item: not its ordinal. -/
def TimedValue.entry {α : Type*} (item : TimedValue α) : Int × α := (item.timestamp, item.value)

namespace BoundedTimeWindow

variable {α : Type*}

def entries (window : BoundedTimeWindow α) : List (Int × α) := window.items.map (·.entry)

/-- Filters on instants do not look at ordinals. -/
theorem map_entry_filter (p : Int → Bool) (items : List (TimedValue α)) :
    (items.filter fun item => p item.timestamp).map (·.entry) =
      (items.map (·.entry)).filter fun entry => p entry.1 :=
  (List.filter_map (f := fun item : TimedValue α => item.entry)
    (p := fun entry => p entry.1)).symm

theorem ascending_entries (window : BoundedTimeWindow α) : Ascending Prod.fst window.entries :=
  List.pairwise_map.mpr (window.retained.sorted.imp fun h => h.timestamp_le)

theorem pruned_entries {bounds : WindowBounds} {items : List (TimedValue α)} {watermark : Int}
    (hsorted : items.Pairwise TimedValue.Precedes) :
    (pruned bounds watermark items).map (·.entry) =
      newest bounds.maximumItems
        (above Prod.fst (watermark - bounds.retention) (items.map (·.entry))) := by
  have hkept := map_entry_filter (fun t => watermark - bounds.retention < t) items
  unfold pruned newest above
  rw [dropWhile_eq_filter_of_sorted hsorted, List.map_drop, hkept, ← hkept, List.length_map, hkept]

/-- The items of an accepted append, before they are pruned. -/
theorem entered_entries (window : BoundedTimeWindow α) (timestamp : Int) (value : α) :
    (window.entered (window.nextItem timestamp value)).map (·.entry) =
      insertByKey Prod.fst window.entries (timestamp, value) := by
  rcases window.forward_or_late timestamp with hforward | ⟨watermark, hmark, hlate⟩
  · have hentered : window.entered (window.nextItem timestamp value) =
        window.items ++ [window.nextItem timestamp value] := if_pos hforward
    have hle : ∀ entry ∈ window.entries, entry.1 ≤ timestamp := by
      intro entry hentry
      obtain ⟨item, hitem, rfl⟩ := List.mem_map.mp hentry
      cases hmark : window.watermark with
      | none =>
        rw [items_eq_nil_of_watermark_none hmark] at hitem
        cases hitem
      | some mark =>
        exact (timestamp_le_watermark hmark hitem).trans (forward_iff.mp hforward mark hmark)
    rw [hentered, insertByKey_of_forall_le hle, List.map_append]
    rfl
  · have hentered : window.entered (window.nextItem timestamp value) =
        insertItem window.items (window.nextItem timestamp value) :=
      if_neg (not_forward_of_late hmark hlate)
    rw [hentered, insertItem_eq_filter window.retained.sorted
      (window.ordinal_lt_nextItem timestamp value), List.map_append, List.map_cons]
    congr 1
    · exact map_entry_filter (· ≤ timestamp) window.items
    · exact congrArg ((timestamp, value) :: ·) (map_entry_filter (timestamp < ·) window.items)

/-- What an accepted append leaves, by instants and values. -/
theorem append_entries {window : BoundedTimeWindow α} {timestamp : Int} (value : α)
    (haccepted : window.admissibility timestamp = .accepted) :
    (window.append timestamp value).1.entries =
      newest window.bounds.maximumItems
        (above Prod.fst (window.advanced timestamp - window.bounds.retention)
          (insertByKey Prod.fst window.entries (timestamp, value))) := by
  show (window.append timestamp value).1.items.map (·.entry) = _
  rw [(append_of_accepted value haccepted).2.1,
    pruned_entries (window.entered_spec timestamp value haccepted).sorted, entered_entries]

/-- An accepted item lies above the cutoff its append leaves, which is no earlier than the last. -/
theorem cutoff_of_accepted {window : BoundedTimeWindow α} {timestamp : Int}
    (haccepted : window.admissibility timestamp = .accepted) :
    window.advanced timestamp - window.bounds.retention < timestamp ∧
      ∀ mark ∈ window.watermark, mark ≤ window.advanced timestamp := by
  have hpos := window.bounds.retention_pos
  rcases window.forward_or_late timestamp with hforward | ⟨watermark, hmark, hlate⟩
  · rw [advanced_of_forward hforward]
    exact ⟨by omega, forward_iff.mp hforward⟩
  · have hadvanced : window.advanced timestamp = watermark := by
      simp only [advanced, hmark, if_pos hlate]
    rw [hadvanced]
    constructor
    · by_contra hle
      simp only [admissibility, hmark, if_pos hlate, if_pos (not_lt.mp hle)] at haccepted
      cases haccepted
    · intro mark hin
      rw [hmark] at hin
      exact (Option.some.inj hin).ge

/-! ## All that was appended -/

/-- The window retains the newest of `all` above its cutoff. -/
structure Retains (all : List (Int × α)) (window : BoundedTimeWindow α) : Prop where
  ascending : Ascending Prod.fst all
  none : window.watermark = none → all = []
  entries : ∀ mark ∈ window.watermark, window.entries =
    newest window.bounds.maximumItems (above Prod.fst (mark - window.bounds.retention) all)

/-- A window retains all it has. -/
theorem retains_entries (window : BoundedTimeWindow α) : Retains window.entries window where
  ascending := window.ascending_entries
  none := fun hmark => congrArg (List.map _) (items_eq_nil_of_watermark_none hmark)
  entries := by
    intro mark hmark
    have hall : above Prod.fst (mark - window.bounds.retention) window.entries = window.entries := by
      apply List.filter_eq_self.mpr
      intro entry hentry
      obtain ⟨item, hitem, rfl⟩ := List.mem_map.mp hentry
      exact decide_eq_true (window.retained.above_cutoff item hitem mark hmark)
    rw [hall, newest_of_length_le]
    exact (List.length_map _).le.trans window.retained.bounded

/-- The step of a run: an accepted append is an insertion into all there was. -/
theorem Retains.append {all : List (Int × α)} {window : BoundedTimeWindow α}
    (h : Retains all window) {timestamp : Int} (value : α)
    (haccepted : window.admissibility timestamp = .accepted) :
    Retains (insertByKey Prod.fst all (timestamp, value)) (window.append timestamp value).1 where
  ascending := ascending_insertByKey h.ascending _
  none := by
    rw [(append_of_accepted value haccepted).2.2.1]
    intro hnone
    cases hnone
  entries := by
    intro mark hmark
    rw [(append_of_accepted value haccepted).2.2.1] at hmark
    obtain rfl := Option.some.inj hmark
    obtain ⟨habove, hforward⟩ := cutoff_of_accepted haccepted
    rw [append_entries value haccepted, append_bounds]
    cases hbefore : window.watermark with
    | none =>
      have hempty : window.entries = [] := congrArg (List.map _)
        (items_eq_nil_of_watermark_none hbefore)
      rw [hempty, h.none hbefore]
    | some before =>
      rw [h.entries before hbefore]
      have hle := hforward before hbefore
      exact retain_insertByKey h.ascending (by omega) habove _

/-- The watermark is the instant of the last of all. -/
theorem Retains.watermark_eq {all : List (Int × α)} {window : BoundedTimeWindow α}
    (h : Retains all window) : window.watermark = all.getLast?.map Prod.fst := by
  cases hmark : window.watermark with
  | none =>
    rw [h.none hmark]
    rfl
  | some mark =>
    obtain ⟨last, hlast, rfl⟩ := exists_getLast? hmark
    have hentry : window.entries.getLast? = some last.entry := by
      show (window.items.map (·.entry)).getLast? = _
      rw [List.getLast?_map, hlast]
      rfl
    have hsuffix : window.entries <:+ all := by
      rw [h.entries _ hmark]
      exact (newest_suffix ..).trans (above_suffix h.ascending _)
    obtain ⟨front, hfront⟩ := hsuffix
    have hne : window.entries ≠ [] := by
      intro hnil
      rw [hnil] at hentry
      cases hentry
    rw [← hfront, List.getLast?_append_of_ne_nil _ hne, hentry]
    rfl

/-! ## Runs of accepted appends -/

/-- One append of a pair. -/
def appendPair (window : BoundedTimeWindow α) (pair : Int × α) : BoundedTimeWindow α :=
  (window.append pair.1 pair.2).1

/-- The append of the pair is accepted. -/
def Accepts (window : BoundedTimeWindow α) (pair : Int × α) : Prop :=
  (window.append pair.1 pair.2).2 = .accepted

instance (window : BoundedTimeWindow α) (pair : Int × α) : Decidable (window.Accepts pair) :=
  inferInstanceAs (Decidable (_ = _))

theorem bounds_foldl_appendPair (window : BoundedTimeWindow α) (pairs : List (Int × α)) :
    (pairs.foldl appendPair window).bounds = window.bounds := by
  induction pairs generalizing window with
  | nil => rfl
  | cons pair rest ih => exact (ih _).trans (append_bounds window pair.1 pair.2)

/-- A run of accepted appends retains the newest of all there was and all that was appended. -/
theorem Retains.foldl {all : List (Int × α)} {window : BoundedTimeWindow α} (h : Retains all window)
    {pairs : List (Int × α)} (haccepted : Admitted appendPair Accepts window pairs) :
    Retains (pairs.foldl (insertByKey Prod.fst) all) (pairs.foldl appendPair window) := by
  induction pairs generalizing all window with
  | nil => exact h
  | cons pair rest ih =>
    obtain ⟨hfirst, hrest⟩ := haccepted
    have hadmitted : window.admissibility pair.1 = .accepted := by
      rw [← window.append_snd pair.1 pair.2]
      exact hfirst
    exact ih (h.append pair.2 hadmitted) hrest

/-- Two windows that answer every query alike. -/
structure SameAnswers (a b : BoundedTimeWindow α) : Prop where
  entries : a.entries = b.entries
  between : ∀ start stop, (a.itemsBetween start stop).map (·.map (·.entry)) =
    (b.itemsBetween start stop).map (·.map (·.entry))
  latest : ∀ boundary, (a.latestAtOrBefore boundary).map (·.entry) =
    (b.latestAtOrBefore boundary).map (·.entry)

/-- The answers of a window are read off its entries. -/
theorem sameAnswers_of_entries {a b : BoundedTimeWindow α} (h : a.entries = b.entries) :
    SameAnswers a b where
  entries := h
  between := by
    intro start stop
    unfold itemsBetween
    split_ifs
    · rfl
    · rw [scanBetween_reverse a.retained.sorted, scanBetween_reverse b.retained.sorted]
      have hfilter := congrArg
        (List.filter fun entry => decide (start < entry.1 ∧ entry.1 ≤ stop)) h
      exact congrArg some ((map_entry_filter (fun t => start < t ∧ t ≤ stop) a.items).trans
        (hfilter.trans (map_entry_filter (fun t => start < t ∧ t ≤ stop) b.items).symm))
  latest := by
    intro boundary
    rw [latestAtOrBefore_eq, latestAtOrBefore_eq, ← List.getLast?_map, ← List.getLast?_map]
    have hfilter := congrArg (List.filter fun entry => decide (entry.1 ≤ boundary)) h
    exact congrArg List.getLast? ((map_entry_filter (· ≤ boundary) a.items).trans
      (hfilter.trans (map_entry_filter (· ≤ boundary) b.items).symm))

/-- Pairs of distinct instants, appended to equal windows in any two orders with every append
accepted, leave the same retained sequence and so the same answers. -/
theorem insert_order_independent (window : BoundedTimeWindow α) {first second : List (Int × α)}
    (hperm : first.Perm second) (hdistinct : (first.map Prod.fst).Nodup)
    (hfirst : Admitted appendPair Accepts window first)
    (hsecond : Admitted appendPair Accepts window second) :
    SameAnswers (first.foldl appendPair window) (second.foldl appendPair window) := by
  have hretains := window.retains_entries.foldl hfirst
  have hretains' := window.retains_entries.foldl hsecond
  have hall := foldl_insertByKey_perm hperm hdistinct window.entries
  rw [← hall] at hretains'
  have hmark : (first.foldl appendPair window).watermark =
      (second.foldl appendPair window).watermark :=
    hretains.watermark_eq.trans hretains'.watermark_eq.symm
  apply sameAnswers_of_entries
  cases hcase : (first.foldl appendPair window).watermark with
  | none =>
    have hempty := items_eq_nil_of_watermark_none hcase
    have hempty' := items_eq_nil_of_watermark_none (hmark.symm.trans hcase)
    rw [entries, entries, hempty, hempty']
  | some mark =>
    have hbounds := (bounds_foldl_appendPair window first).trans
      (bounds_foldl_appendPair window second).symm
    rw [hretains.entries mark hcase, hretains'.entries mark (hmark.symm.trans hcase), hbounds]

/-- A window of ten seconds and two items that admits late items. -/
def exampleInsertWindow : BoundedTimeWindow Nat :=
  .empty
    { retention := 10
      maximumItems := 2
      lateEventPolicy := .insert
      maximumLateness := 10
      retention_pos := by norm_num
      maximumItems_pos := by norm_num
      maximumLateness_nonneg := by norm_num }

theorem insert_order_independent_three :
    SameAnswers ([(1, 10), (2, 20), (3, 30)].foldl appendPair exampleInsertWindow)
      ([(3, 30), (2, 20), (1, 10)].foldl appendPair exampleInsertWindow) := by
  apply insert_order_independent exampleInsertWindow
  · decide
  · decide
  · exact ⟨by decide +kernel, by decide +kernel, by decide +kernel, trivial⟩
  · exact ⟨by decide +kernel, by decide +kernel, by decide +kernel, trivial⟩

end BoundedTimeWindow

end Cvf
