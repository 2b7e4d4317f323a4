/-
# Cvf.Features.RollingQueries — what a window answers.

The queries of a window scan from its newest item and stop early, and the append order of a forward-only
window is read off its items.  Both rest on the order the window carries (`Retained`): every answer is a
filter of the retained items, whatever sequence of appends and clears led to them.
-/
import Cvf.Features.Rolling
import Cvf.Library.Bisect

namespace Cvf

open Cvf.Library

/-! ## Items in key order -/

theorem TimedValue.Precedes.asymm {α : Type*} {a b : TimedValue α} (h : a.Precedes b) :
    ¬ b.Precedes a := by
  unfold TimedValue.Precedes at *
  omega

/-- Items in key order are determined by which they are. -/
theorem eq_of_perm_of_sorted {α : Type*} {a b : List (TimedValue α)} (hperm : a.Perm b)
    (ha : a.Pairwise TimedValue.Precedes) (hb : b.Pairwise TimedValue.Precedes) : a = b := by
  apply List.Perm.eq_of_pairwise _ ha hb hperm
  intro x y _ _ hxy hyx
  exact absurd hyx hxy.asymm

theorem TimedValue.precedes_or_precedes {α : Type*} {a b : TimedValue α}
    (hne : a.ordinal ≠ b.ordinal) : a.Precedes b ∨ b.Precedes a := by
  unfold TimedValue.Precedes
  omega

namespace BoundedTimeWindow

variable {α : Type*}

/-- `items_appended_after` returns the retained items of later ordinals, in some order. -/
theorem itemsAppendedAfter_perm (window : BoundedTimeWindow α) (ordinal : Nat) :
    (window.itemsAppendedAfter ordinal).Perm (window.items.filter (ordinal < ·.ordinal)) := by
  unfold itemsAppendedAfter
  split_ifs with hseen hdrop
  · have hnone : window.items.filter (ordinal < ·.ordinal) = [] := by
      apply List.filter_eq_nil_iff.mpr
      intro item hitem
      have := window.retained.ordinal_le item hitem
      simp only [decide_eq_true_eq, not_lt]
      omega
    rw [hnone]
  · -- forward-only, the append order is the order of the items
    have hinitial : Initial (fun item : TimedValue α => decide (ordinal < item.ordinal))
        window.items.reverse := by
      apply List.pairwise_reverse.mpr
      apply (window.retained.forward hdrop).imp
      intro a b hab ha
      exact decide_eq_true ((of_decide_eq_true ha).trans hab)
    rw [hinitial.takeWhile_eq_filter, List.filter_reverse, List.reverse_reverse]
  · exact List.perm_insertionSort _ _

/-- An append adds one item, newer by ordinal than all there were. -/
theorem append_filter_suffix (window : BoundedTimeWindow α) (timestamp : Int) (value : α)
    {ordinal : Nat} (hle : ordinal ≤ window.ordinal) :
    (window.append timestamp value).1.items.filter (·.ordinal ≤ ordinal) <:+
      window.items.filter (·.ordinal ≤ ordinal) := by
  by_cases haccepted : window.admissibility timestamp = .accepted
  · rw [(append_of_accepted value haccepted).2.1]
    have hnew : ¬ (window.nextItem timestamp value).ordinal ≤ ordinal := by
      show ¬ window.ordinal + 1 ≤ ordinal
      omega
    have hentered : (window.entered (window.nextItem timestamp value)).filter
        (·.ordinal ≤ ordinal) = window.items.filter (·.ordinal ≤ ordinal) := by
      unfold entered
      split_ifs
      · rw [List.filter_append, List.filter_cons_of_neg (by simpa using hnew)]
        simp
      · rw [insertItem, List.filter_append, List.filter_cons_of_neg (by simpa using hnew),
          ← List.filter_append, List.take_append_drop]
    rw [← hentered]
    exact (pruned_suffix ..).filter _
  · rw [(append_of_refused value haccepted).2.1]

theorem append_ordinal_le (window : BoundedTimeWindow α) (timestamp : Int) (value : α) :
    window.ordinal ≤ (window.append timestamp value).1.ordinal := by
  by_cases haccepted : window.admissibility timestamp = .accepted
  · rw [(append_of_accepted value haccepted).2.2.2.1]
    exact Nat.le_succ _
  · rw [(append_of_refused value haccepted).2.2.2.1]

/-- An item an append leaves was there before or is the appended one. -/
theorem append_mem {window : BoundedTimeWindow α} {timestamp : Int} {value : α}
    {item : TimedValue α} (hitem : item ∈ (window.append timestamp value).1.items) :
    item ∈ window.items ∨ item = window.nextItem timestamp value := by
  by_cases haccepted : window.admissibility timestamp = .accepted
  · rw [(append_of_accepted value haccepted).2.1] at hitem
    have hentered := (pruned_suffix ..).subset hitem
    unfold entered at hentered
    split_ifs at hentered
    · rcases List.mem_append.mp hentered with hmem | hmem
      · exact .inl hmem
      · exact .inr (List.mem_singleton.mp hmem)
    · rcases List.mem_cons.mp ((insertItem_perm ..).subset hentered) with rfl | hmem
      · exact .inr rfl
      · exact .inl hmem
  · rw [(append_of_refused value haccepted).2.1] at hitem
    exact .inl hitem

/-- A dropped append counts itself and changes nothing else. -/
theorem append_lateDropped {window : BoundedTimeWindow α} {timestamp : Int} (value : α)
    (h : window.admissibility timestamp = .lateDropped) :
    (window.append timestamp value).1 = { window with lateDropped := window.lateDropped + 1 } := by
  unfold append
  split
  · rename_i h'
    cases h.symm.trans h'
  · rfl
  · rename_i h'
    cases h.symm.trans h'

theorem append_expiredDropped {window : BoundedTimeWindow α} {timestamp : Int} (value : α)
    (h : window.admissibility timestamp = .expiredDropped) :
    (window.append timestamp value).1 =
      { window with expiredDropped := window.expiredDropped + 1 } := by
  unfold append
  split
  · rfl
  · rename_i h'
    cases h.symm.trans h'
  · rename_i h'
    cases h.symm.trans h'

theorem mem_of_mem_itemsBetween {window : BoundedTimeWindow α} {start stop : Int}
    {items : List (TimedValue α)} (hitems : window.itemsBetween start stop = some items)
    {item : TimedValue α} (hitem : item ∈ items) : item ∈ window.items := by
  unfold itemsBetween at hitems
  split_ifs at hitems
  rw [← Option.some.inj hitems, scanBetween_reverse window.retained.sorted] at hitem
  exact List.mem_of_mem_filter hitem

/-- `latest_at_or_before` returns the last of the retained items at or before the boundary. -/
theorem latestAtOrBefore_eq (window : BoundedTimeWindow α) (boundary : Int) :
    window.latestAtOrBefore boundary = (window.items.filter (·.timestamp ≤ boundary)).getLast? :=
  List.getLast?_filter.symm

end BoundedTimeWindow

/-! ## Runs of a window -/

/-- A call that changes a window. -/
inductive WindowCall (α : Type*) where
  | append (timestamp : Int) (value : α)
  | clear

namespace BoundedTimeWindow

variable {α : Type*}

/-- One call. -/
def call (window : BoundedTimeWindow α) : WindowCall α → BoundedTimeWindow α
  | .append timestamp value => (window.append timestamp value).1
  | .clear => window.clear

/-- The window a sequence of calls leaves. -/
def run (bounds : WindowBounds) (calls : List (WindowCall α)) : BoundedTimeWindow α :=
  calls.foldl call (.empty bounds)

/-- No two retained items were appended at once. -/
def DistinctOrdinals (window : BoundedTimeWindow α) : Prop :=
  window.items.Pairwise fun a b => a.ordinal ≠ b.ordinal

theorem DistinctOrdinals.append {window : BoundedTimeWindow α} (h : window.DistinctOrdinals)
    (timestamp : Int) (value : α) : (window.append timestamp value).1.DistinctOrdinals := by
  unfold DistinctOrdinals
  by_cases haccepted : window.admissibility timestamp = .accepted
  · -- the new item is newer by ordinal than all there were, wherever it enters
    have hcons : (window.nextItem timestamp value :: window.items).Pairwise
        fun a b => a.ordinal ≠ b.ordinal := by
      refine List.pairwise_cons.mpr ⟨fun entry hentry => ?_, h⟩
      exact (window.ordinal_lt_nextItem timestamp value entry hentry).ne'
    have hperm : (window.entered (window.nextItem timestamp value)).Perm
        (window.nextItem timestamp value :: window.items) := by
      unfold entered
      split_ifs
      · exact List.perm_append_singleton _ _
      · exact insertItem_perm ..
    rw [(append_of_accepted value haccepted).2.1]
    apply List.Pairwise.sublist (pruned_suffix ..).sublist
    exact (hperm.pairwise_iff fun hne => hne.symm).mpr hcons
  · rw [(append_of_refused value haccepted).2.1]
    exact h

theorem run_concat (bounds : WindowBounds) (calls : List (WindowCall α)) (last : WindowCall α) :
    run bounds (calls ++ [last]) = (run bounds calls).call last := by
  rw [run, List.foldl_append]
  rfl

theorem distinctOrdinals_run (bounds : WindowBounds) (calls : List (WindowCall α)) :
    (run bounds calls).DistinctOrdinals := by
  induction calls using List.reverseRecOn with
  | nil => exact .nil
  | append_singleton calls last ih =>
    rw [run_concat]
    cases last with
    | append timestamp value => exact ih.append timestamp value
    | clear => exact .nil

theorem run_bounds (bounds : WindowBounds) (calls : List (WindowCall α)) :
    (run bounds calls).bounds = bounds := by
  induction calls using List.reverseRecOn with
  | nil => rfl
  | append_singleton calls last ih =>
    rw [run_concat]
    cases last with
    | append timestamp value => exact (append_bounds ..).trans ih
    | clear => exact ih

/-- `items_appended_after` answers in append order. -/
theorem itemsAppendedAfter_sorted {window : BoundedTimeWindow α} (h : window.DistinctOrdinals)
    (ordinal : Nat) :
    (window.itemsAppendedAfter ordinal).Pairwise (·.ordinal < ·.ordinal) := by
  unfold itemsAppendedAfter
  split_ifs with hseen hdrop
  · exact .nil
  · have hsub := (List.takeWhile_sublist (l := window.items.reverse)
      fun item => decide (ordinal < item.ordinal)).reverse
    rw [List.reverse_reverse] at hsub
    exact (window.retained.forward hdrop).sublist hsub
  · have hsorted := List.pairwise_insertionSort (fun a b : TimedValue α => a.ordinal ≤ b.ordinal)
      (window.items.filter (ordinal < ·.ordinal))
    have hdistinct := (List.perm_insertionSort (fun a b : TimedValue α => a.ordinal ≤ b.ordinal)
      (window.items.filter (ordinal < ·.ordinal))).symm.pairwise
        (h.sublist List.filter_sublist) fun hne => hne.symm
    exact (hsorted.and hdistinct).imp fun ⟨hle, hne⟩ => lt_of_le_of_ne hle hne

/-- What a window keeps and answers. -/
structure Answers (bounds : WindowBounds) (window : BoundedTimeWindow α) : Prop where
  bounds_eq : window.bounds = bounds
  sorted : window.items.Pairwise TimedValue.Precedes
  within : ∀ item ∈ window.items, ∃ mark ∈ window.watermark,
    mark - bounds.retention < item.timestamp ∧ item.timestamp ≤ mark
  bounded : window.items.length ≤ bounds.maximumItems
  between : ∀ start stop, window.itemsBetween start stop =
    if stop < start then none
    else some (window.items.filter fun item => start < item.timestamp ∧ item.timestamp ≤ stop)
  latest : ∀ boundary, window.latestAtOrBefore boundary =
    (window.items.filter (·.timestamp ≤ boundary)).getLast?
  appendedAfter : ∀ ordinal,
    (window.itemsAppendedAfter ordinal).Perm (window.items.filter (ordinal < ·.ordinal))
  appendOrder : ∀ ordinal,
    (window.itemsAppendedAfter ordinal).Pairwise (·.ordinal < ·.ordinal)
  status : ∀ timestamp value, (window.append timestamp value).2 = window.admissibility timestamp
  late : ∀ timestamp value, window.admissibility timestamp = .lateDropped →
    (window.append timestamp value).1 = { window with lateDropped := window.lateDropped + 1 }
  expired : ∀ timestamp value, window.admissibility timestamp = .expiredDropped →
    (window.append timestamp value).1 =
      { window with expiredDropped := window.expiredDropped + 1 }

/-- Whatever was appended and cleared, a window keeps its bounds and answers from what it retains. -/
theorem answers_after_every_run (bounds : WindowBounds) (calls : List (WindowCall α)) :
    Answers bounds (run bounds calls) where
  bounds_eq := run_bounds bounds calls
  sorted := (run bounds calls).retained.sorted
  within := by
    intro item hitem
    cases hmark : (run bounds calls).watermark with
    | none =>
      rw [items_eq_nil_of_watermark_none hmark] at hitem
      cases hitem
    | some mark =>
      have habove := (run bounds calls).retained.above_cutoff item hitem mark hmark
      rw [run_bounds] at habove
      exact ⟨mark, rfl, habove, timestamp_le_watermark hmark hitem⟩
  bounded := by
    have hbounded := (run bounds calls).retained.bounded
    rwa [run_bounds] at hbounded
  between := by
    intro start stop
    split_ifs with hlt
    · exact if_pos hlt
    · exact (run bounds calls).itemsBetween_eq (not_lt.mp hlt)
  latest := (run bounds calls).latestAtOrBefore_eq
  appendedAfter := (run bounds calls).itemsAppendedAfter_perm
  appendOrder := itemsAppendedAfter_sorted (distinctOrdinals_run bounds calls)
  status := (run bounds calls).append_snd
  late := fun _ value h => append_lateDropped value h
  expired := fun _ value h => append_expiredDropped value h

end BoundedTimeWindow

end Cvf
