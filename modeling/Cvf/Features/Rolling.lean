/-
# Cvf.Features.Rolling — bounded event-time windows.

A `BoundedTimeWindow` keeps the items of `(watermark - retention, watermark]` in event-time order,
ties in append order, under a hard item cap.  A window is built together with the proof that its
contents are what the source's `deque` always is (`Retained`): sorted, above the cutoff, ending at
the watermark, within the cap.  Every later module reads those facts off the window itself.

Instants are microseconds, as in the event records.
-/
import Mathlib

namespace Cvf

inductive LateEventPolicy where
  | drop
  | insert
  deriving DecidableEq, Repr

inductive AppendStatus where
  | accepted
  | lateDropped
  | expiredDropped
  deriving DecidableEq, Repr

structure TimedValue (α : Type*) where
  timestamp : Int
  value : α
  ordinal : Nat
  deriving DecidableEq, Repr

namespace TimedValue

variable {α : Type*}

/-- `(timestamp, ordinal) < (timestamp, ordinal)`, the tuple order of the window's keys. -/
def Precedes (a b : TimedValue α) : Prop :=
  a.timestamp < b.timestamp ∨ a.timestamp = b.timestamp ∧ a.ordinal < b.ordinal

instance (a b : TimedValue α) : Decidable (a.Precedes b) :=
  inferInstanceAs (Decidable (_ ∨ _))

theorem Precedes.timestamp_le {a b : TimedValue α} (h : a.Precedes b) :
    a.timestamp ≤ b.timestamp := by
  rcases h with h | ⟨h, -⟩
  · exact h.le
  · exact h.le

end TimedValue

/-- The constructor arguments of a window, with the three checks of `__init__`. -/
structure WindowBounds where
  retention : Int
  maximumItems : Nat
  lateEventPolicy : LateEventPolicy := .drop
  maximumLateness : Int := 0
  /-- `retention must be positive` -/
  retention_pos : 0 < retention
  /-- `maximum_items must be positive` -/
  maximumItems_pos : 1 ≤ maximumItems
  /-- `maximum_lateness cannot be negative` -/
  maximumLateness_nonneg : 0 ≤ maximumLateness

/-! ## What a window always holds -/

/-- The contents a window can have under `bounds`, after `ordinal` accepted appends. -/
structure Retained {α : Type*} (bounds : WindowBounds) (items : List (TimedValue α))
    (watermark : Option Int) (ordinal : Nat) : Prop where
  sorted : items.Pairwise TimedValue.Precedes
  ordinal_le : ∀ item ∈ items, item.ordinal ≤ ordinal
  above_cutoff : ∀ item ∈ items, ∀ mark ∈ watermark, mark - bounds.retention < item.timestamp
  newest : watermark = items.getLast?.map TimedValue.timestamp
  bounded : items.length ≤ bounds.maximumItems
  /-- Without late inserts the event-time order is the append order. -/
  forward : bounds.lateEventPolicy = .drop → items.Pairwise (·.ordinal < ·.ordinal)

theorem Retained.nil {α : Type*} {bounds : WindowBounds} {ordinal : Nat} :
    Retained (α := α) bounds [] none ordinal where
  sorted := .nil
  ordinal_le := by simp
  above_cutoff := by simp
  newest := rfl
  bounded := Nat.zero_le _
  forward := fun _ => .nil

theorem forward_iff {watermark : Option Int} {timestamp : Int} :
    watermark.all (· ≤ timestamp) = true ↔ ∀ mark ∈ watermark, mark ≤ timestamp := by
  cases watermark <;> simp

section Pruning

variable {α : Type*}

/-- The two loops of `_prune`: what is at or below the cutoff, then what is over the cap. -/
def pruned (bounds : WindowBounds) (watermark : Int) (items : List (TimedValue α)) :
    List (TimedValue α) :=
  let kept := items.dropWhile (·.timestamp ≤ watermark - bounds.retention)
  kept.drop (kept.length - bounds.maximumItems)

/-- How many items the second loop of `_prune` evicts. -/
def evicted (bounds : WindowBounds) (watermark : Int) (items : List (TimedValue α)) : Nat :=
  (items.dropWhile (·.timestamp ≤ watermark - bounds.retention)).length - bounds.maximumItems

theorem pruned_suffix (bounds : WindowBounds) (watermark : Int) (items : List (TimedValue α)) :
    pruned bounds watermark items <:+ items :=
  (List.drop_suffix _ _).trans (List.dropWhile_suffix _)

/-- In event-time order, what is left of a `dropWhile` below a cutoff is the part above it. -/
theorem dropWhile_eq_filter_of_sorted {items : List (TimedValue α)}
    (hsorted : items.Pairwise TimedValue.Precedes) (cutoff : Int) :
    items.dropWhile (·.timestamp ≤ cutoff) = items.filter (cutoff < ·.timestamp) := by
  induction items with
  | nil => rfl
  | cons item rest ih =>
    rw [List.pairwise_cons] at hsorted
    by_cases hitem : item.timestamp ≤ cutoff
    · rw [List.dropWhile_cons_of_pos (by simpa using hitem),
        List.filter_cons_of_neg (by simpa using hitem)]
      exact ih hsorted.2
    · have hall : ∀ later ∈ item :: rest, cutoff < later.timestamp := by
        intro later hlater
        rcases List.mem_cons.mp hlater with rfl | hlater
        · omega
        · have := (hsorted.1 later hlater).timestamp_le
          omega
      rw [List.dropWhile_cons_of_neg (by simpa using hitem),
        List.filter_eq_self.mpr (by simpa using hall)]

/-- The newest item survives pruning. -/
theorem pruned_ne_nil {bounds : WindowBounds} {items : List (TimedValue α)}
    {last : TimedValue α} (hlast : items.getLast? = some last) :
    pruned bounds last.timestamp items ≠ [] := by
  have hmem : last ∈ items := List.mem_of_getLast? hlast
  have hkept : items.dropWhile (·.timestamp ≤ last.timestamp - bounds.retention) ≠ [] := by
    intro hnil
    have := List.dropWhile_eq_nil_iff.mp hnil last hmem
    have hpos := bounds.retention_pos
    simp only [decide_eq_true_eq] at this
    omega
  have hlen := List.length_pos_iff.mpr hkept
  have hcap := bounds.maximumItems_pos
  apply List.ne_nil_of_length_pos
  rw [pruned, List.length_drop]
  omega

theorem pruned_getLast? {bounds : WindowBounds} {items : List (TimedValue α)}
    {last : TimedValue α} (hlast : items.getLast? = some last) :
    (pruned bounds last.timestamp items).getLast? = some last := by
  obtain ⟨front, hfront⟩ := pruned_suffix bounds last.timestamp items
  have hne : pruned bounds last.timestamp items ≠ [] := pruned_ne_nil hlast
  rw [← hfront, List.getLast?_append_of_ne_nil _ hne] at hlast
  exact hlast

/-- The items of an accepted append before they are pruned. -/
structure Entered (bounds : WindowBounds) (items : List (TimedValue α)) (watermark : Int)
    (ordinal : Nat) : Prop where
  sorted : items.Pairwise TimedValue.Precedes
  ordinal_le : ∀ item ∈ items, item.ordinal ≤ ordinal
  newest : items.getLast?.map TimedValue.timestamp = some watermark
  forward : bounds.lateEventPolicy = .drop → items.Pairwise (·.ordinal < ·.ordinal)

/-- Pruning turns them into contents a window can have. -/
theorem Entered.retained {bounds : WindowBounds} {items : List (TimedValue α)} {watermark : Int}
    {ordinal : Nat} (h : Entered bounds items watermark ordinal) :
    Retained bounds (pruned bounds watermark items) (some watermark) ordinal where
  sorted := h.sorted.sublist (pruned_suffix ..).sublist
  ordinal_le := fun item hitem => h.ordinal_le item ((pruned_suffix ..).subset hitem)
  above_cutoff := by
    intro item hitem mark hmark
    obtain rfl : watermark = mark := Option.some.inj hmark
    have hkept := List.mem_of_mem_drop hitem
    rw [dropWhile_eq_filter_of_sorted h.sorted, List.mem_filter] at hkept
    simpa using hkept.2
  newest := by
    obtain ⟨last, hlast, rfl⟩ := Option.map_eq_some_iff.mp h.newest
    rw [pruned_getLast? hlast]
    rfl
  bounded := by
    rw [pruned, List.length_drop]
    omega
  forward := fun hdrop => (h.forward hdrop).sublist (pruned_suffix ..).sublist

end Pruning

section Inserting

variable {α : Type*}

/-- `bisect_right` over the `(timestamp, ordinal)` keys, for the key of `item`. -/
def insertionPoint (items : List (TimedValue α)) (item : TimedValue α) : Nat :=
  (items.takeWhile fun entry => ¬ item.Precedes entry).length

/-- `items.insert(bisect_right(keys, …), item)`. -/
def insertItem (items : List (TimedValue α)) (item : TimedValue α) : List (TimedValue α) :=
  items.take (insertionPoint items item) ++ item :: items.drop (insertionPoint items item)

theorem insertItem_eq (items : List (TimedValue α)) (item : TimedValue α) :
    insertItem items item = items.takeWhile (fun entry => ¬ item.Precedes entry) ++
      item :: items.dropWhile (fun entry => ¬ item.Precedes entry) := by
  have htake : items.take (insertionPoint items item) =
      items.takeWhile fun entry => ¬ item.Precedes entry :=
    (List.prefix_iff_eq_take.mp (List.takeWhile_prefix _)).symm
  have hdrop : items.drop (insertionPoint items item) =
      items.dropWhile fun entry => ¬ item.Precedes entry := by
    have hsplit := List.take_append_drop (insertionPoint items item) items
    rw [htake] at hsplit
    exact List.append_cancel_left (hsplit.trans List.takeWhile_append_dropWhile.symm)
  rw [insertItem, htake, hdrop]

theorem insertItem_perm (items : List (TimedValue α)) (item : TimedValue α) :
    (insertItem items item).Perm (item :: items) := by
  rw [insertItem_eq]
  apply List.perm_middle.trans
  rw [List.takeWhile_append_dropWhile]

/-- An item newer by ordinal enters after its equals in time and before everything later. -/
theorem insertItem_eq_filter {items : List (TimedValue α)} {item : TimedValue α}
    (hsorted : items.Pairwise TimedValue.Precedes)
    (hordinal : ∀ entry ∈ items, entry.ordinal < item.ordinal) :
    insertItem items item = items.filter (·.timestamp ≤ item.timestamp) ++
      item :: items.filter (item.timestamp < ·.timestamp) := by
  have hprecedes : ∀ entry ∈ items,
      item.Precedes entry ↔ item.timestamp < entry.timestamp := by
    intro entry hentry
    have := hordinal entry hentry
    unfold TimedValue.Precedes
    omega
  rw [insertItem_eq]
  clear hordinal
  induction items with
  | nil => rfl
  | cons entry rest ih =>
    rw [List.pairwise_cons] at hsorted
    by_cases hentry : entry.timestamp ≤ item.timestamp
    · have hnot : ¬ item.Precedes entry := by
        rw [hprecedes entry (by simp)]
        omega
      have hrest := ih hsorted.2 fun later hlater => hprecedes later (by simp [hlater])
      rw [List.takeWhile_cons_of_pos (by simpa using hnot),
        List.dropWhile_cons_of_pos (by simpa using hnot),
        List.filter_cons_of_pos (by simpa using hentry),
        List.filter_cons_of_neg (by simpa using hentry)]
      simpa using hrest
    · have hlate : item.Precedes entry := by
        rw [hprecedes entry (by simp)]
        omega
      have hall : ∀ later ∈ entry :: rest, item.timestamp < later.timestamp := by
        intro later hlater
        rcases List.mem_cons.mp hlater with rfl | hlater
        · omega
        · have := (hsorted.1 later hlater).timestamp_le
          omega
      have hnone : (entry :: rest).filter (·.timestamp ≤ item.timestamp) = [] := by
        apply List.filter_eq_nil_iff.mpr
        intro later hlater
        have := hall later hlater
        simpa using this
      have hself : (entry :: rest).filter (item.timestamp < ·.timestamp) = entry :: rest :=
        List.filter_eq_self.mpr fun later hlater => by simpa using hall later hlater
      rw [List.takeWhile_cons_of_neg (by simpa using hlate),
        List.dropWhile_cons_of_neg (by simpa using hlate), hnone, hself]

theorem insertItem_sorted {items : List (TimedValue α)} {item : TimedValue α}
    (hsorted : items.Pairwise TimedValue.Precedes)
    (hordinal : ∀ entry ∈ items, entry.ordinal < item.ordinal) :
    (insertItem items item).Pairwise TimedValue.Precedes := by
  rw [insertItem_eq_filter hsorted hordinal, List.pairwise_append, List.pairwise_cons]
  refine ⟨hsorted.filter _, ⟨?_, hsorted.filter _⟩, ?_⟩
  · intro later hlater
    exact .inl (by simpa using (List.mem_filter.mp hlater).2)
  · intro entry hentry later hlater
    obtain ⟨hmem, htime⟩ := List.mem_filter.mp hentry
    simp only [decide_eq_true_eq] at htime
    rcases List.mem_cons.mp hlater with rfl | hlater
    · have := hordinal entry hmem
      unfold TimedValue.Precedes
      omega
    · have := (List.mem_filter.mp hlater).2
      simp only [decide_eq_true_eq] at this
      exact .inl (by omega)

/-- Inserting before the newest item leaves it newest. -/
theorem insertItem_getLast? {items : List (TimedValue α)} {item last : TimedValue α}
    (hsorted : items.Pairwise TimedValue.Precedes)
    (hordinal : ∀ entry ∈ items, entry.ordinal < item.ordinal)
    (hlast : items.getLast? = some last) (hlate : item.timestamp < last.timestamp) :
    (insertItem items item).getLast? = some last := by
  obtain ⟨front, rfl⟩ := List.getLast?_eq_some_iff.mp hlast
  have hkept : (front ++ [last]).filter (item.timestamp < ·.timestamp)
      = front.filter (item.timestamp < ·.timestamp) ++ [last] := by
    simp [List.filter_append, hlate]
  rw [insertItem_eq_filter hsorted hordinal, hkept, ← List.cons_append, ← List.append_assoc,
    List.getLast?_concat]

end Inserting

/-! ## The window -/

structure BoundedTimeWindow (α : Type*) where
  bounds : WindowBounds
  items : List (TimedValue α)
  watermark : Option Int
  ordinal : Nat
  accepted : Nat
  lateDropped : Nat
  expiredDropped : Nat
  capacityEvictions : Nat
  retained : Retained bounds items watermark ordinal

namespace BoundedTimeWindow

variable {α : Type*}

/-- `BoundedTimeWindow(…)`. -/
def empty (bounds : WindowBounds) : BoundedTimeWindow α :=
  { bounds, items := [], watermark := none, ordinal := 0, accepted := 0, lateDropped := 0,
    expiredDropped := 0, capacityEvictions := 0, retained := .nil }

/-- `clear`: the ordinal and the counters stay. -/
def clear (window : BoundedTimeWindow α) : BoundedTimeWindow α :=
  { window with items := [], watermark := none, retained := .nil }

/-- `admissibility`. -/
def admissibility (window : BoundedTimeWindow α) (timestamp : Int) : AppendStatus :=
  match window.watermark with
  | none => .accepted
  | some watermark =>
    if timestamp < watermark then
      if timestamp ≤ watermark - window.bounds.retention then .expiredDropped
      else if window.bounds.lateEventPolicy = .drop
          ∨ window.bounds.maximumLateness < watermark - timestamp then .lateDropped
      else .accepted
    else .accepted

/-- The items `append` has before it prunes: at the end, or bisected among the later ones. -/
def entered (window : BoundedTimeWindow α) (item : TimedValue α) : List (TimedValue α) :=
  if window.watermark.all (· ≤ item.timestamp) then window.items ++ [item]
  else insertItem window.items item

/-- The watermark an accepted append leaves. -/
def advanced (window : BoundedTimeWindow α) (timestamp : Int) : Int :=
  match window.watermark with
  | none => timestamp
  | some watermark => if timestamp < watermark then watermark else timestamp

/-- The item `append` builds for an accepted value. -/
def nextItem (window : BoundedTimeWindow α) (timestamp : Int) (value : α) : TimedValue α :=
  ⟨timestamp, value, window.ordinal + 1⟩

@[simp]
theorem nextItem_timestamp (window : BoundedTimeWindow α) (timestamp : Int) (value : α) :
    (window.nextItem timestamp value).timestamp = timestamp := rfl

theorem ordinal_lt_nextItem (window : BoundedTimeWindow α) (timestamp : Int) (value : α) :
    ∀ entry ∈ window.items, entry.ordinal < (window.nextItem timestamp value).ordinal :=
  fun entry hentry => Nat.lt_succ_of_le (window.retained.ordinal_le entry hentry)

/-- The newest item of a window sits at its watermark. -/
theorem exists_getLast? {window : BoundedTimeWindow α} {watermark : Int}
    (hmark : window.watermark = some watermark) :
    ∃ last, window.items.getLast? = some last ∧ last.timestamp = watermark := by
  have hnewest := window.retained.newest
  rw [hmark] at hnewest
  obtain ⟨last, hlast, htime⟩ := Option.map_eq_some_iff.mp hnewest.symm
  exact ⟨last, hlast, htime⟩

theorem timestamp_le_watermark {window : BoundedTimeWindow α} {watermark : Int}
    (hmark : window.watermark = some watermark) {item : TimedValue α}
    (hitem : item ∈ window.items) : item.timestamp ≤ watermark := by
  obtain ⟨last, hlast, rfl⟩ := exists_getLast? hmark
  obtain ⟨front, hfront⟩ := List.getLast?_eq_some_iff.mp hlast
  have hsorted := window.retained.sorted
  rw [hfront] at hitem hsorted
  rcases List.mem_append.mp hitem with hitem | hitem
  · exact ((List.pairwise_append.mp hsorted).2.2 item hitem last (by simp)).timestamp_le
  · rw [List.mem_singleton.mp hitem]

theorem items_eq_nil_of_watermark_none {window : BoundedTimeWindow α}
    (hmark : window.watermark = none) : window.items = [] := by
  have hnewest := window.retained.newest
  rw [hmark] at hnewest
  exact List.getLast?_eq_none_iff.mp (Option.map_eq_none_iff.mp hnewest.symm)

theorem advanced_of_forward {window : BoundedTimeWindow α} {timestamp : Int}
    (hforward : window.watermark.all (· ≤ timestamp) = true) :
    window.advanced timestamp = timestamp := by
  unfold advanced
  cases hmark : window.watermark with
  | none => rfl
  | some watermark =>
    rw [hmark] at hforward
    exact if_neg (by simpa using hforward)

/-- An item at or after the watermark is entered last. -/
theorem entered_forward {window : BoundedTimeWindow α} {timestamp : Int} (value : α)
    (hforward : window.watermark.all (· ≤ timestamp) = true) :
    Entered window.bounds (window.items ++ [window.nextItem timestamp value]) timestamp
      (window.ordinal + 1) where
  sorted := by
    refine List.pairwise_append.mpr ⟨window.retained.sorted, List.pairwise_singleton .., ?_⟩
    intro entry hentry next hnext
    obtain rfl := List.mem_singleton.mp hnext
    cases hmark : window.watermark with
    | none =>
      rw [items_eq_nil_of_watermark_none hmark] at hentry
      exact absurd hentry List.not_mem_nil
    | some watermark =>
      have hle := timestamp_le_watermark hmark hentry
      have hnew := window.ordinal_lt_nextItem timestamp value entry hentry
      have hmark' : watermark ≤ timestamp := by simpa [hmark] using hforward
      have htime : (window.nextItem timestamp value).timestamp = timestamp := rfl
      unfold TimedValue.Precedes
      omega
  ordinal_le := by
    intro entry hentry
    rcases List.mem_append.mp hentry with hentry | hentry
    · exact (window.ordinal_lt_nextItem timestamp value entry hentry).le
    · rw [List.mem_singleton.mp hentry]
      rfl
  newest := by
    rw [List.getLast?_concat]
    rfl
  forward := by
    intro hdrop
    refine List.pairwise_append.mpr
      ⟨window.retained.forward hdrop, List.pairwise_singleton .., ?_⟩
    intro entry hentry next hnext
    obtain rfl := List.mem_singleton.mp hnext
    exact window.ordinal_lt_nextItem timestamp value entry hentry

/-- Only the insertion policy admits an item before the watermark. -/
theorem policy_ne_drop_of_late {window : BoundedTimeWindow α} {timestamp watermark : Int}
    (hmark : window.watermark = some watermark) (hlate : timestamp < watermark)
    (haccepted : window.admissibility timestamp = .accepted) :
    window.bounds.lateEventPolicy ≠ .drop := by
  intro hdrop
  simp only [admissibility, hmark, if_pos hlate, hdrop, true_or, if_true] at haccepted
  split at haccepted <;> simp at haccepted

theorem entered_late {window : BoundedTimeWindow α} {timestamp watermark : Int} (value : α)
    (hmark : window.watermark = some watermark) (hlate : timestamp < watermark)
    (haccepted : window.admissibility timestamp = .accepted) :
    Entered window.bounds (insertItem window.items (window.nextItem timestamp value)) watermark
      (window.ordinal + 1) where
  sorted := insertItem_sorted window.retained.sorted (window.ordinal_lt_nextItem timestamp value)
  ordinal_le := by
    intro entry hentry
    rcases List.mem_cons.mp ((insertItem_perm ..).subset hentry) with rfl | hentry
    · exact le_rfl
    · exact (window.ordinal_lt_nextItem timestamp value entry hentry).le
  newest := by
    obtain ⟨last, hlast, rfl⟩ := exists_getLast? hmark
    rw [insertItem_getLast? window.retained.sorted (window.ordinal_lt_nextItem timestamp value) hlast hlate]
    rfl
  forward := fun hdrop => absurd hdrop (policy_ne_drop_of_late hmark hlate haccepted)

/-- The two ways an accepted item enters: last, or among the items after it. -/
theorem forward_or_late (window : BoundedTimeWindow α) (timestamp : Int) :
    window.watermark.all (· ≤ timestamp) = true ∨
      ∃ watermark, window.watermark = some watermark ∧ timestamp < watermark := by
  cases hmark : window.watermark with
  | none => exact .inl rfl
  | some watermark =>
    rcases le_or_gt watermark timestamp with h | h
    · exact .inl (by simpa using h)
    · exact .inr ⟨watermark, rfl, h⟩

theorem not_forward_of_late {window : BoundedTimeWindow α} {timestamp watermark : Int}
    (hmark : window.watermark = some watermark) (hlate : timestamp < watermark) :
    ¬ window.watermark.all (· ≤ timestamp) = true := by
  simpa [hmark] using hlate

theorem entered_spec (window : BoundedTimeWindow α) (timestamp : Int) (value : α)
    (haccepted : window.admissibility timestamp = .accepted) :
    Entered window.bounds (window.entered (window.nextItem timestamp value))
      (window.advanced timestamp) (window.ordinal + 1) := by
  rcases window.forward_or_late timestamp with hforward | ⟨watermark, hmark, hlate⟩
  · have hentered : window.entered (window.nextItem timestamp value) =
        window.items ++ [window.nextItem timestamp value] := if_pos hforward
    rw [hentered, advanced_of_forward hforward]
    exact entered_forward value hforward
  · have hentered : window.entered (window.nextItem timestamp value) =
        insertItem window.items (window.nextItem timestamp value) :=
      if_neg (not_forward_of_late hmark hlate)
    have hadvanced : window.advanced timestamp = watermark := by
      simp only [advanced, hmark, if_pos hlate]
    rw [hentered, hadvanced]
    exact entered_late value hmark hlate haccepted

/-- `append`. -/
def append (window : BoundedTimeWindow α) (timestamp : Int) (value : α) :
    BoundedTimeWindow α × AppendStatus :=
  match haccepted : window.admissibility timestamp with
  | .expiredDropped =>
    ({ window with expiredDropped := window.expiredDropped + 1 }, .expiredDropped)
  | .lateDropped => ({ window with lateDropped := window.lateDropped + 1 }, .lateDropped)
  | .accepted =>
    let items := window.entered (window.nextItem timestamp value)
    let watermark := window.advanced timestamp
    ({ window with
        items := pruned window.bounds watermark items
        watermark := some watermark
        ordinal := window.ordinal + 1
        accepted := window.accepted + 1
        capacityEvictions := window.capacityEvictions + evicted window.bounds watermark items
        retained := (window.entered_spec timestamp value haccepted).retained }, .accepted)

/-! ### What an append changes -/

theorem append_of_refused {window : BoundedTimeWindow α} {timestamp : Int} (value : α)
    (hrefused : window.admissibility timestamp ≠ .accepted) :
    (window.append timestamp value).2 = window.admissibility timestamp ∧
      (window.append timestamp value).1.items = window.items ∧
      (window.append timestamp value).1.watermark = window.watermark ∧
      (window.append timestamp value).1.ordinal = window.ordinal ∧
      (window.append timestamp value).1.bounds = window.bounds := by
  unfold append
  split
  · rename_i h
    exact ⟨h.symm, rfl, rfl, rfl, rfl⟩
  · rename_i h
    exact ⟨h.symm, rfl, rfl, rfl, rfl⟩
  · rename_i h
    exact absurd h hrefused

theorem append_of_accepted {window : BoundedTimeWindow α} {timestamp : Int} (value : α)
    (haccepted : window.admissibility timestamp = .accepted) :
    (window.append timestamp value).2 = .accepted ∧
      (window.append timestamp value).1.items = pruned window.bounds (window.advanced timestamp)
        (window.entered (window.nextItem timestamp value)) ∧
      (window.append timestamp value).1.watermark = some (window.advanced timestamp) ∧
      (window.append timestamp value).1.ordinal = window.ordinal + 1 ∧
      (window.append timestamp value).1.bounds = window.bounds := by
  unfold append
  split
  · rename_i h
    simp [haccepted] at h
  · rename_i h
    simp [haccepted] at h
  · exact ⟨rfl, rfl, rfl, rfl, rfl⟩

@[simp]
theorem append_snd (window : BoundedTimeWindow α) (timestamp : Int) (value : α) :
    (window.append timestamp value).2 = window.admissibility timestamp := by
  by_cases h : window.admissibility timestamp = .accepted
  · rw [(append_of_accepted value h).1, h]
  · exact (append_of_refused value h).1

@[simp]
theorem append_bounds (window : BoundedTimeWindow α) (timestamp : Int) (value : α) :
    (window.append timestamp value).1.bounds = window.bounds := by
  by_cases h : window.admissibility timestamp = .accepted
  · exact (append_of_accepted value h).2.2.2.2
  · exact (append_of_refused value h).2.2.2.2

/-- A forward-only window admits what is not before its watermark. -/
theorem admissibility_of_forward {window : BoundedTimeWindow α} {timestamp : Int}
    (hforward : window.watermark.all (· ≤ timestamp) = true) :
    window.admissibility timestamp = .accepted := by
  unfold admissibility
  cases hmark : window.watermark with
  | none => rfl
  | some watermark =>
    rw [hmark] at hforward
    exact if_neg (by simpa using hforward)

theorem admissibility_drop_iff {window : BoundedTimeWindow α}
    (hdrop : window.bounds.lateEventPolicy = .drop) {timestamp : Int} :
    window.admissibility timestamp = .accepted ↔
      window.watermark.all (· ≤ timestamp) = true := by
  refine ⟨fun haccepted => ?_, admissibility_of_forward⟩
  rcases window.forward_or_late timestamp with hforward | ⟨watermark, hmark, hlate⟩
  · exact hforward
  · exact absurd hdrop (policy_ne_drop_of_late hmark hlate haccepted)

/-! ### Queries -/

/-- `items_between`: the newest items are scanned first, and the scan ends at the first item at or
before the start. -/
def scanBetween (start stop : Int) : List (TimedValue α) → List (TimedValue α)
  | [] => []
  | item :: older =>
    if stop < item.timestamp then scanBetween start stop older
    else if item.timestamp ≤ start then []
    else item :: scanBetween start stop older

/-- `items_between`; `none` is `ValueError("window end cannot precede start")`. -/
def itemsBetween (window : BoundedTimeWindow α) (start stop : Int) :
    Option (List (TimedValue α)) :=
  if stop < start then none
  else some (scanBetween start stop window.items.reverse).reverse

/-- `latest_at_or_before`. -/
def latestAtOrBefore (window : BoundedTimeWindow α) (boundary : Int) : Option (TimedValue α) :=
  window.items.reverse.find? (·.timestamp ≤ boundary)

/-- `items_appended_after`. -/
def itemsAppendedAfter (window : BoundedTimeWindow α) (ordinal : Nat) : List (TimedValue α) :=
  if window.ordinal ≤ ordinal then []
  else if window.bounds.lateEventPolicy = .drop then
    (window.items.reverse.takeWhile (ordinal < ·.ordinal)).reverse
  else (window.items.filter (ordinal < ·.ordinal)).insertionSort (·.ordinal ≤ ·.ordinal)

theorem scanBetween_reverse {items : List (TimedValue α)}
    (hsorted : items.Pairwise TimedValue.Precedes) (start stop : Int) :
    (scanBetween start stop items.reverse).reverse =
      items.filter fun item => start < item.timestamp ∧ item.timestamp ≤ stop := by
  induction items using List.reverseRecOn with
  | nil => rfl
  | append_singleton front last ih =>
    obtain ⟨hfront, -, hlast⟩ := List.pairwise_append.mp hsorted
    rw [List.reverse_append, List.reverse_singleton, List.singleton_append, List.filter_append]
    unfold scanBetween
    split_ifs with hstop hstart
    · rw [ih hfront, List.filter_cons_of_neg (by simp; omega)]
      simp
    · -- everything older is at or before the start as well
      have hnone : ∀ item ∈ front ++ [last], item.timestamp ≤ start := by
        intro item hitem
        rcases List.mem_append.mp hitem with hitem | hitem
        · have := (hlast item hitem last (by simp)).timestamp_le
          omega
        · rw [List.mem_singleton.mp hitem]
          exact hstart
      rw [← List.filter_append, List.filter_eq_nil_iff.mpr]
      · rfl
      · intro item hitem
        have := hnone item hitem
        simp
        omega
    · rw [List.reverse_cons, ih hfront, List.filter_cons_of_pos (by simp; omega)]
      rfl

/-- `items_between` returns the retained items of `(start, end]`. -/
theorem itemsBetween_eq (window : BoundedTimeWindow α) {start stop : Int} (hle : start ≤ stop) :
    window.itemsBetween start stop =
      some (window.items.filter fun item => start < item.timestamp ∧ item.timestamp ≤ stop) := by
  rw [itemsBetween, if_neg (not_lt.mpr hle), scanBetween_reverse window.retained.sorted]

end BoundedTimeWindow

end Cvf
