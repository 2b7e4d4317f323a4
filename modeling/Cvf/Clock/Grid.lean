/-
# Cvf.Clock.Grid — a scheduler emits exactly the grid.

However the way to the last target is split into advances, the ticks returned are the multiples of the two
intervals since the epoch that lie after the start and at or before that target: each once for each kind, in
time order, a feature tick before a signal tick of the same instant.  One exact advance is
`DecisionScheduler.advanceTo_eq`; the splitting is the law of half-open intervals, `ticksBetween_append`.
-/
import Cvf.Clock.Scheduler

namespace Cvf

/-- The interval of a kind. -/
def TickKind.interval (featureInterval signalInterval : Int) : TickKind → Int
  | .feature => featureInterval
  | .signal => signalInterval

/-- In time order, and a feature before a signal of the same instant. -/
def DecisionTick.Before (a b : DecisionTick) : Prop :=
  a.timestamp < b.timestamp ∨
    a.timestamp = b.timestamp ∧ a.kind = .feature ∧ b.kind = .signal

namespace DecisionScheduler

/-- `advance_to` for one target after another; the ticks of all of them in order. -/
def advanceThrough (s : DecisionScheduler) : List Int → Option (DecisionScheduler × List DecisionTick)
  | [] => some (s, [])
  | target :: targets =>
    match s.advanceTo target with
    | none => none
    | some (s, ticks) => (s.advanceThrough targets).map fun rest => (rest.1, ticks ++ rest.2)

/-! ## The grid of an interval -/

theorem mem_ticksAt_iff {featureInterval signalInterval t : Int} {tick : DecisionTick} :
    tick ∈ ticksAt featureInterval signalInterval t ↔
      tick.timestamp = t ∧ tick.kind.interval featureInterval signalInterval ∣ t := by
  obtain ⟨timestamp, kind⟩ := tick
  unfold ticksAt
  rw [List.mem_append]
  cases kind with
  | feature =>
    constructor
    · rintro (h | h)
      · split_ifs at h with hdvd
        · exact ⟨congrArg DecisionTick.timestamp (List.mem_singleton.mp h), hdvd⟩
        · cases h
      · split_ifs at h
        · cases congrArg DecisionTick.kind (List.mem_singleton.mp h)
        · cases h
    · rintro ⟨rfl, hdvd⟩
      rw [if_pos (show featureInterval ∣ timestamp from hdvd)]
      exact .inl (List.mem_singleton_self _)
  | signal =>
    constructor
    · rintro (h | h)
      · split_ifs at h
        · cases congrArg DecisionTick.kind (List.mem_singleton.mp h)
        · cases h
      · split_ifs at h with hdvd
        · exact ⟨congrArg DecisionTick.timestamp (List.mem_singleton.mp h), hdvd⟩
        · cases h
    · rintro ⟨rfl, hdvd⟩
      rw [if_pos (show signalInterval ∣ timestamp from hdvd)]
      exact .inr (List.mem_singleton_self _)

/-- The ticks of `(a, b]` are the multiples of the intervals in it. -/
theorem mem_ticksBetween_iff {featureInterval signalInterval a b : Int} {tick : DecisionTick} :
    tick ∈ ticksBetween featureInterval signalInterval a b ↔
      a < tick.timestamp ∧ tick.timestamp ≤ b ∧
        tick.kind.interval featureInterval signalInterval ∣ tick.timestamp := by
  unfold ticksBetween
  rw [List.mem_flatMap]
  constructor
  · rintro ⟨i, hi, htick⟩
    obtain ⟨htime, hdvd⟩ := mem_ticksAt_iff.mp htick
    rw [List.mem_range] at hi
    rw [htime]
    exact ⟨by omega, by omega, hdvd⟩
  · rintro ⟨hafter, hle, hdvd⟩
    refine ⟨(tick.timestamp - a - 1).toNat, List.mem_range.mpr (by omega), ?_⟩
    have hinstant : a + 1 + ((tick.timestamp - a - 1).toNat : Int) = tick.timestamp := by omega
    rw [hinstant]
    exact mem_ticksAt_iff.mpr ⟨rfl, hdvd⟩

theorem ticksAt_ordered (featureInterval signalInterval t : Int) :
    (ticksAt featureInterval signalInterval t).Pairwise DecisionTick.Before := by
  unfold ticksAt
  refine List.pairwise_append.mpr ⟨?_, ?_, ?_⟩
  · split_ifs
    · exact List.pairwise_singleton _ _
    · exact .nil
  · split_ifs
    · exact List.pairwise_singleton _ _
    · exact .nil
  · intro feature hfeature signal hsignal
    split_ifs at hfeature hsignal
    · rw [List.mem_singleton.mp hfeature, List.mem_singleton.mp hsignal]
      exact .inr ⟨rfl, rfl, rfl⟩
    · cases hsignal
    · cases hfeature
    · cases hfeature

/-- The grid of an interval is in order, so no tick comes twice. -/
theorem ticksBetween_ordered (featureInterval signalInterval a b : Int) :
    (ticksBetween featureInterval signalInterval a b).Pairwise DecisionTick.Before := by
  unfold ticksBetween
  apply List.pairwise_flatMap.mpr
  refine ⟨fun i _ => ticksAt_ordered .., ?_⟩
  apply List.pairwise_lt_range.imp
  intro i j hij first hfirst second hsecond
  have hbefore := timestamp_of_mem_ticksAt hfirst
  have hafter := timestamp_of_mem_ticksAt hsecond
  exact .inl (by omega)

/-! ## Runs of advances -/

/-- From a scheduler ready at `a`, targets that never go back give the grid up to the last one. -/
theorem advanceThrough_eq {s : DecisionScheduler} {a : Int} (h : s.ReadyAt a) {targets : List Int}
    (hforward : (a :: targets).Pairwise (· ≤ ·)) :
    ∃ after, s.advanceThrough targets =
        some (after, ticksBetween s.featureInterval s.signalInterval a
          ((a :: targets).getLast (List.cons_ne_nil a targets))) ∧
      after.ReadyAt ((a :: targets).getLast (List.cons_ne_nil a targets)) ∧
      after.featureInterval = s.featureInterval ∧ after.signalInterval = s.signalInterval := by
  induction targets generalizing s a with
  | nil =>
    have hnone : ticksBetween s.featureInterval s.signalInterval a a = [] := by
      unfold ticksBetween
      rw [Int.sub_self]
      rfl
    refine ⟨s, ?_, h, rfl, rfl⟩
    rw [List.getLast_singleton, hnone]
    rfl
  | cons target targets ih =>
    obtain ⟨hfirst, hrest⟩ := List.pairwise_cons.mp hforward
    have ha : a ≤ target := hfirst target List.mem_cons_self
    obtain ⟨next, hadvance, hready, hfeature, hsignal⟩ := advanceTo_eq h ha
    obtain ⟨after, hthrough, hend, hfeature', hsignal'⟩ := ih hready hrest
    have hlast : target ≤ (target :: targets).getLast (List.cons_ne_nil target targets) := by
      rcases List.mem_cons.mp (List.getLast_mem (List.cons_ne_nil target targets)) with heq | hmem
      · exact heq.ge
      · exact (List.pairwise_cons.mp hrest).1 _ hmem
    have hsplit := ticksBetween_append s.featureInterval s.signalInterval ha hlast
    refine ⟨after, ?_, ?_, hfeature'.trans hfeature, hsignal'.trans hsignal⟩
    · rw [hfeature, hsignal] at hthrough
      simp only [advanceThrough, hadvance, hthrough, Option.map_some, hsplit,
        List.getLast_cons_cons]
    · rw [List.getLast_cons_cons]
      exact hend

/-- A ready scheduler has a due tick exactly when its next advance returns one. -/
theorem hasDueTick_iff {s : DecisionScheduler} {a target : Int} (h : s.ReadyAt a) (ha : a ≤ target) :
    ∃ due after ticks, s.hasDueTick target = some due ∧ s.advanceTo target = some (after, ticks) ∧
      (due = true ↔ ticks ≠ []) := by
  obtain ⟨after, hadvance, -⟩ := advanceTo_eq h ha
  have hcursor : ¬ target < s.cursor := not_lt.mpr (h.cursor_le.trans ha)
  refine ⟨_, after, _, if_neg hcursor, hadvance, ?_⟩
  rw [decide_eq_true_iff]
  constructor
  · intro hle hnil
    rw [ticksBetween_step h.feature h.signal hle, List.append_eq_nil_iff] at hnil
    -- the nearer boundary is a multiple of its own interval
    rcases min_choice s.nextFeature s.nextSignal with hmin | hmin
    · have hmem : (⟨s.nextFeature, .feature⟩ : DecisionTick) ∈
          ticksAt s.featureInterval s.signalInterval (min s.nextFeature s.nextSignal) := by
        rw [hmin]
        exact mem_ticksAt_iff.mpr ⟨rfl, h.feature.dvd⟩
      rw [hnil.1] at hmem
      cases hmem
    · have hmem : (⟨s.nextSignal, .signal⟩ : DecisionTick) ∈
          ticksAt s.featureInterval s.signalInterval (min s.nextFeature s.nextSignal) := by
        rw [hmin]
        exact mem_ticksAt_iff.mpr ⟨rfl, h.signal.dvd⟩
      rw [hnil.1] at hmem
      cases hmem
  · intro hne
    by_contra hnot
    exact hne (h.of_not_due ha hnot).2

/-- From any start and for any positive intervals, targets that never go back return exactly the grid
after the start up to the last target, and a due tick is announced exactly when the next advance has
one. -/
theorem advances_emit_grid {featureInterval signalInterval : Int} (hfeature : 0 < featureInterval)
    (hsignal : 0 < signalInterval) {first : Int} {targets : List Int}
    (hforward : (first :: targets).Pairwise (· ≤ ·)) :
    ∃ s after ticks, DecisionScheduler.start first featureInterval signalInterval = some s ∧
      s.advanceThrough targets = some (after, ticks) ∧
      (∀ tick, tick ∈ ticks ↔ first < tick.timestamp ∧
        tick.timestamp ≤ (first :: targets).getLast (List.cons_ne_nil first targets) ∧
          tick.kind.interval featureInterval signalInterval ∣ tick.timestamp) ∧
      ticks.Pairwise DecisionTick.Before ∧
      (∀ split, (first :: split).Pairwise (· ≤ ·) →
        (first :: split).getLast (List.cons_ne_nil first split) =
            (first :: targets).getLast (List.cons_ne_nil first targets) →
          (s.advanceThrough split).map Prod.snd = some ticks) ∧
      ∀ target, (first :: targets).getLast (List.cons_ne_nil first targets) ≤ target →
        ∃ due next due', after.hasDueTick target = some due ∧
          after.advanceTo target = some (next, due') ∧ (due = true ↔ due' ≠ []) := by
  obtain ⟨s, hstart⟩ : ∃ s, DecisionScheduler.start first featureInterval signalInterval = some s :=
    ⟨_, dif_pos ⟨hfeature, hsignal⟩⟩
  obtain ⟨hready, rfl, rfl⟩ := readyAt_start hstart
  obtain ⟨after, hthrough, hend, -⟩ := advanceThrough_eq hready hforward
  refine ⟨s, after, _, hstart, hthrough, fun tick => mem_ticksBetween_iff, ticksBetween_ordered .., ?_,
    fun target htarget => hasDueTick_iff hend htarget⟩
  intro split hsplit hsame
  obtain ⟨other, hother, -⟩ := advanceThrough_eq hready hsplit
  rw [hother, hsame]
  rfl

/-- Two advances from before the epoch to after it. -/
theorem advances_emit_grid_across_epoch :
    ∃ s after ticks, DecisionScheduler.start (-3) 2 5 = some s ∧
      s.advanceThrough [-1, 6] = some (after, ticks) ∧
      (∀ tick, tick ∈ ticks ↔ -3 < tick.timestamp ∧
        tick.timestamp ≤ [-3, -1, 6].getLast (List.cons_ne_nil (-3) [-1, 6]) ∧
          tick.kind.interval 2 5 ∣ tick.timestamp) ∧
      ticks.Pairwise DecisionTick.Before ∧
      (∀ split, (-3 :: split).Pairwise (· ≤ ·) →
        (-3 :: split).getLast (List.cons_ne_nil (-3) split) =
            [-3, -1, 6].getLast (List.cons_ne_nil (-3) [-1, 6]) →
          (s.advanceThrough split).map Prod.snd = some ticks) ∧
      ∀ target, [-3, -1, 6].getLast (List.cons_ne_nil (-3) [-1, 6]) ≤ target →
        ∃ due next due', after.hasDueTick target = some due ∧
          after.advanceTo target = some (next, due') ∧ (due = true ↔ due' ≠ []) :=
  advances_emit_grid (by norm_num) (by norm_num) (by decide)

end DecisionScheduler

end Cvf
