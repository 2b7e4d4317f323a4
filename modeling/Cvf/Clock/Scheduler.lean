/-
# Cvf.Clock.Scheduler — deterministic feature and signal decision boundaries.

`DecisionScheduler` walks two fixed UTC grids and returns the due ticks in timestamp order, a feature
tick before a signal tick at the same boundary.  `decisionGrid` says which ticks an interval `(a, b]`
has, by divisibility alone; `advanceTo_eq` is the exactness of the scheduler's loop against it.
-/
import Cvf.Text
import Cvf.Library.Timeline

namespace Cvf

open Cvf.Library

inductive TickKind where
  | feature
  | signal
  deriving DecidableEq, Repr

structure DecisionTick where
  timestamp : Int
  kind : TickKind
  deriving DecidableEq, Repr

/-- `_next_boundary`: the first multiple of the interval after an instant. -/
def nextBoundary (after : Int) (interval : Int) : Int :=
  (after / interval + 1) * interval

structure DecisionScheduler where
  cursor : Int
  featureInterval : Int
  signalInterval : Int
  nextFeature : Int
  nextSignal : Int
  featureInterval_pos : 0 < featureInterval
  signalInterval_pos : 0 < signalInterval
  deriving DecidableEq

namespace DecisionScheduler

/-- The constructor; `none` is `ValueError("scheduler intervals must be positive")`. -/
def start (start : Int) (featureInterval signalInterval : Int) :
    Option DecisionScheduler :=
  if h : 0 < featureInterval ∧ 0 < signalInterval then
    some
      { cursor := start
        featureInterval
        signalInterval
        nextFeature := nextBoundary start featureInterval
        nextSignal := nextBoundary start signalInterval
        featureInterval_pos := h.1
        signalInterval_pos := h.2 }
  else none

/-- `has_due_tick`; `none` is `ValueError("decision scheduler cannot move backwards")`. -/
def hasDueTick (s : DecisionScheduler) (target : Int) : Option Bool :=
  if target < s.cursor then none else some (min s.nextFeature s.nextSignal ≤ target)

/-- The loop of `advance_to`, with the next boundaries it ends at.  Every turn moves at least one
boundary forward, so the distance to the target bounds the number of turns. -/
def dueTicks (featureInterval signalInterval : Int) (target : Int) :
    Nat → Int → Int → List DecisionTick × Int × Int
  | 0, nextFeature, nextSignal => ([], nextFeature, nextSignal)
  | fuel + 1, nextFeature, nextSignal =>
    let boundary := min nextFeature nextSignal
    if boundary ≤ target then
      let feature := if nextFeature = boundary then [⟨boundary, .feature⟩] else []
      let signal := if nextSignal = boundary then [⟨boundary, .signal⟩] else []
      let rest := dueTicks featureInterval signalInterval target fuel
        (if nextFeature = boundary then nextFeature + featureInterval else nextFeature)
        (if nextSignal = boundary then nextSignal + signalInterval else nextSignal)
      (feature ++ signal ++ rest.1, rest.2)
    else ([], nextFeature, nextSignal)

/-- `advance_to`; `none` is `ValueError("decision scheduler cannot move backwards")`. -/
def advanceTo (s : DecisionScheduler) (target : Int) :
    Option (DecisionScheduler × List DecisionTick) :=
  if target < s.cursor then none
  else
    let fuel := (target + 1 - s.nextFeature).toNat + (target + 1 - s.nextSignal).toNat
    let due := dueTicks s.featureInterval s.signalInterval target fuel s.nextFeature s.nextSignal
    some ({ s with cursor := target, nextFeature := due.2.1, nextSignal := due.2.2 }, due.1)

/-! ## The grid -/

/-- The ticks at one instant, feature before signal. -/
def ticksAt (featureInterval signalInterval : Int) (t : Int) : List DecisionTick :=
  (if featureInterval ∣ t then [⟨t, .feature⟩] else []) ++
    if signalInterval ∣ t then [⟨t, .signal⟩] else []

theorem timestamp_of_mem_ticksAt {featureInterval signalInterval : Int} {t : Int}
    {tick : DecisionTick} (h : tick ∈ ticksAt featureInterval signalInterval t) :
    tick.timestamp = t := by
  unfold ticksAt at h
  rcases List.mem_append.mp h with h | h <;> split at h <;> simp_all

/-- The ticks of `(a, b]`: those at every instant of it. -/
def ticksBetween (featureInterval signalInterval a b : Int) : List DecisionTick :=
  (List.range (b - a).toNat).flatMap fun i : Nat =>
    ticksAt featureInterval signalInterval (a + 1 + (i : Int))

theorem ticksBetween_append (featureInterval signalInterval : Int) {a b c : Int}
    (hab : a ≤ b) (hbc : b ≤ c) :
    ticksBetween featureInterval signalInterval a b ++
      ticksBetween featureInterval signalInterval b c =
    ticksBetween featureInterval signalInterval a c := by
  obtain ⟨m, rfl⟩ : ∃ m : Nat, b = a + m := ⟨(b - a).toNat, by omega⟩
  obtain ⟨n, rfl⟩ : ∃ n : Nat, c = a + m + n := ⟨(c - (a + m)).toNat, by omega⟩
  have hm : (a + m - a).toNat = m := by omega
  have hn : (a + m + n - (a + m)).toNat = n := by omega
  have hmn : (a + m + n - a).toNat = m + n := by omega
  simp only [ticksBetween, hm, hn, hmn, List.range_add, List.flatMap_append, List.flatMap_map]
  congr 2
  funext i
  congr 1
  push_cast
  ring

theorem mem_ticksBetween {featureInterval signalInterval : Int} {a b : Int}
    {tick : DecisionTick} (h : tick ∈ ticksBetween featureInterval signalInterval a b) :
    a < tick.timestamp ∧ tick.timestamp ≤ b := by
  obtain ⟨i, hi, htick⟩ := List.mem_flatMap.mp h
  have ht := timestamp_of_mem_ticksAt htick
  rw [List.mem_range] at hi
  omega

/-- The two decision grids as one grid of ticks. -/
def decisionGrid (featureInterval signalInterval : Int) : TickGrid DecisionTick where
  time := DecisionTick.timestamp
  between := ticksBetween featureInterval signalInterval
  between_append := ticksBetween_append featureInterval signalInterval
  mem_between := mem_ticksBetween

/-! ## Exactness of the loop -/

/-- `m` is the first multiple of the interval after `a`. -/
structure IsNextBoundary (interval : Int) (a m : Int) : Prop where
  after : a < m
  dvd : interval ∣ m
  near : m ≤ a + interval

theorem isNextBoundary_nextBoundary {interval : Int} (h : 0 < interval) (a : Int) :
    IsNextBoundary interval a (nextBoundary a interval) := by
  have hdiv := Int.mul_ediv_add_emod a interval
  have hnonneg := Int.emod_nonneg a h.ne'
  have hlt := Int.emod_lt_of_pos a h
  have hexpand : nextBoundary a interval = interval * (a / interval) + interval := by
    rw [nextBoundary]
    ring
  exact ⟨by omega, Dvd.intro_left _ rfl, by omega⟩

theorem IsNextBoundary.le_of_dvd {interval : Int} {a m k : Int}
    (h : IsNextBoundary interval a m) (hk : interval ∣ k) (hak : a < k) : m ≤ k := by
  have hdvd : interval ∣ k - (m - interval) :=
    (Int.dvd_sub hk (Int.dvd_sub h.dvd (dvd_refl interval)))
  have hpos : 0 < k - (m - interval) := by have := h.near; omega
  have hle := Int.le_of_dvd hpos hdvd
  omega

/-- Up to the first boundary of either grid there is no tick. -/
theorem ticksBetween_eq_nil {featureInterval signalInterval : Int} {a nf ns b : Int}
    (hf : IsNextBoundary featureInterval a nf) (hs : IsNextBoundary signalInterval a ns)
    (hb : b < min nf ns) : ticksBetween featureInterval signalInterval a b = [] := by
  rw [List.eq_nil_iff_forall_not_mem]
  intro tick htick
  obtain ⟨hlt, hle⟩ := mem_ticksBetween htick
  obtain ⟨i, -, hat⟩ := List.mem_flatMap.mp htick
  rw [← timestamp_of_mem_ticksAt hat] at hat
  rcases List.mem_append.mp hat with hat | hat
  · split at hat
    · rename_i hdvd
      have := hf.le_of_dvd hdvd hlt
      omega
    · simp at hat
  · split at hat
    · rename_i hdvd
      have := hs.le_of_dvd hdvd hlt
      omega
    · simp at hat

/-- Moving past the boundary `m` moves exactly the grids that have a tick there. -/
theorem IsNextBoundary.step {interval : Int} (hpos : 0 < interval) {a next m : Int}
    (h : IsNextBoundary interval a next) (ham : a < m) (hm : m ≤ next) :
    IsNextBoundary interval m (if next = m then next + interval else next) ∧
      (next = m ↔ interval ∣ m) := by
  have hiff : next = m ↔ interval ∣ m := by
    constructor
    · rintro rfl
      exact h.dvd
    · intro hdvd
      have := h.le_of_dvd hdvd ham
      omega
  refine ⟨?_, hiff⟩
  split
  · rename_i heq
    subst heq
    exact ⟨by omega, Int.dvd_add h.dvd (dvd_refl interval), le_rfl⟩
  · have := h.near
    exact ⟨by omega, h.dvd, by omega⟩

theorem ticksBetween_step {featureInterval signalInterval : Int} {a nf ns b : Int}
    (hf : IsNextBoundary featureInterval a nf)
    (hs : IsNextBoundary signalInterval a ns) (hb : min nf ns ≤ b) :
    ticksBetween featureInterval signalInterval a b =
      ticksAt featureInterval signalInterval (min nf ns) ++
        ticksBetween featureInterval signalInterval (min nf ns) b := by
  have haf := hf.after
  have has := hs.after
  have hnone : ticksBetween featureInterval signalInterval a (min nf ns - 1) = [] :=
    ticksBetween_eq_nil hf hs (by omega)
  have hone : ticksBetween featureInterval signalInterval (min nf ns - 1) (min nf ns) =
      ticksAt featureInterval signalInterval (min nf ns) := by
    simp [ticksBetween]
  rw [← ticksBetween_append featureInterval signalInterval (show a ≤ min nf ns - 1 by omega)
    (show min nf ns - 1 ≤ b by omega), hnone, List.nil_append,
    ← ticksBetween_append featureInterval signalInterval
      (show min nf ns - 1 ≤ min nf ns by omega) hb, hone]

theorem dueTicks_eq {featureInterval signalInterval : Int} (hfpos : 0 < featureInterval)
    (hspos : 0 < signalInterval) {target : Int} {fuel : Nat} {a nf ns : Int}
    (ha : a ≤ target) (hf : IsNextBoundary featureInterval a nf)
    (hs : IsNextBoundary signalInterval a ns)
    (hfuel : (target + 1 - nf).toNat + (target + 1 - ns).toNat ≤ fuel) :
    (dueTicks featureInterval signalInterval target fuel nf ns).1 =
      ticksBetween featureInterval signalInterval a target ∧
    IsNextBoundary featureInterval target
      (dueTicks featureInterval signalInterval target fuel nf ns).2.1 ∧
    IsNextBoundary signalInterval target
      (dueTicks featureInterval signalInterval target fuel nf ns).2.2 := by
  have hdone : target < min nf ns → ([] : List DecisionTick) =
      ticksBetween featureInterval signalInterval a target ∧
      IsNextBoundary featureInterval target nf ∧ IsNextBoundary signalInterval target ns := by
    intro hlt
    have hfn := hf.near
    have hsn := hs.near
    exact ⟨(ticksBetween_eq_nil hf hs hlt).symm, ⟨by omega, hf.dvd, by omega⟩,
      ⟨by omega, hs.dvd, by omega⟩⟩
  induction fuel generalizing a nf ns with
  | zero => exact hdone (by omega)
  | succ fuel ih =>
      simp only [dueTicks]
      split
      · rename_i hle
        have haf := hf.after
        have has := hs.after
        obtain ⟨hf', hfiff⟩ := hf.step hfpos (show a < min nf ns by omega) (min_le_left nf ns)
        obtain ⟨hs', hsiff⟩ := hs.step hspos (show a < min nf ns by omega) (min_le_right nf ns)
        have hnext := ih hle hf' hs' (by split <;> split <;> omega) fun hlt =>
          ⟨(ticksBetween_eq_nil hf' hs' hlt).symm,
            ⟨by omega, hf'.dvd, by have := hf'.near; omega⟩,
            ⟨by omega, hs'.dvd, by have := hs'.near; omega⟩⟩
        refine ⟨?_, hnext.2⟩
        rw [hnext.1, ticksBetween_step hf hs hle, ticksAt]
        simp only [hfiff, hsiff]
      · rename_i hgt
        exact hdone (by omega)

/-- The scheduler has returned every tick up to `a` and none after it. -/
structure ReadyAt (s : DecisionScheduler) (a : Int) : Prop where
  cursor_le : s.cursor ≤ a
  feature : IsNextBoundary s.featureInterval a s.nextFeature
  signal : IsNextBoundary s.signalInterval a s.nextSignal

theorem readyAt_start {start : Int} {featureInterval signalInterval : Int}
    {s : DecisionScheduler} (h : DecisionScheduler.start start featureInterval signalInterval = some s) :
    s.ReadyAt start ∧ s.featureInterval = featureInterval ∧ s.signalInterval = signalInterval := by
  unfold DecisionScheduler.start at h
  split at h
  · rename_i hpos
    rw [← Option.some.inj h]
    exact ⟨⟨le_rfl, isNextBoundary_nextBoundary hpos.1 start,
      isNextBoundary_nextBoundary hpos.2 start⟩, rfl, rfl⟩
  · cases h

/-- With no due tick, the scheduler is ready at the target as it stands. -/
theorem ReadyAt.of_not_due {s : DecisionScheduler} {a target : Int} (h : s.ReadyAt a)
    (ha : a ≤ target) (hdue : ¬ min s.nextFeature s.nextSignal ≤ target) :
    s.ReadyAt target ∧ ticksBetween s.featureInterval s.signalInterval a target = [] := by
  have hf := h.feature
  have hs := h.signal
  have hfn := hf.near
  have hsn := hs.near
  exact ⟨⟨h.cursor_le.trans ha, ⟨by omega, hf.dvd, by omega⟩, ⟨by omega, hs.dvd, by omega⟩⟩,
    ticksBetween_eq_nil hf hs (by omega)⟩

/-- **Exactness.**  A scheduler ready at `a` returns exactly the ticks of `(a, target]`. -/
theorem advanceTo_eq {s : DecisionScheduler} {a target : Int} (h : s.ReadyAt a)
    (ha : a ≤ target) :
    ∃ s', s.advanceTo target =
        some (s', ticksBetween s.featureInterval s.signalInterval a target) ∧
      s'.ReadyAt target ∧ s'.featureInterval = s.featureInterval ∧
      s'.signalInterval = s.signalInterval := by
  have hdue := dueTicks_eq s.featureInterval_pos s.signalInterval_pos ha h.feature h.signal le_rfl
  have hcursor := h.cursor_le
  rw [← hdue.1]
  simp only [advanceTo, if_neg (show ¬ target < s.cursor by omega)]
  exact ⟨_, rfl, ⟨le_rfl, hdue.2.1, hdue.2.2⟩, rfl, rfl⟩

example :
    ((DecisionScheduler.start 3 2 5).bind (·.advanceTo 10)).map (·.2) =
      some [⟨4, .feature⟩, ⟨5, .signal⟩, ⟨6, .feature⟩, ⟨8, .feature⟩, ⟨10, .feature⟩,
        ⟨10, .signal⟩] := by
  decide +kernel

end DecisionScheduler

end Cvf
