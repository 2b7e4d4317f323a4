/-
# Cvf.Features.MetricWarmup — when the statistical history of a metric is ready.

Readiness asks whether the oldest retained value is a lookback old.  The window it is read from was pruned
when the last value before was recorded, to less than a lookback.  So a value that old is retained only
through the distance of the last two values: over one stretch of that length, a lookback ago, some value
must have been recorded (`ready_iff_heldOver`).  A tick that had none then takes the readiness away.
-/
import Cvf.Features.MetricReplace

namespace Cvf

open Cvf.Library

/-! ## Runs of records -/

/-- A call of `record`. -/
structure MetricCall (F : Type*) where
  key : String
  timestamp : Int
  value : Option F

/-- The times and values recorded for one key. -/
def ticksOf {F : Type*} (key : String) (calls : List (MetricCall F)) : List (Int × Option F) :=
  calls.filterMap fun call => if call.key = key then some (call.timestamp, call.value) else none

/-- The ticks that had a value. -/
def recorded {F : Type*} (ticks : List (Int × Option F)) : List (Int × F) :=
  ticks.filterMap fun tick => tick.2.map fun value => (tick.1, value)

theorem recorded_concat {F : Type*} (ticks : List (Int × Option F)) (tick : Int × Option F) :
    recorded (ticks ++ [tick]) =
      recorded ticks ++ tick.2.elim [] fun value => [(tick.1, value)] := by
  unfold recorded
  rw [List.filterMap_append]
  congr 1
  obtain ⟨timestamp, value⟩ := tick
  cases value with
  | none => rfl
  | some v => rfl

section Runs

variable {F : Type*} [Zero F] [Sub F] [Div F] [LT F] [DecidableLT F] [DecidableEq F]
  (math : MetricMath F)

def MetricHistory.play (history : MetricHistory F) (calls : List (MetricCall F)) : MetricHistory F :=
  calls.foldl (fun history call => (history.record math call.key call.timestamp call.value).2) history

def Track.play (bounds : WindowBounds) (track : Track F) (ticks : List (Int × Option F)) : Track F :=
  ticks.foldl (fun track tick => (track.record math bounds tick.1 tick.2).2) track

theorem MetricHistory.play_bounds (history : MetricHistory F) (calls : List (MetricCall F)) :
    (history.play math calls).bounds = history.bounds := by
  induction calls generalizing history with
  | nil => rfl
  | cons call rest ih => exact (ih _).trans (history.record_bounds math ..)

/-- What a run leaves of a key is what the ticks of the key leave. -/
theorem MetricHistory.track_play (history : MetricHistory F) (key : String)
    (calls : List (MetricCall F)) :
    (history.play math calls).track key =
      (history.track key).play math history.bounds (ticksOf key calls) := by
  induction calls generalizing history with
  | nil => rfl
  | cons call rest ih =>
    show ((history.record math call.key call.timestamp call.value).2.play math rest).track key = _
    rw [ih, record_bounds]
    by_cases hkey : call.key = key
    · subst hkey
      have hticks : ticksOf call.key (call :: rest) =
          (call.timestamp, call.value) :: ticksOf call.key rest :=
        List.filterMap_cons_some (if_pos rfl)
      rw [hticks, track_record]
      rfl
    · have hticks : ticksOf key (call :: rest) = ticksOf key rest :=
        List.filterMap_cons_none (if_neg hkey)
      rw [hticks, history.record_track_of_ne math (Ne.symm hkey)]

end Runs

/-! ## What a run retains -/

/-- No retained stretch of the values is over the cap. -/
def WithinCapacity {F : Type*} (bounds : WindowBounds) (values : List (Int × F)) : Prop :=
  ∀ entry ∈ values, (values.filter fun other =>
    entry.1 - bounds.retention < other.1 ∧ other.1 ≤ entry.1).length ≤ bounds.maximumItems

instance {F : Type*} (bounds : WindowBounds) (values : List (Int × F)) :
    Decidable (WithinCapacity bounds values) := List.decidableBAll _ values

/-- The values above the cutoff of the last one. -/
def kept {F : Type*} (bounds : WindowBounds) (values : List (Int × F)) : List (Int × F) :=
  values.getLast?.elim [] fun last => above Prod.fst (last.1 - bounds.retention) values

section Kept

variable {F : Type*} {bounds : WindowBounds} {values : List (Int × F)} {timestamp : Int} {value : F}

theorem kept_concat :
    kept bounds (values ++ [(timestamp, value)]) =
      above Prod.fst (timestamp - bounds.retention) values ++ [(timestamp, value)] := by
  unfold kept
  rw [List.getLast?_concat]
  exact above_append_self value

theorem mem_kept {entry : Int × F} :
    entry ∈ kept bounds values ↔
      entry ∈ values ∧ ∀ last ∈ values.getLast?, last.1 - bounds.retention < entry.1 := by
  unfold kept
  cases hlast : values.getLast? with
  | none =>
    rw [List.getLast?_eq_none_iff.mp hlast]
    simp
  | some last =>
    show entry ∈ above Prod.fst (last.1 - bounds.retention) values ↔ _
    unfold above
    rw [List.mem_filter, decide_eq_true_iff]
    simp

theorem kept_sublist : (kept bounds values).Sublist values := by
  unfold kept
  cases values.getLast? with
  | none => exact List.nil_sublist _
  | some last => exact List.filter_sublist

theorem WithinCapacity.of_concat
    (h : WithinCapacity bounds (values ++ [(timestamp, value)])) : WithinCapacity bounds values := by
  intro entry hentry
  apply le_trans (List.Sublist.length_le _) (h entry (List.mem_append_left _ hentry))
  exact (List.sublist_append_left _ _).filter _

/-- A later value is put behind what of the kept ones lies above its own cutoff. -/
theorem put_kept (hlater : ∀ entry ∈ values, entry.1 < timestamp)
    (hcapacity : WithinCapacity bounds (values ++ [(timestamp, value)])) :
    put bounds (kept bounds values) (timestamp, value) =
      kept bounds (values ++ [(timestamp, value)]) := by
  have hforward : ∀ other ∈ kept bounds values, other.1 ≤ timestamp :=
    fun other hother => (hlater other (kept_sublist.subset hother)).le
  have habove : above Prod.fst (timestamp - bounds.retention) (kept bounds values) =
      above Prod.fst (timestamp - bounds.retention) values := by
    unfold kept
    cases hlast : values.getLast? with
    | none => rw [List.getLast?_eq_none_iff.mp hlast]; rfl
    | some last =>
      have hle := (hlater last (List.mem_of_getLast? hlast)).le
      exact above_above (by omega) values
  have hall : ∀ other ∈ values ++ [(timestamp, value)], other.1 ≤ timestamp := by
    intro other hother
    rcases List.mem_append.mp hother with hother | hother
    · exact (hlater other hother).le
    · exact (congrArg Prod.fst (List.mem_singleton.mp hother)).le
  have hstretch : above Prod.fst (timestamp - bounds.retention) (values ++ [(timestamp, value)]) =
      (values ++ [(timestamp, value)]).filter fun other =>
        timestamp - bounds.retention < other.1 ∧ other.1 ≤ timestamp := by
    apply List.filter_congr
    intro other hother
    rw [decide_eq_decide]
    exact (and_iff_left (hall other hother)).symm
  rw [put_of_forward hforward, above_append_self, habove, kept_concat, ← above_append_self, hstretch]
  exact newest_of_length_le (hcapacity (timestamp, value)
    (List.mem_append_right _ (List.mem_singleton_self _)))

end Kept

section Warmup

variable {F : Type*} [Zero F] [Sub F] [Div F] [LT F] [DecidableLT F] [DecidableEq F]
  (math : MetricMath F) (bounds : WindowBounds)

/-- A record at a time the track has not seen goes onto its entries. -/
theorem Track.record_of_new {track : Track F} {timestamp : Int}
    (hnew : ∀ cached ∈ track.last, cached.timestamp ≠ timestamp) (value : Option F) :
    track.record math bounds timestamp value =
      recordOnto math bounds track.entries timestamp value := by
  have hfresh : track.remembered timestamp value = none := by
    apply Option.filter_eq_none_iff.mpr
    intro cached hcached hsame
    exact hnew cached hcached (of_decide_eq_true hsame).1
  rw [record_of_not_remembered hfresh, base_of_other hnew]

/-- A record is the last of its key, whether the key had it already or not. -/
theorem Track.record_last {track : Track F} {timestamp : Int} {value : Option F}
    {cached : LastRecord F} (h : (track.record math bounds timestamp value).2.last = some cached) :
    cached.timestamp = timestamp := by
  cases hremembered : track.remembered timestamp value with
  | none =>
    rw [record_of_not_remembered hremembered] at h
    rw [← Option.some.inj h]
  | some known =>
    rw [record_of_remembered hremembered] at h
    obtain ⟨hknown, hsame⟩ := Option.filter_eq_some_iff.mp hremembered
    obtain rfl : known = cached := Option.some.inj (hknown.symm.trans h)
    exact (of_decide_eq_true hsame).1

theorem Track.play_concat (track : Track F) (ticks : List (Int × Option F))
    (tick : Int × Option F) :
    track.play math bounds (ticks ++ [tick]) =
      ((track.play math bounds ticks).record math bounds tick.1 tick.2).2 := List.foldl_concat ..

theorem Track.play_last {ticks : List (Int × Option F)} {cached : LastRecord F}
    (h : (Track.empty.play math bounds ticks).last = some cached) :
    cached.timestamp ∈ ticks.map Prod.fst := by
  rcases List.eq_nil_or_concat' ticks with rfl | ⟨ticks, tick, rfl⟩
  · cases h
  · rw [play_concat] at h
    rw [record_last math bounds h, List.map_append]
    exact List.mem_append_right _ (List.mem_singleton_self _)

/-- Increasing ticks within the capacity retain the values above the last cutoff. -/
theorem Track.play_entries {ticks : List (Int × Option F)}
    (hincreasing : (ticks.map Prod.fst).Pairwise (· < ·))
    (hcapacity : WithinCapacity bounds (recorded ticks)) :
    (Track.empty.play math bounds ticks).entries = kept bounds (recorded ticks) := by
  induction ticks using List.reverseRecOn with
  | nil => rfl
  | append_singleton ticks tick ih =>
    obtain ⟨timestamp, value⟩ := tick
    rw [List.map_append] at hincreasing
    obtain ⟨hbefore, -, hlater⟩ := List.pairwise_append.mp hincreasing
    have hnew : ∀ instant ∈ ticks.map Prod.fst, instant < timestamp :=
      fun instant hinstant => hlater instant hinstant timestamp (List.mem_singleton_self _)
    have hfresh : ∀ cached ∈ (Track.empty.play math bounds ticks).last,
        cached.timestamp ≠ timestamp := fun cached hcached =>
      (hnew _ (play_last math bounds hcached)).ne
    rw [recorded_concat] at hcapacity ⊢
    rw [play_concat, record_of_new math bounds hfresh]
    cases value with
    | none =>
      rw [Option.elim_none, List.append_nil] at hcapacity ⊢
      exact ih hbefore hcapacity
    | some v =>
      have hvalues : ∀ entry ∈ recorded ticks, entry.1 < timestamp := by
        intro entry hentry
        obtain ⟨tick, htick, hsome⟩ := List.mem_filterMap.mp hentry
        obtain ⟨w, -, rfl⟩ := Option.map_eq_some_iff.mp hsome
        exact hnew tick.1 (List.mem_map_of_mem htick)
      have hput := put_kept hvalues hcapacity
      rw [← ih hbefore hcapacity.of_concat] at hput
      exact hput

end Warmup

/-! ## Readiness -/

/-- A value a lookback old that lies less than a lookback before every value since. -/
def HeldOver {F : Type*} (bounds : WindowBounds) (values : List (Int × F)) (timestamp : Int) : Prop :=
  ∃ entry ∈ values, entry.1 ≤ timestamp - bounds.retention ∧
    ∀ other ∈ values, other.1 - bounds.retention < entry.1

section Readiness

variable {F : Type*} {bounds : WindowBounds}

theorem head_le_iff {entries : List (Int × F)} (h : Ascending Prod.fst entries) (cutoff : Int) :
    (entries.head?.any fun entry => entry.1 ≤ cutoff) = true ↔ ∃ entry ∈ entries, entry.1 ≤ cutoff := by
  cases entries with
  | nil => simp
  | cons oldest rest =>
    constructor
    · exact fun hle => ⟨oldest, List.mem_cons_self, of_decide_eq_true hle⟩
    · rintro ⟨entry, hentry, hle⟩
      apply decide_eq_true
      rcases List.mem_cons.mp hentry with rfl | hrest
      · exact hle
      · exact ((List.pairwise_cons.mp h).1 entry hrest).trans hle

theorem recorded_increasing {ticks : List (Int × Option F)}
    (h : (ticks.map Prod.fst).Pairwise (· < ·)) :
    (recorded ticks).Pairwise fun a b => a.1 < b.1 := by
  apply List.Pairwise.filterMap _ _ (List.pairwise_map.mp h)
  intro a b hab x hx y hy
  obtain ⟨v, -, rfl⟩ := Option.map_eq_some_iff.mp hx
  obtain ⟨w, -, rfl⟩ := Option.map_eq_some_iff.mp hy
  exact hab

/-- An old enough value is kept exactly when none since is a lookback later. -/
theorem exists_kept_iff {values : List (Int × F)} (h : values.Pairwise fun a b => a.1 < b.1)
    (timestamp : Int) :
    (∃ entry ∈ kept bounds values, entry.1 ≤ timestamp - bounds.retention) ↔
      HeldOver bounds values timestamp := by
  constructor
  · rintro ⟨entry, hentry, hle⟩
    obtain ⟨hmem, hrecent⟩ := mem_kept.mp hentry
    refine ⟨entry, hmem, hle, ?_⟩
    intro other hother
    rcases List.eq_nil_or_concat' values with rfl | ⟨front, last, rfl⟩
    · cases hother
    · have hlast := hrecent last List.getLast?_concat
      rcases List.mem_append.mp hother with hfront | hself
      · have hbefore := (List.pairwise_append.mp h).2.2 other hfront last (List.mem_singleton_self _)
        omega
      · rw [List.mem_singleton.mp hself]
        exact hlast
  · rintro ⟨entry, hmem, hle, hrecent⟩
    exact ⟨entry, mem_kept.mpr ⟨hmem, fun last hlast => hrecent last (List.mem_of_getLast? hlast)⟩, hle⟩

end Readiness

namespace MetricHistory

variable {F : Type*} [Zero F] [Sub F] [Div F] [LT F] [DecidableLT F] [DecidableEq F]
  (math : MetricMath F)

/-- The values a record of the key scores against. -/
def values (history : MetricHistory F) (key : String) : List F :=
  (history.window key).entries.map Prod.snd

/-- A value of the key recorded a lookback before. -/
def Covered (history : MetricHistory F) (key : String) (calls : List (MetricCall F))
    (timestamp : Int) : Prop :=
  ∃ entry ∈ recorded (ticksOf key calls), entry.1 ≤ timestamp - history.bounds.retention

instance (history : MetricHistory F) (key : String) (calls : List (MetricCall F)) (timestamp : Int) :
    Decidable (history.Covered key calls timestamp) := List.decidableBEx _ _

/-- After a run whose ticks of the key increase, within the capacity, a value scored against two
values and more of a positive deviation is reported ready exactly when some value is held over. -/
theorem ready_iff_heldOver {history : MetricHistory F} {key : String}
    (hnew : history.track key = Track.empty) {calls : List (MetricCall F)} {timestamp : Int}
    (hincreasing : ((ticksOf key calls).map Prod.fst ++ [timestamp]).Pairwise (· < ·))
    (hcapacity : WithinCapacity history.bounds (recorded (ticksOf key calls)))
    (htwo : 2 ≤ ((history.play math calls).values key).length)
    (hdeviation : 0 < math.pstdev ((history.play math calls).values key)) (value : F) :
    ((history.play math calls).record math key timestamp (some value)).1.2 = true ↔
      HeldOver history.bounds (recorded (ticksOf key calls)) timestamp := by
  obtain ⟨hticks, -, hlater⟩ := List.pairwise_append.mp hincreasing
  have hplay := history.track_play math key calls
  rw [hnew] at hplay
  have hentries : ((history.play math calls).track key).entries =
      kept history.bounds (recorded (ticksOf key calls)) := by
    rw [hplay]
    exact Track.play_entries math history.bounds hticks hcapacity
  have hfresh : ∀ cached ∈ ((history.play math calls).track key).last,
      cached.timestamp ≠ timestamp := by
    intro cached hcached
    rw [hplay] at hcached
    exact (hlater _ (Track.play_last math history.bounds hcached) timestamp
      (List.mem_singleton_self _)).ne
  have hscored : math.zscore ((history.play math calls).values key) (some value) =
      some ((value - math.fmean ((history.play math calls).values key)) /
        math.pstdev ((history.play math calls).values key)) :=
    (if_pos htwo).trans (if_pos hdeviation)
  have hsome : (math.zscore (((history.play math calls).track key).entries.map Prod.snd)
      (some value)).isSome = true := congrArg Option.isSome hscored
  rw [record_fst, Track.record_of_new math _ hfresh, play_bounds]
  show ((_ && Option.isSome _) = true) ↔ _
  rw [hsome, Bool.and_true, head_le_iff (history.play math calls |>.fits_track key).ascending,
    hentries, exists_kept_iff (recorded_increasing hticks)]

/-- Once a value of the key is a lookback old, a record is ready exactly while some value is held
over. -/
theorem stays_ready_iff {history : MetricHistory F} {key : String}
    (hnew : history.track key = Track.empty) {calls : List (MetricCall F)} {timestamp : Int}
    (hincreasing : ((ticksOf key calls).map Prod.fst ++ [timestamp]).Pairwise (· < ·))
    (hcapacity : WithinCapacity history.bounds (recorded (ticksOf key calls)))
    (htwo : 2 ≤ ((history.play math calls).values key).length)
    (hdeviation : 0 < math.pstdev ((history.play math calls).values key)) (value : F) :
    (history.Covered key calls timestamp →
        ((history.play math calls).record math key timestamp (some value)).1.2 = true) ↔
      (history.Covered key calls timestamp →
        HeldOver history.bounds (recorded (ticksOf key calls)) timestamp) :=
  imp_congr_right fun _ =>
    ready_iff_heldOver math hnew hincreasing hcapacity htwo hdeviation value

end MetricHistory

theorem exampleLookback_pos : 0 < 3 := by norm_num

/-- A lookback of three seconds. -/
def exampleWarmup : MetricHistory ℚ := .new 3 500000 exampleLookback_pos exampleEvents_pos

/-- A run of one key over the ticks of a second each. -/
def secondsOf (values : List (Option ℚ)) : List (MetricCall ℚ) :=
  values.zipIdx.map fun tick => ⟨"metric", tick.2 * 1000000, tick.1⟩

theorem stays_ready_iff_four :
    (exampleWarmup.Covered "metric" (secondsOf [some 1, some 3, some 1, some 3]) 4000000 →
        ((exampleWarmup.play rationalMath (secondsOf [some 1, some 3, some 1, some 3])).record
          rationalMath "metric" 4000000 (some 5)).1.2 = true) ↔
      (exampleWarmup.Covered "metric" (secondsOf [some 1, some 3, some 1, some 3]) 4000000 →
        HeldOver exampleWarmup.bounds
          (recorded (ticksOf "metric" (secondsOf [some 1, some 3, some 1, some 3]))) 4000000) := by
  apply MetricHistory.stays_ready_iff
  · rfl
  · decide +kernel
  · decide +kernel
  · decide +kernel
  · decide +kernel

/-- The second without a value a lookback ago takes the readiness away: the value before it is not
retained, and the values after it are not a lookback old. -/
theorem gap_takes_readiness :
    (((ticksOf "metric" (secondsOf [some 1, none, some 1, some 3])).map Prod.fst ++
          [4000000]).Pairwise (· < ·) ∧
        WithinCapacity exampleWarmup.bounds
          (recorded (ticksOf "metric" (secondsOf [some 1, none, some 1, some 3]))) ∧
        ((exampleWarmup.play rationalMath (secondsOf [some 1, none, some 1, some 3])).values
          "metric") = [1, 3] ∧
        exampleWarmup.Covered "metric" (secondsOf [some 1, none, some 1, some 3]) 4000000) ∧
      ((exampleWarmup.play rationalMath (secondsOf [some 1, none, some 1, some 3])).record
        rationalMath "metric" 4000000 (some 5)).1 = (some 3, false) := by
  decide +kernel

end Cvf
