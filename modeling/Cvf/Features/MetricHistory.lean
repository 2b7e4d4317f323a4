/-
# Cvf.Features.MetricHistory — the history behind the z-scores of a metric.

`_MetricHistory` keeps one forward-only window of values a key, and the last result of the key.  A second
record at the time of the last one rebuilds the window without the values of that time.  What `record` does
to a key is seen through its `Track`: the retained entries and the last result.  A rebuild loses nothing
else (`foldl_put`), so the track of a key after a call is a function of the track before (`record_track`),
and no other key sees the call.
-/
import Cvf.Features.RollingOrder

namespace Cvf

open Cvf.Library

/-- `fmean` and `pstdev` of the `statistics` module, on the type of the recorded values. -/
structure MetricMath (F : Type*) where
  fmean : List F → F
  pstdev : List F → F

/-- The tuple kept in `_last`. -/
structure LastRecord (F : Type*) where
  timestamp : Int
  value : Option F
  zscore : Option F
  ready : Bool
  deriving DecidableEq, Repr

/-- The windows of one history all have its bounds. -/
def MetricWindow (bounds : WindowBounds) (F : Type*) : Type _ :=
  { window : BoundedTimeWindow F // window.bounds = bounds }

/-- `_MetricHistory`. -/
structure MetricHistory (F : Type*) where
  bounds : WindowBounds
  windows : String → Option (MetricWindow bounds F)
  last : String → Option (LastRecord F)
  /-- `late_event_policy=LateEventPolicy.DROP` -/
  forward : bounds.lateEventPolicy = .drop

theorem noLateness_nonneg : (0 : Int) ≤ 0 := le_rfl

/-- `zscore_lookback_seconds` and `maximum_events_per_stream`, as `_new_window` passes them on. -/
def metricBounds (lookbackSeconds maximumEvents : Nat) (hlookback : 0 < lookbackSeconds)
    (hmaximum : 0 < maximumEvents) : WindowBounds where
  retention := lookbackSeconds * 1000000
  maximumItems := maximumEvents
  retention_pos := Int.mul_pos (Int.natCast_pos.mpr hlookback) (Int.natCast_pos.mpr (Nat.succ_pos _))
  maximumItems_pos := hmaximum
  maximumLateness_nonneg := noLateness_nonneg

section Statistics

variable {F : Type*} [Zero F] [Sub F] [Div F] [LT F] [DecidableLT F]

/-- The z-score of a value against a history: of two values and more, with a positive deviation. -/
def MetricMath.zscore (math : MetricMath F) (history : List F) (value : Option F) : Option F :=
  match value with
  | none => none
  | some v =>
    if 2 ≤ history.length then
      let deviation := math.pstdev history
      if 0 < deviation then some ((v - math.fmean history) / deviation) else none
    else none

theorem MetricMath.zscore_of_short (math : MetricMath F) {history : List F}
    (h : history.length < 2) (value : Option F) : math.zscore history value = none := by
  cases value with
  | none => rfl
  | some v => exact if_neg (not_le.mpr h)

end Statistics

namespace BoundedTimeWindow

variable {F : Type*}

/-- `bool(window) and next(iter(window)).timestamp <= timestamp - self._retention`. -/
def coverageWarm (window : BoundedTimeWindow F) (timestamp : Int) : Bool :=
  match window.items with
  | [] => false
  | earliest :: _ => earliest.timestamp ≤ timestamp - window.bounds.retention

end BoundedTimeWindow

namespace MetricWindow

variable {F : Type*} {bounds : WindowBounds}

/-- `_new_window`. -/
def new (bounds : WindowBounds) : MetricWindow bounds F := ⟨.empty bounds, rfl⟩

def append (window : MetricWindow bounds F) (timestamp : Int) (value : F) : MetricWindow bounds F :=
  ⟨(window.1.append timestamp value).1, (window.1.append_bounds timestamp value).trans window.2⟩

/-- `if value is not None: window.append(timestamp, value)`. -/
def appendSome (window : MetricWindow bounds F) (timestamp : Int) : Option F → MetricWindow bounds F
  | none => window
  | some value => window.append timestamp value

def entries (window : MetricWindow bounds F) : List (Int × F) := window.1.entries

/-- The loop that appends to `_new_window()` every item of another time. -/
def without (window : MetricWindow bounds F) (timestamp : Int) : MetricWindow bounds F :=
  window.1.items.foldl (fun retained item =>
    if item.timestamp ≠ timestamp then retained.append item.timestamp item.value else retained)
    (new bounds)

end MetricWindow

namespace MetricHistory

variable {F : Type*}

/-- `_MetricHistory(settings)`. -/
def new (lookbackSeconds maximumEvents : Nat) (hlookback : 0 < lookbackSeconds)
    (hmaximum : 0 < maximumEvents) : MetricHistory F where
  bounds := metricBounds lookbackSeconds maximumEvents hlookback hmaximum
  windows := fun _ => none
  last := fun _ => none
  forward := rfl

/-- `clear_scope`. -/
def clearScope (history : MetricHistory F) (scopeStart : String) : MetricHistory F :=
  { history with
    windows := fun key =>
      if scopeStart.toList.isPrefixOf key.toList then none else history.windows key
    last := fun key => if scopeStart.toList.isPrefixOf key.toList then none else history.last key }

/-- `self._windows.setdefault(key, self._new_window())`. -/
def window (history : MetricHistory F) (key : String) : MetricWindow history.bounds F :=
  (history.windows key).getD (.new history.bounds)

variable [Zero F] [Sub F] [Div F] [LT F] [DecidableLT F] (math : MetricMath F)

/-- `record` from where its window is settled: the result, and the history with the value in. -/
def recordInto (history : MetricHistory F) (key : String) (timestamp : Int) (value : Option F)
    (window : MetricWindow history.bounds F) : (Option F × Bool) × MetricHistory F :=
  let values := window.1.items.map (·.value)
  let coverageWarm := window.1.coverageWarm timestamp
  let zscore := math.zscore values value
  let zscoreReady := coverageWarm && zscore.isSome
  ((zscore, zscoreReady),
    { history with
      windows := Function.update history.windows key (some (window.appendSome timestamp value))
      last := Function.update history.last key (some ⟨timestamp, value, zscore, zscoreReady⟩) })

variable [DecidableEq F]

/-- `record`. -/
def record (history : MetricHistory F) (key : String) (timestamp : Int) (value : Option F) :
    (Option F × Bool) × MetricHistory F :=
  match history.last key with
  | none => history.recordInto math key timestamp value (history.window key)
  | some cached =>
    if cached.timestamp = timestamp then
      if cached.value = value then ((cached.zscore, cached.ready), history)
      else history.recordInto math key timestamp value ((history.window key).without timestamp)
    else history.recordInto math key timestamp value (history.window key)

end MetricHistory

/-! ## The entries of a forward-only window -/

/-- What a forward-only window may hold: its entries fit into one lookback and under the cap. -/
structure Fits {F : Type*} (bounds : WindowBounds) (entries : List (Int × F)) : Prop where
  ascending : Ascending Prod.fst entries
  recent : ∀ a ∈ entries, ∀ b ∈ entries, b.1 - bounds.retention < a.1
  bounded : entries.length ≤ bounds.maximumItems

/-- The entries of other times. -/
def others {F : Type*} (timestamp : Int) (entries : List (Int × F)) : List (Int × F) :=
  entries.filter fun entry => entry.1 ≠ timestamp

/-- An entry enters a forward-only window unless it is older than one there. -/
def put {F : Type*} (bounds : WindowBounds) (entries : List (Int × F)) (entry : Int × F) :
    List (Int × F) :=
  if ∀ other ∈ entries, other.1 ≤ entry.1 then
    newest bounds.maximumItems (above Prod.fst (entry.1 - bounds.retention) (entries ++ [entry]))
  else entries

section Entries

variable {F : Type*} {bounds : WindowBounds} {entries : List (Int × F)}

theorem Fits.sublist (h : Fits bounds entries) {fewer : List (Int × F)}
    (hsub : fewer.Sublist entries) : Fits bounds fewer where
  ascending := h.ascending.sublist hsub
  recent := fun a ha b hb => h.recent a (hsub.subset ha) b (hsub.subset hb)
  bounded := hsub.length_le.trans h.bounded

theorem others_cons_of_ne {timestamp : Int} {entry : Int × F} (h : entry.1 ≠ timestamp) :
    others timestamp (entry :: entries) = entry :: others timestamp entries :=
  List.filter_cons_of_pos (decide_eq_true h)

theorem others_cons_of_eq {timestamp : Int} {entry : Int × F} (h : entry.1 = timestamp) :
    others timestamp (entry :: entries) = others timestamp entries :=
  List.filter_cons_of_neg fun hne => of_decide_eq_true hne h

/-- An entry that fits in after the others enters without an eviction. -/
theorem put_of_fits {entry : Int × F} (h : Fits bounds (entries ++ [entry])) :
    put bounds entries entry = entries ++ [entry] := by
  have hlast : ∀ other ∈ entries, other.1 ≤ entry.1 := by
    intro other hother
    exact (List.pairwise_append.mp h.ascending).2.2 other hother entry (List.mem_singleton_self _)
  have habove : above Prod.fst (entry.1 - bounds.retention) (entries ++ [entry]) =
      entries ++ [entry] := by
    apply List.filter_eq_self.mpr
    intro other hother
    have hmem : entry ∈ entries ++ [entry] := List.mem_append_right _ (List.mem_singleton_self _)
    exact decide_eq_true (h.recent other hother entry hmem)
  rw [put, if_pos hlast, habove, newest_of_length_le h.bounded]

/-- Entries that fit are put back one by one without a loss. -/
theorem foldl_put (h : Fits bounds entries) : entries.foldl (put bounds) [] = entries := by
  induction entries using List.reverseRecOn with
  | nil => rfl
  | append_singleton front entry ih =>
    have hfront := ih (h.sublist (List.sublist_append_left front [entry]))
    rw [List.foldl_append, hfront]
    exact put_of_fits h

end Entries

namespace BoundedTimeWindow

variable {F : Type*}

theorem fits (window : BoundedTimeWindow F) : Fits window.bounds window.entries where
  ascending := window.ascending_entries
  recent := by
    intro a ha b hb
    obtain ⟨item, hitem, rfl⟩ := List.mem_map.mp ha
    obtain ⟨other, hother, rfl⟩ := List.mem_map.mp hb
    show other.timestamp - window.bounds.retention < item.timestamp
    cases hmark : window.watermark with
    | none =>
      rw [items_eq_nil_of_watermark_none hmark] at hitem
      cases hitem
    | some mark =>
      have hcut := window.retained.above_cutoff item hitem mark hmark
      have hle := timestamp_le_watermark hmark hother
      omega
  bounded := by
    rw [entries, List.length_map]
    exact window.retained.bounded

/-- A window without late inserts admits what is not older than an entry. -/
theorem forward_iff_entries (window : BoundedTimeWindow F) (timestamp : Int) :
    window.watermark.all (· ≤ timestamp) = true ↔ ∀ other ∈ window.entries, other.1 ≤ timestamp := by
  rw [forward_iff]
  constructor
  · intro hforward other hother
    obtain ⟨item, hitem, rfl⟩ := List.mem_map.mp hother
    cases hmark : window.watermark with
    | none =>
      rw [items_eq_nil_of_watermark_none hmark] at hitem
      cases hitem
    | some mark => exact (timestamp_le_watermark hmark hitem).trans (hforward mark hmark)
  · intro hall mark hmark
    obtain ⟨last, hlast, rfl⟩ := exists_getLast? hmark
    exact hall last.entry (List.mem_map_of_mem (List.mem_of_getLast? hlast))

/-- An append to a forward-only window, by its entries. -/
theorem append_entries_of_drop {window : BoundedTimeWindow F}
    (hdrop : window.bounds.lateEventPolicy = .drop) (timestamp : Int) (value : F) :
    (window.append timestamp value).1.entries =
      put window.bounds window.entries (timestamp, value) := by
  have hadmits := (admissibility_drop_iff hdrop).trans (window.forward_iff_entries timestamp)
  by_cases hforward : ∀ other ∈ window.entries, other.1 ≤ timestamp
  · have haccepted := hadmits.mpr hforward
    rw [append_entries value haccepted, insertByKey_of_forall_le hforward,
      advanced_of_forward ((window.forward_iff_entries timestamp).mpr hforward), put,
      if_pos hforward]
  · have hrefused : window.admissibility timestamp ≠ .accepted := fun h => hforward (hadmits.mp h)
    rw [put, if_neg hforward]
    exact congrArg (List.map _) (append_of_refused value hrefused).2.1

theorem coverageWarm_eq (window : BoundedTimeWindow F) (timestamp : Int) :
    window.coverageWarm timestamp =
      (window.entries.head?.any fun entry => entry.1 ≤ timestamp - window.bounds.retention) := by
  unfold coverageWarm entries
  cases window.items with
  | nil => rfl
  | cons item rest => rfl

end BoundedTimeWindow

namespace MetricWindow

variable {F : Type*} {bounds : WindowBounds}

@[simp]
theorem entries_new : (new bounds : MetricWindow bounds F).entries = [] := rfl

theorem fits (window : MetricWindow bounds F) : Fits bounds window.entries := by
  have h := window.1.fits
  rwa [window.2] at h

theorem entries_append (hdrop : bounds.lateEventPolicy = .drop) (window : MetricWindow bounds F)
    (timestamp : Int) (value : F) :
    (window.append timestamp value).entries = put bounds window.entries (timestamp, value) := by
  have hpolicy : window.1.bounds.lateEventPolicy = .drop := by rwa [window.2]
  have hentries := BoundedTimeWindow.append_entries_of_drop hpolicy timestamp value
  rwa [window.2] at hentries

theorem entries_appendSome (hdrop : bounds.lateEventPolicy = .drop) (window : MetricWindow bounds F)
    (timestamp : Int) (value : Option F) :
    (window.appendSome timestamp value).entries =
      value.elim window.entries fun v => put bounds window.entries (timestamp, v) := by
  cases value with
  | none => rfl
  | some v => exact window.entries_append hdrop timestamp v

/-- A rebuild drops the entries of its time and keeps every other one. -/
theorem entries_without (hdrop : bounds.lateEventPolicy = .drop) (window : MetricWindow bounds F)
    (timestamp : Int) :
    (window.without timestamp).entries = others timestamp window.entries := by
  have hfold : ∀ (items : List (TimedValue F)) (start : MetricWindow bounds F),
      (items.foldl (fun retained item => if item.timestamp ≠ timestamp then
          retained.append item.timestamp item.value else retained) start).entries =
        (others timestamp (items.map (·.entry))).foldl (put bounds) start.entries := by
    intro items
    induction items with
    | nil => exact fun _ => rfl
    | cons item rest ih =>
      intro start
      rw [List.foldl_cons, ih]
      by_cases htime : item.timestamp ≠ timestamp
      · rw [if_pos htime, entries_append hdrop, List.map_cons, others_cons_of_ne htime]
        rfl
      · rw [if_neg htime, List.map_cons, others_cons_of_eq (not_not.mp htime)]
  rw [without, hfold]
  exact foldl_put (window.fits.sublist List.filter_sublist)

theorem coverageWarm_eq (window : MetricWindow bounds F) (timestamp : Int) :
    window.1.coverageWarm timestamp =
      (window.entries.head?.any fun entry => entry.1 ≤ timestamp - bounds.retention) := by
  rw [window.1.coverageWarm_eq, window.2]
  rfl

theorem values_eq (window : MetricWindow bounds F) :
    window.1.items.map (·.value) = window.entries.map Prod.snd := by
  show _ = (window.1.items.map (·.entry)).map Prod.snd
  rw [List.map_map]
  rfl

end MetricWindow

/-! ## The track of one key -/

/-- What the history has of one key, without the counters of its window. -/
@[ext]
structure Track (F : Type*) where
  entries : List (Int × F)
  last : Option (LastRecord F)

namespace Track

variable {F : Type*}

def empty : Track F := { entries := [], last := none }

/-- The entries a record at this time starts from: a second one drops those of the first. -/
def base (track : Track F) (timestamp : Int) : List (Int × F) :=
  if (track.last.any fun cached => cached.timestamp = timestamp) = true then
    others timestamp track.entries
  else track.entries

theorem base_of_same {track : Track F} {timestamp : Int} {cached : LastRecord F}
    (h : track.last = some cached) (htime : cached.timestamp = timestamp) :
    track.base timestamp = others timestamp track.entries := by
  unfold base
  rw [h]
  exact if_pos (decide_eq_true htime)

theorem base_of_other {track : Track F} {timestamp : Int}
    (h : ∀ cached ∈ track.last, cached.timestamp ≠ timestamp) :
    track.base timestamp = track.entries := by
  apply if_neg
  intro hsame
  obtain ⟨cached, hcached, htime⟩ := (Option.any_eq_true _ _).mp hsame
  exact h cached hcached (of_decide_eq_true htime)

variable [Zero F] [Sub F] [Div F] [LT F] [DecidableLT F] (math : MetricMath F)

/-- The result of a value recorded onto some entries. -/
def scored (bounds : WindowBounds) (entries : List (Int × F)) (timestamp : Int) (value : Option F) :
    Option F × Bool :=
  let zscore := math.zscore (entries.map Prod.snd) value
  (zscore, (entries.head?.any fun entry => entry.1 ≤ timestamp - bounds.retention) && zscore.isSome)

/-- A z-score takes two values. -/
theorem scored_of_short {bounds : WindowBounds} {entries : List (Int × F)} {timestamp : Int}
    (h : entries.length < 2) {value : Option F} :
    scored math bounds entries timestamp value = (none, false) := by
  have hshort : (entries.map Prod.snd).length < 2 := by rwa [List.length_map]
  unfold scored
  rw [math.zscore_of_short hshort]
  exact Prod.ext rfl (Bool.and_false _)

/-- The entries a recorded value leaves. -/
def entered (bounds : WindowBounds) (entries : List (Int × F)) (timestamp : Int) (value : Option F) :
    List (Int × F) :=
  value.elim entries fun v => put bounds entries (timestamp, v)

/-- A record onto some entries: its result, and the track it leaves. -/
def recordOnto (bounds : WindowBounds) (entries : List (Int × F)) (timestamp : Int)
    (value : Option F) : (Option F × Bool) × Track F :=
  let result := scored math bounds entries timestamp value
  (result,
    { entries := entered bounds entries timestamp value
      last := some ⟨timestamp, value, result.1, result.2⟩ })

theorem base_of_recordOnto {bounds : WindowBounds} (entries : List (Int × F)) {timestamp : Int}
    {value : Option F} :
    (recordOnto math bounds entries timestamp value).2.base timestamp =
      others timestamp (entered bounds entries timestamp value) := by
  have hlast : (recordOnto math bounds entries timestamp value).2.last = some ⟨timestamp, value, _, _⟩ :=
    rfl
  rw [base_of_same hlast rfl]
  rfl

variable [DecidableEq F]

/-- The result the track has for this time and value already. -/
def remembered (track : Track F) (timestamp : Int) (value : Option F) : Option (LastRecord F) :=
  track.last.filter fun cached => cached.timestamp = timestamp ∧ cached.value = value

def record (bounds : WindowBounds) (track : Track F) (timestamp : Int) (value : Option F) :
    (Option F × Bool) × Track F :=
  match track.remembered timestamp value with
  | some cached => ((cached.zscore, cached.ready), track)
  | none => recordOnto math bounds (track.base timestamp) timestamp value

end Track

namespace MetricHistory

variable {F : Type*}

def track (history : MetricHistory F) (key : String) : Track F :=
  { entries := (history.window key).entries, last := history.last key }

theorem fits_track (history : MetricHistory F) (key : String) :
    Fits history.bounds (history.track key).entries := (history.window key).fits

variable [Zero F] [Sub F] [Div F] [LT F] [DecidableLT F] (math : MetricMath F)

theorem recordInto_fst (history : MetricHistory F) (key : String) (timestamp : Int)
    (value : Option F) (window : MetricWindow history.bounds F) :
    (history.recordInto math key timestamp value window).1 =
      Track.scored math history.bounds window.entries timestamp value := by
  unfold recordInto Track.scored
  rw [window.coverageWarm_eq, window.values_eq]

theorem track_recordInto (history : MetricHistory F) (key : String) (timestamp : Int)
    (value : Option F) (window : MetricWindow history.bounds F) :
    (history.recordInto math key timestamp value window).2.track key =
      (Track.recordOnto math history.bounds window.entries timestamp value).2 := by
  have hfst := history.recordInto_fst math key timestamp value window
  have hlast : (history.recordInto math key timestamp value window).2.last key =
      some ⟨timestamp, value, (history.recordInto math key timestamp value window).1.1,
        (history.recordInto math key timestamp value window).1.2⟩ := Function.update_self ..
  have hwindow : (history.recordInto math key timestamp value window).2.window key =
      window.appendSome timestamp value := by
    have hkey : (history.recordInto math key timestamp value window).2.windows key =
        some (window.appendSome timestamp value) := Function.update_self ..
    exact (congrArg (Option.getD · (.new history.bounds)) hkey)
  have hentries : ((history.recordInto math key timestamp value window).2.window key).entries =
      Track.entered history.bounds window.entries timestamp value := by
    rw [hwindow]
    exact window.entries_appendSome history.forward timestamp value
  unfold track
  rw [hlast, hentries, hfst]
  rfl

theorem recordInto_track_of_ne (history : MetricHistory F) {key other : String} (h : other ≠ key)
    (timestamp : Int) (value : Option F) (window : MetricWindow history.bounds F) :
    (history.recordInto math key timestamp value window).2.track other = history.track other := by
  have hwindows : (history.recordInto math key timestamp value window).2.windows other =
      history.windows other := Function.update_of_ne h ..
  have hlast : (history.recordInto math key timestamp value window).2.last other =
      history.last other := Function.update_of_ne h ..
  unfold track MetricHistory.window
  rw [hwindows, hlast]
  rfl

variable [DecidableEq F]

/-- A result the key has already is returned as it is. -/
theorem record_of_remembered {history : MetricHistory F} {key : String} {timestamp : Int}
    {value : Option F} {cached : LastRecord F}
    (h : (history.track key).remembered timestamp value = some cached) :
    history.record math key timestamp value = ((cached.zscore, cached.ready), history) := by
  obtain ⟨hlast, hsame⟩ := Option.filter_eq_some_iff.mp h
  obtain ⟨htime, hvalue⟩ := of_decide_eq_true hsame
  have hlast : history.last key = some cached := hlast
  simp only [record, hlast, if_pos htime, if_pos hvalue]

/-- Any other record goes into a window that holds the base of the key's track. -/
theorem record_of_not_remembered {history : MetricHistory F} {key : String} {timestamp : Int}
    {value : Option F} (h : (history.track key).remembered timestamp value = none) :
    ∃ window : MetricWindow history.bounds F,
      window.entries = (history.track key).base timestamp ∧
        history.record math key timestamp value =
          history.recordInto math key timestamp value window := by
  have hnot := Option.filter_eq_none_iff.mp h
  cases hlast : history.last key with
  | none =>
    have htrack : ∀ cached ∈ (history.track key).last, cached.timestamp ≠ timestamp := by
      intro cached hcached
      cases hlast.symm.trans hcached
    exact ⟨history.window key, (Track.base_of_other htrack).symm, by simp only [record, hlast]⟩
  | some cached =>
    have htrack : (history.track key).last = some cached := hlast
    by_cases htime : cached.timestamp = timestamp
    · subst htime
      have hvalue : ¬ cached.value = value := fun hvalue =>
        hnot cached htrack (decide_eq_true ⟨rfl, hvalue⟩)
      refine ⟨(history.window key).without cached.timestamp, ?_, ?_⟩
      · rw [Track.base_of_same htrack rfl, MetricWindow.entries_without history.forward]
        rfl
      · simp only [record, hlast, if_true, if_neg hvalue]
    · have hother : ∀ other ∈ (history.track key).last, other.timestamp ≠ timestamp := by
        intro other hlastOther
        obtain rfl : cached = other := Option.some.inj (htrack.symm.trans hlastOther)
        exact htime
      exact ⟨history.window key, (Track.base_of_other hother).symm,
        by simp only [record, hlast, if_neg htime]⟩

/-- `record` is the record of the key's track. -/
theorem record_track (history : MetricHistory F) (key : String) (timestamp : Int)
    (value : Option F) :
    ((history.record math key timestamp value).1,
        (history.record math key timestamp value).2.track key) =
      (history.track key).record math history.bounds timestamp value := by
  cases hremembered : (history.track key).remembered timestamp value with
  | some cached =>
    rw [history.record_of_remembered math hremembered]
    simp only [Track.record, hremembered]
  | none =>
    obtain ⟨window, hentries, hrecord⟩ := history.record_of_not_remembered math hremembered
    rw [hrecord, recordInto_fst, track_recordInto, hentries]
    simp only [Track.record, hremembered]
    rfl

theorem record_fst (history : MetricHistory F) (key : String) (timestamp : Int) (value : Option F) :
    (history.record math key timestamp value).1 =
      ((history.track key).record math history.bounds timestamp value).1 :=
  congrArg Prod.fst (history.record_track math key timestamp value)

theorem track_record (history : MetricHistory F) (key : String) (timestamp : Int)
    (value : Option F) :
    (history.record math key timestamp value).2.track key =
      ((history.track key).record math history.bounds timestamp value).2 :=
  congrArg Prod.snd (history.record_track math key timestamp value)

/-- A record of one key leaves every other key as it was. -/
theorem record_track_of_ne (history : MetricHistory F) {key other : String} (h : other ≠ key)
    (timestamp : Int) (value : Option F) :
    (history.record math key timestamp value).2.track other = history.track other := by
  cases hremembered : (history.track key).remembered timestamp value with
  | some cached => rw [history.record_of_remembered math hremembered]
  | none =>
    obtain ⟨window, -, hrecord⟩ := history.record_of_not_remembered math hremembered
    rw [hrecord]
    exact history.recordInto_track_of_ne math h timestamp value window

theorem record_bounds (history : MetricHistory F) (key : String) (timestamp : Int)
    (value : Option F) : (history.record math key timestamp value).2.bounds = history.bounds := by
  cases hremembered : (history.track key).remembered timestamp value with
  | some cached => rw [history.record_of_remembered math hremembered]
  | none =>
    obtain ⟨window, -, hrecord⟩ := history.record_of_not_remembered math hremembered
    rw [hrecord]
    rfl

end MetricHistory

end Cvf
