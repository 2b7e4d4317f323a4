/-
# Cvf.Features.MetricReplace — recording a metric again at the same time.

A second record at the time of the first drops the first value and starts from what is left.  What the
first value has evicted does not come back: the entries at or below the cutoff of its time, and the oldest
entry of a full window.  So the second record gives what it would have given alone exactly when the first
one spared every entry it was recorded onto (`record_replaces_iff`).
-/
import Cvf.Features.MetricHistory

namespace Cvf

open Cvf.Library

/-- Recording a value onto these entries, and dropping it again, leaves them as they were. -/
def Spares {F : Type*} (bounds : WindowBounds) (entries : List (Int × F)) (timestamp : Int)
    (value : Option F) : Prop :=
  (∀ entry ∈ entries, entry.1 ≠ timestamp) ∧
    (value = none ∨ (∃ entry ∈ entries, timestamp < entry.1) ∨
      (∀ entry ∈ entries, timestamp - bounds.retention < entry.1) ∧
        entries.length < bounds.maximumItems)

section Entries

variable {F : Type*} {bounds : WindowBounds} {entries : List (Int × F)} {timestamp : Int}

theorem others_sublist (timestamp : Int) (entries : List (Int × F)) :
    (others timestamp entries).Sublist entries := List.filter_sublist

theorem others_eq_self_iff :
    others timestamp entries = entries ↔ ∀ entry ∈ entries, entry.1 ≠ timestamp := by
  unfold others
  rw [List.filter_eq_self]
  exact forall₂_congr fun entry _ => decide_eq_true_iff

theorem ne_of_mem_others {entry : Int × F} (h : entry ∈ others timestamp entries) :
    entry.1 ≠ timestamp := of_decide_eq_true (List.mem_filter.mp h).2

/-- No value spares all entries but those of its own time. -/
theorem exists_of_not_spares_none (h : ¬ Spares bounds entries timestamp none) :
    ∃ entry ∈ entries, entry.1 = timestamp := by
  by_contra hnowhere
  exact h ⟨fun entry hentry htime => hnowhere ⟨entry, hentry, htime⟩, .inl rfl⟩

theorem others_append_self (value : F) :
    others timestamp (entries ++ [(timestamp, value)]) = others timestamp entries := by
  have hself : others timestamp [(timestamp, value)] = [] := others_cons_of_eq rfl
  rw [others, List.filter_append]
  exact (congrArg (others timestamp entries ++ ·) hself).trans (List.append_nil _)

theorem put_of_late {entry other : Int × F} (hother : other ∈ entries) (hlate : entry.1 < other.1) :
    put bounds entries entry = entries :=
  if_neg fun hall => absurd (hall other hother) (not_le.mpr hlate)

theorem put_of_forward {entry : Int × F} (h : ∀ other ∈ entries, other.1 ≤ entry.1) :
    put bounds entries entry =
      newest bounds.maximumItems (above Prod.fst (entry.1 - bounds.retention) (entries ++ [entry])) :=
  if_pos h

/-- The newest entry is never cut away by its own cutoff. -/
theorem above_append_self (value : F) :
    above Prod.fst (timestamp - bounds.retention) (entries ++ [(timestamp, value)]) =
      above Prod.fst (timestamp - bounds.retention) entries ++ [(timestamp, value)] := by
  have hpos := bounds.retention_pos
  have hself : timestamp - bounds.retention < timestamp := by omega
  have hlast : [(timestamp, value)].filter
      (fun entry => decide (timestamp - bounds.retention < entry.1)) = [(timestamp, value)] :=
    List.filter_cons_of_pos (decide_eq_true hself)
  unfold above
  rw [List.filter_append, hlast]

/-- What is recorded and dropped again leaves the entries exactly when they were spared. -/
theorem others_entered_eq_iff (value : Option F) :
    others timestamp (Track.entered bounds entries timestamp value) = entries ↔
      Spares bounds entries timestamp value := by
  cases value with
  | none =>
    show others timestamp entries = entries ↔ _
    rw [others_eq_self_iff]
    exact ⟨fun h => ⟨h, .inl rfl⟩, fun h => h.1⟩
  | some v =>
    show others timestamp (put bounds entries (timestamp, v)) = entries ↔ _
    by_cases hlate : ∃ entry ∈ entries, timestamp < entry.1
    · obtain ⟨entry, hentry, hlt⟩ := hlate
      rw [put_of_late hentry hlt, others_eq_self_iff]
      exact ⟨fun h => ⟨h, .inr (.inl ⟨entry, hentry, hlt⟩)⟩, fun h => h.1⟩
    · have hforward : ∀ other ∈ entries, other.1 ≤ timestamp := by
        intro other hother
        exact not_lt.mp fun hlt => hlate ⟨other, hother, hlt⟩
      rw [put_of_forward hforward, above_append_self]
      constructor
      · intro hback
        have hne : ∀ entry ∈ entries, entry.1 ≠ timestamp := by
          intro entry hentry
          rw [← hback] at hentry
          exact ne_of_mem_others hentry
        -- the value itself is one of the newest, so the others are one fewer than the cap
        rw [newest_concat bounds.maximumItems_pos, others_append_self] at hback
        have hkept := newest_suffix (bounds.maximumItems - 1)
          (above Prod.fst (timestamp - bounds.retention) entries)
        have hothers := others_sublist timestamp (newest (bounds.maximumItems - 1)
          (above Prod.fst (timestamp - bounds.retention) entries))
        rw [hback] at hothers
        have hall : above Prod.fst (timestamp - bounds.retention) entries = entries :=
          List.filter_sublist.eq_of_length_le (hothers.trans hkept.sublist).length_le
        have hroom := hothers.length_le
        rw [length_newest] at hroom
        have hpos := bounds.maximumItems_pos
        refine ⟨hne, .inr (.inr ⟨?_, by omega⟩)⟩
        intro entry hentry
        exact of_decide_eq_true (List.filter_eq_self.mp hall entry hentry)
      · rintro ⟨hne, hnone | hlate' | ⟨habove, hroom⟩⟩
        · cases hnone
        · exact absurd hlate' hlate
        · have hall : above Prod.fst (timestamp - bounds.retention) entries = entries :=
            List.filter_eq_self.mpr fun entry hentry => decide_eq_true (habove entry hentry)
          have hfit : (entries ++ [(timestamp, v)]).length ≤ bounds.maximumItems := by
            rw [List.length_append, List.length_singleton]
            exact hroom
          rw [hall, newest_of_length_le hfit, others_append_self]
          exact others_eq_self_iff.mpr hne

/-- A value of an instant there already can only be missed where it is the whole window. -/
theorem maximumItems_of_put_others (hfits : Fits bounds entries) {value : F}
    (hmem : (timestamp, value) ∈ entries)
    (hput : put bounds (others timestamp entries) (timestamp, value) =
      put bounds entries (timestamp, value)) : bounds.maximumItems = 1 := by
  by_cases hlate : ∃ entry ∈ entries, timestamp < entry.1
  · exfalso
    obtain ⟨entry, hentry, hlt⟩ := hlate
    have hentry' : entry ∈ others timestamp entries :=
      List.mem_filter.mpr ⟨hentry, decide_eq_true hlt.ne'⟩
    rw [put_of_late hentry hlt, put_of_late hentry' hlt] at hput
    exact others_eq_self_iff.mp hput _ hmem rfl
  · have hforward : ∀ other ∈ entries, other.1 ≤ timestamp := by
      intro other hother
      exact not_lt.mp fun hlt => hlate ⟨other, hother, hlt⟩
    have hforward' : ∀ other ∈ others timestamp entries, other.1 ≤ timestamp :=
      fun other hother => hforward other ((others_sublist ..).subset hother)
    have hcut : ∀ kept : List (Int × F), kept.Sublist entries →
        above Prod.fst (timestamp - bounds.retention) kept = kept := by
      intro kept hkept
      apply List.filter_eq_self.mpr
      intro entry hentry
      exact decide_eq_true (hfits.recent entry (hkept.subset hentry) _ hmem)
    rw [put_of_forward hforward', put_of_forward hforward, above_append_self, above_append_self,
      hcut _ (others_sublist ..), hcut _ (List.Sublist.refl _),
      newest_concat bounds.maximumItems_pos, newest_concat bounds.maximumItems_pos] at hput
    have hkept := List.append_cancel_right hput
    by_contra hcap
    -- with room for two the last entry, of this instant, is kept before the value
    have hpos := bounds.maximumItems_pos
    have hroom : 1 ≤ bounds.maximumItems - 1 := by omega
    obtain ⟨front, last, rfl⟩ := (List.eq_nil_or_concat' entries).resolve_left
      (List.ne_nil_of_mem hmem)
    have hlast : last.1 = timestamp := by
      apply le_antisymm (hforward last (List.mem_append_right _ (List.mem_singleton_self _)))
      rcases List.mem_append.mp hmem with hfront | hself
      · exact (List.pairwise_append.mp hfits.ascending).2.2 _ hfront last
          (List.mem_singleton_self _)
      · exact (congrArg Prod.fst (List.mem_singleton.mp hself)).le
    rw [newest_concat hroom] at hkept
    have hother : last ∈ others timestamp (front ++ [last]) := by
      apply (newest_suffix (bounds.maximumItems - 1) _).subset
      rw [hkept]
      exact List.mem_append_right _ (List.mem_singleton_self _)
    exact ne_of_mem_others hother hlast

/-- A window of one entry is replaced by any later or equal one. -/
theorem put_of_one (hcap : bounds.maximumItems = 1) {value : F}
    (hforward : ∀ other ∈ entries, other.1 ≤ timestamp) :
    put bounds entries (timestamp, value) = [(timestamp, value)] := by
  have hlone : ∀ kept : List (Int × F), newest (bounds.maximumItems - 1) kept = [] := by
    intro kept
    rw [hcap]
    exact List.drop_length
  rw [put_of_forward hforward, above_append_self, newest_concat bounds.maximumItems_pos, hlone]
  rfl

end Entries

/-! ## The second record of an instant -/

/-- The first record of a value at this time can be undone: it spares the entries, or is of no value
while a single entry makes a window. -/
def Undoable {F : Type*} (bounds : WindowBounds) (entries : List (Int × F)) (timestamp : Int)
    (value : Option F) : Prop :=
  Spares bounds entries timestamp value ∨ value = none ∧ bounds.maximumItems = 1

namespace Track

section Base

variable {F : Type*} {bounds : WindowBounds} {track : Track F} {timestamp : Int}

theorem fits_base (hfits : Fits bounds track.entries) : Fits bounds (track.base timestamp) := by
  unfold base
  split_ifs
  · exact hfits.sublist (others_sublist timestamp track.entries)
  · exact hfits

/-- An entry of this time in the base is one of another record: the last was at another time. -/
theorem last_of_mem_base {entry : Int × F} (hentry : entry ∈ track.base timestamp)
    (htime : entry.1 = timestamp) : ∀ cached ∈ track.last, cached.timestamp ≠ timestamp := by
  intro cached hcached hsame
  rw [base_of_same hcached hsame] at hentry
  exact ne_of_mem_others hentry htime

theorem not_remembered_of_mem_base [DecidableEq F] {entry : Int × F}
    (hentry : entry ∈ track.base timestamp) (htime : entry.1 = timestamp) (value : Option F) :
    track.remembered timestamp value = none := by
  apply Option.filter_eq_none_iff.mpr
  intro cached hcached hsame
  exact last_of_mem_base hentry htime cached hcached (of_decide_eq_true hsame).1

end Base

variable {F : Type*} [Zero F] [Sub F] [Div F] [LT F] [DecidableLT F]
  (math : MetricMath F) (bounds : WindowBounds)

/-- What the track has of this time is what its value gives on the entries of other times. -/
def Settled (track : Track F) (timestamp : Int) : Prop :=
  ∀ cached ∈ track.last, cached.timestamp = timestamp →
    recordOnto math bounds (track.base timestamp) timestamp cached.value =
      ((cached.zscore, cached.ready), track)

variable [DecidableEq F]

/-- A second record at a time gives what it gives alone. -/
def Replaces (track : Track F) (timestamp : Int) (first second : Option F) : Prop :=
  let twice := (track.record math bounds timestamp first).2.record math bounds timestamp second
  let once := track.record math bounds timestamp second
  twice.1 = once.1 ∧ twice.2.entries = once.2.entries

variable {math bounds} {track : Track F} {timestamp : Int} {first second : Option F}

theorem record_of_remembered {cached : LastRecord F}
    (h : track.remembered timestamp first = some cached) :
    track.record math bounds timestamp first = ((cached.zscore, cached.ready), track) := by
  simp only [record, h]

theorem record_of_not_remembered (h : track.remembered timestamp first = none) :
    track.record math bounds timestamp first =
      recordOnto math bounds (track.base timestamp) timestamp first := by
  simp only [record, h]

/-- The value recorded is the one the key remembers of that time. -/
theorem remembered_recordOnto (entries : List (Int × F)) :
    (recordOnto math bounds entries timestamp first).2.remembered timestamp second =
      if first = second then
        some ⟨timestamp, first, (scored math bounds entries timestamp first).1,
          (scored math bounds entries timestamp first).2⟩
      else none := by
  unfold remembered recordOnto
  by_cases hsame : first = second
  · rw [if_pos hsame]
    exact Option.filter_some_pos (decide_eq_true ⟨rfl, hsame⟩)
  · rw [if_neg hsame]
    exact Option.filter_some_neg (decide_eq_false fun h => hsame h.2)

/-- Recording the value the key has of the time changes nothing. -/
theorem replaces_of_remembered {cached : LastRecord F}
    (h : track.remembered timestamp first = some cached) :
    track.Replaces math bounds timestamp first second := by
  unfold Replaces
  rw [record_of_remembered h]
  exact ⟨rfl, rfl⟩

theorem replaces_self : track.Replaces math bounds timestamp first first := by
  cases hfirst : track.remembered timestamp first with
  | some cached => exact replaces_of_remembered hfirst
  | none =>
    unfold Replaces
    rw [record_of_not_remembered hfirst, record_of_remembered
      ((remembered_recordOnto _).trans (if_pos rfl))]
    exact ⟨rfl, rfl⟩

/-- The second of two different values is recorded onto what dropping the first has left. -/
theorem record_record (hfirst : track.remembered timestamp first = none) (hne : first ≠ second) :
    (track.record math bounds timestamp first).2.record math bounds timestamp second =
      recordOnto math bounds
        (others timestamp (entered bounds (track.base timestamp) timestamp first)) timestamp
        second := by
  rw [record_of_not_remembered hfirst,
    record_of_not_remembered ((remembered_recordOnto _).trans (if_neg hne)),
    base_of_recordOnto]

/-- Where dropping the first value gives the base back, the second record is as alone. -/
theorem replaces_of_spares (hspares : Spares bounds (track.base timestamp) timestamp first)
    (hsettled : track.Settled math bounds timestamp) :
    track.Replaces math bounds timestamp first second := by
  cases hfirst : track.remembered timestamp first with
  | some cached => exact replaces_of_remembered hfirst
  | none =>
    by_cases hsame : first = second
    · subst hsame
      exact replaces_self
    unfold Replaces
    rw [record_record hfirst hsame, (others_entered_eq_iff first).mpr hspares]
    cases hsecond : track.remembered timestamp second with
    | none =>
      rw [record_of_not_remembered hsecond]
      exact ⟨rfl, rfl⟩
    | some cached =>
      obtain ⟨hlast, hcached⟩ := Option.filter_eq_some_iff.mp hsecond
      obtain ⟨htime, rfl⟩ := of_decide_eq_true hcached
      rw [record_of_remembered hsecond, hsettled cached hlast htime]
      exact ⟨rfl, rfl⟩

/-- With a single entry to a window a second record of the time starts from too few values either
way, and replaces the entry. -/
theorem replaces_of_one (hfits : Fits bounds track.entries) (hcap : bounds.maximumItems = 1)
    {entry : Int × F} (hentry : entry ∈ track.base timestamp) (htime : entry.1 = timestamp) :
    track.Replaces math bounds timestamp none second := by
  have hfresh := not_remembered_of_mem_base hentry htime
  have hone : track.base timestamp = [entry] := by
    have hbounded : (track.base timestamp).length ≤ 1 := (fits_base hfits).bounded.trans hcap.le
    obtain ⟨lone, hlone⟩ := List.length_eq_one_iff.mp
      (le_antisymm hbounded (List.length_pos_of_mem hentry))
    rw [hlone] at hentry ⊢
    rw [List.mem_singleton.mp hentry]
  cases second with
  | none => exact replaces_self
  | some value =>
    unfold Replaces
    have hdropped : others timestamp (entered bounds (track.base timestamp) timestamp none) = [] := by
      rw [hone]
      exact others_cons_of_eq htime
    rw [record_record (hfresh none) (Option.some_ne_none value).symm, record_of_not_remembered (hfresh _),
      hdropped, hone]
    constructor
    · have hshort : ∀ entries : List (Int × F), entries.length < 2 →
          scored math bounds entries timestamp (some value) = (none, false) :=
        fun _ h => scored_of_short math h
      exact (hshort [] Nat.two_pos).trans (hshort [entry] Nat.one_lt_two).symm
    · have hle : ∀ other ∈ [entry], other.1 ≤ timestamp := by
        intro other hmem
        rw [List.mem_singleton.mp hmem, htime]
      exact (put_of_one hcap fun _ hmem => absurd hmem List.not_mem_nil).trans
        (put_of_one hcap hle).symm

/-- A first value that cannot be undone is seen by the record of no value, or of one more value. -/
theorem undoable_of_replaces (hfits : Fits bounds track.entries)
    (hfirst : track.remembered timestamp first = none)
    (h : ∀ second, track.Replaces math bounds timestamp first second) :
    Undoable bounds (track.base timestamp) timestamp first := by
  by_contra hnot
  obtain ⟨hspares, hone⟩ := not_or.mp hnot
  cases first with
  | some v =>
    apply hspares
    rw [← others_entered_eq_iff]
    have hnone := (h none).2
    rw [record_record hfirst (Option.some_ne_none v)] at hnone
    cases hsecond : track.remembered timestamp none with
    | none =>
      rw [record_of_not_remembered hsecond] at hnone
      exact hnone
    | some cached =>
      -- the key has no value of this time: then nothing was to be dropped
      obtain ⟨hlast, hcached⟩ := Option.filter_eq_some_iff.mp hsecond
      have htime := (of_decide_eq_true hcached).1
      rw [record_of_remembered hsecond] at hnone
      have hkept : others timestamp (entered bounds (track.base timestamp) timestamp (some v)) =
          track.entries := hnone
      have hself : others timestamp track.entries = track.entries := by
        apply others_eq_self_iff.mpr
        intro entry hentry
        rw [← hkept] at hentry
        exact ne_of_mem_others hentry
      rw [hkept, base_of_same hlast htime, hself]
  | none =>
    obtain ⟨⟨instant, value⟩, hentry, rfl⟩ := exists_of_not_spares_none hspares
    have hfresh := not_remembered_of_mem_base hentry rfl
    have hsome := (h (some value)).2
    rw [record_record hfirst (Option.some_ne_none value).symm,
      record_of_not_remembered (hfresh _)] at hsome
    exact hone ⟨rfl, maximumItems_of_put_others (fits_base hfits) hentry hsome⟩

theorem settled_of_replaces (hfits : Fits bounds track.entries)
    (hfirst : track.remembered timestamp first = none)
    (h : ∀ second, track.Replaces math bounds timestamp first second) :
    track.Settled math bounds timestamp := by
  intro cached hlast htime
  have hsecond : track.remembered timestamp cached.value = some cached :=
    Option.filter_eq_some_iff.mpr ⟨hlast, decide_eq_true ⟨htime, rfl⟩⟩
  have hne : first ≠ cached.value := by
    rintro rfl
    cases hfirst.symm.trans hsecond
  have hbase : ∀ entry ∈ track.base timestamp, entry.1 ≠ timestamp := fun entry hentry hsame =>
    last_of_mem_base hentry hsame cached hlast htime
  have hspares : Spares bounds (track.base timestamp) timestamp first := by
    rcases undoable_of_replaces hfits hfirst h with hspares | ⟨rfl, -⟩
    · exact hspares
    · exact ⟨hbase, .inl rfl⟩
  obtain ⟨hresult, hentries⟩ := h cached.value
  rw [record_record hfirst hne, record_of_remembered hsecond,
    (others_entered_eq_iff first).mpr hspares] at hresult hentries
  subst htime
  refine Prod.ext hresult (Track.ext hentries ?_)
  have hscored : scored math bounds (track.base cached.timestamp) cached.timestamp cached.value =
      (cached.zscore, cached.ready) := hresult
  show some (LastRecord.mk _ _ (scored math bounds _ _ _).1 (scored math bounds _ _ _).2) = _
  rw [hscored, hlast]

/-- A key's second records replace its first at a time exactly when the first can be undone, and what
the key has of the time is settled. -/
theorem replaces_iff (hfits : Fits bounds track.entries) :
    (∀ second, track.Replaces math bounds timestamp first second) ↔
      track.remembered timestamp first ≠ none ∨
        Undoable bounds (track.base timestamp) timestamp first ∧
          track.Settled math bounds timestamp := by
  cases hfirst : track.remembered timestamp first with
  | some cached =>
    exact ⟨fun _ => .inl (Option.some_ne_none cached), fun _ _ => replaces_of_remembered hfirst⟩
  | none =>
    constructor
    · intro h
      exact .inr ⟨undoable_of_replaces hfits hfirst h, settled_of_replaces hfits hfirst h⟩
    · rintro (h | ⟨hspares | ⟨rfl, hcap⟩, hsettled⟩) second
      · exact absurd rfl h
      · exact replaces_of_spares hspares hsettled
      · by_cases hspares : Spares bounds (track.base timestamp) timestamp none
        · exact replaces_of_spares hspares hsettled
        · obtain ⟨entry, hentry, htime⟩ := exists_of_not_spares_none hspares
          exact replaces_of_one hfits hcap hentry htime

end Track

/-! ## The law of the history -/

namespace MetricHistory

variable {F : Type*} [Zero F] [Sub F] [Div F] [LT F] [DecidableLT F] [DecidableEq F]
  (math : MetricMath F)

/-- A second record of a key at a time gives the result, and leaves the window, that it gives alone. -/
def Replaces (history : MetricHistory F) (key : String) (timestamp : Int)
    (first second : Option F) : Prop :=
  let twice := (history.record math key timestamp first).2.record math key timestamp second
  let once := history.record math key timestamp second
  twice.1 = once.1 ∧ (twice.2.window key).entries = (once.2.window key).entries

/-- A first value that leaves room for a second one: the key has it of that time already, or it can be
undone and what the key has of that time is what its value gives on the entries of other times. -/
def Replaceable (history : MetricHistory F) (key : String) (timestamp : Int) (first : Option F) :
    Prop :=
  (history.track key).remembered timestamp first ≠ none ∨
    Undoable history.bounds ((history.track key).base timestamp) timestamp first ∧
      (history.track key).Settled math history.bounds timestamp

theorem replaces_track (history : MetricHistory F) (key : String) (timestamp : Int)
    (first second : Option F) :
    history.Replaces math key timestamp first second ↔
      (history.track key).Replaces math history.bounds timestamp first second := by
  have htwice : ((history.record math key timestamp first).2.record math key timestamp second).2.track
      key = (((history.track key).record math history.bounds timestamp first).2.record math
        history.bounds timestamp second).2 := by
    rw [track_record, track_record, record_bounds]
  have honce := congrArg Track.entries (history.track_record math key timestamp second)
  unfold Replaces Track.Replaces
  simp only [record_fst, record_bounds, track_record]
  exact and_congr_right fun _ => Eq.congr (congrArg Track.entries htwice) honce

/-- Recording a key again at one time replaces what was recorded first, whatever is recorded, exactly
when the first value leaves room for it. -/
theorem record_replaces_iff (history : MetricHistory F) (key : String) (timestamp : Int)
    (first : Option F) :
    (∀ second, history.Replaces math key timestamp first second) ↔
      history.Replaceable math key timestamp first :=
  (forall_congr' fun second => history.replaces_track math key timestamp first second).trans
    (Track.replaces_iff (history.fits_track key))

end MetricHistory

/-- Mean and deviation of rational values; the deviation of up to two values is half their range. -/
def rationalMath : MetricMath ℚ where
  fmean := fun values => values.sum / values.length
  pstdev
    | [] => 0
    | value :: rest => (rest.foldl max value - rest.foldl min value) / 2

theorem exampleEvents_pos : 0 < 500000 := by norm_num

/-- A lookback of two seconds. -/
def exampleHistory : MetricHistory ℚ := .new 2 500000 Nat.two_pos exampleEvents_pos

/-- Values one and three at the first two seconds. -/
def exampleRecorded : MetricHistory ℚ :=
  ((exampleHistory.record rationalMath "metric" 0 (some 1)).2.record rationalMath "metric" 1000000
    (some 3)).2

/-- The value of the cutoff is lost to the second record of the third second. -/
theorem cutoff_value_not_replaced :
    ¬ exampleRecorded.Replaces rationalMath "metric" 2000000 (some 5) (some 9) := by
  intro h
  have honce : (exampleRecorded.record rationalMath "metric" 2000000 (some 9)).1 =
      (some 7, true) := by decide +kernel
  have htwice : ((exampleRecorded.record rationalMath "metric" 2000000 (some 5)).2.record
      rationalMath "metric" 2000000 (some 9)).1 = (none, false) := by decide +kernel
  cases htwice.symm.trans (h.1.trans honce)

end Cvf
