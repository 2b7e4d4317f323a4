/-
# Cvf.Features.RuntimeHistory — the snapshots the runtime keeps for the paired features.

At every feature tick `FeatureRuntime` appends the single-venue snapshots to one deque for each venue,
symbol and window, and the cross-venue engine reads the deques.  They are bounded to the ticks of one
lookback, and a new book generation clears those of its symbol.

The bound counts snapshots, not ticks: a window that is configured several times is appended several
times at each tick.  With `fits`, room for all copies of the ticks of a lookback, the bounded deques are
as good as unbounded ones (`bounded_history_loses_nothing`).

What a single-venue engine computes at a tick and the generation a book event leaves behind are taken
from outside.
-/
import Cvf.Features.CrossVenueSwap
import Cvf.Library.Newest
import Cvf.Library.Parsed
import Cvf.Library.Rounding

namespace Cvf

open Cvf.Library

/-- `_history` and `_book_generations`; a key that is not there has no snapshots. -/
structure RuntimeHistory (F : Type) where
  history : Exchange × String × Int → List (FeatureSnapshot F)
  bookGenerations : Exchange × String → Option Nat

/-- What reaches the runtime.  A tick carries the states of the store, and what the single-venue engine
computes besides venue, symbol, window and decision. -/
inductive RuntimeStep (F : Type) where
  | bookEvent (exchange : Exchange) (symbol : String) (generation : Nat)
  | signalTick
  | featureTick (timestamp : Int) (states : List (Exchange × String))
      (single : Exchange → String → Int → FeatureSnapshot F)

namespace RuntimeHistory

variable {F : Type}

/-- The nearest `float`, where it is within the limits of the exponent. -/
def nearestFloat (x : Rat) : Rat := roundTo 2 53 x

/-- `_history_items`: `feature_update_seconds` is the `float` of a whole number of microseconds, and `int`
takes the quotient of floats down. -/
def historyItems (zscoreLookbackSeconds featureUpdateMicros : Int) : Nat :=
  let featureUpdateSeconds := nearestFloat (featureUpdateMicros / 1000000)
  (max 2 (⌊nearestFloat (nearestFloat zscoreLookbackSeconds / featureUpdateSeconds)⌋ + 2)).toNat

/-- `deque(maxlen=…)`; without a length it keeps everything. -/
def boundedTo (maxlen : Option Nat) (snapshots : List (FeatureSnapshot F)) : List (FeatureSnapshot F) :=
  match maxlen with
  | none => snapshots
  | some items => newest items snapshots

def start : RuntimeHistory F :=
  { history := fun _ => [], bookGenerations := fun _ => none }

/-- `consume_event`, for a book event that leaves the book of its market at generation `current`. -/
def consumeBookEvent (runtime : RuntimeHistory F) (exchange : Exchange) (symbol : String) (current : Nat) :
    RuntimeHistory F :=
  let rebuilt := (runtime.bookGenerations (exchange, symbol)).any (· ≠ current)
  { history := fun key => if rebuilt && decide (key.2.1 = symbol) then [] else runtime.history key
    bookGenerations := Function.update runtime.bookGenerations (exchange, symbol) (some current) }

/-- The key of `_history_for`. -/
def historyKey (snapshot : FeatureSnapshot F) : Exchange × String × Int :=
  (snapshot.exchange, snapshot.symbol, snapshot.windowSeconds)

/-- `_history_for(…).append(snapshot)` -/
def append (maxlen : Option Nat) (runtime : RuntimeHistory F) (snapshot : FeatureSnapshot F) :
    RuntimeHistory F :=
  { runtime with
    history := Function.update runtime.history (historyKey snapshot)
      (boundedTo maxlen (runtime.history (historyKey snapshot) ++ [snapshot])) }

/-- A snapshot of a market and window at a decision. -/
def snapshotAt (decision : Int) (single : Exchange → String → Int → FeatureSnapshot F)
    (exchange : Exchange) (symbol : String) (windowSeconds : Int) : FeatureSnapshot F :=
  { single exchange symbol windowSeconds with
    exchange, symbol, windowSeconds, decisionTimestamp := decision }

/-- `calculate_all` -/
def calculateAll (windows : List Int) (decision : Int) (states : List (Exchange × String))
    (single : Exchange → String → Int → FeatureSnapshot F) : List (FeatureSnapshot F) :=
  states.flatMap fun state => windows.map (snapshotAt decision single state.1 state.2)

/-- `candidates` of a symbol and window. -/
def candidates (runtime : RuntimeHistory F) (symbol : String) (windowSeconds : Int) :
    List (FeatureSnapshot F) :=
  runtime.history (.binance, symbol, windowSeconds) ++ runtime.history (.okx, symbol, windowSeconds)

variable [Zero F] [One F] [Neg F] [Add F] [Sub F] [Div F] [LinearOrder F]
  (engine : CrossVenueFeatureEngine F)

/-- The crosses of a tick. -/
def crosses (runtime : RuntimeHistory F) (decision : Int) :
    List (Except String (CrossVenueFeatureSnapshot F)) :=
  engine.settings.canonicalSymbols.flatMap fun symbol =>
    engine.settings.featureWindowsSeconds.map fun windowSeconds =>
      engine.calculate (runtime.candidates symbol windowSeconds) symbol decision windowSeconds

/-- One step, with the crosses it computes. -/
def step (maxlen : Option Nat) (runtime : RuntimeHistory F) :
    RuntimeStep F → RuntimeHistory F × List (Except String (CrossVenueFeatureSnapshot F))
  | .bookEvent exchange symbol generation => (runtime.consumeBookEvent exchange symbol generation, [])
  | .signalTick => (runtime, [])
  | .featureTick timestamp states single =>
    let after := (calculateAll engine.settings.featureWindowsSeconds timestamp states single).foldl
      (append maxlen) runtime
    (after, after.crosses engine timestamp)

/-- The crosses of every step of a run. -/
def run (maxlen : Option Nat) :
    RuntimeHistory F → List (RuntimeStep F) → List (List (Except String (CrossVenueFeatureSnapshot F)))
  | _, [] => []
  | runtime, next :: later =>
    let (after, computed) := step engine maxlen runtime next
    computed :: run maxlen after later

end RuntimeHistory

/-- Feature ticks on a grid, each after the one before, over a store that has both venues' states of every
symbol, one for each market. -/
def OnGrid {F : Type} (symbols : List String) (featureUpdateMicros : Int) :
    Option Int → List (RuntimeStep F) → Prop
  | _, [] => True
  | last, .featureTick timestamp states _ :: later =>
    (∀ before ∈ last, before < timestamp ∧ featureUpdateMicros ∣ timestamp - before) ∧
      states.Nodup ∧ (∀ symbol ∈ symbols, (.binance, symbol) ∈ states ∧ (.okx, symbol) ∈ states) ∧
      OnGrid symbols featureUpdateMicros (some timestamp) later
  | last, _ :: later => OnGrid symbols featureUpdateMicros last later

namespace RuntimeHistory

variable {F : Type}

/-! ## Appending -/

theorem history_append (maxlen : Option Nat) (runtime : RuntimeHistory F) (snapshot : FeatureSnapshot F)
    (key : Exchange × String × Int) :
    (runtime.append maxlen snapshot).history key =
      if historyKey snapshot = key then boundedTo maxlen (runtime.history key ++ [snapshot])
      else runtime.history key := by
  unfold append
  by_cases hkey : historyKey snapshot = key
  · rw [if_pos hkey, ← hkey]
    exact Function.update_self ..
  · rw [if_neg hkey]
    exact Function.update_of_ne (Ne.symm hkey) ..

/-- Without a bound, a key gets the snapshots of its own. -/
theorem history_foldl_append (runtime : RuntimeHistory F) (snapshots : List (FeatureSnapshot F))
    (key : Exchange × String × Int) :
    (snapshots.foldl (append none) runtime).history key =
      runtime.history key ++ snapshots.filter fun snapshot => historyKey snapshot = key := by
  induction snapshots generalizing runtime with
  | nil => exact (List.append_nil _).symm
  | cons snapshot later ih =>
    rw [List.foldl_cons, ih, history_append]
    by_cases hkey : historyKey snapshot = key
    · have hfilter : (snapshot :: later).filter (fun snapshot => historyKey snapshot = key) =
          snapshot :: later.filter fun snapshot => historyKey snapshot = key :=
        List.filter_cons_of_pos (by simpa using hkey)
      rw [if_pos hkey, hfilter]
      exact List.append_assoc _ [snapshot] _
    · have hfilter : (snapshot :: later).filter (fun snapshot => historyKey snapshot = key) =
          later.filter fun snapshot => historyKey snapshot = key :=
        List.filter_cons_of_neg (by simpa using hkey)
      rw [if_neg hkey, hfilter]

theorem bookGenerations_foldl_append (maxlen : Option Nat) (runtime : RuntimeHistory F)
    (snapshots : List (FeatureSnapshot F)) :
    (snapshots.foldl (append maxlen) runtime).bookGenerations = runtime.bookGenerations := by
  induction snapshots generalizing runtime with
  | nil => rfl
  | cons snapshot later ih => exact ih _

/-- A tick computes as many copies for a market and window as the window is configured times. -/
theorem filter_calculateAll (windows : List Int) (decision : Int) {states : List (Exchange × String)}
    (hstates : states.Nodup) (single : Exchange → String → Int → FeatureSnapshot F)
    (exchange : Exchange) (symbol : String) (windowSeconds : Int) :
    (calculateAll windows decision states single).filter
        (fun snapshot => historyKey snapshot = (exchange, symbol, windowSeconds)) =
      if (exchange, symbol) ∈ states then
        List.replicate (windows.count windowSeconds) (snapshotAt decision single exchange symbol windowSeconds)
      else [] := by
  have hwindows : ∀ state : Exchange × String,
      (windows.map (snapshotAt decision single state.1 state.2)).filter
          (fun snapshot => historyKey snapshot = (exchange, symbol, windowSeconds)) =
        if state = (exchange, symbol) then
          List.replicate (windows.count windowSeconds)
            (snapshotAt decision single exchange symbol windowSeconds)
        else [] := by
    intro state
    have hkey : ∀ window, historyKey (snapshotAt decision single state.1 state.2 window) =
        (exchange, symbol, windowSeconds) ↔ state = (exchange, symbol) ∧ window = windowSeconds := by
      intro window
      show (state.1, state.2, window) = _ ↔ _
      rw [Prod.ext_iff, Prod.ext_iff, Prod.ext_iff]
      exact and_assoc.symm
    rw [List.filter_map]
    split_ifs with hstate
    · have hfilter : windows.filter ((fun snapshot => decide (historyKey snapshot =
          (exchange, symbol, windowSeconds))) ∘ snapshotAt decision single state.1 state.2) =
            windows.filter (· == windowSeconds) := by
        apply List.filter_congr
        intro window _
        have hiff : historyKey (snapshotAt decision single state.1 state.2 window) =
            (exchange, symbol, windowSeconds) ↔ window = windowSeconds :=
          (hkey window).trans (and_iff_right hstate)
        rw [Function.comp_apply, decide_eq_decide.mpr hiff]
        rfl
      rw [hfilter, List.filter_beq, List.map_replicate, hstate]
    · apply List.map_eq_nil_iff.mpr
      apply List.filter_eq_nil_iff.mpr
      intro window _
      simp only [Function.comp_apply, decide_eq_true_eq, hkey]
      exact fun h => hstate h.1
  -- of all states only one has the key
  unfold calculateAll
  induction states with
  | nil => rfl
  | cons state later ih =>
    obtain ⟨hnew, hlater⟩ := List.nodup_cons.mp hstates
    rw [List.flatMap_cons, List.filter_append, hwindows, ih hlater]
    by_cases hstate : state = (exchange, symbol)
    · rw [if_pos hstate, if_neg (hstate ▸ hnew), if_pos (hstate ▸ List.mem_cons_self), List.append_nil]
    · rw [if_neg hstate, List.nil_append]
      have hiff : (exchange, symbol) ∈ state :: later ↔ (exchange, symbol) ∈ later := by
        rw [List.mem_cons]
        exact or_iff_right (Ne.symm hstate)
      simp only [hiff]

/-! ## Copies of ticks -/

/-- Each snapshot as many times as its window is configured. -/
def copies (count : Nat) (ticks : List (FeatureSnapshot F)) : List (FeatureSnapshot F) :=
  ticks.flatMap (List.replicate count)

/-- Snapshots at least one update apart, none behind the last tick. -/
structure Spaced (featureUpdateMicros : Int) (last : Option Int) (ticks : List (FeatureSnapshot F)) :
    Prop where
  apart : ticks.IsChain fun earlier later =>
    earlier.decisionTimestamp + featureUpdateMicros ≤ later.decisionTimestamp
  behind : ∀ snapshot ∈ ticks, ∃ tick ∈ last, snapshot.decisionTimestamp ≤ tick

theorem mem_copies {count : Nat} {ticks : List (FeatureSnapshot F)} {snapshot : FeatureSnapshot F}
    (h : snapshot ∈ copies count ticks) : snapshot ∈ ticks := by
  obtain ⟨tick, htick, hcopy⟩ := List.mem_flatMap.mp h
  rw [List.eq_of_mem_replicate hcopy]
  exact htick

theorem mem_copies_of_pos {count : Nat} (hcount : 0 < count) {ticks : List (FeatureSnapshot F)}
    {snapshot : FeatureSnapshot F} (h : snapshot ∈ ticks) : snapshot ∈ copies count ticks :=
  List.mem_flatMap.mpr ⟨snapshot, h, List.mem_replicate.mpr ⟨hcount.ne', rfl⟩⟩

theorem copies_concat (count : Nat) (ticks : List (FeatureSnapshot F)) (snapshot : FeatureSnapshot F) :
    copies count (ticks ++ [snapshot]) = copies count ticks ++ List.replicate count snapshot := by
  unfold copies
  rw [List.flatMap_append, List.flatMap_singleton]

theorem length_copies (count : Nat) (ticks : List (FeatureSnapshot F)) :
    (copies count ticks).length = count * ticks.length := by
  induction ticks with
  | nil => rfl
  | cons tick later ih =>
    have hcons : copies count (tick :: later) = List.replicate count tick ++ copies count later := rfl
    rw [hcons, List.length_append, List.length_replicate, ih, List.length_cons, Nat.mul_succ]
    exact Nat.add_comm _ _

/-- The ticks after a snapshot take their time. -/
theorem Spaced.span {featureUpdateMicros : Int} {last : Option Int} {first : FeatureSnapshot F}
    {later : List (FeatureSnapshot F)} (h : Spaced featureUpdateMicros last (first :: later))
    {decision : Int} (hend : ∀ newest ∈ (first :: later).getLast?, newest.decisionTimestamp = decision) :
    first.decisionTimestamp + featureUpdateMicros * later.length ≤ decision := by
  induction later generalizing first with
  | nil =>
    rw [List.length_nil, Nat.cast_zero, mul_zero, add_zero]
    exact (hend first rfl).le
  | cons second later ih =>
    obtain ⟨hstep, hrest⟩ := List.isChain_cons_cons.mp h.apart
    have hspan := ih ⟨hrest, fun snapshot hin => h.behind snapshot (List.mem_cons_of_mem _ hin)⟩
      (by rwa [List.getLast?_cons_cons] at hend)
    rw [List.length_cons, Nat.cast_succ, mul_add, mul_one]
    linarith

theorem Spaced.concat {featureUpdateMicros : Int} {last : Option Int}
    {ticks : List (FeatureSnapshot F)} (h : Spaced featureUpdateMicros last ticks) {decision : Int}
    (hlast : ∀ before ∈ last, before < decision ∧ featureUpdateMicros ∣ decision - before)
    {snapshot : FeatureSnapshot F} (hdecision : snapshot.decisionTimestamp = decision) :
    Spaced featureUpdateMicros (some decision) (ticks ++ [snapshot]) where
  apart := by
    refine List.isChain_append.mpr ⟨h.apart, .singleton _, ?_⟩
    intro earlier hearlier later hlater
    obtain rfl := Option.some.inj hlater
    obtain ⟨before, hbefore, hle⟩ := h.behind earlier (List.mem_of_getLast? hearlier)
    obtain ⟨hlt, hdvd⟩ := hlast before hbefore
    have hstep := Int.le_of_dvd (sub_pos.mpr hlt) hdvd
    rw [hdecision]
    linarith
  behind := by
    intro other hother
    refine ⟨decision, rfl, ?_⟩
    rcases List.mem_append.mp hother with hother | hother
    · obtain ⟨before, hbefore, hle⟩ := h.behind other hother
      exact hle.trans (hlast before hbefore).1.le
    · rw [List.mem_singleton.mp hother, hdecision]

/-- A tick at which nothing is added. -/
theorem Spaced.pass {featureUpdateMicros : Int} {last : Option Int} {ticks : List (FeatureSnapshot F)}
    (h : Spaced featureUpdateMicros last ticks) {decision : Int} (hlast : ∀ before ∈ last, before < decision) :
    Spaced featureUpdateMicros (some decision) ticks where
  apart := h.apart
  behind := by
    intro other hother
    obtain ⟨before, hbefore, hle⟩ := h.behind other hother
    exact ⟨decision, rfl, hle.trans (hlast before hbefore).le⟩

theorem Spaced.times_lt {featureUpdateMicros : Int} (hupdate : 0 < featureUpdateMicros) {last : Option Int}
    {ticks : List (FeatureSnapshot F)} (h : Spaced featureUpdateMicros last ticks) :
    ticks.Pairwise fun earlier later => earlier.decisionTimestamp < later.decisionTimestamp := by
  have hchain : ticks.IsChain fun earlier later => earlier.decisionTimestamp < later.decisionTimestamp :=
    h.apart.imp fun _ _ hle => (lt_add_of_pos_right _ hupdate).trans_le hle
  exact List.isChain_iff_pairwise.mp hchain

/-- At most one snapshot of a time. -/
theorem Spaced.eq_of_time {featureUpdateMicros : Int} (hupdate : 0 < featureUpdateMicros) {last : Option Int}
    {ticks : List (FeatureSnapshot F)} (h : Spaced featureUpdateMicros last ticks) {a b : FeatureSnapshot F}
    (ha : a ∈ ticks) (hb : b ∈ ticks) (htime : a.decisionTimestamp = b.decisionTimestamp) : a = b := by
  have hpairs : ticks.Pairwise fun x y => x.decisionTimestamp = y.decisionTimestamp → x = y :=
    (h.times_lt hupdate).imp fun hlt heq => absurd heq hlt.ne
  have hflipped : ticks.Pairwise (flip fun x y => x.decisionTimestamp = y.decisionTimestamp → x = y) :=
    (h.times_lt hupdate).imp fun hlt heq => absurd heq hlt.ne'
  exact hpairs.forall_of_forall_of_flip (fun _ _ _ => rfl) hflipped ha hb htime

/-- With room for all copies of the ticks in a lookback, the newest snapshots hold one of each. -/
theorem mem_newest_copies {featureUpdateMicros lookback decision : Int} (hupdate : 0 < featureUpdateMicros)
    {last : Option Int} {count items : Nat} (hcount : 0 < count)
    (hfits : count * ((lookback - 1) / featureUpdateMicros) + 1 ≤ items)
    {ticks : List (FeatureSnapshot F)} (h : Spaced featureUpdateMicros last ticks)
    (hend : ∀ newest ∈ ticks.getLast?, newest.decisionTimestamp = decision)
    {snapshot : FeatureSnapshot F} (hin : snapshot ∈ ticks)
    (hinside : decision - lookback < snapshot.decisionTimestamp) :
    snapshot ∈ newest items (copies count ticks) := by
  obtain ⟨front, later, rfl⟩ := List.append_of_mem hin
  have hback : Spaced featureUpdateMicros last (snapshot :: later) :=
    ⟨h.apart.right_of_append, fun other hother => h.behind other (List.mem_append_right _ hother)⟩
  have hspan : snapshot.decisionTimestamp + featureUpdateMicros * later.length ≤ decision := by
    rw [List.getLast?_append_of_ne_nil _ (List.cons_ne_nil _ _)] at hend
    exact hback.span hend
  have hfew : (later.length : Int) ≤ (lookback - 1) / featureUpdateMicros := by
    apply Int.le_ediv_of_mul_le hupdate
    rw [mul_comm]
    linarith
  -- one copy of the snapshot and all copies of the later ones
  have hsplit : copies count (front ++ snapshot :: later) =
      (copies count front ++ List.replicate (count - 1) snapshot) ++ snapshot :: copies count later := by
    obtain ⟨fewer, rfl⟩ := Nat.exists_eq_add_one_of_ne_zero hcount.ne'
    have hcopies : copies (fewer + 1) (front ++ snapshot :: later) = copies (fewer + 1) front ++
        (List.replicate (fewer + 1) snapshot ++ copies (fewer + 1) later) := by
      unfold copies
      rw [List.flatMap_append, List.flatMap_cons]
    rw [hcopies, List.replicate_succ', Nat.add_sub_cancel, List.append_assoc, List.append_assoc]
    rfl
  have hlength : (snapshot :: copies count later).length ≤ items := by
    have hmul : (count : Int) * later.length ≤ count * ((lookback - 1) / featureUpdateMicros) :=
      mul_le_mul_of_nonneg_left hfew (Nat.cast_nonneg count)
    rw [List.length_cons, length_copies]
    have hcast : ((count * later.length + 1 : Nat) : Int) ≤ items := by
      push_cast
      linarith
    exact_mod_cast hcast
  rw [hsplit]
  exact mem_newest_append hlength List.mem_cons_self

end RuntimeHistory

/-! ## Candidates that are as good as all -/

section

variable {F : Type}

/-- `kept` has everything a decision reads of `all`. -/
structure AsGoodAs (lookback decision : Int) (symbol : String) (windowSeconds : Int)
    (kept all : List (FeatureSnapshot F)) : Prop where
  subset : kept ⊆ all
  recent : ∀ snapshot ∈ all, decision - lookback < snapshot.decisionTimestamp → snapshot ∈ kept
  one : ∀ a ∈ all, ∀ b ∈ all, a.exchange = b.exchange → a.decisionTimestamp = b.decisionTimestamp → a = b
  past : ∀ snapshot ∈ all, snapshot.decisionTimestamp ≤ decision
  current : ∀ exchange, exchange = .binance ∨ exchange = .okx → ∃ snapshot ∈ kept,
    snapshot.exchange = exchange ∧ snapshot.symbol = symbol ∧ snapshot.windowSeconds = windowSeconds ∧
      snapshot.decisionTimestamp = decision

variable {lookback decision : Int} {symbol : String} {windowSeconds : Int}
  {kept all : List (FeatureSnapshot F)}

/-- The snapshot of the decision itself is selected. -/
theorem AsGoodAs.selectSnapshot_eq (h : AsGoodAs lookback decision symbol windowSeconds kept all)
    {exchange : Exchange} (hvenue : exchange = .binance ∨ exchange = .okx) :
    selectSnapshot (crossVenueCandidates kept symbol windowSeconds) exchange decision =
      selectSnapshot (crossVenueCandidates all symbol windowSeconds) exchange decision := by
  obtain ⟨current, hkept, hexchange, hsymbol, hwindow, hnow⟩ := h.current exchange hvenue
  have hnewest : ∀ other ∈ all, other.exchange = exchange → other ≠ current →
      selectionKey other < selectionKey current := by
    intro other hother hotherVenue hne
    have hlt : other.decisionTimestamp < current.decisionTimestamp := by
      apply lt_of_le_of_ne (hnow ▸ h.past other hother)
      exact fun htime => hne (h.one other hother current (h.subset hkept)
        (hotherVenue.trans hexchange.symm) htime)
    exact Prod.Lex.toLex_lt_toLex.mpr (.inl hlt)
  have hselected : ∀ snapshots : List (FeatureSnapshot F), current ∈ snapshots → snapshots ⊆ all →
      selectSnapshot (crossVenueCandidates snapshots symbol windowSeconds) exchange decision =
        (some current, none) := by
    intro snapshots hmem hsubset
    apply selectSnapshot_eq_some _ hexchange hnow.le
    · intro other hother hotherVenue _ hne
      exact hnewest other (hsubset (mem_crossVenueCandidates.mp hother).1) hotherVenue hne
    · exact mem_crossVenueCandidates.mpr ⟨hmem, hsymbol, hwindow, hexchange ▸ hvenue⟩
  rw [hselected kept hkept h.subset, hselected all (h.subset hkept) (List.Subset.refl _)]

theorem AsGoodAs.calculate_eq [Zero F] [One F] [Neg F] [Add F] [Sub F] [Div F] [LinearOrder F]
    (engine : CrossVenueFeatureEngine F)
    (h : AsGoodAs (engine.settings.zscoreLookbackSeconds * 1000000) decision symbol windowSeconds kept all) :
    engine.calculate kept symbol decision windowSeconds =
      engine.calculate all symbol decision windowSeconds := by
  have hassemble : engine.assemble (crossVenueCandidates kept symbol windowSeconds) symbol decision
      windowSeconds =
        engine.assemble (crossVenueCandidates all symbol windowSeconds) symbol decision windowSeconds := by
    apply engine.assemble_congr (h.selectSnapshot_eq (.inl rfl)) (h.selectSnapshot_eq (.inr rfl))
    intro symbol'
    apply engine.spreadHistory_congr
    · intro snapshot
      unfold CrossVenueFeatureEngine.insideLookback
      simp only [List.mem_filter, decide_eq_true_eq, mem_crossVenueCandidates]
      constructor
      · rintro ⟨⟨hmem, hkeys⟩, hinside⟩
        exact ⟨⟨h.subset hmem, hkeys⟩, hinside⟩
      · rintro ⟨⟨hmem, hkeys⟩, hinside⟩
        exact ⟨⟨h.recent snapshot hmem hinside.2.2.1, hkeys⟩, hinside⟩
    · intro a ha b hb hexchange htime _
      exact h.one a (mem_crossVenueCandidates.mp ha).1 b (mem_crossVenueCandidates.mp hb).1 hexchange htime
  unfold CrossVenueFeatureEngine.calculate
  rw [hassemble]

end

namespace RuntimeHistory

variable {F : Type}

/-! ## Runs -/

/-- The bounded runtime holds the newest snapshots of the unbounded one. -/
structure Bounds (items : Nat) (bounded full : RuntimeHistory F) : Prop where
  history : ∀ key, bounded.history key = newest items (full.history key)
  bookGenerations : bounded.bookGenerations = full.bookGenerations

/-- Each key of the unbounded runtime holds all copies of ticks that are apart. -/
def Ticked (windows : List Int) (featureUpdateMicros : Int) (last : Option Int) (full : RuntimeHistory F) :
    Prop :=
  ∀ key : Exchange × String × Int, ∃ ticks : List (FeatureSnapshot F),
    full.history key = copies (windows.count key.2.2) ticks ∧ Spaced featureUpdateMicros last ticks ∧
      ∀ snapshot ∈ ticks, historyKey snapshot = key

theorem newest_newest_append (items : Nat) (xs ys : List (FeatureSnapshot F)) :
    newest items (newest items xs ++ ys) = newest items (xs ++ ys) := by
  have hsuffix : newest items xs ++ ys <:+ xs ++ ys := by
    obtain ⟨front, hfront⟩ := newest_suffix items xs
    exact ⟨front, by rw [← List.append_assoc, hfront]⟩
  apply eq_of_suffix ((newest_suffix items _).trans hsuffix) (newest_suffix items _)
  rw [length_newest, length_newest, List.length_append, List.length_append, length_newest]
  omega

theorem Bounds.start (items : Nat) : Bounds items (RuntimeHistory.start : RuntimeHistory F) start where
  history := fun _ => List.drop_nil.symm
  bookGenerations := rfl

theorem Bounds.consumeBookEvent {items : Nat} {bounded full : RuntimeHistory F}
    (h : Bounds items bounded full) (exchange : Exchange) (symbol : String) (current : Nat) :
    Bounds items (bounded.consumeBookEvent exchange symbol current)
      (full.consumeBookEvent exchange symbol current) where
  history := by
    intro key
    unfold RuntimeHistory.consumeBookEvent
    dsimp only
    rw [h.bookGenerations, h.history key]
    split_ifs
    · exact List.drop_nil.symm
    · rfl
  bookGenerations := by
    unfold RuntimeHistory.consumeBookEvent
    dsimp only
    rw [h.bookGenerations]

theorem Bounds.foldl_append {items : Nat} {bounded full : RuntimeHistory F} (h : Bounds items bounded full)
    (snapshots : List (FeatureSnapshot F)) :
    Bounds items (snapshots.foldl (append (some items)) bounded) (snapshots.foldl (append none) full) := by
  induction snapshots generalizing bounded full with
  | nil => exact h
  | cons snapshot later ih =>
    apply ih
    refine ⟨?_, h.bookGenerations⟩
    intro key
    rw [history_append, history_append]
    split_ifs
    · show newest items (bounded.history key ++ [snapshot]) = newest items (full.history key ++ [snapshot])
      rw [h.history key, newest_newest_append]
    · exact h.history key

theorem Ticked.start (windows : List Int) (featureUpdateMicros : Int) :
    Ticked windows featureUpdateMicros none (RuntimeHistory.start : RuntimeHistory F) :=
  fun _ => ⟨[], rfl, ⟨.nil, by simp⟩, by simp⟩

theorem Ticked.consumeBookEvent {windows : List Int} {featureUpdateMicros : Int} {last : Option Int}
    {full : RuntimeHistory F} (h : Ticked windows featureUpdateMicros last full) (exchange : Exchange)
    (symbol : String) (current : Nat) :
    Ticked windows featureUpdateMicros last (full.consumeBookEvent exchange symbol current) := by
  intro key
  unfold RuntimeHistory.consumeBookEvent
  dsimp only
  split_ifs
  · exact ⟨[], rfl, ⟨.nil, by simp⟩, by simp⟩
  · exact h key

/-- A tick adds the copies of one snapshot to the keys of its states. -/
theorem Ticked.featureTick {windows : List Int} {featureUpdateMicros : Int} {last : Option Int}
    {full : RuntimeHistory F} (h : Ticked windows featureUpdateMicros last full) {decision : Int}
    (hlast : ∀ before ∈ last, before < decision ∧ featureUpdateMicros ∣ decision - before)
    {states : List (Exchange × String)} (hstates : states.Nodup)
    (single : Exchange → String → Int → FeatureSnapshot F) (key : Exchange × String × Int) :
    ∃ ticks : List (FeatureSnapshot F),
      ((calculateAll windows decision states single).foldl (append none) full).history key =
          copies (windows.count key.2.2) ticks ∧
        Spaced featureUpdateMicros (some decision) ticks ∧
        (∀ snapshot ∈ ticks, historyKey snapshot = key) ∧
        ((key.1, key.2.1) ∈ states →
          ticks.getLast? = some (snapshotAt decision single key.1 key.2.1 key.2.2)) := by
  obtain ⟨ticks, hticks, hspaced, hkeys⟩ := h key
  obtain ⟨exchange, symbol, windowSeconds⟩ := key
  rw [history_foldl_append, filter_calculateAll windows decision hstates, hticks]
  split_ifs with hin
  · refine ⟨ticks ++ [snapshotAt decision single exchange symbol windowSeconds],
      (copies_concat ..).symm, hspaced.concat hlast rfl, ?_, fun _ => List.getLast?_concat⟩
    intro snapshot hsnapshot
    rcases List.mem_append.mp hsnapshot with hold | hnew
    · exact hkeys snapshot hold
    · rw [List.mem_singleton.mp hnew]
      rfl
  · exact ⟨ticks, List.append_nil _, hspaced.pass fun before hbefore => (hlast before hbefore).1, hkeys,
      fun hstate => absurd hstate hin⟩

/-- Room for one copy of the oldest tick in a lookback and all copies of the later ones. -/
def Fits (settings : CrossVenueSettings F) (featureUpdateMicros : Int) : Prop :=
  ∀ windowSeconds ∈ settings.featureWindowsSeconds,
    settings.featureWindowsSeconds.count windowSeconds *
        ((settings.zscoreLookbackSeconds * 1000000 - 1) / featureUpdateMicros) + 1 ≤
      (historyItems settings.zscoreLookbackSeconds featureUpdateMicros : Int)

theorem mul_le_nearestFloat {x : Rat} (hx : 0 ≤ x) : x * (1 - 1 / 2 ^ 53) ≤ nearestFloat x := by
  have hle : x * (1 - (2 : ℕ) ^ (1 - (53 : ℕ) : ℤ) / 2) ≤ nearestFloat x := mul_le_roundTo one_lt_two hx
  norm_num at hle ⊢
  exact hle

theorem nearestFloat_le_mul {x : Rat} (hx : 0 ≤ x) : nearestFloat x ≤ x * (1 + 1 / 2 ^ 53) := by
  have hle : nearestFloat x ≤ x * (1 + (2 : ℕ) ^ (1 - (53 : ℕ) : ℤ) / 2) := roundTo_le_mul one_lt_two hx
  norm_num at hle ⊢
  exact hle

/-- The three roundings take less than one off a quotient of at most fifty bits. -/
theorem sub_one_le_quotient {x y : Rat} (hx : 0 < x) (hy : 0 < y) (hbound : x / y ≤ 2 ^ 50) :
    x / y - 1 ≤ nearestFloat (nearestFloat x / nearestFloat y) := by
  have hxFloat := mul_le_nearestFloat hx.le
  have hyFloat := mul_le_nearestFloat hy.le
  have hfactor : (0 : Rat) < 1 - 1 / 2 ^ 53 := by norm_num
  have hxPos : 0 < nearestFloat x := (mul_pos hx hfactor).trans_le hxFloat
  have hyPos : 0 < nearestFloat y := (mul_pos hy hfactor).trans_le hyFloat
  have hratio : x / y * ((1 - 1 / 2 ^ 53) / (1 + 1 / 2 ^ 53)) ≤ nearestFloat x / nearestFloat y := by
    rw [div_mul_div_comm]
    exact div_le_div₀ hxPos.le hxFloat hyPos (nearestFloat_le_mul hy.le)
  have hquotient := mul_le_nearestFloat (div_pos hxPos hyPos).le
  have hloss : (1 : Rat) - 1 / 2 ^ 50 ≤ (1 - 1 / 2 ^ 53) / (1 + 1 / 2 ^ 53) * (1 - 1 / 2 ^ 53) := by
    norm_num
  have hpos : 0 < x / y := div_pos hx hy
  calc x / y - 1 ≤ x / y * (1 - 1 / 2 ^ 50) := by linarith
    _ ≤ x / y * ((1 - 1 / 2 ^ 53) / (1 + 1 / 2 ^ 53) * (1 - 1 / 2 ^ 53)) :=
      mul_le_mul_of_nonneg_left hloss hpos.le
    _ = x / y * ((1 - 1 / 2 ^ 53) / (1 + 1 / 2 ^ 53)) * (1 - 1 / 2 ^ 53) := by ring
    _ ≤ nearestFloat x / nearestFloat y * (1 - 1 / 2 ^ 53) :=
      mul_le_mul_of_nonneg_right hratio hfactor.le
    _ ≤ nearestFloat (nearestFloat x / nearestFloat y) := hquotient

/-- Windows that are each configured once fit. -/
theorem fits_of_nodup {settings : CrossVenueSettings F} {featureUpdateMicros : Int}
    (hupdate : 0 < featureUpdateMicros) (hlookback : 0 < settings.zscoreLookbackSeconds)
    (hbound : settings.zscoreLookbackSeconds * 1000000 ≤ 2 ^ 50 * featureUpdateMicros)
    (h : settings.featureWindowsSeconds.Nodup) : Fits settings featureUpdateMicros := by
  intro windowSeconds hwindow
  rw [List.count_eq_one_of_mem h hwindow, Nat.cast_one, one_mul]
  unfold historyItems
  dsimp only
  set ticks := (settings.zscoreLookbackSeconds * 1000000 - 1) / featureUpdateMicros
  have hpos : (0 : Rat) < featureUpdateMicros := by exact_mod_cast hupdate
  have hseconds : (0 : Rat) < featureUpdateMicros / 1000000 := by positivity
  have hquotient : (settings.zscoreLookbackSeconds : Rat) / (featureUpdateMicros / 1000000) =
      settings.zscoreLookbackSeconds * 1000000 / featureUpdateMicros := by
    field_simp
  have hticks : (ticks : Rat) ≤ settings.zscoreLookbackSeconds * 1000000 / featureUpdateMicros := by
    have hmul : ticks * featureUpdateMicros ≤ settings.zscoreLookbackSeconds * 1000000 - 1 :=
      Int.ediv_mul_le _ hupdate.ne'
    rw [le_div_iff₀ hpos]
    exact_mod_cast hmul.trans (sub_le_self _ zero_le_one)
  have hle := sub_one_le_quotient (x := settings.zscoreLookbackSeconds) (by exact_mod_cast hlookback)
    hseconds (by
      rw [hquotient, div_le_iff₀ hpos]
      exact_mod_cast hbound)
  rw [hquotient] at hle
  -- the roundings lose less than one interval, and the bound has one to spare
  have hfloor : ticks - 1 ≤ ⌊nearestFloat (nearestFloat settings.zscoreLookbackSeconds /
      nearestFloat (featureUpdateMicros / 1000000))⌋ := by
    rw [Int.le_floor]
    push_cast
    linarith
  omega

section

variable {engine : CrossVenueFeatureEngine F} {featureUpdateMicros : Int} {last : Option Int}

/-- After a tick the bounded candidates of a configured symbol and window are as good as all. -/
theorem asGoodAs_candidates (hupdate : 0 < featureUpdateMicros)
    (hlookback : 0 < engine.settings.zscoreLookbackSeconds) (hfits : Fits engine.settings featureUpdateMicros)
    {bounded full : RuntimeHistory F}
    (hbounds : Bounds (historyItems engine.settings.zscoreLookbackSeconds featureUpdateMicros) bounded full)
    (hticked : Ticked engine.settings.featureWindowsSeconds featureUpdateMicros last full) {decision : Int}
    (hlast : ∀ before ∈ last, before < decision ∧ featureUpdateMicros ∣ decision - before)
    {states : List (Exchange × String)} (hstates : states.Nodup)
    (single : Exchange → String → Int → FeatureSnapshot F) {symbol : String} {windowSeconds : Int}
    (hsymbol : (.binance, symbol) ∈ states ∧ (.okx, symbol) ∈ states)
    (hwindow : windowSeconds ∈ engine.settings.featureWindowsSeconds) :
    let computed := calculateAll engine.settings.featureWindowsSeconds decision states single
    AsGoodAs (engine.settings.zscoreLookbackSeconds * 1000000) decision symbol windowSeconds
      ((computed.foldl (append
        (some (historyItems engine.settings.zscoreLookbackSeconds featureUpdateMicros))) bounded).candidates
          symbol windowSeconds)
      ((computed.foldl (append none) full).candidates symbol windowSeconds) := by
  intro computed
  have hafter := hbounds.foldl_append computed
  have hcount : 0 < engine.settings.featureWindowsSeconds.count windowSeconds :=
    List.count_pos_iff.mpr hwindow
  -- what the key of a venue holds, and what is left of it
  have hvenue : ∀ exchange : Exchange, (exchange, symbol) ∈ states →
      ∃ ticks : List (FeatureSnapshot F), Spaced featureUpdateMicros (some decision) ticks ∧
        (∀ snapshot ∈ ticks, historyKey snapshot = (exchange, symbol, windowSeconds)) ∧
        ticks.getLast? = some (snapshotAt decision single exchange symbol windowSeconds) ∧
        (∀ snapshot, snapshot ∈ (computed.foldl (append none) full).history
          (exchange, symbol, windowSeconds) ↔ snapshot ∈ ticks) ∧
        ∀ snapshot ∈ ticks, decision - engine.settings.zscoreLookbackSeconds * 1000000 <
          snapshot.decisionTimestamp → snapshot ∈ (computed.foldl (append (some (historyItems
            engine.settings.zscoreLookbackSeconds featureUpdateMicros))) bounded).history
              (exchange, symbol, windowSeconds) := by
    intro exchange hstate
    obtain ⟨ticks, hticks, hspaced, hkeys, hcurrent⟩ :=
      hticked.featureTick hlast hstates single (exchange, symbol, windowSeconds)
    have hnewest := hcurrent hstate
    refine ⟨ticks, hspaced, hkeys, hnewest, ?_, ?_⟩
    · intro snapshot
      rw [hticks]
      exact ⟨mem_copies, mem_copies_of_pos hcount⟩
    · intro snapshot hsnapshot hinside
      rw [hafter.history, hticks]
      apply mem_newest_copies hupdate hcount (hfits windowSeconds hwindow) hspaced _ hsnapshot hinside
      intro newest hin
      rw [hnewest] at hin
      obtain rfl := Option.some.inj hin
      rfl
  obtain ⟨binance, hbinance, hbinanceKeys, hbinanceLast, hbinanceMem, hbinanceKept⟩ := hvenue .binance hsymbol.1
  obtain ⟨okx, hokx, hokxKeys, hokxLast, hokxMem, hokxKept⟩ := hvenue .okx hsymbol.2
  have hall : ∀ snapshot, snapshot ∈ (computed.foldl (append none) full).candidates symbol windowSeconds ↔
      snapshot ∈ binance ∨ snapshot ∈ okx := by
    intro snapshot
    rw [candidates, List.mem_append, hbinanceMem, hokxMem]
  have hbinanceVenue : ∀ snapshot ∈ binance, snapshot.exchange = .binance :=
    fun snapshot hin => congrArg Prod.fst (hbinanceKeys snapshot hin)
  have hokxVenue : ∀ snapshot ∈ okx, snapshot.exchange = .okx :=
    fun snapshot hin => congrArg Prod.fst (hokxKeys snapshot hin)
  have hinside : decision - engine.settings.zscoreLookbackSeconds * 1000000 < decision := by linarith
  refine ⟨?_, ?_, ?_, ?_, ?_⟩
  · intro snapshot hkept
    rw [candidates, List.mem_append, hafter.history, hafter.history] at hkept
    exact List.mem_append.mpr (hkept.imp (fun h => (newest_suffix _ _).subset h)
      fun h => (newest_suffix _ _).subset h)
  · intro snapshot hin hrecent
    rcases (hall snapshot).mp hin with hin | hin
    · exact List.mem_append_left _ (hbinanceKept snapshot hin hrecent)
    · exact List.mem_append_right _ (hokxKept snapshot hin hrecent)
  · intro a ha b hb hexchange htime
    rcases (hall a).mp ha with ha | ha <;> rcases (hall b).mp hb with hb | hb
    · exact hbinance.eq_of_time hupdate ha hb htime
    · rw [hbinanceVenue a ha, hokxVenue b hb] at hexchange
      cases hexchange
    · rw [hokxVenue a ha, hbinanceVenue b hb] at hexchange
      cases hexchange
    · exact hokx.eq_of_time hupdate ha hb htime
  · intro snapshot hin
    have hbehind : ∃ tick ∈ some decision, snapshot.decisionTimestamp ≤ tick :=
      ((hall snapshot).mp hin).elim (hbinance.behind snapshot) (hokx.behind snapshot)
    obtain ⟨tick, htick, hle⟩ := hbehind
    exact (Option.some.inj htick) ▸ hle
  · intro exchange hexchange
    refine ⟨snapshotAt decision single exchange symbol windowSeconds, ?_, rfl, rfl, rfl, rfl⟩
    rcases hexchange with rfl | rfl
    · exact List.mem_append_left _
        (hbinanceKept _ (List.mem_of_getLast? hbinanceLast) hinside)
    · exact List.mem_append_right _ (hokxKept _ (List.mem_of_getLast? hokxLast) hinside)

theorem run_eq [Zero F] [One F] [Neg F] [Add F] [Sub F] [Div F] [LinearOrder F]
    (hupdate : 0 < featureUpdateMicros) (hlookback : 0 < engine.settings.zscoreLookbackSeconds)
    (hfits : Fits engine.settings featureUpdateMicros) {bounded full : RuntimeHistory F}
    (hbounds : Bounds (historyItems engine.settings.zscoreLookbackSeconds featureUpdateMicros) bounded full)
    (hticked : Ticked engine.settings.featureWindowsSeconds featureUpdateMicros last full)
    {steps : List (RuntimeStep F)}
    (hgrid : OnGrid engine.settings.canonicalSymbols featureUpdateMicros last steps) :
    run engine (some (historyItems engine.settings.zscoreLookbackSeconds featureUpdateMicros)) bounded steps =
      run engine none full steps := by
  induction steps generalizing bounded full last with
  | nil => rfl
  | cons next later ih =>
    cases next with
    | bookEvent exchange symbol generation =>
      exact congrArg (List.cons []) (ih (hbounds.consumeBookEvent exchange symbol generation)
        (hticked.consumeBookEvent exchange symbol generation) hgrid)
    | signalTick => exact congrArg (List.cons []) (ih hbounds hticked hgrid)
    | featureTick decision states single =>
      obtain ⟨hlast, hstates, hsymbols, hrest⟩ := hgrid
      have hafter := hbounds.foldl_append
        (calculateAll engine.settings.featureWindowsSeconds decision states single)
      have htick : Ticked engine.settings.featureWindowsSeconds featureUpdateMicros (some decision)
          ((calculateAll engine.settings.featureWindowsSeconds decision states single).foldl (append none)
            full) := by
        intro key
        obtain ⟨ticks, hticks, hspaced, hkeys, -⟩ := hticked.featureTick hlast hstates single key
        exact ⟨ticks, hticks, hspaced, hkeys⟩
      -- a pair reads the deques through its candidates only
      have hcrosses : ((calculateAll engine.settings.featureWindowsSeconds decision states single).foldl
          (append (some (historyItems engine.settings.zscoreLookbackSeconds featureUpdateMicros)))
            bounded).crosses engine decision =
          ((calculateAll engine.settings.featureWindowsSeconds decision states single).foldl (append none)
            full).crosses engine decision := by
        unfold crosses
        apply List.flatMap_congr
        intro symbol hsymbol
        apply List.map_congr_left
        intro windowSeconds hwindow
        exact (asGoodAs_candidates hupdate hlookback hfits hbounds hticked hlast hstates single
          (hsymbols symbol hsymbol) hwindow).calculate_eq engine
      show _ :: _ = _ :: _
      rw [ih hafter htick hrest]
      exact congrArg (List.cons · _) hcrosses

end

end RuntimeHistory

/-- Where the bounded deques have room for all copies of the ticks of a lookback, in particular where no
window is configured twice, every run over the grid computes the same crosses as with unbounded ones. -/
theorem bounded_history_loses_nothing {F : Type} [Zero F] [One F] [Neg F] [Add F] [Sub F] [Div F]
    [LinearOrder F] (engine : CrossVenueFeatureEngine F) (featureUpdateMicros : Int)
    (hupdate : 0 < featureUpdateMicros) (hlookback : 0 < engine.settings.zscoreLookbackSeconds)
    (hfits : RuntimeHistory.Fits engine.settings featureUpdateMicros) (steps : List (RuntimeStep F))
    (hgrid : OnGrid engine.settings.canonicalSymbols featureUpdateMicros none steps) :
    RuntimeHistory.run engine
        (some (RuntimeHistory.historyItems engine.settings.zscoreLookbackSeconds featureUpdateMicros))
        RuntimeHistory.start steps =
      RuntimeHistory.run engine none RuntimeHistory.start steps :=
  RuntimeHistory.run_eq hupdate hlookback hfits (.start _) (.start _ _) hgrid

/-! ### A window configured three times -/

namespace RuntimeHistory

theorem calculate_of_valid {F : Type} [Zero F] [One F] [Neg F] [Add F] [Sub F] [Div F] [LinearOrder F]
    {engine : CrossVenueFeatureEngine F} {snapshots : List (FeatureSnapshot F)} {symbol : String}
    {decision windowSeconds : Int} (hwindow : windowSeconds ∈ engine.settings.featureWindowsSeconds)
    (hfinite : (engine.assemble (relevantSnapshots snapshots symbol windowSeconds) symbol decision
      windowSeconds).checkedNumbers.all engine.math.isFinite = true)
    (hvalid : (engine.assemble (relevantSnapshots snapshots symbol windowSeconds) symbol decision
      windowSeconds).validateCrossVenueBoundaries = none) :
    engine.calculate snapshots symbol decision windowSeconds =
      .ok (engine.assemble (relevantSnapshots snapshots symbol windowSeconds) symbol decision
        windowSeconds) := by
  have hsorted : crossVenueCandidates snapshots symbol windowSeconds =
      sortByKey candidateKey (relevantSnapshots snapshots symbol windowSeconds) := rfl
  unfold CrossVenueFeatureEngine.calculate
  rw [if_pos hwindow, hsorted, assemble_sort]
  refine bind_eq_ok_iff.mpr ⟨(), FeatureMath.ensureFinite_ok_iff.mpr hfinite, ?_⟩
  rw [hvalid]

/-- Three seconds of lookback. -/
def exampleEngine (windows : List Int) : CrossVenueFeatureEngine ℚ :=
  { CrossVenueFeatureEngine.exampleCrossVenueEngine with
    settings :=
      { CrossVenueFeatureEngine.exampleCrossVenueSettings with
        featureWindowsSeconds := windows
        zscoreLookbackSeconds := 3 } }

/-- A tick of the two venues, each snapshot with an id of its own. -/
def exampleTick (second : Nat) : RuntimeStep ℚ :=
  .featureTick (second * 1000000) [(.binance, "BTC-USDT-PERP"), (.okx, "BTC-USDT-PERP")]
    fun exchange _ _ =>
      if exchange = .binance then
        CrossVenueFeatureEngine.exampleVenueSnapshot .binance (2 * second % 2 ^ 128)
          (Nat.mod_lt _ (by norm_num)) (second * 1000000) 100
      else
        CrossVenueFeatureEngine.exampleVenueSnapshot .okx ((2 * second + 1) % 2 ^ 128)
          (Nat.mod_lt _ (by norm_num)) (second * 1000000) 101

/-- What the two ticks leave behind. -/
def exampleAfter (maxlen : Option Nat) : RuntimeHistory ℚ :=
  ([2, 4].map exampleTick).foldl (fun runtime next => (step (exampleEngine [5, 5, 5]) maxlen runtime next).1)
    start

def exampleCross (maxlen : Option Nat) : CrossVenueFeatureSnapshot ℚ :=
  (exampleEngine [5, 5, 5]).assemble
    (relevantSnapshots ((exampleAfter maxlen).candidates "BTC-USDT-PERP" 5) "BTC-USDT-PERP" 5)
    "BTC-USDT-PERP" 4000000 5

/-- At the fourth second, three copies of it fill the deque, and the tick before is gone from the history:
it has no pair instead of one. -/
theorem window_configured_three_times_loses_history :
    OnGrid ["BTC-USDT-PERP"] 2000000 none ([2, 4].map exampleTick) ∧
      run (exampleEngine [5, 5, 5]) (some (historyItems 3 2000000)) start ([2, 4].map exampleTick) ≠
        run (exampleEngine [5, 5, 5]) none start ([2, 4].map exampleTick) := by
  constructor
  · simp [exampleTick, OnGrid]
  · intro hsame
    have hitems : historyItems 3 2000000 = 3 := by decide +kernel
    rw [hitems] at hsame
    have hcross (maxlen : Option Nat)
        (hfinite : (exampleCross maxlen).checkedNumbers.all
          CrossVenueFeatureEngine.exampleFeatureMath.isFinite = true)
        (hvalid : (exampleCross maxlen).validateCrossVenueBoundaries = none) :
        (run (exampleEngine [5, 5, 5]) maxlen start ([2, 4].map exampleTick)).getLast?.bind List.head? =
          some (.ok (exampleCross maxlen)) :=
      congrArg some (calculate_of_valid (List.mem_cons_self) hfinite hvalid)
    have hpairs : some (Except.ok (exampleCross (some 3))) =
        some (Except.ok (exampleCross none) : Except String _) := by
      rw [← hcross (some 3) (by decide +kernel) (by decide +kernel),
        ← hcross none (by decide +kernel) (by decide +kernel)]
      exact congrArg (fun outputs => outputs.getLast?.bind List.head?) hsame
    have hcounts := congrArg (·.spreadHistoryPairCount) (Except.ok.inj (Option.some.inj hpairs))
    revert hcounts
    decide +kernel

end RuntimeHistory

/-- The same ticks, with the window configured once. -/
theorem bounded_history_loses_nothing_once :
    RuntimeHistory.run (RuntimeHistory.exampleEngine [5]) (some (RuntimeHistory.historyItems 3 2000000))
        RuntimeHistory.start ([2, 4].map RuntimeHistory.exampleTick) =
      RuntimeHistory.run (RuntimeHistory.exampleEngine [5]) none RuntimeHistory.start
        ([2, 4].map RuntimeHistory.exampleTick) :=
  bounded_history_loses_nothing (RuntimeHistory.exampleEngine [5]) 2000000 (by norm_num)
    (show (0 : Int) < 3 by norm_num)
    (RuntimeHistory.fits_of_nodup (by norm_num) (show (0 : Int) < 3 by norm_num)
      (show (3 : Int) * 1000000 ≤ 2 ^ 50 * 2000000 by norm_num) (show [(5 : Int)].Nodup by decide)) _
    (by simp [RuntimeHistory.exampleTick, OnGrid, RuntimeHistory.exampleEngine,
      CrossVenueFeatureEngine.exampleCrossVenueSettings])

end Cvf
