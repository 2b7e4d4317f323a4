/-
# Cvf.Features.Retention — what is still there when the features ask for it.

`calculate` reads each window over `(decision - 2 w, decision]` for a feature window `w`, and the prices over
the period of the ATR and the breakout lookback too.  The validator of the configuration compares the
retention with the lookbacks and with four lists of windows, but not with `timing.feature_windows_seconds`,
which are the windows `calculate` runs on.  The interval a feature window needs is kept exactly when the
retention is twice the window (`retainsQueries_iff`).

Every window of a state follows the same law: one event is at most one append at the event's time
(`windowwise_ingest`), and what an append drops without being over the cap has left the retention
(`carries_append`).  An item that is accepted is in its window afterwards (`mem_of_accepted`), so what a
window ever held is what it ever accepted.
-/
import Cvf.Features.Rejection
import Cvf.Features.RollingQueries

namespace Cvf

/-! ## Windows over time -/

namespace BoundedTimeWindow

variable {α : Type}

/-- `after` is `window` some appends later: unless it went over its cap, it still holds every item of
`window` above the cutoff. -/
structure Carries (window after : BoundedTimeWindow α) : Prop where
  bounds : after.bounds = window.bounds
  evictions : window.capacityEvictions ≤ after.capacityEvictions
  forward : ∀ mark ∈ window.watermark, ∃ mark' ∈ after.watermark, mark ≤ mark'
  kept : after.capacityEvictions = 0 → ∀ item ∈ window.items,
    (∀ mark ∈ after.watermark, mark - window.bounds.retention < item.timestamp) →
      item ∈ after.items

theorem Carries.refl (window : BoundedTimeWindow α) : window.Carries window where
  bounds := rfl
  evictions := le_rfl
  forward := fun mark hmark => ⟨mark, hmark, le_rfl⟩
  kept := fun _ _ hitem _ => hitem

theorem Carries.trans {a b c : BoundedTimeWindow α} (h : a.Carries b) (h' : b.Carries c) :
    a.Carries c where
  bounds := h'.bounds.trans h.bounds
  evictions := h.evictions.trans h'.evictions
  forward := by
    intro mark hmark
    obtain ⟨mark', hmark', hle⟩ := h.forward mark hmark
    obtain ⟨mark'', hmark'', hle'⟩ := h'.forward mark' hmark'
    exact ⟨mark'', hmark'', hle.trans hle'⟩
  kept := by
    intro hroom item hitem habove
    have hroom' : b.capacityEvictions = 0 := Nat.le_zero.mp (hroom ▸ h'.evictions)
    have hmiddle : item ∈ b.items := by
      apply h.kept hroom' item hitem
      intro mark hmark
      obtain ⟨mark', hmark', hle⟩ := h'.forward mark hmark
      have := habove mark' hmark'
      omega
    apply h'.kept hroom item hmiddle
    rw [h.bounds]
    exact habove

theorem append_capacityEvictions {window : BoundedTimeWindow α} {timestamp : Int} (value : α)
    (haccepted : window.admissibility timestamp = .accepted) :
    (window.append timestamp value).1.capacityEvictions = window.capacityEvictions +
      evicted window.bounds (window.advanced timestamp)
        (window.entered (window.nextItem timestamp value)) := by
  unfold append
  split
  · rename_i h
    simp [haccepted] at h
  · rename_i h
    simp [haccepted] at h
  · rfl

theorem append_refused_capacityEvictions {window : BoundedTimeWindow α} {timestamp : Int} (value : α)
    (hrefused : window.admissibility timestamp ≠ .accepted) :
    (window.append timestamp value).1.capacityEvictions = window.capacityEvictions := by
  unfold append
  split
  · rfl
  · rfl
  · rename_i h
    exact absurd h hrefused

theorem mem_entered (window : BoundedTimeWindow α) (item entry : TimedValue α) :
    entry ∈ window.entered item ↔ entry = item ∨ entry ∈ window.items := by
  unfold entered
  split_ifs
  · rw [List.mem_append, List.mem_singleton, or_comm]
  · rw [(insertItem_perm ..).mem_iff, List.mem_cons]

theorem le_advanced {window : BoundedTimeWindow α} {timestamp : Int} :
    timestamp ≤ window.advanced timestamp ∧
      ∀ mark ∈ window.watermark, mark ≤ window.advanced timestamp := by
  unfold advanced
  cases window.watermark with
  | none => simp
  | some mark =>
    simp only [Option.mem_some_iff, forall_eq']
    split_ifs with hlate
    · exact ⟨hlate.le, le_rfl⟩
    · exact ⟨le_rfl, not_lt.mp hlate⟩

/-- Without an eviction an accepted append keeps the entered items above the cutoff. -/
theorem mem_append_of_room {window : BoundedTimeWindow α} {timestamp : Int} {value : α}
    (haccepted : window.admissibility timestamp = .accepted)
    (hroom : (window.append timestamp value).1.capacityEvictions = 0) {item : TimedValue α}
    (hitem : item = window.nextItem timestamp value ∨ item ∈ window.items)
    (habove : window.advanced timestamp - window.bounds.retention < item.timestamp) :
    item ∈ (window.append timestamp value).1.items := by
  have hentered := (window.mem_entered (window.nextItem timestamp value) item).mpr hitem
  have hsorted := (window.entered_spec timestamp value haccepted).sorted
  rw [append_capacityEvictions value haccepted] at hroom
  have hnone := (Nat.add_eq_zero_iff.mp hroom).2
  unfold evicted at hnone
  rw [(append_of_accepted value haccepted).2.1, pruned, hnone, List.drop_zero,
    dropWhile_eq_filter_of_sorted hsorted]
  exact List.mem_filter.mpr ⟨hentered, decide_eq_true habove⟩

/-- An accepted item is in the window, unless the window is over its cap. -/
theorem mem_of_accepted {window : BoundedTimeWindow α} {timestamp : Int} {value : α}
    (haccepted : window.admissibility timestamp = .accepted)
    (hroom : (window.append timestamp value).1.capacityEvictions = 0) :
    window.nextItem timestamp value ∈ (window.append timestamp value).1.items := by
  apply mem_append_of_room haccepted hroom (.inl rfl)
  show window.advanced timestamp - window.bounds.retention < timestamp
  have hpos := window.bounds.retention_pos
  rcases window.forward_or_late timestamp with hforward | ⟨watermark, hmark, hlate⟩
  · rw [advanced_of_forward hforward]
    omega
  · have hadvanced : window.advanced timestamp = watermark := by
      simp only [advanced, hmark, if_pos hlate]
    by_contra hexpired
    rw [hadvanced, not_lt] at hexpired
    simp only [admissibility, hmark, if_pos hlate, if_pos hexpired] at haccepted
    cases haccepted

/-- An accepted append prunes what the retention no longer covers. -/
theorem lt_of_mem_append {window : BoundedTimeWindow α} {timestamp : Int} {value : α}
    (haccepted : window.admissibility timestamp = .accepted) {item : TimedValue α}
    (hitem : item ∈ (window.append timestamp value).1.items) :
    timestamp - window.bounds.retention < item.timestamp := by
  obtain ⟨-, -, hmark, -, hbounds⟩ := append_of_accepted value haccepted
  have habove := (window.append timestamp value).1.retained.above_cutoff item hitem _ hmark
  rw [hbounds] at habove
  have := (le_advanced : timestamp ≤ window.advanced timestamp ∧ _).1
  omega

theorem carries_append (window : BoundedTimeWindow α) (timestamp : Int) (value : α) :
    window.Carries (window.append timestamp value).1 := by
  by_cases haccepted : window.admissibility timestamp = .accepted
  · have hmark := (append_of_accepted value haccepted).2.2.1
    refine ⟨append_bounds .., ?_, ?_, ?_⟩
    · rw [append_capacityEvictions value haccepted]
      exact Nat.le_add_right _ _
    · intro mark hold
      exact ⟨_, hmark, le_advanced.2 mark hold⟩
    · intro hroom item hitem habove
      exact mem_append_of_room haccepted hroom (.inr hitem) (habove _ hmark)
  · obtain ⟨-, hitems, hmark, -⟩ := append_of_refused value haccepted
    refine ⟨append_bounds .., ?_, ?_, ?_⟩
    · rw [append_refused_capacityEvictions value haccepted]
    · intro mark hold
      exact ⟨mark, hmark.symm ▸ hold, le_rfl⟩
    · intro _ item hitem _
      rw [hitems]
      exact hitem

end BoundedTimeWindow

/-! ## The windows the features read -/

/-- A relation between the windows of two states, for each window `calculate` reads. -/
structure Windowwise (R : (α : Type) → BoundedTimeWindow α → BoundedTimeWindow α → Prop)
    (before after : VenueSymbolState) : Prop where
  trades : R _ before.trades after.trades
  prices : R _ before.prices after.prices
  openInterest : R _ before.openInterest after.openInterest
  fundingRates : R _ before.fundingRates after.fundingRates
  markPrices : R _ before.markPrices after.markPrices
  indexPrices : R _ before.indexPrices after.indexPrices
  liquidations : R _ before.liquidations after.liquidations
  bookHistory : R _ before.bookHistory after.bookHistory

namespace Windowwise

variable {R S T : (α : Type) → BoundedTimeWindow α → BoundedTimeWindow α → Prop}

theorem comp (hcomp : ∀ {α : Type} {a b c : BoundedTimeWindow α}, R α a b → S α b c → T α a c)
    {a b c : VenueSymbolState} (h : Windowwise R a b) (h' : Windowwise S b c) : Windowwise T a c where
  trades := hcomp h.trades h'.trades
  prices := hcomp h.prices h'.prices
  openInterest := hcomp h.openInterest h'.openInterest
  fundingRates := hcomp h.fundingRates h'.fundingRates
  markPrices := hcomp h.markPrices h'.markPrices
  indexPrices := hcomp h.indexPrices h'.indexPrices
  liquidations := hcomp h.liquidations h'.liquidations
  bookHistory := hcomp h.bookHistory h'.bookHistory

theorem mono (himp : ∀ {α : Type} {a b : BoundedTimeWindow α}, R α a b → S α a b)
    {a b : VenueSymbolState} (h : Windowwise R a b) : Windowwise S a b where
  trades := himp h.trades
  prices := himp h.prices
  openInterest := himp h.openInterest
  fundingRates := himp h.fundingRates
  markPrices := himp h.markPrices
  indexPrices := himp h.indexPrices
  liquidations := himp h.liquidations
  bookHistory := himp h.bookHistory

theorem and {a b : VenueSymbolState} (h : Windowwise R a b) (h' : Windowwise S a b) :
    Windowwise (fun α before after => R α before after ∧ S α before after) a b where
  trades := ⟨h.trades, h'.trades⟩
  prices := ⟨h.prices, h'.prices⟩
  openInterest := ⟨h.openInterest, h'.openInterest⟩
  fundingRates := ⟨h.fundingRates, h'.fundingRates⟩
  markPrices := ⟨h.markPrices, h'.markPrices⟩
  indexPrices := ⟨h.indexPrices, h'.indexPrices⟩
  liquidations := ⟨h.liquidations, h'.liquidations⟩
  bookHistory := ⟨h.bookHistory, h'.bookHistory⟩

/-- What holds of the later windows, said of them as the earlier ones of another pair. -/
theorem first {P : (α : Type) → BoundedTimeWindow α → Prop} {a b : VenueSymbolState}
    (h : Windowwise (fun α _ after => P α after) a b) (c : VenueSymbolState) :
    Windowwise (fun α before _ => P α before) b c :=
  ⟨h.trades, h.prices, h.openInterest, h.fundingRates, h.markPrices, h.indexPrices, h.liquidations,
    h.bookHistory⟩

end Windowwise

/-- One event's change of a window: none, or one append at the event's time. -/
def AppendedAt (timestamp : Int) (α : Type) (before after : BoundedTimeWindow α) : Prop :=
  after = before ∨ ∃ value, after = (before.append timestamp value).1

/-- The windows of the two states are the same. -/
abbrev SameWindows : VenueSymbolState → VenueSymbolState → Prop :=
  Windowwise fun _ before after => after = before

theorem SameWindows.toAppendedAt {a b : VenueSymbolState} (h : SameWindows a b) (timestamp : Int) :
    Windowwise (AppendedAt timestamp) a b := h.mono Or.inl

theorem SameWindows.appendedAt {timestamp : Int} {a b c : VenueSymbolState} (h : SameWindows a b)
    (h' : Windowwise (AppendedAt timestamp) b c) : Windowwise (AppendedAt timestamp) a c := by
  apply Windowwise.comp _ h h'
  rintro α a b c rfl hbc
  exact hbc

theorem Windowwise.same {timestamp : Int} {a b c : VenueSymbolState}
    (h : Windowwise (AppendedAt timestamp) a b) (h' : SameWindows b c) :
    Windowwise (AppendedAt timestamp) a c := by
  apply Windowwise.comp _ h h'
  rintro α a b c hab rfl
  exact hab

namespace VenueSymbolState

variable (digest : SourceDigest) (config : FeaturesConfig)

theorem sameWindows_refl (state : VenueSymbolState) : SameWindows state state :=
  ⟨rfl, rfl, rfl, rfl, rfl, rfl, rfl, rfl⟩

theorem sameWindows_reject (state : VenueSymbolState) (status : StateUpdateStatus)
    (reason : Option String) : SameWindows state (state.reject status reason).1 :=
  ⟨rfl, rfl, rfl, rfl, rfl, rfl, rfl, rfl⟩

theorem sameWindows_settle (state : VenueSymbolState) (event : NormalizedMarketEvent)
    (status : StateUpdateStatus) : SameWindows state (state.settle event status).1 := by
  unfold settle
  split_ifs
  · cases event <;> exact ⟨rfl, rfl, rfl, rfl, rfl, rfl, rfl, rfl⟩
  · exact ⟨rfl, rfl, rfl, rfl, rfl, rfl, rfl, rfl⟩

theorem sameWindows_withBook (state : VenueSymbolState) (book : FeatureOrderBookState) :
    SameWindows state (state.withBook book) := by
  unfold withBook
  split <;> exact ⟨rfl, rfl, rfl, rfl, rfl, rfl, rfl, rfl⟩

theorem sameWindows_applyBook (state : VenueSymbolState) (event : NormalizedMarketEvent) :
    SameWindows state (state.applyBook digest event).1 := by
  have htrans : ∀ {a b c : VenueSymbolState}, SameWindows a b → SameWindows b c →
      SameWindows a c := by
    intro a b c h h'
    apply Windowwise.comp _ h h'
    rintro α a b c rfl rfl
    rfl
  cases event with
  | orderBookSnapshot snapshot =>
    apply htrans (sameWindows_withBook state (state.orderBook.applySnapshot digest snapshot).1)
    simp only [applyBook, applySnapshot]
    split <;> exact ⟨rfl, rfl, rfl, rfl, rfl, rfl, rfl, rfl⟩
  | orderBookUpdate update =>
    apply htrans (sameWindows_withBook state (state.orderBook.applyUpdate digest update).1)
    simp only [applyBook, applyUpdate]
    split
    · split
      · split <;> exact ⟨rfl, rfl, rfl, rfl, rfl, rfl, rfl, rfl⟩
      · exact ⟨rfl, rfl, rfl, rfl, rfl, rfl, rfl, rfl⟩
    · exact ⟨rfl, rfl, rfl, rfl, rfl, rfl, rfl, rfl⟩
  | _ => exact sameWindows_refl state

theorem windowwise_appendScalar (state : VenueSymbolState) (event : NormalizedMarketEvent) :
    Windowwise (AppendedAt event.base.exchangeTimestamp) state (state.appendScalar event).1 := by
  cases event with
  | trade trade =>
    show Windowwise (AppendedAt trade.exchangeTimestamp) state (state.appendTrade trade).1
    unfold appendTrade
    dsimp only
    split
    · exact ⟨.inr ⟨_, rfl⟩, .inr ⟨_, rfl⟩, .inl rfl, .inl rfl, .inl rfl, .inl rfl, .inl rfl,
        .inl rfl⟩
    · exact ⟨.inr ⟨_, rfl⟩, .inl rfl, .inl rfl, .inl rfl, .inl rfl, .inl rfl, .inl rfl, .inl rfl⟩
  | markPrice mark =>
    show Windowwise (AppendedAt mark.exchangeTimestamp) state (state.appendMarkPrice mark).1
    unfold appendMarkPrice
    dsimp only
    split
    · exact ⟨.inl rfl, .inr ⟨_, rfl⟩, .inl rfl, .inl rfl, .inr ⟨_, rfl⟩, .inl rfl, .inl rfl,
        .inl rfl⟩
    · exact ⟨.inl rfl, .inl rfl, .inl rfl, .inl rfl, .inr ⟨_, rfl⟩, .inl rfl, .inl rfl, .inl rfl⟩
  | bestBidAsk quote =>
    exact ⟨.inl rfl, .inr ⟨_, rfl⟩, .inl rfl, .inl rfl, .inl rfl, .inl rfl, .inl rfl, .inl rfl⟩
  | openInterest interest =>
    exact ⟨.inl rfl, .inl rfl, .inr ⟨_, rfl⟩, .inl rfl, .inl rfl, .inl rfl, .inl rfl, .inl rfl⟩
  | fundingRate rate =>
    exact ⟨.inl rfl, .inl rfl, .inl rfl, .inr ⟨_, rfl⟩, .inl rfl, .inl rfl, .inl rfl, .inl rfl⟩
  | indexPrice index =>
    exact ⟨.inl rfl, .inl rfl, .inl rfl, .inl rfl, .inl rfl, .inr ⟨_, rfl⟩, .inl rfl, .inl rfl⟩
  | liquidation liquidation =>
    exact ⟨.inl rfl, .inl rfl, .inl rfl, .inl rfl, .inl rfl, .inl rfl, .inr ⟨_, rfl⟩, .inl rfl⟩
  | _ => exact (sameWindows_refl state).toAppendedAt _

/-- One event appends at most once to each window, at its own time. -/
theorem windowwise_ingest (state : VenueSymbolState) (event : NormalizedMarketEvent) :
    Windowwise (AppendedAt event.base.exchangeTimestamp) state
      (state.ingest digest config event).1 := by
  have hbook : Windowwise (AppendedAt event.base.exchangeTimestamp) state
      (state.ingestBook digest config event).1 := by
    have happlied := sameWindows_applyBook digest state event
    unfold ingestBook
    dsimp only
    split_ifs
    · exact (sameWindows_reject ..).toAppendedAt _
    · exact happlied.appendedAt ((sameWindows_reject ..).toAppendedAt _)
    · exact happlied.appendedAt ((sameWindows_reject ..).toAppendedAt _)
    · -- the checkpoint is the one append
      apply happlied.appendedAt
      unfold recordBook
      dsimp only
      apply Windowwise.same _ (sameWindows_settle ..)
      exact ⟨.inl rfl, .inl rfl, .inl rfl, .inl rfl, .inl rfl, .inl rfl, .inl rfl, .inr ⟨_, rfl⟩⟩
  have hscalar : Windowwise (AppendedAt event.base.exchangeTimestamp) state
      ((state.appendScalar event).1.settle event (state.appendScalar event).2).1 :=
    (windowwise_appendScalar state event).same (sameWindows_settle ..)
  cases event with
  | orderBookSnapshot snapshot => exact hbook
  | orderBookUpdate update => exact hbook
  | _ => exact hscalar

end VenueSymbolState

/-! ## Runs of a store -/

/-- Every item of the window is at or before the decision. -/
def BoundedTimeWindow.Through {α : Type} (decision : Int) (window : BoundedTimeWindow α) : Prop :=
  ∀ item ∈ window.items, item.timestamp ≤ decision

theorem AppendedAt.through {timestamp decision : Int} {α : Type} {before after : BoundedTimeWindow α}
    (h : AppendedAt timestamp α before after) (hle : timestamp ≤ decision)
    (hbefore : before.Through decision) : after.Through decision := by
  rcases h with rfl | ⟨value, rfl⟩
  · exact hbefore
  · intro item hitem
    rcases BoundedTimeWindow.append_mem hitem with hold | rfl
    · exact hbefore item hold
    · exact hle

/-- Nothing is evicted by the cap when the retention empties the window. -/
theorem AppendedAt.roomy {timestamp : Int} {α : Type} {before after : BoundedTimeWindow α}
    (h : AppendedAt timestamp α before after)
    (hold : before.Through (timestamp - before.bounds.retention)) :
    after.capacityEvictions = before.capacityEvictions := by
  rcases h with rfl | ⟨value, rfl⟩
  · rfl
  by_cases haccepted : before.admissibility timestamp = .accepted
  · have hpos := before.bounds.retention_pos
    have hforward : before.watermark.all (· ≤ timestamp) = true := by
      rw [forward_iff]
      intro mark hmark
      obtain ⟨last, hlast, rfl⟩ := BoundedTimeWindow.exists_getLast? hmark
      have := hold last (List.mem_of_getLast? hlast)
      omega
    have hentered : before.entered (before.nextItem timestamp value) =
        before.items ++ [before.nextItem timestamp value] := if_pos hforward
    have hgone : (before.items ++ [before.nextItem timestamp value]).dropWhile
        (·.timestamp ≤ timestamp - before.bounds.retention) = [before.nextItem timestamp value] := by
      rw [List.dropWhile_append_of_pos (fun item hitem => decide_eq_true (hold item hitem)),
        List.dropWhile_cons_of_neg]
      show ¬ decide (timestamp ≤ timestamp - before.bounds.retention) = true
      rw [decide_eq_true_iff]
      omega
    have hcap := before.bounds.maximumItems_pos
    rw [BoundedTimeWindow.append_capacityEvictions value haccepted, hentered,
      BoundedTimeWindow.advanced_of_forward hforward, evicted, hgone, List.length_singleton,
      Nat.sub_eq_zero_of_le hcap]
    rfl
  · exact BoundedTimeWindow.append_refused_capacityEvictions value haccepted

theorem AppendedAt.carries {timestamp : Int} {α : Type} {before after : BoundedTimeWindow α}
    (h : AppendedAt timestamp α before after) : before.Carries after := by
  rcases h with rfl | ⟨value, rfl⟩
  · exact .refl _
  · exact before.carries_append timestamp value

namespace MarketStateStore

variable (digest : SourceDigest)

/-- One operation, none of whose events is after the decision, appends to each window at most once. -/
theorem windowwise_perform (store : MarketStateStore) {operation : StoreOperation} {decision : Int}
    (hpast : ∀ event, operation = .ingest event → event.base.exchangeTimestamp ≤ decision)
    (exchange : Exchange) (symbol : String) :
    ∃ timestamp ≤ decision, Windowwise (AppendedAt timestamp) (store.lookup exchange symbol)
      ((store.perform digest operation).lookup exchange symbol) := by
  rcases lookup_perform digest store operation exchange symbol with
    ⟨event, hoperation, -, -, -, hlookup⟩ | ⟨events, channels, hlookup⟩
  · refine ⟨_, hpast event hoperation, ?_⟩
    rw [hlookup]
    exact VenueSymbolState.windowwise_ingest ..
  · refine ⟨decision, le_rfl, ?_⟩
    rw [hlookup]
    apply SameWindows.toAppendedAt
    exact ⟨rfl, rfl, rfl, rfl, rfl, rfl, rfl, rfl⟩

/-- Through a run up to the decision each window carries what it held. -/
theorem windowwise_run (operations : List StoreOperation) (store : MarketStateStore) {decision : Int}
    (hpast : ∀ event, .ingest event ∈ operations → event.base.exchangeTimestamp ≤ decision)
    (exchange : Exchange) (symbol : String) :
    Windowwise (fun _ before after =>
        before.Carries after ∧ (before.Through decision → after.Through decision))
      (store.lookup exchange symbol)
      ((operations.foldl (perform digest) store).lookup exchange symbol) := by
  induction operations generalizing store with
  | nil =>
    apply (VenueSymbolState.sameWindows_refl _).mono
    rintro α a b rfl
    exact ⟨.refl _, id⟩
  | cons operation operations ih =>
    obtain ⟨timestamp, hle, hstep⟩ := windowwise_perform digest store
      (fun event hevent => hpast event (hevent ▸ List.mem_cons_self)) exchange symbol
    have hrest := ih (store.perform digest operation)
      fun event hevent => hpast event (List.mem_cons_of_mem _ hevent)
    apply Windowwise.comp _ hstep hrest
    rintro α a b c happended ⟨hcarries, hthrough⟩
    exact ⟨happended.carries.trans hcarries, fun ha => hthrough (happended.through hle ha)⟩

end MarketStateStore

/-! ## The configuration -/

/-- `Settings`: the windows of `timing`, the part of `features` the state reads, and the lookbacks
`validate_depth_weights` compares the retention with. -/
structure RetentionSettings where
  features : FeaturesConfig
  featureWindowsSeconds : List Int
  tradeImbalanceWindowsSeconds : List Int
  priceImpulseWindowsSeconds : List Int
  openInterestWindowsSeconds : List Int
  liquidationWindowsSeconds : List Int
  breakoutLookbackSeconds : Int
  atrPeriodSeconds : Int
  zscoreLookbackSeconds : Int
  spreadPercentileLookbackSeconds : Int
  featureWindows_nonempty : 1 ≤ featureWindowsSeconds.length
  breakoutLookback_pos : 0 < breakoutLookbackSeconds
  atrPeriod_pos : 0 < atrPeriodSeconds
  zscoreLookback_pos : 0 < zscoreLookbackSeconds
  spreadPercentileLookback_pos : 0 < spreadPercentileLookbackSeconds
  /-- `state_retention_seconds must cover every configured feature window` -/
  covers : (breakoutLookbackSeconds :: atrPeriodSeconds :: zscoreLookbackSeconds ::
      spreadPercentileLookbackSeconds ::
        (tradeImbalanceWindowsSeconds ++ priceImpulseWindowsSeconds ++ openInterestWindowsSeconds ++
          liquidationWindowsSeconds)).max (List.cons_ne_nil _ _) ≤
    features.stateRetentionSeconds

namespace RetentionSettings

theorem breakout_le (settings : RetentionSettings) :
    settings.breakoutLookbackSeconds ≤ settings.features.stateRetentionSeconds :=
  (List.le_max_of_mem List.mem_cons_self).trans settings.covers

theorem atr_le (settings : RetentionSettings) :
    settings.atrPeriodSeconds ≤ settings.features.stateRetentionSeconds :=
  (List.le_max_of_mem (List.mem_cons_of_mem _ List.mem_cons_self)).trans settings.covers

/-- What the queries of `calculate` for a window reach at a decision. -/
def Reached (settings : RetentionSettings) (windowSeconds decision timestamp : Int) : Prop :=
  timestamp ≤ decision ∧
    (decision - 2 * (windowSeconds * 1000000) < timestamp ∨
      decision - settings.atrPeriodSeconds * 1000000 < timestamp ∨
      decision - settings.breakoutLookbackSeconds * 1000000 < timestamp)

/-- For a feature window: in every run up to a decision in which no window goes over its cap, each window
still holds everything it ever held that the queries reach. -/
def RetainsQueries (digest : SourceDigest) (settings : RetentionSettings) (windowSeconds : Int) : Prop :=
  ∀ (earlier later : List MarketStateStore.StoreOperation) (decision : Int) (exchange : Exchange)
    (symbol : String),
    (∀ event, .ingest event ∈ earlier ++ later → event.base.exchangeTimestamp ≤ decision) →
    Windowwise (fun _ _ after => after.capacityEvictions = 0)
      ((MarketStateStore.run digest settings.features earlier).lookup exchange symbol)
      ((MarketStateStore.run digest settings.features (earlier ++ later)).lookup exchange symbol) →
    Windowwise (fun _ before after => ∀ item ∈ before.items,
        settings.Reached windowSeconds decision item.timestamp → item ∈ after.items)
      ((MarketStateStore.run digest settings.features earlier).lookup exchange symbol)
      ((MarketStateStore.run digest settings.features (earlier ++ later)).lookup exchange symbol)

/-! ## When the retention is enough -/

theorem reached_above {settings : RetentionSettings} {windowSeconds decision timestamp : Int}
    (henough : 2 * windowSeconds ≤ settings.features.stateRetentionSeconds)
    (hreached : settings.Reached windowSeconds decision timestamp) {mark : Int} (hmark : mark ≤ decision) :
    mark - settings.features.retention < timestamp := by
  have hbreakout := settings.breakout_le
  have hatr := settings.atr_le
  obtain ⟨-, hquery⟩ := hreached
  unfold FeaturesConfig.retention
  omega

/-- The windows of a state, after any run up to a decision, have the retention of the configuration and
nothing after the decision. -/
theorem held_run (digest : SourceDigest) (config : FeaturesConfig)
    (operations : List MarketStateStore.StoreOperation) {decision : Int}
    (hpast : ∀ event, .ingest event ∈ operations → event.base.exchangeTimestamp ≤ decision)
    (exchange : Exchange) (symbol : String) :
    Windowwise (fun _ _ after => after.bounds.retention = config.retention ∧ after.Through decision)
      (.create config exchange symbol)
      ((MarketStateStore.run digest config operations).lookup exchange symbol) := by
  have hrun := MarketStateStore.windowwise_run digest operations (.new config) hpast exchange symbol
  have hempty : ∀ {α : Type} (bounds : WindowBounds),
      (BoundedTimeWindow.empty bounds : BoundedTimeWindow α).Through decision := by
    intro α bounds item hitem
    cases hitem
  have hstart : Windowwise
      (fun _ _ after => after.bounds.retention = config.retention ∧ after.Through decision)
      (.create config exchange symbol) (.create config exchange symbol) :=
    ⟨⟨rfl, hempty _⟩, ⟨rfl, hempty _⟩, ⟨rfl, hempty _⟩, ⟨rfl, hempty _⟩, ⟨rfl, hempty _⟩,
      ⟨rfl, hempty _⟩, ⟨rfl, hempty _⟩, ⟨rfl, hempty _⟩⟩
  apply Windowwise.comp _ hstart hrun
  rintro α a b c ⟨hretention, hb⟩ ⟨hcarries, hthrough⟩
  exact ⟨hcarries.bounds ▸ hretention, hthrough hb⟩

theorem retainsQueries_of_le (digest : SourceDigest) {settings : RetentionSettings} {windowSeconds : Int}
    (henough : 2 * windowSeconds ≤ settings.features.stateRetentionSeconds) :
    settings.RetainsQueries digest windowSeconds := by
  intro earlier later decision exchange symbol hpast hroom
  have hheld := (held_run digest settings.features earlier
    (fun event hevent => hpast event (List.mem_append_left _ hevent)) exchange symbol).first
      ((MarketStateStore.run digest settings.features (earlier ++ later)).lookup exchange symbol)
  have hrun := MarketStateStore.windowwise_run digest later
    (MarketStateStore.run digest settings.features earlier)
    (fun event hevent => hpast event (List.mem_append_right _ hevent)) exchange symbol
  have hwhole : MarketStateStore.run digest settings.features (earlier ++ later) =
      later.foldl (MarketStateStore.perform digest)
        (MarketStateStore.run digest settings.features earlier) := List.foldl_append
  rw [hwhole] at hroom hheld ⊢
  apply ((hheld.and hrun).and hroom).mono
  rintro α before after ⟨⟨⟨hretention, hbefore⟩, hcarries, hthrough⟩, hfits⟩ item hitem hreached
  apply hcarries.kept hfits item hitem
  intro mark hmark
  -- the watermark is an item's time, so at most the decision
  obtain ⟨last, hlast, rfl⟩ := BoundedTimeWindow.exists_getLast? hmark
  rw [hretention]
  exact reached_above henough hreached (hthrough hbefore last (List.mem_of_getLast? hlast))

/-! ## When it is not -/

/-- A trade of the given time. -/
def tradeAt (timestamp : Int) : Trade :=
  { exampleTrade with
    exchangeTimestamp := timestamp
    localReceiveTimestamp := timestamp
    normalizationTimestamp := timestamp }

/-- A trade at the epoch. -/
def firstTrade : List MarketStateStore.StoreOperation := [.ingest (.trade (tradeAt 0))]

/-- A trade a retention later. -/
def secondTrade (config : FeaturesConfig) : List MarketStateStore.StoreOperation :=
  [.ingest (.trade (tradeAt config.retention))]

theorem lookup_perform_trade (digest : SourceDigest) (store : MarketStateStore) (timestamp : Int) :
    (store.perform digest (.ingest (.trade (tradeAt timestamp)))).lookup .binance "BTC-USDT-PERP" =
      ((store.lookup .binance "BTC-USDT-PERP").ingest digest store.config
        (.trade (tradeAt timestamp))).1 := by
  obtain ⟨after, result, hingest, -, -, hlookup⟩ :=
    MarketStateStore.ingest_market digest store
      (show ∀ health, NormalizedMarketEvent.trade (tradeAt timestamp) ≠ .exchangeHealth health by simp)
      rfl
  rw [MarketStateStore.perform_ingest_ok digest hingest]
  exact (hlookup _ _).trans (if_pos ⟨rfl, rfl⟩)

theorem windowwise_perform_trade (digest : SourceDigest) (store : MarketStateStore) (timestamp : Int) :
    Windowwise (AppendedAt timestamp) (store.lookup .binance "BTC-USDT-PERP")
      ((store.perform digest (.ingest (.trade (tradeAt timestamp)))).lookup .binance
        "BTC-USDT-PERP") := by
  rw [lookup_perform_trade]
  exact VenueSymbolState.windowwise_ingest digest store.config _ (.trade (tradeAt timestamp))

theorem perform_trade_trades (digest : SourceDigest) (store : MarketStateStore) (timestamp : Int) :
    ((store.perform digest (.ingest (.trade (tradeAt timestamp)))).lookup .binance
        "BTC-USDT-PERP").trades =
      ((store.lookup .binance "BTC-USDT-PERP").trades.append timestamp (tradeAt timestamp)).1 := by
  rw [lookup_perform_trade]
  refine (VenueSymbolState.sameWindows_settle _ (.trade (tradeAt timestamp)) _).trades.trans ?_
  show (VenueSymbolState.appendTrade _ (tradeAt timestamp)).1.trades = _
  unfold VenueSymbolState.appendTrade
  dsimp only
  split <;> rfl

/-- Two trades a retention apart evict nothing by the cap, in any window. -/
theorem two_trades_fit (digest : SourceDigest) (config : FeaturesConfig) :
    Windowwise (fun _ before after => before.capacityEvictions = 0 ∧ after.capacityEvictions = 0)
      ((MarketStateStore.run digest config firstTrade).lookup .binance
        "BTC-USDT-PERP")
      ((MarketStateStore.run digest config (firstTrade ++ secondTrade config)).lookup .binance
        "BTC-USDT-PERP") := by
  have hfirst := windowwise_perform_trade digest (.new config) 0
  have hsecond := windowwise_perform_trade digest
    (MarketStateStore.run digest config firstTrade) config.retention
  have hempty : Windowwise
      (fun _ _ after => after.items = [] ∧ after.capacityEvictions = 0 ∧
        after.bounds.retention = config.retention)
      (.create config .binance "BTC-USDT-PERP") (.create config .binance "BTC-USDT-PERP") :=
    ⟨⟨rfl, rfl, rfl⟩, ⟨rfl, rfl, rfl⟩, ⟨rfl, rfl, rfl⟩, ⟨rfl, rfl, rfl⟩, ⟨rfl, rfl, rfl⟩,
      ⟨rfl, rfl, rfl⟩, ⟨rfl, rfl, rfl⟩, ⟨rfl, rfl, rfl⟩⟩
  have hone : Windowwise
      (fun _ _ after => after.capacityEvictions = 0 ∧ after.Through 0 ∧
        after.bounds.retention = config.retention)
      (.create config .binance "BTC-USDT-PERP")
      ((MarketStateStore.run digest config firstTrade).lookup .binance
        "BTC-USDT-PERP") := by
    apply Windowwise.comp _ hempty hfirst
    rintro α a b c ⟨hitems, hroom, hretention⟩ happended
    have hnothing : ∀ bound, b.Through bound := by
      intro bound item hitem
      rw [hitems] at hitem
      cases hitem
    exact ⟨(happended.roomy (hnothing _)).trans hroom, happended.through le_rfl (hnothing 0),
      happended.carries.bounds ▸ hretention⟩
  apply ((hone.first _).and hsecond).mono
  rintro α a b ⟨⟨hroom, hthrough, hretention⟩, happended⟩
  refine ⟨hroom, (happended.roomy ?_).trans hroom⟩
  rw [hretention, Int.sub_self]
  exact hthrough

/-- The first trade is held, until the second one arrives a retention later. -/
theorem first_trade_expires (digest : SourceDigest) (config : FeaturesConfig) :
    (∃ item ∈ ((MarketStateStore.run digest config firstTrade).lookup .binance
        "BTC-USDT-PERP").trades.items, item.timestamp = 0) ∧
      ∀ item ∈ ((MarketStateStore.run digest config (firstTrade ++ secondTrade config)).lookup .binance
          "BTC-USDT-PERP").trades.items,
        0 < item.timestamp := by
  have hroom := (two_trades_fit digest config).trades.1
  have hone : ((MarketStateStore.run digest config firstTrade).lookup .binance
      "BTC-USDT-PERP").trades =
        ((BoundedTimeWindow.empty config.windowBounds).append 0 (tradeAt 0)).1 :=
    perform_trade_trades digest (.new config) 0
  have htwo : ((MarketStateStore.run digest config (firstTrade ++ secondTrade config)).lookup .binance
      "BTC-USDT-PERP").trades =
        (((BoundedTimeWindow.empty config.windowBounds).append 0 (tradeAt 0)).1.append
          config.retention (tradeAt config.retention)).1 :=
    hone ▸ perform_trade_trades digest
      (MarketStateStore.run digest config firstTrade) config.retention
  rw [hone] at hroom
  have hfirst : (BoundedTimeWindow.empty config.windowBounds : BoundedTimeWindow Trade).admissibility 0 =
      .accepted := rfl
  constructor
  · rw [hone]
    exact ⟨_, BoundedTimeWindow.mem_of_accepted hfirst hroom, rfl⟩
  · intro item hitem
    rw [htwo] at hitem
    have hmark := (BoundedTimeWindow.append_of_accepted (tradeAt 0) hfirst).2.2.1
    have hsecond : ((BoundedTimeWindow.empty config.windowBounds).append 0 (tradeAt 0)).1.admissibility
        config.retention = .accepted := by
      apply BoundedTimeWindow.admissibility_of_forward
      rw [hmark]
      exact decide_eq_true config.retention_pos.le
    have habove := BoundedTimeWindow.lt_of_mem_append hsecond hitem
    rw [BoundedTimeWindow.append_bounds] at habove
    have hretention : (BoundedTimeWindow.empty config.windowBounds : BoundedTimeWindow
        Trade).bounds.retention = config.retention := rfl
    rwa [hretention, Int.sub_self] at habove

/-- A trade exactly a retention before the decision is gone although the queries reach it. -/
theorem not_retainsQueries_of_lt (digest : SourceDigest) {settings : RetentionSettings}
    {windowSeconds : Int} (hshort : settings.features.stateRetentionSeconds < 2 * windowSeconds) :
    ¬ settings.RetainsQueries digest windowSeconds := by
  intro hretains
  have hpos := settings.features.retention_pos
  have hpast : ∀ event : NormalizedMarketEvent,
      MarketStateStore.StoreOperation.ingest event ∈
        firstTrade ++ secondTrade settings.features →
      event.base.exchangeTimestamp ≤ settings.features.retention := by
    intro event hevent
    rcases List.mem_cons.mp hevent with heq | hevent
    · cases heq
      exact hpos.le
    · cases List.mem_singleton.mp hevent
      exact le_rfl
  have hkept := (hretains firstTrade (secondTrade settings.features) settings.features.retention .binance
    "BTC-USDT-PERP" hpast ((two_trades_fit digest settings.features).mono And.right)).trades
  obtain ⟨⟨item, hheld, htime⟩, hgone⟩ := first_trade_expires digest settings.features
  have hreached : settings.Reached windowSeconds settings.features.retention item.timestamp := by
    rw [htime]
    refine ⟨hpos.le, .inl ?_⟩
    unfold FeaturesConfig.retention
    omega
  have := hgone item (hkept item hheld hreached)
  omega

/-! ## The law -/

/-- Sixty-second lookbacks and a day of retention, with a feature window of a day. -/
theorem exists_daySettings : ∃ settings : RetentionSettings,
    settings.features.stateRetentionSeconds = 86400 ∧ 86400 ∈ settings.featureWindowsSeconds :=
  ⟨{ features := { orderBookDepth := 10, orderBookDepth_pos := by norm_num,
                   orderBookDepth_le := by norm_num, stateRetentionSeconds_pos := by norm_num,
                   maximumEventsPerStream_pos := by norm_num, bookPendingUpdates_pos := by norm_num }
     featureWindowsSeconds := [60, 86400]
     tradeImbalanceWindowsSeconds := [60]
     priceImpulseWindowsSeconds := [60]
     openInterestWindowsSeconds := [60]
     liquidationWindowsSeconds := [60]
     breakoutLookbackSeconds := 180
     atrPeriodSeconds := 60
     zscoreLookbackSeconds := 1800
     spreadPercentileLookbackSeconds := 86400
     featureWindows_nonempty := by norm_num
     breakoutLookback_pos := by norm_num
     atrPeriod_pos := by norm_num
     zscoreLookback_pos := by norm_num
     spreadPercentileLookback_pos := by norm_num
     covers := by decide }, rfl, by decide⟩

/-- For every accepted configuration and every window: what the queries reach is retained in every run up
to the decision exactly when the retention is at least twice the window. -/
theorem retainsQueries_iff (digest : SourceDigest) (settings : RetentionSettings) (windowSeconds : Int) :
    settings.RetainsQueries digest windowSeconds ↔
      2 * windowSeconds ≤ settings.features.stateRetentionSeconds := by
  constructor
  · intro hretains
    by_contra hshort
    exact not_retainsQueries_of_lt digest (not_le.mp hshort) hretains
  · exact retainsQueries_of_le digest

/-- The validator accepts a feature window of a day beside a retention of a day. -/
theorem day_window_truncated :
    ¬ ∀ (digest : SourceDigest) (settings : RetentionSettings),
      ∀ windowSeconds ∈ settings.featureWindowsSeconds, settings.RetainsQueries digest windowSeconds := by
  intro hretains
  obtain ⟨settings, hretention, hwindow⟩ := exists_daySettings
  apply not_retainsQueries_of_lt (fun _ _ => 0) _ (hretains (fun _ _ => 0) settings 86400 hwindow)
  rw [hretention]
  norm_num

end RetentionSettings

end Cvf
