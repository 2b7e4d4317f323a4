/-
# Cvf.Features.CrossVenueFields — the bounds of the fields of a paired snapshot.

The models of `cvf.features.models` bound their fields: ages are not negative, a quality and a penalty lie
between zero and one, a confirmation between minus one and one, and the alignment refuses a source of a
later instant.  The engine computes within the bounds, whatever its inputs, as long as `fmean` is between
the least and the greatest value and `float` keeps the order (`FeatureMath.Faithful`).

With the rules of the snapshot, that leaves one reason to refuse a calculation: a number that is not finite
(`cross_venue_accepts`).
-/
import Cvf.Features.CrossVenueRules
import Cvf.Features.CrossVenueSwap
import Mathlib.Algebra.Order.BigOperators.Group.List

namespace Cvf

open Cvf.Library

/-! ## What the models check -/

section

variable {F : Type} [Field F] [LinearOrder F]

/-- `Field(ge=0, le=1)` -/
def UnitField (value : F) : Prop := 0 ≤ value ∧ value ≤ 1

/-- The fields of `CrossVenueAlignmentResult`, and `sources_cannot_be_in_the_future`. -/
structure CrossVenueAlignmentResult.FieldsKept (alignment : CrossVenueAlignmentResult F) : Prop where
  ages : ∀ age ∈ [alignment.binanceDataAgeMs, alignment.okxDataAgeMs, alignment.dataAgeDifferenceMs,
    alignment.snapshotTimeDifferenceMs].filterMap id, 0 ≤ age
  quality : UnitField alignment.quality
  sources : ∀ source ∈ [alignment.binanceSourceTimestamp, alignment.okxSourceTimestamp].filterMap id,
    source ≤ alignment.decisionTimestamp

/-- The fields of `CrossVenueConfirmationFeatureValues`. -/
structure CrossVenueConfirmationFeatureValues.FieldsKept (values : CrossVenueConfirmationFeatureValues F) :
    Prop where
  confirmation : ∀ mean ∈ values.crossVenueConfirmation, -1 ≤ mean ∧ mean ≤ 1
  penalty : ∀ share ∈ values.divergencePenaltyInput, UnitField share
  quality : UnitField values.alignmentQuality

/-- The fields of `CrossVenueFeatureSnapshot` and of what it holds. -/
structure CrossVenueFeatureSnapshot.FieldsKept (snapshot : CrossVenueFeatureSnapshot F) : Prop where
  symbol : checkedSymbol snapshot.symbol = .ok snapshot.symbol
  window : 0 < snapshot.windowSeconds
  age : ∀ age ∈ snapshot.dataAgeMs, 0 ≤ age
  alignment : snapshot.alignment.FieldsKept
  confirmation : ∀ values ∈ snapshot.confirmation, values.FieldsKept
  leadLag : UnitField snapshot.leadLag.alignmentQuality

/-- `fmean` lies between the least and the greatest value, and `float` keeps the order. -/
structure FeatureMath.Faithful (math : FeatureMath F) : Prop where
  fmean_between : ∀ values : List F, values ≠ [] → ∀ least greatest,
    (∀ value ∈ values, least ≤ value ∧ value ≤ greatest) →
      least ≤ math.fmean values ∧ math.fmean values ≤ greatest
  toFloat_monotone : Monotone math.toFloat
  toFloat_zero : math.toFloat 0 = 0
  toFloat_one : math.toFloat 1 = 1

end

namespace FeatureMath.Faithful

variable {F : Type} [Field F] [LinearOrder F] {math : FeatureMath F}

theorem toFloat_nonneg (h : math.Faithful) {value : Decimal} (hvalue : 0 ≤ value) :
    0 ≤ math.toFloat value := by
  rw [← h.toFloat_zero]
  exact h.toFloat_monotone hvalue

theorem toFloat_unit (h : math.Faithful) {value : Decimal} (hnonneg : 0 ≤ value) (hle : value ≤ 1) :
    UnitField (math.toFloat value) := by
  refine ⟨h.toFloat_nonneg hnonneg, ?_⟩
  rw [← h.toFloat_one]
  exact h.toFloat_monotone hle

end FeatureMath.Faithful

/-! ## What the engine computes -/

namespace CrossVenueFeatureEngine

variable {F : Type} [Field F] [LinearOrder F] [IsStrictOrderedRing F] {engine : CrossVenueFeatureEngine F}

theorem floatAbs_nonneg (value : F) : 0 ≤ floatAbs value := by
  show 0 ≤ |value|
  exact abs_nonneg value

omit [IsStrictOrderedRing F] in
theorem sourceAge_nonneg (decision : Int) (source : Option Int) :
    ∀ age ∈ engine.sourceAge decision source, 0 ≤ age := by
  intro age hage
  obtain ⟨timestamp, -, rfl⟩ := Option.map_eq_some_iff.mp hage
  exact le_max_left _ _

/-- Ages and a distance that are not negative give a quality between zero and one. -/
theorem alignmentQuality_unit (hmath : engine.math.Faithful) {binanceAge okxAge timeDifference : Option F}
    (hbinance : ∀ age ∈ binanceAge, 0 ≤ age) (hokx : ∀ age ∈ okxAge, 0 ≤ age)
    (hdifference : ∀ apart ∈ timeDifference, 0 ≤ apart) :
    UnitField (engine.alignmentQuality binanceAge okxAge timeDifference) := by
  have hlimit : ∀ limit : Nat, 0 ≤ engine.math.toFloat limit := fun limit =>
    hmath.toFloat_nonneg (Nat.cast_nonneg limit)
  unfold alignmentQuality
  split
  · rename_i binanceAge okxAge timeDifference
    have hworst : 0 ≤ max (max
        (binanceAge / engine.math.toFloat engine.settings.maxSnapshotAgeMs)
        (okxAge / engine.math.toFloat engine.settings.maxSnapshotAgeMs))
        (timeDifference / engine.math.toFloat engine.settings.maxTimeDifferenceMs) :=
      le_max_of_le_right (div_nonneg (hdifference _ rfl) (hlimit _))
    constructor
    · exact div_nonneg zero_le_one (add_nonneg zero_le_one hworst)
    · exact (div_le_one₀ (add_pos_of_pos_of_nonneg zero_lt_one hworst)).mpr (le_add_of_nonneg_right hworst)
  · exact ⟨le_rfl, zero_le_one⟩

/-- The alignment of snapshots without a source after the decision. -/
theorem align_fieldsKept (hmath : engine.math.Faithful) {binance okx : Option (FeatureSnapshot F)}
    {decision : Int}
    (hbinance : ∀ source ∈ binance.bind (·.newestSourceTimestamp), source ≤ decision)
    (hokx : ∀ source ∈ okx.bind (·.newestSourceTimestamp), source ≤ decision)
    (selectionReasons : List FeatureUnavailableReason) :
    (engine.align binance okx decision selectionReasons).FieldsKept where
  ages := by
    intro age hage
    obtain ⟨field, hfield, hsome⟩ := List.mem_filterMap.mp hage
    obtain rfl : field = some age := hsome
    simp only [List.mem_cons, List.not_mem_nil, or_false] at hfield
    rcases hfield with hfield | hfield | hfield | hfield
    · exact sourceAge_nonneg decision _ age hfield.symm
    · exact sourceAge_nonneg decision _ age hfield.symm
    · obtain ⟨apart, -, rfl⟩ := Option.map_eq_some_iff.mp hfield.symm
      exact floatAbs_nonneg apart
    · obtain ⟨apart, -, rfl⟩ := Option.map_eq_some_iff.mp hfield.symm
      exact floatAbs_nonneg _
  quality := by
    apply alignmentQuality_unit hmath
    · exact sourceAge_nonneg decision _
    · exact sourceAge_nonneg decision _
    · intro apart hapart
      obtain ⟨difference, -, rfl⟩ := Option.map_eq_some_iff.mp hapart
      exact floatAbs_nonneg _
  sources := by
    intro source hsource
    obtain ⟨field, hfield, hsome⟩ := List.mem_filterMap.mp hsource
    obtain rfl : field = some source := hsome
    simp only [List.mem_cons, List.not_mem_nil, or_false] at hfield
    rcases hfield with hfield | hfield
    · exact hbinance source hfield.symm
    · exact hokx source hfield.symm

/-- Each agreement counts as minus one, zero or one. -/
theorem confirmationValues_between (price : CrossVenuePriceFeatureValues F)
    (orderFlow : CrossVenueOrderFlowFeatureValues F) (positioning : CrossVenuePositioningFeatureValues F) :
    ∀ value ∈ confirmationValues price orderFlow positioning, -1 ≤ value ∧ value ≤ 1 := by
  have hminus : -1 ≤ (-1 : F) ∧ (-1 : F) ≤ 1 := ⟨le_rfl, neg_le_self zero_le_one⟩
  have hzero : -1 ≤ (0 : F) ∧ (0 : F) ≤ 1 := ⟨neg_nonpos.mpr zero_le_one, zero_le_one⟩
  have hone : -1 ≤ (1 : F) ∧ (1 : F) ≤ 1 := ⟨neg_le_self zero_le_one, le_rfl⟩
  have hagreement : ∀ agreement, ∀ value ∈ agreementValue (F := F) agreement, -1 ≤ value ∧ value ≤ 1 := by
    intro agreement value hvalue
    cases agreement <;> cases hvalue <;> assumption
  have hcontext : ∀ agreement, ∀ value ∈ contextValue (F := F) agreement, -1 ≤ value ∧ value ≤ 1 := by
    intro agreement value hvalue
    cases agreement <;> cases hvalue <;> assumption
  have hcrowding : ∀ agreement, ∀ value ∈ crowdingValue (F := F) agreement, -1 ≤ value ∧ value ≤ 1 := by
    intro agreement value hvalue
    cases agreement <;> cases hvalue <;> assumption
  have hactivity : ∀ agreement, ∀ value ∈ activityValue (F := F) agreement, -1 ≤ value ∧ value ≤ 1 := by
    intro agreement value hvalue
    cases agreement <;> cases hvalue <;> assumption
  intro value hvalue
  obtain ⟨field, hfield, hsome⟩ := List.mem_filterMap.mp hvalue
  obtain rfl : field = some value := hsome
  simp only [List.mem_cons, List.not_mem_nil, or_false] at hfield
  rcases hfield with hfield | hfield | hfield | hfield | hfield | hfield | hfield
  · exact hagreement _ value hfield.symm
  · exact hagreement _ value hfield.symm
  · exact hagreement _ value hfield.symm
  · exact hagreement _ value hfield.symm
  · exact hcontext _ value hfield.symm
  · exact hcrowding _ value hfield.symm
  · exact hactivity _ value hfield.symm

theorem confirmation_fieldsKept (hmath : engine.math.Faithful) (price : CrossVenuePriceFeatureValues F)
    (orderFlow : CrossVenueOrderFlowFeatureValues F) (positioning : CrossVenuePositioningFeatureValues F)
    {quality : F} (hquality : UnitField quality) :
    (engine.confirmationFeatures price orderFlow positioning quality).FieldsKept where
  confirmation := by
    intro value hvalue
    unfold confirmationFeatures at hvalue
    dsimp only at hvalue
    split_ifs at hvalue with hempty
    · cases hvalue
    · obtain rfl := Option.some.inj hvalue
      exact hmath.fmean_between _ (mt List.isEmpty_iff.mpr hempty) _ _
        (confirmationValues_between price orderFlow positioning)
  penalty := by
    intro value hvalue
    unfold confirmationFeatures at hvalue
    dsimp only at hvalue
    split_ifs at hvalue with hempty
    · cases hvalue
    · obtain rfl := Option.some.inj hvalue
      -- a share of the values
      apply hmath.toFloat_unit
      · exact div_nonneg (Nat.cast_nonneg _) (Nat.cast_nonneg _)
      · apply div_le_one_of_le₀
        · exact Nat.cast_le.mpr List.countP_le_length
        · exact Nat.cast_nonneg _
  quality := hquality

omit [Field F] [LinearOrder F] [IsStrictOrderedRing F] in
/-- A selected candidate has no source after the decision. -/
theorem newest_le_of_selected {candidates : List (FeatureSnapshot F)}
    (hsound : ∀ candidate ∈ candidates, SingleVenueFeatureEngine.Sound candidate) (exchange : Exchange)
    (decision : Int) :
    ∀ source ∈ (selectSnapshot candidates exchange decision).1.bind (·.newestSourceTimestamp),
      source ≤ decision := by
  intro source hsource
  rcases selectSnapshot_cases candidates exchange decision with
    ⟨selected, hselected, -, hpast, heq⟩ | ⟨reason, heq⟩
  · rw [heq] at hsource
    exact (FeatureSnapshot.newest_le_of_valid (hsound selected hselected).valid source hsource).trans hpast
  · rw [heq] at hsource
    cases hsource

/-- Whatever is put together keeps the bounds of its fields. -/
theorem assemble_fieldsKept (hmath : engine.math.Faithful) {candidates : List (FeatureSnapshot F)}
    (hsound : ∀ candidate ∈ candidates, SingleVenueFeatureEngine.Sound candidate) {symbol : String}
    (hsymbol : checkedSymbol symbol = .ok symbol) (decision : Int) {windowSeconds : Int}
    (hpos : 0 < windowSeconds) :
    (engine.assemble candidates symbol decision windowSeconds).FieldsKept := by
  have halignment := align_fieldsKept hmath (newest_le_of_selected hsound .binance decision)
    (newest_le_of_selected hsound .okx decision)
    ((selectSnapshot candidates .binance decision).2.toList ++
      (selectSnapshot candidates .okx decision).2.toList)
  exact
    { symbol := hsymbol
      window := hpos
      age := by
        intro age hage
        have hin := List.max?_mem hage
        obtain ⟨field, hfield, hsome⟩ := List.mem_filterMap.mp hin
        refine halignment.ages age (List.mem_filterMap.mpr ⟨field, ?_, hsome⟩)
        exact List.mem_append_left _ hfield
      alignment := halignment
      confirmation := by
        intro values hvalues
        unfold assemble at hvalues
        change values ∈ PairedGroups.confirmation _ at hvalues
        split at hvalues
        · split_ifs at hvalues
          · cases hvalues
          · obtain rfl := Option.some.inj hvalues
            exact confirmation_fieldsKept hmath _ _ _ halignment.quality
        · cases hvalues
      leadLag := halignment.quality }

/-- A number that the calculation puts together is not finite. -/
def Overflows (engine : CrossVenueFeatureEngine F) (snapshots : List (FeatureSnapshot F)) (symbol : String)
    (decision windowSeconds : Int) : Prop :=
  ∃ number ∈ (engine.assemble (crossVenueCandidates snapshots symbol windowSeconds) symbol decision
    windowSeconds).checkedNumbers, engine.math.isFinite number = false

omit [IsStrictOrderedRing F] in
theorem not_overflows_iff {snapshots : List (FeatureSnapshot F)} {symbol : String}
    {decision windowSeconds : Int} :
    ¬ Overflows engine snapshots symbol decision windowSeconds ↔
      (engine.assemble (crossVenueCandidates snapshots symbol windowSeconds) symbol decision
        windowSeconds).checkedNumbers.all engine.math.isFinite = true := by
  unfold Overflows
  rw [List.all_eq_true]
  push Not
  simp only [ne_eq, Bool.not_eq_false]

omit [IsStrictOrderedRing F] in
/-- What a calculation returns keeps its rules. -/
theorem calculate_ok {snapshots : List (FeatureSnapshot F)} {symbol : String} {decision windowSeconds : Int}
    {cross : CrossVenueFeatureSnapshot F}
    (h : engine.calculate snapshots symbol decision windowSeconds = .ok cross) :
    cross = engine.assemble (crossVenueCandidates snapshots symbol windowSeconds) symbol decision
        windowSeconds ∧ cross.validateCrossVenueBoundaries = none := by
  unfold calculate at h
  split_ifs at h
  obtain ⟨_, -, h⟩ := bind_eq_ok_iff.mp h
  split at h
  · cases h
  · obtain rfl := Except.ok.inj h
    exact ⟨rfl, by assumption⟩

/-- A calculation over sound snapshots is refused for a number that is not finite, and for nothing else. -/
theorem calculate_accepts (engine : CrossVenueFeatureEngine F) (hmath : engine.math.Faithful)
    {snapshots : List (FeatureSnapshot F)}
    (hsound : ∀ snapshot ∈ snapshots, SingleVenueFeatureEngine.Sound snapshot)
    (hids : VenueIdsApart snapshots) {symbol : String} (hsymbol : checkedSymbol symbol = .ok symbol)
    (decision : Int) {windowSeconds : Int} (hconfigured : windowSeconds ∈ engine.settings.featureWindowsSeconds)
    (hpos : 0 < windowSeconds) :
    (Overflows engine snapshots symbol decision windowSeconds ∧
        engine.calculate snapshots symbol decision windowSeconds = .error "feature values must be finite") ∨
      ¬ Overflows engine snapshots symbol decision windowSeconds ∧
        ∃ paired, engine.calculate snapshots symbol decision windowSeconds = .ok paired ∧
          paired.FieldsKept ∧
          ((paired.isWarm = true ∧ paired.isHealthy = true) ↔ paired.unavailableReasons = []) := by
  have hcandidate : ∀ candidate ∈ crossVenueCandidates snapshots symbol windowSeconds,
      candidate ∈ snapshots := fun candidate hin => (mem_crossVenueCandidates.mp hin).1
  have hcandidates : ∀ candidate ∈ crossVenueCandidates snapshots symbol windowSeconds,
      SingleVenueFeatureEngine.Sound candidate :=
    fun candidate hin => hsound candidate (hcandidate candidate hin)
  have hcandidateIds : VenueIdsApart (crossVenueCandidates snapshots symbol windowSeconds) :=
    fun binance hbinance okx hokx =>
      hids binance (hcandidate binance hbinance) okx (hcandidate okx hokx)
  obtain ⟨hvalid, havailable⟩ :=
    assemble_accepts engine hcandidates hcandidateIds symbol decision windowSeconds
  unfold calculate
  rw [if_pos hconfigured]
  by_cases hoverflows : Overflows engine snapshots symbol decision windowSeconds
  · refine .inl ⟨hoverflows, ?_⟩
    rw [← not_not (a := Overflows engine snapshots symbol decision windowSeconds), not_overflows_iff]
      at hoverflows
    dsimp only [bind, Except.bind]
    unfold FeatureMath.ensureFinite
    rw [if_neg hoverflows]
  · refine .inr ⟨hoverflows, _, ?_, assemble_fieldsKept hmath hcandidates hsymbol decision hpos, havailable⟩
    refine bind_eq_ok_iff.mpr
      ⟨(), FeatureMath.ensureFinite_ok_iff.mpr (not_overflows_iff.mp hoverflows), ?_⟩
    rw [hvalid]

/-- From snapshots that runs of a single-venue engine return, a calculation for a configured window and a
canonical symbol is refused only for a number that is not finite: whatever it selects otherwise, the snapshot
keeps every rule and every bound of its fields, and is warm and healthy exactly when it gives no reasons. -/
theorem cross_venue_accepts (single : SingleVenueFeatureEngine F) (cross : CrossVenueFeatureEngine F)
    (hmath : cross.math.Faithful) {snapshots : List (FeatureSnapshot F)}
    (hproduced : ∀ snapshot ∈ snapshots, single.Produced snapshot) (hids : VenueIdsApart snapshots)
    {symbol : String} (hsymbol : checkedSymbol symbol = .ok symbol) (decision : Int) {windowSeconds : Int}
    (hconfigured : windowSeconds ∈ cross.settings.featureWindowsSeconds) (hpos : 0 < windowSeconds) :
    (Overflows cross snapshots symbol decision windowSeconds ∧
        cross.calculate snapshots symbol decision windowSeconds = .error "feature values must be finite") ∨
      ¬ Overflows cross snapshots symbol decision windowSeconds ∧
        ∃ paired, cross.calculate snapshots symbol decision windowSeconds = .ok paired ∧
          paired.FieldsKept ∧
          ((paired.isWarm = true ∧ paired.isHealthy = true) ↔ paired.unavailableReasons = []) :=
  calculate_accepts cross hmath (fun snapshot hin => (hproduced snapshot hin).sound) hids hsymbol decision
    hconfigured hpos

theorem exampleFeatureMath_faithful : exampleFeatureMath.Faithful where
  fmean_between := by
    intro values hvalues least greatest hbetween
    have hlength : (0 : ℚ) < values.length := Nat.cast_pos.mpr (List.length_pos_iff.mpr hvalues)
    constructor
    · apply (le_div_iff₀ hlength).mpr
      have hsum := List.card_nsmul_le_sum values least fun value hvalue => (hbetween value hvalue).1
      rwa [nsmul_eq_mul, mul_comm] at hsum
    · apply (div_le_iff₀ hlength).mpr
      have hsum := List.sum_le_card_nsmul values greatest fun value hvalue => (hbetween value hvalue).2
      rwa [nsmul_eq_mul, mul_comm] at hsum
  toFloat_monotone := fun _ _ hle => hle
  toFloat_zero := rfl
  toFloat_one := rfl

/-- A book, a trade and a larger bid of one venue. -/
def exampleVenueSteps (exchange : Exchange) (bid : Decimal) : List EngineStep :=
  [.store (.ingest (.orderBookSnapshot { exampleSnapshot 5000000 1 with exchange })),
    .store (.ingest (.trade { exampleTrade with exchange })),
    .store (.ingest (.orderBookUpdate
      { exampleBuffered with exchange, exchangeTimestamp := 7000000, bids := [⟨99, bid⟩] }))]

def exampleBothVenuesSteps : List EngineStep :=
  exampleVenueSteps .binance 2 ++ exampleVenueSteps .okx 4

/-- A snapshot of each venue is paired; the bid of OKX grew by two more. -/
theorem cross_venue_accepts_pair : ∃ binance okx paired,
    exampleEngine.Produced binance ∧ exampleEngine.Produced okx ∧
      exampleCrossVenueEngine.calculate [binance, okx] "BTC-USDT-PERP" 8000000 5 = .ok paired ∧
      paired.FieldsKept ∧ (paired.orderFlow.bind (·.ofiDifference)) = some (-2) := by
  have hreached : (EngineTimeline.run exampleEngine exampleBothVenuesSteps >>= fun timeline => do
      let binance ← timeline.calculate exampleEngine .binance "BTC-USDT-PERP" [] 8000000 5
      let okx ← timeline.calculate exampleEngine .okx "BTC-USDT-PERP" [] 7500000 5
      let paired := exampleCrossVenueEngine.assemble
        (relevantSnapshots [binance.1, okx.1] "BTC-USDT-PERP" 5) "BTC-USDT-PERP" 8000000 5
      Except.ok (decide (binance.1.featureSnapshotId ≠ okx.1.featureSnapshotId) &&
        decide (binance.1.exchange = .binance) && decide (okx.1.exchange = .okx) &&
        paired.checkedNumbers.all exampleFeatureMath.isFinite &&
        decide (paired.orderFlow.bind (·.ofiDifference) = some (-2)))) = .ok true := by
    decide +kernel
  obtain ⟨timeline, hrun, hreached⟩ := bind_eq_ok_iff.mp hreached
  obtain ⟨⟨binance, binanceMemory⟩, hbinance, hreached⟩ := bind_eq_ok_iff.mp hreached
  obtain ⟨⟨okx, okxMemory⟩, hokx, hreached⟩ := bind_eq_ok_iff.mp hreached
  have hfacts := Except.ok.inj hreached
  simp only [Bool.and_eq_true, decide_eq_true_eq] at hfacts
  obtain ⟨⟨⟨⟨hne, hbinanceVenue⟩, hokxVenue⟩, hfinite⟩, hdifference⟩ := hfacts
  have hproduced : ∀ snapshot ∈ [binance, okx], exampleEngine.Produced snapshot := by
    intro snapshot hin
    rcases List.mem_cons.mp hin with rfl | hin
    · exact ⟨exampleBothVenuesSteps, timeline, hrun, _, _, _, _, _, binanceMemory, hbinance⟩
    · rw [List.mem_singleton.mp hin]
      exact ⟨exampleBothVenuesSteps, timeline, hrun, _, _, _, _, _, okxMemory, hokx⟩
  have hids : VenueIdsApart [binance, okx] := by
    intro one hone other hother honeVenue hotherVenue
    have hfirst : one = binance := by
      rcases List.mem_cons.mp hone with rfl | hone
      · rfl
      · rw [List.mem_singleton.mp hone, hokxVenue] at honeVenue
        cases honeVenue
    have hsecond : other = okx := by
      rcases List.mem_cons.mp hother with rfl | hother
      · rw [hbinanceVenue] at hotherVenue
        cases hotherVenue
      · exact List.mem_singleton.mp hother
    rw [hfirst, hsecond]
    exact hne
  have hassembled : exampleCrossVenueEngine.assemble (crossVenueCandidates [binance, okx] "BTC-USDT-PERP" 5)
      "BTC-USDT-PERP" 8000000 5 = exampleCrossVenueEngine.assemble
        (relevantSnapshots [binance, okx] "BTC-USDT-PERP" 5) "BTC-USDT-PERP" 8000000 5 :=
    assemble_sort _ _ _ _ _
  rcases cross_venue_accepts exampleEngine exampleCrossVenueEngine exampleFeatureMath_faithful hproduced hids
      (show checkedSymbol "BTC-USDT-PERP" = .ok "BTC-USDT-PERP" by decide +kernel) 8000000
      (show (5 : Int) ∈ exampleCrossVenueEngine.settings.featureWindowsSeconds from List.mem_cons_self)
      (by norm_num) with ⟨hoverflows, -⟩ | ⟨-, paired, haccepted, hkept, -⟩
  · refine absurd hoverflows (not_overflows_iff.mpr ?_)
    rw [hassembled]
    exact hfinite
  · obtain ⟨rfl, -⟩ := calculate_ok haccepted
    refine ⟨binance, okx, _, hproduced binance List.mem_cons_self,
      hproduced okx (List.mem_cons_of_mem _ List.mem_cons_self), haccepted, hkept, ?_⟩
    rw [hassembled]
    exact hdifference

end CrossVenueFeatureEngine

end Cvf
