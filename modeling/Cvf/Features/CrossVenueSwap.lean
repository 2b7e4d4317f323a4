/-
# Cvf.Features.CrossVenueSwap — the roles of the two venues exchanged.

What exchanging Binance and OKX does to snapshots, reasons, alignments and paired snapshots (`Mirrored`),
and how the selection and the candidates of the engine follow it.  The key the candidates are sorted by
compares venue names, so the exchange rearranges them; but neither the selection nor the history sees more
of the sort than that it is stable (`selectSnapshot_sort`, `pairedAt_sort`).

The arithmetic is exact: `float` is an ordered field, and the square root of the deviation a parameter.
-/
import Cvf.Features.CrossVenueInputs

namespace Cvf

open Cvf.Library

/-! ## The exchange of the venues -/

def Exchange.swapVenue : Exchange → Exchange
  | .binance => .okx
  | .okx => .binance
  | other => other

def FeatureUnavailableCode.swapVenue : FeatureUnavailableCode → FeatureUnavailableCode
  | .missingBinanceSnapshot => .missingOkxSnapshot
  | .missingOkxSnapshot => .missingBinanceSnapshot
  | .futureBinanceSnapshot => .futureOkxSnapshot
  | .futureOkxSnapshot => .futureBinanceSnapshot
  | .staleBinanceSnapshot => .staleOkxSnapshot
  | .staleOkxSnapshot => .staleBinanceSnapshot
  | .binanceUnhealthy => .okxUnhealthy
  | .okxUnhealthy => .binanceUnhealthy
  | .binanceNotWarm => .okxNotWarm
  | .okxNotWarm => .binanceNotWarm
  | other => other

/-- How the texts of the engine begin when they name one venue. -/
def venuePrefixes : List (String × String) :=
  [("Binance and OKX ", "Binance and OKX "),
    ("Binance ", "OKX "),
    ("OKX ", "Binance "),
    ("no binance ", "no okx "),
    ("no okx ", "no binance "),
    ("only future binance ", "only future okx "),
    ("only future okx ", "only future binance ")]

/-- The text with the other venue's name in place of the one it begins with. -/
def swapVenueText (text : String) : String :=
  match venuePrefixes.find? fun names => names.1.toList.isPrefixOf text.toList with
  | some names => names.2 ++ String.ofList (text.toList.drop names.1.length)
  | none => text

def FeatureUnavailableReason.swapVenue (reason : FeatureUnavailableReason) : FeatureUnavailableReason :=
  { reason with code := reason.code.swapVenue, detail := swapVenueText reason.detail }

def AlignmentStatus.swapVenue : AlignmentStatus → AlignmentStatus
  | .staleBinance => .staleOkx
  | .staleOkx => .staleBinance
  | other => other

section Records

variable {F : Type}

def FeatureSnapshot.swapVenue (snapshot : FeatureSnapshot F) : FeatureSnapshot F :=
  { snapshot with exchange := snapshot.exchange.swapVenue }

variable [Neg F]

def SpreadHistoryEntry.swapVenue (entry : SpreadHistoryEntry F) : SpreadHistoryEntry F :=
  { entry with
    binanceSnapshotId := entry.okxSnapshotId
    okxSnapshotId := entry.binanceSnapshotId
    binanceMidPrice := entry.okxMidPrice
    okxMidPrice := entry.binanceMidPrice
    percentageSpread := -entry.percentageSpread }

/-- The prices change places; the absolute spread, the denominator and the agreements stay. -/
def CrossVenuePriceFeatureValues.swapVenue (price : CrossVenuePriceFeatureValues F) :
    CrossVenuePriceFeatureValues F :=
  { price with
    binanceMidPrice := price.okxMidPrice
    okxMidPrice := price.binanceMidPrice
    midPriceDifference := price.midPriceDifference.map (-·)
    midPricePercentageSpread := price.midPricePercentageSpread.map (-·)
    midPriceSpreadZscore := price.midPriceSpreadZscore.map (-·)
    priceImpulseStrengthDifference := price.priceImpulseStrengthDifference.map (-·)
    realizedVolatilityDifference := price.realizedVolatilityDifference.map (-·)
    relativeSpreadDivergence := price.relativeSpreadDivergence.map (-·) }

/-- The agreements and the liquidity status stay. -/
def CrossVenueOrderFlowFeatureValues.swapVenue (orderFlow : CrossVenueOrderFlowFeatureValues F) :
    CrossVenueOrderFlowFeatureValues F :=
  { orderFlow with
    takerImbalanceDifference := orderFlow.takerImbalanceDifference.map (-·)
    ofiDifference := orderFlow.ofiDifference.map (-·)
    depthImbalanceDifference := orderFlow.depthImbalanceDifference.map (-·)
    liquidityAdditionDifference := orderFlow.liquidityAdditionDifference.map (-·)
    liquidityRemovalDifference := orderFlow.liquidityRemovalDifference.map (-·)
    orderBookRecoverySpeedDifference := orderFlow.orderBookRecoverySpeedDifference.map (-·) }

/-- The directions and abnormalities change places; the agreements stay. -/
def CrossVenuePositioningFeatureValues.swapVenue
    (positioning : CrossVenuePositioningFeatureValues F) : CrossVenuePositioningFeatureValues F :=
  { positioning with
    binanceOiChangeDirection := positioning.okxOiChangeDirection
    okxOiChangeDirection := positioning.binanceOiChangeDirection
    binanceFundingAbnormality := positioning.okxFundingAbnormality
    okxFundingAbnormality := positioning.binanceFundingAbnormality
    fundingAbnormalityDifference := positioning.fundingAbnormalityDifference.map (-·)
    markIndexPremiumDifference := positioning.markIndexPremiumDifference.map (-·) }

/-- The same reasons, each about the other venue, in some order. -/
def MirroredReasons (reasons mirrored : List FeatureUnavailableReason) : Prop :=
  mirrored.Perm (reasons.map FeatureUnavailableReason.swapVenue)

/-- `mirrored` is the alignment with the venues exchanged. -/
structure MirroredAlignment (alignment mirrored : CrossVenueAlignmentResult F) : Prop where
  decisionTimestamp : mirrored.decisionTimestamp = alignment.decisionTimestamp
  binanceSnapshotId : mirrored.binanceSnapshotId = alignment.okxSnapshotId
  okxSnapshotId : mirrored.okxSnapshotId = alignment.binanceSnapshotId
  binanceSourceTimestamp : mirrored.binanceSourceTimestamp = alignment.okxSourceTimestamp
  okxSourceTimestamp : mirrored.okxSourceTimestamp = alignment.binanceSourceTimestamp
  binanceDataAgeMs : mirrored.binanceDataAgeMs = alignment.okxDataAgeMs
  okxDataAgeMs : mirrored.okxDataAgeMs = alignment.binanceDataAgeMs
  dataAgeDifferenceMs : mirrored.dataAgeDifferenceMs = alignment.dataAgeDifferenceMs
  snapshotTimeDifferenceMs :
    mirrored.snapshotTimeDifferenceMs = alignment.snapshotTimeDifferenceMs
  status : mirrored.status = alignment.status.swapVenue
  quality : mirrored.quality = alignment.quality
  unavailableReasons : MirroredReasons alignment.unavailableReasons mirrored.unavailableReasons

/-- `mirrored` is the paired snapshot with the venues exchanged.  Its ids and its history digest name other
contents. -/
structure Mirrored (snapshot mirrored : CrossVenueFeatureSnapshot F) : Prop where
  symbol : mirrored.symbol = snapshot.symbol
  exchangeTimestamp : mirrored.exchangeTimestamp = snapshot.exchangeTimestamp
  localReceiveTimestamp : mirrored.localReceiveTimestamp = snapshot.localReceiveTimestamp
  normalizationTimestamp : mirrored.normalizationTimestamp = snapshot.normalizationTimestamp
  strategyVersion : mirrored.strategyVersion = snapshot.strategyVersion
  codeVersion : mirrored.codeVersion = snapshot.codeVersion
  configHash : mirrored.configHash = snapshot.configHash
  calculationTimestamp : mirrored.calculationTimestamp = snapshot.calculationTimestamp
  decisionTimestamp : mirrored.decisionTimestamp = snapshot.decisionTimestamp
  windowSeconds : mirrored.windowSeconds = snapshot.windowSeconds
  binanceBookGeneration : mirrored.binanceBookGeneration = snapshot.okxBookGeneration
  okxBookGeneration : mirrored.okxBookGeneration = snapshot.binanceBookGeneration
  sourceSnapshotIds : mirrored.sourceSnapshotIds = snapshot.sourceSnapshotIds.reverse
  spreadHistoryPairCount : mirrored.spreadHistoryPairCount = snapshot.spreadHistoryPairCount
  spreadHistorySha256 :
    mirrored.spreadHistorySha256.isSome = snapshot.spreadHistorySha256.isSome
  sourceEventCount : mirrored.sourceEventCount = snapshot.sourceEventCount
  oldestSourceTimestamp : mirrored.oldestSourceTimestamp = snapshot.oldestSourceTimestamp
  newestSourceTimestamp : mirrored.newestSourceTimestamp = snapshot.newestSourceTimestamp
  dataAgeMs : mirrored.dataAgeMs = snapshot.dataAgeMs
  isWarm : mirrored.isWarm = snapshot.isWarm
  isHealthy : mirrored.isHealthy = snapshot.isHealthy
  alignment : MirroredAlignment snapshot.alignment mirrored.alignment
  unavailableReasons : MirroredReasons snapshot.unavailableReasons mirrored.unavailableReasons
  price : mirrored.price = snapshot.price.map CrossVenuePriceFeatureValues.swapVenue
  orderFlow : mirrored.orderFlow = snapshot.orderFlow.map CrossVenueOrderFlowFeatureValues.swapVenue
  positioning :
    mirrored.positioning = snapshot.positioning.map CrossVenuePositioningFeatureValues.swapVenue
  confirmation : mirrored.confirmation = snapshot.confirmation
  leadLag : mirrored.leadLag = snapshot.leadLag

/-- `mirrored` are the groups of the exchanged venues. -/
structure MirroredGroups (groups mirrored : PairedGroups F) : Prop where
  pairCount : (mirrored.spreadHistory.getD (0, none)).1 = (groups.spreadHistory.getD (0, none)).1
  sha256 :
    (mirrored.spreadHistory.getD (0, none)).2.isSome = (groups.spreadHistory.getD (0, none)).2.isSome
  isWarm : mirrored.isWarm = groups.isWarm
  isHealthy : mirrored.isHealthy = groups.isHealthy
  unavailableReasons : MirroredReasons groups.unavailableReasons mirrored.unavailableReasons
  price : mirrored.price = groups.price.map CrossVenuePriceFeatureValues.swapVenue
  orderFlow : mirrored.orderFlow = groups.orderFlow.map CrossVenueOrderFlowFeatureValues.swapVenue
  positioning :
    mirrored.positioning = groups.positioning.map CrossVenuePositioningFeatureValues.swapVenue
  confirmation : mirrored.confirmation = groups.confirmation

end Records

/-- `statistics` and the conversions, over an ordered field. -/
def exactFeatureMath {F : Type} [Field F] (sqrt : F → F) (largestFloat : F) : FeatureMath F :=
  { fmean := fun values => values.sum / values.length
    pstdev := fun values =>
      sqrt ((values.map fun value => (value - values.sum / values.length) ^ 2).sum / values.length)
    toFloat := fun value => value
    milliseconds := fun duration => duration / 1000
    largestFloat }

/-! ## Reasons -/

theorem Exchange.swapVenue_swapVenue (exchange : Exchange) :
    exchange.swapVenue.swapVenue = exchange := by
  cases exchange <;> rfl

theorem Exchange.swapVenue_eq_iff {exchange other : Exchange} :
    exchange.swapVenue = other ↔ exchange = other.swapVenue := by
  cases exchange <;> cases other <;> decide

/-- A text that begins with none of the letters the names begin with. -/
theorem swapVenueText_of_head {text : String} (first : Char) (h : text.toList.head? = some first)
    (hfirst : first ∉ ['B', 'O', 'n', 'o']) : swapVenueText text = text := by
  obtain ⟨rest, hrest⟩ := List.head?_eq_some_iff.mp h
  have hnone : venuePrefixes.find? (fun names => names.1.toList.isPrefixOf text.toList) = none := by
    rw [hrest, List.find?_eq_none]
    intro names hnames
    simp only [List.mem_cons, List.not_mem_nil, or_false, not_or] at hfirst
    obtain ⟨hB, hO, hn, ho⟩ := hfirst
    simp only [venuePrefixes, List.mem_cons, List.not_mem_nil, or_false] at hnames
    rcases hnames with rfl | rfl | rfl | rfl | rfl | rfl | rfl <;>
      simp [List.isPrefixOf, Ne.symm hB, Ne.symm hO, Ne.symm hn, Ne.symm ho]
  unfold swapVenueText
  rw [hnone]

theorem nodup_eraseDups {α : Type} [DecidableEq α] (xs : List α) : xs.eraseDups.Nodup := by
  induction hlength : xs.length using Nat.strong_induction_on generalizing xs with
  | _ n ih =>
    cases xs with
    | nil => exact List.nodup_nil
    | cons x xs =>
      rw [List.eraseDups_cons]
      have hshorter : (xs.filter fun y => !y == x).length < n := by
        have := List.length_filter_le (fun y => !y == x) xs
        rw [← hlength, List.length_cons]
        omega
      apply List.nodup_cons.mpr ⟨?_, ih _ hshorter _ rfl⟩
      rw [List.mem_eraseDups, List.mem_filter]
      simp

/-- Exchanging twice gives the reason back. -/
def FeatureUnavailableReason.Paired (reason : FeatureUnavailableReason) : Prop :=
  reason.swapVenue.swapVenue = reason

/-- Mirrored lists of reasons that exchange in pairs stay mirrored without their repetitions. -/
theorem MirroredReasons.unique {reasons mirrored : List FeatureUnavailableReason}
    (h : MirroredReasons reasons mirrored) (hpaired : ∀ reason ∈ reasons, reason.Paired) :
    MirroredReasons (uniqueReasons reasons) (uniqueReasons mirrored) := by
  have hinj : ((uniqueReasons reasons).map FeatureUnavailableReason.swapVenue).Nodup := by
    apply (nodup_eraseDups reasons).map_on
    intro a ha b hb heq
    have ha := hpaired a (List.mem_eraseDups.mp ha)
    have hb := hpaired b (List.mem_eraseDups.mp hb)
    rw [← ha, ← hb, heq]
  apply (List.perm_ext_iff_of_nodup (nodup_eraseDups mirrored) hinj).mpr
  intro reason
  unfold uniqueReasons
  rw [List.mem_eraseDups, h.mem_iff, List.mem_map, List.mem_map]
  simp only [List.mem_eraseDups]

theorem MirroredReasons.append {a b a' b' : List FeatureUnavailableReason} (h : MirroredReasons a a')
    (h' : MirroredReasons b b') : MirroredReasons (a ++ b) (a' ++ b') := by
  unfold MirroredReasons
  rw [List.map_append]
  exact List.Perm.append h h'

/-- The reasons of two venues may come in either order. -/
theorem MirroredReasons.append_swap {a b a' b' : List FeatureUnavailableReason}
    (h : MirroredReasons a b') (h' : MirroredReasons b a') :
    MirroredReasons (a ++ b) (a' ++ b') := by
  unfold MirroredReasons
  rw [List.map_append]
  exact (List.Perm.append h' h).trans List.perm_append_comm

/-- Two venues' reasons behind others. -/
theorem MirroredReasons.append_twice {rest a b rest' a' b' : List FeatureUnavailableReason}
    (hrest : MirroredReasons rest rest') (h : MirroredReasons a b') (h' : MirroredReasons b a') :
    MirroredReasons (rest ++ a ++ b) (rest' ++ a' ++ b') := by
  rw [List.append_assoc, List.append_assoc]
  exact hrest.append (h.append_swap h')

theorem MirroredReasons.of_eq {a b : List FeatureUnavailableReason}
    (h : b = a.map FeatureUnavailableReason.swapVenue) : MirroredReasons a b := h ▸ List.Perm.refl _

/-- One reason under one condition. -/
theorem MirroredReasons.ite {c : Prop} [Decidable c] {reason mirrored : FeatureUnavailableReason}
    (h : reason.swapVenue = mirrored) :
    MirroredReasons (if c then [reason] else []) (if c then [mirrored] else []) := by
  apply of_eq
  split_ifs
  · rw [List.map_singleton, h]
  · rfl

/-- The reason `missingPair` notes. -/
def missingReason (label channel venues : String) : FeatureUnavailableReason :=
  { code := .featureInputMissing, detail := venues ++ " missing " ++ label, channel := some channel }

theorem missingReason_swapVenue {label channel venues other : String}
    (h : swapVenueText (venues ++ " missing " ++ label) = other ++ " missing " ++ label) :
    (missingReason label channel venues).swapVenue = missingReason label channel other := by
  unfold missingReason FeatureUnavailableReason.swapVenue
  dsimp only
  rw [h]
  rfl

theorem mirrored_missingPair {α : Type} (label channel : String) (left right : Option α)
    (hbinance : swapVenueText ("Binance" ++ " missing " ++ label) = "OKX" ++ " missing " ++ label)
    (hokx : swapVenueText ("OKX" ++ " missing " ++ label) = "Binance" ++ " missing " ++ label)
    (hboth : swapVenueText ("Binance and OKX" ++ " missing " ++ label) =
      "Binance and OKX" ++ " missing " ++ label) :
    MirroredReasons (missingPair label left right channel) (missingPair label right left channel) ∧
      ∀ reason ∈ missingPair label left right channel, reason.Paired := by
  have hbinance : (missingReason label channel "Binance").swapVenue = missingReason label channel "OKX" :=
    missingReason_swapVenue hbinance
  have hokx : (missingReason label channel "OKX").swapVenue = missingReason label channel "Binance" :=
    missingReason_swapVenue hokx
  have hboth : (missingReason label channel "Binance and OKX").swapVenue =
      missingReason label channel "Binance and OKX" := missingReason_swapVenue hboth
  -- a reason about one venue, and the same about the other one
  have hone : ∀ {venues other}, (missingReason label channel venues).swapVenue =
      missingReason label channel other → (missingReason label channel other).swapVenue =
        missingReason label channel venues →
      MirroredReasons [missingReason label channel venues] [missingReason label channel other] ∧
        ∀ reason ∈ [missingReason label channel venues], reason.Paired := by
    intro venues other h h'
    refine ⟨.of_eq (by rw [List.map_singleton, h]), ?_⟩
    intro reason hreason
    rw [List.mem_singleton.mp hreason]
    show (missingReason label channel venues).swapVenue.swapVenue = _
    rw [h, h']
  cases left with
  | none =>
    cases right with
    | none => exact hone hboth hboth
    | some right => exact hone hbinance hokx
  | some left =>
    cases right with
    | none => exact hone hokx hbinance
    | some right => exact ⟨.of_eq rfl, fun _ h => absurd h List.not_mem_nil⟩

/-! ## Selection -/

section Selection

variable {F : Type}

theorem swapVenue_selection (snapshot : FeatureSnapshot F) :
    selectionKey snapshot.swapVenue = selectionKey snapshot := rfl

theorem filter_exchange_swapVenue (snapshots : List (FeatureSnapshot F)) (exchange : Exchange) :
    (snapshots.map FeatureSnapshot.swapVenue).filter (·.exchange = exchange) =
      (snapshots.filter (·.exchange = exchange.swapVenue)).map FeatureSnapshot.swapVenue := by
  rw [List.filter_map]
  congr 1
  apply List.filter_congr
  intro snapshot _
  show decide (snapshot.exchange.swapVenue = exchange) = decide (snapshot.exchange = exchange.swapVenue)
  rw [decide_eq_decide]
  exact Exchange.swapVenue_eq_iff

/-- The reason `selectSnapshot` gives for a venue without an eligible snapshot. -/
def selectionReason (exchange : Exchange) (absent : Bool) : FeatureUnavailableReason :=
  let label := if exchange = .binance then "binance" else "okx"
  if absent then
    alignmentReason (if exchange = .binance then .missingBinanceSnapshot else .missingOkxSnapshot)
      ("no " ++ label ++ " snapshot exists for symbol/window")
  else
    alignmentReason (if exchange = .binance then .futureBinanceSnapshot else .futureOkxSnapshot)
      ("only future " ++ label ++ " snapshots exist at the decision boundary")

/-- The snapshots `selectSnapshot` compares. -/
def eligibleSnapshots (snapshots : List (FeatureSnapshot F)) (exchange : Exchange) (decision : Int) :
    List (FeatureSnapshot F) :=
  (snapshots.filter (·.exchange = exchange)).filter (·.decisionTimestamp ≤ decision)

theorem selectSnapshot_of_some {snapshots : List (FeatureSnapshot F)} {exchange : Exchange}
    {decision : Int} {newest : FeatureSnapshot F}
    (h : firstMax selectionKey (eligibleSnapshots snapshots exchange decision) = some newest) :
    selectSnapshot snapshots exchange decision = (some newest, none) := by
  unfold eligibleSnapshots at h
  unfold selectSnapshot
  dsimp only
  rw [h]

theorem selectSnapshot_of_none {snapshots : List (FeatureSnapshot F)} {exchange : Exchange}
    {decision : Int}
    (h : firstMax selectionKey (eligibleSnapshots snapshots exchange decision) = none) :
    selectSnapshot snapshots exchange decision =
      (none, some (selectionReason exchange (snapshots.filter (·.exchange = exchange)).isEmpty)) := by
  unfold eligibleSnapshots at h
  unfold selectSnapshot
  dsimp only
  rw [h]
  cases (snapshots.filter (·.exchange = exchange)).isEmpty <;> rfl

theorem selectSnapshot_mem {snapshots : List (FeatureSnapshot F)} {exchange : Exchange}
    {decision : Int} {newest : FeatureSnapshot F}
    (h : (selectSnapshot snapshots exchange decision).1 = some newest) :
    newest ∈ snapshots ∧ newest.exchange = exchange ∧ newest.decisionTimestamp ≤ decision := by
  cases hfirst : firstMax selectionKey (eligibleSnapshots snapshots exchange decision) with
  | none =>
    rw [selectSnapshot_of_none hfirst] at h
    cases h
  | some found =>
    rw [selectSnapshot_of_some hfirst] at h
    obtain rfl : found = newest := Option.some.inj h
    have hmem := firstMax_mem hfirst
    simp only [eligibleSnapshots, List.mem_filter, decide_eq_true_eq] at hmem
    exact ⟨hmem.1.1, hmem.1.2, hmem.2⟩

theorem selectionReason_swapVenue {exchange : Exchange} (hvenue : exchange = .binance ∨ exchange = .okx)
    (absent : Bool) :
    (selectionReason exchange.swapVenue absent).swapVenue = selectionReason exchange absent := by
  rcases hvenue with rfl | rfl <;> cases absent <;> decide

/-- The selection of a venue in the exchanged collection is that of the other one. -/
theorem selectSnapshot_swapVenue (snapshots : List (FeatureSnapshot F)) {exchange : Exchange}
    (hvenue : exchange = .binance ∨ exchange = .okx) (decision : Int) :
    selectSnapshot (snapshots.map FeatureSnapshot.swapVenue) exchange decision =
      (((selectSnapshot snapshots exchange.swapVenue decision).1).map FeatureSnapshot.swapVenue,
        ((selectSnapshot snapshots exchange.swapVenue decision).2).map
          FeatureUnavailableReason.swapVenue) := by
  have hfirst : firstMax selectionKey
      (eligibleSnapshots (snapshots.map FeatureSnapshot.swapVenue) exchange decision) =
      (firstMax selectionKey (eligibleSnapshots snapshots exchange.swapVenue decision)).map
        FeatureSnapshot.swapVenue := by
    unfold eligibleSnapshots
    rw [filter_exchange_swapVenue, List.filter_map, firstMax_map _ swapVenue_selection]
    rfl
  cases hother : firstMax selectionKey (eligibleSnapshots snapshots exchange.swapVenue decision) with
  | some newest =>
    rw [hother] at hfirst
    rw [selectSnapshot_of_some hother, selectSnapshot_of_some hfirst]
    rfl
  | none =>
    rw [hother] at hfirst
    rw [selectSnapshot_of_none hother, selectSnapshot_of_none hfirst, filter_exchange_swapVenue,
      List.isEmpty_map]
    show (none, some _) = (none, some (FeatureUnavailableReason.swapVenue _))
    rw [selectionReason_swapVenue hvenue]

/-- A selection's reason exchanges in a pair. -/
theorem selectSnapshot_paired (snapshots : List (FeatureSnapshot F)) {exchange : Exchange}
    (hvenue : exchange = .binance ∨ exchange = .okx) (decision : Int) :
    ∀ reason ∈ (selectSnapshot snapshots exchange decision).2.toList, reason.Paired := by
  have hother : exchange.swapVenue = .binance ∨ exchange.swapVenue = .okx := by
    rcases hvenue with rfl | rfl
    · exact .inr rfl
    · exact .inl rfl
  intro reason hreason
  cases hfirst : firstMax selectionKey (eligibleSnapshots snapshots exchange decision) with
  | some newest =>
    rw [selectSnapshot_of_some hfirst] at hreason
    exact absurd hreason List.not_mem_nil
  | none =>
    rw [selectSnapshot_of_none hfirst] at hreason
    rw [List.mem_singleton.mp hreason]
    have hback := selectionReason_swapVenue hother
      (snapshots.filter (·.exchange = exchange)).isEmpty
    rw [Exchange.swapVenue_swapVenue] at hback
    show (selectionReason exchange _).swapVenue.swapVenue = _
    rw [hback, selectionReason_swapVenue hvenue]

/-! ### Candidates -/

/-- `candidates` in the order of the collection. -/
def relevantSnapshots (snapshots : List (FeatureSnapshot F)) (symbol : String) (windowSeconds : Int) :
    List (FeatureSnapshot F) :=
  snapshots.filter fun snapshot =>
    snapshot.symbol = symbol ∧ snapshot.windowSeconds = windowSeconds ∧
      (snapshot.exchange = .binance ∨ snapshot.exchange = .okx)

theorem relevantSnapshots_swapVenue (snapshots : List (FeatureSnapshot F)) (symbol : String)
    (windowSeconds : Int) :
    relevantSnapshots (snapshots.map FeatureSnapshot.swapVenue) symbol windowSeconds =
      (relevantSnapshots snapshots symbol windowSeconds).map FeatureSnapshot.swapVenue := by
  unfold relevantSnapshots
  rw [List.filter_map]
  congr 1
  apply List.filter_congr
  intro snapshot _
  show decide (snapshot.symbol = symbol ∧ snapshot.windowSeconds = windowSeconds ∧
    (snapshot.exchange.swapVenue = .binance ∨ snapshot.exchange.swapVenue = .okx)) = _
  rw [decide_eq_decide, Exchange.swapVenue_eq_iff, Exchange.swapVenue_eq_iff]
  exact and_congr_right fun _ => and_congr_right fun _ => or_comm

/-- The sort keeps the order of one venue's snapshots of one time and id, which is all a selection sees. -/
theorem selectSnapshot_sort (candidates : List (FeatureSnapshot F)) (exchange : Exchange)
    (decision : Int) :
    selectSnapshot (sortByKey candidateKey candidates) exchange decision =
      selectSnapshot candidates exchange decision := by
  have hvenue : ((sortByKey candidateKey candidates).filter (·.exchange = exchange)).Perm
      (candidates.filter (·.exchange = exchange)) := (sortByKey_perm _ _).filter _
  have hfirst : firstMax selectionKey
      (eligibleSnapshots (sortByKey candidateKey candidates) exchange decision) =
      firstMax selectionKey (eligibleSnapshots candidates exchange decision) := by
    unfold eligibleSnapshots
    apply firstMax_stable (hvenue.filter _)
    intro key
    simp only [List.filter_filter]
    apply filter_sortByKey (k := toLex ((ofLex key).1, toLex (exchange.value, (ofLex key).2)))
    intro snapshot _ h
    simp only [Bool.and_eq_true, decide_eq_true_eq] at h
    obtain ⟨hkey, -, hexchange⟩ := h
    rw [← hkey, ← hexchange]
    rfl
  have hempty : ((sortByKey candidateKey candidates).filter (·.exchange = exchange)).isEmpty =
      (candidates.filter (·.exchange = exchange)).isEmpty := by
    rw [Bool.eq_iff_iff, List.isEmpty_iff, List.isEmpty_iff]
    constructor
    · intro h
      exact (h ▸ hvenue).nil_eq.symm
    · intro h
      exact (h ▸ hvenue).eq_nil
  cases hsome : firstMax selectionKey (eligibleSnapshots candidates exchange decision) with
  | some newest => rw [selectSnapshot_of_some hsome, selectSnapshot_of_some (hfirst.trans hsome)]
  | none =>
    rw [selectSnapshot_of_none hsome, selectSnapshot_of_none (hfirst.trans hsome), hempty]

theorem pairedAt_sort (engine : CrossVenueFeatureEngine F) (candidates : List (FeatureSnapshot F))
    (symbol : String) (decision windowSeconds timestamp : Int) (exchange : Exchange) :
    CrossVenueFeatureEngine.pairedAt (engine.insideLookback (sortByKey candidateKey candidates) symbol
        decision windowSeconds) timestamp exchange =
      CrossVenueFeatureEngine.pairedAt (engine.insideLookback candidates symbol decision windowSeconds)
        timestamp exchange := by
  apply firstMax_stable (((sortByKey_perm _ _).filter _).filter _)
  intro key
  simp only [List.filter_filter]
  apply filter_sortByKey (k := toLex (timestamp, toLex (exchange.value, key)))
  intro snapshot _ h
  simp only [Bool.and_eq_true, decide_eq_true_eq] at h
  obtain ⟨hkey, ⟨htimestamp, hexchange⟩, -⟩ := h
  rw [← hkey, ← htimestamp, ← hexchange]
  rfl

theorem spreadHistory_sort [Zero F] [One F] [Neg F] [Add F] [Sub F] [Div F] [LinearOrder F]
    (engine : CrossVenueFeatureEngine F) (candidates : List (FeatureSnapshot F)) (symbol : String)
    (decision windowSeconds : Int) :
    engine.spreadHistory (sortByKey candidateKey candidates) symbol decision windowSeconds =
      engine.spreadHistory candidates symbol decision windowSeconds := by
  have hentry : engine.historyEntry (engine.insideLookback (sortByKey candidateKey candidates) symbol
        decision windowSeconds) =
      engine.historyEntry (engine.insideLookback candidates symbol decision windowSeconds) := by
    funext timestamp
    unfold CrossVenueFeatureEngine.historyEntry
    rw [pairedAt_sort, pairedAt_sort]
  have hmem : ∀ snapshot,
      snapshot ∈ engine.insideLookback (sortByKey candidateKey candidates) symbol decision windowSeconds ↔
        snapshot ∈ engine.insideLookback candidates symbol decision windowSeconds :=
    fun snapshot => ((sortByKey_perm _ _).filter _).mem_iff
  unfold CrossVenueFeatureEngine.spreadHistory
  dsimp only
  rw [hentry, pairedTimestamps_congr hmem]

/-- The paired snapshot without the sort. -/
theorem assemble_sort [Zero F] [One F] [Neg F] [Add F] [Sub F] [Div F] [LinearOrder F]
    (engine : CrossVenueFeatureEngine F) (candidates : List (FeatureSnapshot F)) (symbol : String)
    (decision windowSeconds : Int) :
    engine.assemble (sortByKey candidateKey candidates) symbol decision windowSeconds =
      engine.assemble candidates symbol decision windowSeconds :=
  engine.assemble_congr (selectSnapshot_sort _ _ _) (selectSnapshot_sort _ _ _)
    fun symbol => spreadHistory_sort engine candidates symbol decision windowSeconds

end Selection

end Cvf
