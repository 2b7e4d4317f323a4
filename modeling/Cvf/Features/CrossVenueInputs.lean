/-
# Cvf.Features.CrossVenueInputs — what a paired snapshot depends on.

The engine reads its collection three times: for the newest eligible snapshot of each venue, and for the
pairs inside the lookback.  Where ids tell the snapshots apart, none of these reads sees the order of the
collection.  What cannot be selected and does not lie inside the lookback can be added or left out
(`calculate_reads_relevant`): a decision sees no later snapshot.
-/
import Cvf.Features.CrossVenue
import Cvf.Features.MetricReplace

namespace Cvf

open Cvf.Library

variable {F : Type}

/-- Ids tell the snapshots of a collection apart. -/
def DistinctIds (snapshots : List (FeatureSnapshot F)) : Prop :=
  (snapshots.map (·.featureSnapshotId)).Nodup

theorem DistinctIds.eq_of_int {snapshots : List (FeatureSnapshot F)} (h : DistinctIds snapshots) :
    ∀ a ∈ snapshots, ∀ b ∈ snapshots, a.featureSnapshotId.int = b.featureSnapshotId.int → a = b :=
  fun _ ha _ hb hint => List.inj_on_of_nodup_map h ha hb (Uuid.ext hint)

theorem DistinctIds.eq_of_selectionKey {snapshots : List (FeatureSnapshot F)}
    (h : DistinctIds snapshots) :
    ∀ a ∈ snapshots, ∀ b ∈ snapshots, selectionKey a = selectionKey b → a = b := by
  intro a ha b hb hkey
  exact h.eq_of_int a ha b hb (Prod.mk.inj (toLex.injective hkey)).2

theorem DistinctIds.eq_of_candidateKey {snapshots : List (FeatureSnapshot F)}
    (h : DistinctIds snapshots) :
    ∀ a ∈ snapshots, ∀ b ∈ snapshots, candidateKey a = candidateKey b → a = b := by
  intro a ha b hb hkey
  have hinner := toLex.injective (Prod.mk.inj (toLex.injective hkey)).2
  exact h.eq_of_int a ha b hb (Prod.mk.inj hinner).2

theorem mem_crossVenueCandidates {snapshots : List (FeatureSnapshot F)} {symbol : String}
    {windowSeconds : Int} {snapshot : FeatureSnapshot F} :
    snapshot ∈ crossVenueCandidates snapshots symbol windowSeconds ↔
      snapshot ∈ snapshots ∧ snapshot.symbol = symbol ∧ snapshot.windowSeconds = windowSeconds ∧
        (snapshot.exchange = .binance ∨ snapshot.exchange = .okx) := by
  unfold crossVenueCandidates
  rw [(sortByKey_perm ..).mem_iff, List.mem_filter, decide_eq_true_iff]

/-- The order of the collection is forgotten by the sort. -/
theorem crossVenueCandidates_perm {snapshots other : List (FeatureSnapshot F)}
    (hperm : other.Perm snapshots) (hids : DistinctIds snapshots) (symbol : String)
    (windowSeconds : Int) :
    crossVenueCandidates other symbol windowSeconds =
      crossVenueCandidates snapshots symbol windowSeconds := by
  apply sortByKey_perm_eq (hperm.filter _)
  intro a ha b hb
  exact hids.eq_of_candidateKey a (List.mem_of_mem_filter ha) b (List.mem_of_mem_filter hb)

/-! ## Selection -/

/-- A snapshot newer than every other eligible one of its venue is selected. -/
theorem selectSnapshot_eq_some {candidates : List (FeatureSnapshot F)} {newest : FeatureSnapshot F}
    {exchange : Exchange} {decision : Int} (hnewest : newest ∈ candidates)
    (hexchange : newest.exchange = exchange) (hpast : newest.decisionTimestamp ≤ decision)
    (hmax : ∀ other ∈ candidates, other.exchange = exchange → other.decisionTimestamp ≤ decision →
      other ≠ newest → selectionKey other < selectionKey newest) :
    selectSnapshot candidates exchange decision = (some newest, none) := by
  have hfirst : firstMax selectionKey ((candidates.filter (·.exchange = exchange)).filter
      (·.decisionTimestamp ≤ decision)) = some newest := by
    apply firstMax_eq_some
    · simp only [List.mem_filter, decide_eq_true_eq]
      exact ⟨⟨hnewest, hexchange⟩, hpast⟩
    · intro other hother hne
      simp only [List.mem_filter, decide_eq_true_eq] at hother
      exact hmax other hother.1.1 hother.1.2 hother.2 hne
  unfold selectSnapshot
  dsimp only
  rw [hfirst]

/-- The selected snapshot of a venue that has an eligible one. -/
theorem exists_selectSnapshot {candidates : List (FeatureSnapshot F)} {exchange : Exchange}
    {decision : Int} {eligible : FeatureSnapshot F} (hmem : eligible ∈ candidates)
    (hexchange : eligible.exchange = exchange) (hpast : eligible.decisionTimestamp ≤ decision) :
    ∃ newest ∈ candidates, newest.exchange = exchange ∧ newest.decisionTimestamp ≤ decision ∧
      selectSnapshot candidates exchange decision = (some newest, none) ∧
      ∀ other ∈ candidates, other.exchange = exchange → other.decisionTimestamp ≤ decision →
        selectionKey other ≤ selectionKey newest := by
  have heligible : eligible ∈ (candidates.filter (·.exchange = exchange)).filter
      (·.decisionTimestamp ≤ decision) :=
    List.mem_filter.mpr ⟨List.mem_filter.mpr ⟨hmem, decide_eq_true hexchange⟩, decide_eq_true hpast⟩
  obtain ⟨newest, hfirst⟩ : ∃ newest, firstMax selectionKey ((candidates.filter
      (·.exchange = exchange)).filter (·.decisionTimestamp ≤ decision)) = some newest :=
    exists_firstMax (List.ne_nil_of_mem heligible)
  have hthere := firstMax_mem hfirst
  simp only [List.mem_filter, decide_eq_true_eq] at hthere
  refine ⟨newest, hthere.1.1, hthere.1.2, hthere.2, ?_, ?_⟩
  · unfold selectSnapshot
    dsimp only
    rw [hfirst]
  · intro other hother hexchange hpast
    apply le_firstMax hfirst
    simp only [List.mem_filter, decide_eq_true_eq]
    exact ⟨⟨hother, hexchange⟩, hpast⟩

/-! ## The history -/

/-- Ids tell the snapshots of one venue and decision time apart. -/
def TellsApart (snapshots : List (FeatureSnapshot F)) : Prop :=
  ∀ a ∈ snapshots, ∀ b ∈ snapshots, a.exchange = b.exchange →
    a.decisionTimestamp = b.decisionTimestamp → a.featureSnapshotId.int = b.featureSnapshotId.int → a = b

theorem DistinctIds.tellsApart {snapshots : List (FeatureSnapshot F)} (h : DistinctIds snapshots) :
    TellsApart snapshots :=
  fun a ha b hb _ _ hint => h.eq_of_int a ha b hb hint

theorem TellsApart.subset {snapshots some : List (FeatureSnapshot F)} (h : TellsApart snapshots)
    (hsubset : some ⊆ snapshots) : TellsApart some :=
  fun a ha b hb => h a (hsubset ha) b (hsubset hb)

theorem pairedAt_congr {inside inside' : List (FeatureSnapshot F)}
    (hmem : ∀ x, x ∈ inside ↔ x ∈ inside') (hids : TellsApart inside)
    (timestamp : Int) (exchange : Exchange) :
    CrossVenueFeatureEngine.pairedAt inside timestamp exchange =
      CrossVenueFeatureEngine.pairedAt inside' timestamp exchange := by
  apply firstMax_congr
  · intro x
    rw [List.mem_filter, List.mem_filter, hmem]
  · intro a ha b hb hint
    simp only [List.mem_filter, decide_eq_true_eq] at ha hb
    exact hids a ha.1 b hb.1 (ha.2.2.trans hb.2.2.symm) (ha.2.1.trans hb.2.1.symm) hint

theorem pairedTimestamps_congr {inside inside' : List (FeatureSnapshot F)}
    (hmem : ∀ x, x ∈ inside ↔ x ∈ inside') :
    CrossVenueFeatureEngine.pairedTimestamps inside =
      CrossVenueFeatureEngine.pairedTimestamps inside' := by
  apply sortByKey_perm_eq
  · apply (List.perm_ext_iff_of_nodup (List.nodup_dedup _) (List.nodup_dedup _)).mpr
    intro timestamp
    simp only [List.mem_dedup, List.mem_map, hmem]
  · exact fun a _ b _ h => h

namespace CrossVenueFeatureEngine

variable (engine : CrossVenueFeatureEngine F)

theorem historyEntry_congr {inside inside' : List (FeatureSnapshot F)}
    (hmem : ∀ x, x ∈ inside ↔ x ∈ inside') (hids : TellsApart inside) :
    engine.historyEntry inside = engine.historyEntry inside' := by
  funext timestamp
  unfold historyEntry
  rw [pairedAt_congr hmem hids, pairedAt_congr hmem hids]

/-- The history depends on which snapshots lie inside the lookback. -/
theorem spreadHistory_congr {candidates candidates' : List (FeatureSnapshot F)} {symbol : String}
    {decision windowSeconds : Int}
    (hmem : ∀ x, x ∈ engine.insideLookback candidates symbol decision windowSeconds ↔
      x ∈ engine.insideLookback candidates' symbol decision windowSeconds)
    (hids : TellsApart candidates') :
    engine.spreadHistory candidates symbol decision windowSeconds =
      engine.spreadHistory candidates' symbol decision windowSeconds := by
  have hinside : TellsApart (engine.insideLookback candidates symbol decision windowSeconds) :=
    hids.subset fun a ha => List.mem_of_mem_filter ((hmem a).mp ha)
  unfold spreadHistory
  dsimp only
  rw [pairedTimestamps_congr hmem, historyEntry_congr engine hmem hinside]

/-! ## Irrelevant snapshots -/

/-- An added snapshot that a decision does not read: later than it, of another symbol or window, or
before the lookback and older than an eligible one of its venue. -/
def Irrelevant (snapshots : List (FeatureSnapshot F)) (symbol : String) (decision windowSeconds : Int)
    (added : FeatureSnapshot F) : Prop :=
  decision < added.decisionTimestamp ∨ added.symbol ≠ symbol ∨ added.windowSeconds ≠ windowSeconds ∨
    added.decisionTimestamp ≤ decision - engine.settings.zscoreLookbackSeconds * 1000000 ∧
      ∃ eligible ∈ snapshots, eligible.symbol = symbol ∧ eligible.windowSeconds = windowSeconds ∧
        eligible.exchange = added.exchange ∧ eligible.decisionTimestamp ≤ decision ∧
          added.decisionTimestamp < eligible.decisionTimestamp

/-- Irrelevant snapshots leave the selection of a venue that has an eligible one as it is. -/
theorem selectSnapshot_append {snapshots added combined : List (FeatureSnapshot F)} {symbol : String}
    {decision windowSeconds : Int} {exchange : Exchange} (hids : DistinctIds snapshots)
    (hcombined : combined.Perm (snapshots ++ added))
    (hadded : ∀ extra ∈ added, engine.Irrelevant snapshots symbol decision windowSeconds extra)
    (hvenue : exchange = .binance ∨ exchange = .okx)
    (heligible : ∃ snapshot ∈ snapshots, snapshot.symbol = symbol ∧
      snapshot.windowSeconds = windowSeconds ∧ snapshot.exchange = exchange ∧
        snapshot.decisionTimestamp ≤ decision) :
    selectSnapshot (crossVenueCandidates combined symbol windowSeconds) exchange decision =
      selectSnapshot (crossVenueCandidates snapshots symbol windowSeconds) exchange decision := by
  obtain ⟨eligible, hmem, hsymbol, hwindow, hexchange, hpast⟩ := heligible
  have hcandidate : ∀ {snapshot}, snapshot ∈ snapshots → snapshot.symbol = symbol →
      snapshot.windowSeconds = windowSeconds → snapshot.exchange = exchange →
        snapshot ∈ crossVenueCandidates snapshots symbol windowSeconds := by
    intro snapshot hmem hsymbol hwindow hexchange
    exact mem_crossVenueCandidates.mpr ⟨hmem, hsymbol, hwindow, hexchange ▸ hvenue⟩
  obtain ⟨newest, hnewest, hnewestVenue, hnewestPast, hselected, hmax⟩ :=
    exists_selectSnapshot (hcandidate hmem hsymbol hwindow hexchange) hexchange hpast
  have hthere := mem_crossVenueCandidates.mp hnewest
  rw [hselected]
  apply selectSnapshot_eq_some _ hnewestVenue hnewestPast
  · intro other hother hotherVenue hotherPast hne
    obtain ⟨hmem, hsymbol, hwindow, -⟩ := mem_crossVenueCandidates.mp hother
    rcases List.mem_append.mp (hcombined.mem_iff.mp hmem) with hold | hnew
    · -- an old one of another id
      apply lt_of_le_of_ne (hmax other (hcandidate hold hsymbol hwindow hotherVenue) hotherVenue
        hotherPast)
      exact fun hkey => hne (hids.eq_of_selectionKey other hold newest hthere.1 hkey)
    · -- an added one is older than an eligible one
      obtain hlate | hother | hother | ⟨-, older, holder, hs, hw, he, hp, hlt⟩ := hadded other hnew
      · exact absurd hotherPast (not_le.mpr hlate)
      · exact absurd hsymbol hother
      · exact absurd hwindow hother
      · have hle := hmax older (hcandidate holder hs hw (he.trans hotherVenue))
          (he.trans hotherVenue) hp
        apply lt_of_lt_of_le _ hle
        exact Prod.Lex.toLex_lt_toLex.mpr (.inl hlt)
  · exact mem_crossVenueCandidates.mpr
      ⟨hcombined.mem_iff.mpr (List.mem_append_left _ hthere.1), hthere.2⟩

/-- Irrelevant snapshots do not lie inside the lookback. -/
theorem mem_insideLookback_append {snapshots added combined : List (FeatureSnapshot F)}
    {symbol symbol' : String} {decision windowSeconds : Int}
    (hcombined : combined.Perm (snapshots ++ added))
    (hadded : ∀ extra ∈ added, engine.Irrelevant snapshots symbol decision windowSeconds extra)
    (x : FeatureSnapshot F) :
    x ∈ engine.insideLookback (crossVenueCandidates combined symbol windowSeconds) symbol' decision
        windowSeconds ↔
      x ∈ engine.insideLookback (crossVenueCandidates snapshots symbol windowSeconds) symbol' decision
        windowSeconds := by
  unfold insideLookback
  simp only [List.mem_filter, decide_eq_true_eq, mem_crossVenueCandidates, hcombined.mem_iff,
    List.mem_append]
  constructor
  · rintro ⟨⟨hmem | hmem, hkeys⟩, hinside⟩
    · exact ⟨⟨hmem, hkeys⟩, hinside⟩
    · exfalso
      obtain hlate | hother | hother | ⟨hearly, -⟩ := hadded x hmem
      · exact absurd hinside.2.2.2 (not_lt.mpr hlate.le)
      · exact hother hkeys.1
      · exact hother hkeys.2.1
      · exact absurd hinside.2.2.1 (not_lt.mpr hearly)
  · rintro ⟨⟨hmem, hkeys⟩, hinside⟩
    exact ⟨⟨.inl hmem, hkeys⟩, hinside⟩

/-! ## The snapshot -/

variable [Zero F] [One F] [Neg F] [Add F] [Sub F] [Div F] [LinearOrder F]

/-- The snapshot depends on the two selections and on the history. -/
theorem assemble_congr {candidates candidates' : List (FeatureSnapshot F)} {symbol : String}
    {decision windowSeconds : Int}
    (hbinance : selectSnapshot candidates .binance decision =
      selectSnapshot candidates' .binance decision)
    (hokx : selectSnapshot candidates .okx decision = selectSnapshot candidates' .okx decision)
    (hhistory : ∀ symbol, engine.spreadHistory candidates symbol decision windowSeconds =
      engine.spreadHistory candidates' symbol decision windowSeconds) :
    engine.assemble candidates symbol decision windowSeconds =
      engine.assemble candidates' symbol decision windowSeconds := by
  have hgroups : ∀ (binance okx : FeatureSnapshot F) (alignment : CrossVenueAlignmentResult F),
      engine.pairedGroups candidates binance okx decision windowSeconds alignment =
        engine.pairedGroups candidates' binance okx decision windowSeconds alignment := by
    intro binance okx alignment
    have hzscore : ∀ value, engine.spreadZscore candidates binance.symbol decision windowSeconds value =
        engine.spreadZscore candidates' binance.symbol decision windowSeconds value := by
      intro value
      unfold spreadZscore
      rw [hhistory]
    unfold pairedGroups
    rw [hzscore]
  unfold assemble
  simp only [hbinance, hokx, hgroups]

/-- The paired snapshot, its id included, is the same for every arrangement of a collection with distinct
ids; and when both venues have a snapshot at or before the decision, irrelevant ones can be added
anywhere. -/
theorem calculate_reads_relevant {snapshots : List (FeatureSnapshot F)} (hids : DistinctIds snapshots)
    (symbol : String) (decision windowSeconds : Int) :
    (∀ other : List (FeatureSnapshot F), other.Perm snapshots →
      engine.calculate other symbol decision windowSeconds =
        engine.calculate snapshots symbol decision windowSeconds) ∧
    ((∀ exchange, exchange = .binance ∨ exchange = .okx → ∃ snapshot ∈ snapshots,
        snapshot.symbol = symbol ∧ snapshot.windowSeconds = windowSeconds ∧
          snapshot.exchange = exchange ∧ snapshot.decisionTimestamp ≤ decision) →
      ∀ added combined : List (FeatureSnapshot F), combined.Perm (snapshots ++ added) →
        (∀ extra ∈ added, engine.Irrelevant snapshots symbol decision windowSeconds extra) →
          engine.calculate combined symbol decision windowSeconds =
            engine.calculate snapshots symbol decision windowSeconds) := by
  constructor
  · intro other hperm
    unfold calculate
    rw [crossVenueCandidates_perm hperm hids]
  · intro heligible added combined hcombined hadded
    have hassemble : engine.assemble (crossVenueCandidates combined symbol windowSeconds) symbol decision
        windowSeconds = engine.assemble (crossVenueCandidates snapshots symbol windowSeconds) symbol
          decision windowSeconds := by
      apply engine.assemble_congr
      · exact engine.selectSnapshot_append hids hcombined hadded (.inl rfl) (heligible _ (.inl rfl))
      · exact engine.selectSnapshot_append hids hcombined hadded (.inr rfl) (heligible _ (.inr rfl))
      · intro symbol'
        apply engine.spreadHistory_congr (engine.mem_insideLookback_append hcombined hadded)
        exact hids.tellsApart.subset fun a ha => (mem_crossVenueCandidates.mp ha).1
    unfold calculate
    rw [hassemble]

/-! ### Two snapshots -/

/-- Exact arithmetic on rationals. -/
def exampleFeatureMath : FeatureMath ℚ :=
  { rationalMath with
    toFloat := fun value => value
    milliseconds := fun duration => duration / 1000
    largestFloat := 2 ^ 1024 - 2 ^ 971 }

/-- Half an hour of lookback and the default tolerances. -/
def exampleCrossVenueSettings : CrossVenueSettings ℚ :=
  { strategyVersion := "CVF-01"
    codeVersion := "0.1.0"
    configHash := "config"
    canonicalSymbols := ["BTC-USDT-PERP"]
    featureWindowsSeconds := [5]
    zscoreLookbackSeconds := 1800
    maxSnapshotAgeMs := 2000
    maxTimeDifferenceMs := 500
    zscoreMinimumSamples := 2
    directionEpsilon := 0
    strengthTolerance := 1 / 4
    abnormalJumpZscore := 4 }

def exampleCrossVenueEngine : CrossVenueFeatureEngine ℚ :=
  { settings := exampleCrossVenueSettings
    math := exampleFeatureMath
    historySha256 := fun history => toString history.length
    featureId := fun identity =>
      ⟨identity.decisionTimestamp.natAbs % 2 ^ 128, Nat.mod_lt _ (by norm_num)⟩ }

/-- A warm and healthy snapshot of one venue. -/
def exampleVenueSnapshot (exchange : Exchange) (id : Nat) (hid : id < 2 ^ 128) (decision : Int)
    (midPrice : Decimal) : FeatureSnapshot ℚ :=
  { exchange
    symbol := "BTC-USDT-PERP"
    exchangeTimestamp := decision
    localReceiveTimestamp := decision
    normalizationTimestamp := decision
    featureSnapshotId := ⟨id, hid⟩
    strategyVersion := "CVF-01"
    calculationTimestamp := decision
    decisionTimestamp := decision
    windowSeconds := 5
    bookGeneration := 1
    sourceEventCount := 1
    oldestSourceTimestamp := some decision
    newestSourceTimestamp := some decision
    dataAgeMs := some 0
    isWarm := true
    isHealthy := true
    orderBook := some { midPrice := some midPrice } }

def exampleVenueSnapshots : List (FeatureSnapshot ℚ) :=
  [exampleVenueSnapshot .binance 1 (by norm_num) 1000000 100,
    exampleVenueSnapshot .okx 2 (by norm_num) 1000000 101]

/-- A later snapshot and one of another window. -/
def exampleIrrelevantSnapshots : List (FeatureSnapshot ℚ) :=
  [exampleVenueSnapshot .okx 3 (by norm_num) 2000000 90,
    { exampleVenueSnapshot .binance 4 (by norm_num) 1000000 90 with windowSeconds := 60 }]

/-- The snapshots of a pair in the other order, and with irrelevant ones before and between them. -/
theorem calculate_reads_relevant_added :
    exampleCrossVenueEngine.calculate exampleVenueSnapshots.reverse "BTC-USDT-PERP" 1000000 5 =
        exampleCrossVenueEngine.calculate exampleVenueSnapshots "BTC-USDT-PERP" 1000000 5 ∧
      exampleCrossVenueEngine.calculate (exampleIrrelevantSnapshots ++ exampleVenueSnapshots)
          "BTC-USDT-PERP" 1000000 5 =
        exampleCrossVenueEngine.calculate exampleVenueSnapshots "BTC-USDT-PERP" 1000000 5 := by
  have hids : DistinctIds exampleVenueSnapshots := by
    unfold DistinctIds
    decide
  obtain ⟨hperm, hadded⟩ :=
    exampleCrossVenueEngine.calculate_reads_relevant hids "BTC-USDT-PERP" 1000000 5
  refine ⟨hperm _ (List.reverse_perm _),
    hadded ?_ exampleIrrelevantSnapshots _ List.perm_append_comm ?_⟩
  · rintro exchange (rfl | rfl)
    · exact ⟨_, List.mem_cons_self, rfl, rfl, rfl, le_rfl⟩
    · exact ⟨_, List.mem_cons_of_mem _ List.mem_cons_self, rfl, rfl, rfl, le_rfl⟩
  · intro extra hextra
    rcases List.mem_pair.mp hextra with rfl | rfl
    · exact .inl (by decide)
    · exact .inr (.inr (.inl (by decide)))

end CrossVenueFeatureEngine

end Cvf
