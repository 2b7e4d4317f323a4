/-
# Cvf.Replay.SequenceOrder — sequence ids at one receive time.

The feature driver and the replay reader break ties of the receive time by the text of the sequence id,
and text compares character by character: `"10"` sorts before `"9"`.  So events of one feed and instant
come out in the numeric order of their ids exactly when the texts of those ids sort like the numbers;
in the reader the priority, the generation and the channel are compared before the text.
-/
import Cvf.Features.DriverRuns
import Cvf.Replay.RawReader

namespace Cvf

open Cvf.Library

theorem str_int_injective {m n : Int} (h : (SequenceId.int m).str = (SequenceId.int n).str) : m = n :=
  Int.repr_injective h

/-! ## The driver -/

/-- Events of one exchange, symbol and type with one receive time. -/
structure SameFeed (e f : NormalizedMarketEvent) : Prop where
  exchange : e.base.exchange = f.base.exchange
  symbol : e.base.symbol = f.base.symbol
  eventType : e.eventType = f.eventType
  receiveTimestamp : e.base.localReceiveTimestamp = f.base.localReceiveTimestamp

/-- `e` has the smaller integer id of the two. -/
def SequenceBelow (e f : NormalizedMarketEvent) : Prop :=
  SameFeed e f ∧ ∃ m n : Int, e.base.sequenceId = some (.int m) ∧ f.base.sequenceId = some (.int n) ∧
    m < n

def InSequenceOrder (events : List NormalizedMarketEvent) : Prop :=
  events.Pairwise fun e f => ¬ SequenceBelow f e

/-- The decimal texts of the ids of one feed and receive time sort like the ids. -/
def TextsSortLikeIds (events : List NormalizedMarketEvent) : Prop :=
  ∀ e ∈ events, ∀ f ∈ events, SameFeed e f → ∀ m n : Int, e.base.sequenceId = some (.int m) →
    f.base.sequenceId = some (.int n) → m < n → toString m < toString n

namespace ReceiveTimeFeatureDriver

variable {identity : PayloadIdentity} {known : List NormalizedMarketEvent}
  {delivered : List QueuedFeatureEvent} {d : ReceiveTimeFeatureDriver}

/-- Of two events of one feed and receive time the texts of the ids decide. -/
theorem queueItem_contentKey_lt_iff {e f : NormalizedMarketEvent} (hsame : SameFeed e f) {m n : Int}
    (hm : e.base.sequenceId = some (.int m)) (hn : f.base.sequenceId = some (.int n)) (hne : m ≠ n) :
    (queueItem identity e (receiveTime e) 0).contentKey <
        (queueItem identity f (receiveTime f) 0).contentKey ↔ toString m < toString n := by
  have htext : toString m ≠ toString n := fun h => hne (str_int_injective h)
  unfold QueuedFeatureEvent.contentKey queueItem receiveTime
  rw [hm, hn, hsame.exchange, hsame.symbol, hsame.eventType, hsame.receiveTimestamp]
  simp only [Prod.Lex.toLex_lt_toLex, lt_irrefl, true_and, false_or, Option.map_some, Option.getD_some]
  show toString m < toString n ∨ toString m = toString n ∧ _ ↔ _
  simp only [htext, false_and, or_false]

/-- What has been delivered is in the order of the ids exactly when their texts are. -/
theorem Ordered.inSequenceOrder_iff (hinv : Ordered identity known delivered d) :
    InSequenceOrder (delivered.map QueuedFeatureEvent.event) ↔
      TextsSortLikeIds (delivered.map QueuedFeatureEvent.event) := by
  have hsorted : delivered.Pairwise fun q r => q.contentKey ≤ r.contentKey :=
    (List.pairwise_append.mp hinv.sorted).1.imp QueuedFeatureEvent.contentKey_le_of_key_le
  have hkey : ∀ q ∈ delivered,
      q.contentKey = (queueItem identity q.event (receiveTime q.event) 0).contentKey :=
    fun q hq => hinv.contentKey_eq (List.mem_append_left _ hq)
  have hne : ∀ q ∈ delivered, ∀ r ∈ delivered, SequenceBelow q.event r.event →
      q.contentKey ≠ r.contentKey := by
    rintro q hq r hr ⟨hsame, m, n, hm, hn, hlt⟩ heq
    have hids := congrArg (fun k : ContentKey => (ofLex (ofLex (ofLex (ofLex (ofLex k).2).2).2).2).1) heq
    rw [hkey q hq, hkey r hr] at hids
    unfold queueItem QueuedFeatureEvent.contentKey at hids
    rw [hm, hn] at hids
    exact hlt.ne (str_int_injective hids)
  unfold InSequenceOrder TextsSortLikeIds
  rw [List.pairwise_map, pairwise_not_below_iff hsorted hne]
  simp only [List.forall_mem_map]
  constructor
  · intro hkeys q hq r hr hsame m n hm hn hlt
    have := hkeys q hq r hr ⟨hsame, m, n, hm, hn, hlt⟩
    rw [hkey q hq, hkey r hr] at this
    exact (queueItem_contentKey_lt_iff hsame hm hn hlt.ne).mp this
  · rintro htexts q hq r hr ⟨hsame, m, n, hm, hn, hlt⟩
    rw [hkey q hq, hkey r hr]
    exact (queueItem_contentKey_lt_iff hsame hm hn hlt.ne).mpr
      (htexts q hq r hr hsame m n hm hn hlt)

theorem TextsSortLikeIds.perm {events events' : List NormalizedMarketEvent}
    (h : events.Perm events') : TextsSortLikeIds events ↔ TextsSortLikeIds events' := by
  unfold TextsSortLikeIds
  simp only [h.mem_iff]

/-- A run that ends in `finish`. -/
theorem finished_inSequenceOrder_iff {settings : DriverSettings} {calls : List Call}
    {through : Option Int}
    (h : ReceiveTimeFeatureDriver.run identity (new settings) (calls ++ [.finish through]) = .ok d) :
    InSequenceOrder (TickGrid.items d.timeline) ↔ TextsSortLikeIds (published calls) := by
  obtain ⟨delivered, hinv, hempty⟩ := ordered_of_finished h
  have hperm := hinv.perm
  rw [hempty, List.append_nil] at hperm
  rw [hinv.items_timeline, hinv.inSequenceOrder_iff]
  exact TextsSortLikeIds.perm hperm

end ReceiveTimeFeatureDriver

/-! ## The replay reader -/

/-- The text of the id is that of an integer: stored ids come back as text. -/
def Spells (sequenceId : Option SequenceId) (n : Int) : Prop :=
  sequenceId.map SequenceId.str = some (toString n)

/-- Records of one exchange, symbol and event type with one receive time, whatever classification of
records the event type is. -/
structure SameRecordFeed {τ : Type*} (eventType : RawMarketRecord → τ) (r s : RawMarketRecord) :
    Prop where
  exchange : r.exchange = s.exchange
  symbol : r.symbol = s.symbol
  eventType : eventType r = eventType s
  receiveTimestamp : r.localReceiveTimestamp = s.localReceiveTimestamp

section

variable {τ : Type*} (eventType : RawMarketRecord → τ)

def RecordBelow (r s : RawMarketRecord) : Prop :=
  SameRecordFeed eventType r s ∧ ∃ m n : Int, Spells r.sequenceId m ∧ Spells s.sequenceId n ∧ m < n

def RecordsInSequenceOrder (records : List RawMarketRecord) : Prop :=
  records.Pairwise fun r s => ¬ RecordBelow eventType s r

/-- The columns that are compared before the record id, less those the records share. -/
def feedColumns (r : RawMarketRecord) (n : Int) : Nat ×ₗ Nat ×ₗ String ×ₗ String :=
  toLex (recordPriority r, toLex (r.connectionGeneration, toLex (r.channel, toString n)))

def ColumnsSortLikeIds (records : List RawMarketRecord) : Prop :=
  ∀ r ∈ records, ∀ s ∈ records, SameRecordFeed eventType r s → ∀ m n : Int, Spells r.sequenceId m →
    Spells s.sequenceId n → m < n → feedColumns r m < feedColumns s n

end

theorem sequenceKey_of_spells {r : RawMarketRecord} {n : Int} (h : Spells r.sequenceId n) :
    sequenceKey r = toString n := by
  unfold sequenceKey
  rw [show r.sequenceId.map SequenceId.str = some (toString n) from h]
  rfl

theorem stableRecordKey_lt_iff {τ : Type*} {eventType : RawMarketRecord → τ} {r s : RawMarketRecord}
    (hsame : SameRecordFeed eventType r s) {m n : Int} (hm : Spells r.sequenceId m)
    (hn : Spells s.sequenceId n) (hne : m ≠ n) :
    stableRecordKey .receiveTime r < stableRecordKey .receiveTime s ↔
      feedColumns r m < feedColumns s n := by
  have htext : toString m ≠ toString n := fun h => hne (str_int_injective h)
  unfold stableRecordKey feedColumns replayTimestamp
  rw [sequenceKey_of_spells hm, sequenceKey_of_spells hn, hsame.exchange, hsame.symbol,
    hsame.receiveTimestamp]
  simp only [Prod.Lex.toLex_lt_toLex, lt_irrefl, true_and, false_or, htext, false_and, or_false]

/-- Records sorted by their keys are in the order of their ids exactly when their columns are. -/
theorem sortByKey_inSequenceOrder_iff {τ : Type*} (eventType : RawMarketRecord → τ)
    (records : List RawMarketRecord) :
    RecordsInSequenceOrder eventType (sortByKey (stableRecordKey .receiveTime) records) ↔
      ColumnsSortLikeIds eventType records := by
  have hperm := sortByKey_perm (stableRecordKey .receiveTime) records
  have hne : ∀ r ∈ sortByKey (stableRecordKey .receiveTime) records,
      ∀ s ∈ sortByKey (stableRecordKey .receiveTime) records, RecordBelow eventType r s →
        stableRecordKey .receiveTime r ≠ stableRecordKey .receiveTime s := by
    rintro r - s - ⟨-, m, n, hm, hn, hlt⟩ heq
    unfold stableRecordKey at heq
    simp only [toLex_inj, Prod.mk.injEq] at heq
    have htext := heq.2.2.2.2.2.2.2.1
    rw [sequenceKey_of_spells hm, sequenceKey_of_spells hn] at htext
    exact hlt.ne (str_int_injective htext)
  unfold RecordsInSequenceOrder ColumnsSortLikeIds
  rw [pairwise_not_below_iff (pairwise_sortByKey _ records) hne]
  simp only [hperm.mem_iff]
  constructor
  · intro hkeys r hr s hs hsame m n hm hn hlt
    exact (stableRecordKey_lt_iff hsame hm hn hlt.ne).mp
      (hkeys r hr s hs ⟨hsame, m, n, hm, hn, hlt⟩)
  · rintro hcolumns r hr s hs ⟨hsame, m, n, hm, hn, hlt⟩
    exact (stableRecordKey_lt_iff hsame hm hn hlt.ne).mpr
      (hcolumns r hr s hs hsame m n hm hn hlt)

/-! ## Both -/

open ReceiveTimeFeatureDriver in
/-- A finished run of the driver and a scan in receive-time order deliver one feed's events of one
receive time by ascending id exactly when what is compared as text sorts like the ids. -/
theorem sequence_order_iff {τ : Type*} (eventType : RawMarketRecord → τ) :
    (∀ (identity : PayloadIdentity) (settings : DriverSettings) (calls : List Call)
      (through : Option Int) (d : ReceiveTimeFeatureDriver),
      ReceiveTimeFeatureDriver.run identity (new settings) (calls ++ [.finish through]) = .ok d →
      (InSequenceOrder (TickGrid.items d.timeline) ↔ TextsSortLikeIds (published calls))) ∧
    (∀ (records : List RawMarketRecord) (reader : RawParquetReader) (filters : RawScanFilter),
      (records.map RawMarketRecord.recordId).Nodup → reader.tree.Holds records →
      ∃ delivered, reader.iterRecords filters .receiveTime = .ok delivered ∧
        (RecordsInSequenceOrder eventType delivered ↔
          ColumnsSortLikeIds eventType (matchingRecords filters records))) := by
  constructor
  · intro identity settings calls through d hrun
    exact finished_inSequenceOrder_iff hrun
  · intro records reader filters hunique hholds
    exact ⟨_, iterRecords_ok hunique hholds filters .receiveTime,
      sortByKey_inSequenceOrder_iff eventType (matchingRecords filters records)⟩

namespace ReceiveTimeFeatureDriver

/-- Two events of one instant, the larger id first. -/
def instantCalls (m n : Int) : List Call := [.publish (exampleEvent 3 n), .publish (exampleEvent 3 m)]

theorem textsSortLikeIds_instantCalls {m n : Int} (hlt : m < n) :
    TextsSortLikeIds (published (instantCalls m n)) ↔ toString m < toString n := by
  have hids : ∀ {e : NormalizedMarketEvent} {k : Int}, e ∈ published (instantCalls m n) →
      e.base.sequenceId = some (.int k) → k = n ∨ k = m := by
    intro e k he hk
    rcases List.mem_pair.mp he with rfl | rfl
    · exact Or.inl (SequenceId.int.inj (Option.some.inj hk)).symm
    · exact Or.inr (SequenceId.int.inj (Option.some.inj hk)).symm
  constructor
  · intro htexts
    exact htexts (exampleEvent 3 m) (by simp [published, instantCalls, Call.event?]) (exampleEvent 3 n)
      (by simp [published, instantCalls, Call.event?]) ⟨rfl, rfl, rfl, rfl⟩ m n rfl rfl hlt
  · intro htext e he f hf _ k l hk hl hkl
    rcases hids he hk with rfl | rfl
    · rcases hids hf hl with rfl | rfl <;> omega
    · rcases hids hf hl with rfl | rfl
      · exact htext
      · omega

theorem exists_run_instantCalls (m n : Int)
    (hok : (ReceiveTimeFeatureDriver.run exampleIdentity (new (exampleSettings 3 (by decide)))
      (instantCalls m n ++ [.finish none])).isOk = true) :
    ∃ d, ReceiveTimeFeatureDriver.run exampleIdentity (new (exampleSettings 3 (by decide)))
      (instantCalls m n ++ [.finish none]) = .ok d := by
  cases hrun : ReceiveTimeFeatureDriver.run exampleIdentity (new (exampleSettings 3 (by decide)))
      (instantCalls m n ++ [.finish none]) with
  | error e => simp [hrun, Except.isOk, Except.toBool] at hok
  | ok d => exact ⟨d, rfl⟩

end ReceiveTimeFeatureDriver

/-- Two trades of one instant. -/
def numberedTrades (m n : Int) : List RawMarketRecord :=
  [{ numberedTrade with sequenceId := some (.int m) },
    { numberedTrade with
      recordId := { int := 2, lt := Uuid.two_lt_limit }
      sequenceId := some (.int n) }]

def numberedTradesReader (m n : Int) : RawParquetReader :=
  { tree :=
      { root := "raw"
        files := [
          { directory := partitionDirectory (rowPartition (row numberedTrade))
            name := "part-a.parquet"
            rows := (numberedTrades m n).map row }] }
    reader := BatchReader.oneGroup
    batchSize_pos := one_le_batchSize }

theorem numberedTradesReader_holds (m n : Int) :
    (numberedTradesReader m n).tree.Holds (numberedTrades m n) := by
  refine ⟨?_, ?_⟩
  · intro file hfile
    obtain rfl := List.mem_singleton.mp hfile
    rfl
  · show ([(numberedTrades m n).map row].flatten).Perm _
    rw [List.flatten_singleton]

theorem nodup_numberedTrades (m n : Int) :
    ((numberedTrades m n).map RawMarketRecord.recordId).Nodup := by
  show [(⟨1, by norm_num⟩ : Uuid), ⟨2, by norm_num⟩].Nodup
  decide

open ReceiveTimeFeatureDriver in
/-- Ids of one digit come out in order. -/
theorem sequence_order_iff_eight_nine :
    (∃ d, ReceiveTimeFeatureDriver.run exampleIdentity (new (exampleSettings 3 (by decide)))
        (instantCalls 8 9 ++ [.finish none]) = .ok d ∧
      InSequenceOrder (TickGrid.items d.timeline)) ∧
    ∃ delivered, (numberedTradesReader 8 9).iterRecords RawScanFilter.all .receiveTime =
        .ok delivered ∧
      (RecordsInSequenceOrder RawMarketRecord.channel delivered ↔
        ColumnsSortLikeIds RawMarketRecord.channel
          (matchingRecords RawScanFilter.all (numberedTrades 8 9))) := by
  constructor
  · obtain ⟨d, hrun⟩ := exists_run_instantCalls 8 9 (by decide +kernel)
    refine ⟨d, hrun, ?_⟩
    refine ((sequence_order_iff RawMarketRecord.channel).1 _ _ _ _ _ hrun).mpr ?_
    exact (textsSortLikeIds_instantCalls (by norm_num)).mpr (by decide +kernel)
  · exact (sequence_order_iff RawMarketRecord.channel).2 _ _ RawScanFilter.all
      (nodup_numberedTrades 8 9) (numberedTradesReader_holds 8 9)

open ReceiveTimeFeatureDriver in
/-- Ids nine and ten do not. -/
theorem ten_before_nine :
    (∃ d, ReceiveTimeFeatureDriver.run exampleIdentity (new (exampleSettings 3 (by decide)))
        (instantCalls 9 10 ++ [.finish none]) = .ok d ∧
      ¬ InSequenceOrder (TickGrid.items d.timeline)) ∧
    ∃ delivered, (numberedTradesReader 9 10).iterRecords RawScanFilter.all .receiveTime =
        .ok delivered ∧
      ¬ RecordsInSequenceOrder RawMarketRecord.channel delivered := by
  have htext : ¬ toString (9 : Int) < toString (10 : Int) := by decide +kernel
  constructor
  · obtain ⟨d, hrun⟩ := exists_run_instantCalls 9 10 (by decide +kernel)
    refine ⟨d, hrun, fun horder => htext ?_⟩
    exact (textsSortLikeIds_instantCalls (by norm_num)).mp
      ((finished_inSequenceOrder_iff hrun).mp horder)
  · refine ⟨_, iterRecords_ok (nodup_numberedTrades 9 10) (numberedTradesReader_holds 9 10)
      RawScanFilter.all .receiveTime, fun horder => ?_⟩
    have hcolumns := (sortByKey_inSequenceOrder_iff RawMarketRecord.channel _).mp horder
    have hmem : ∀ r ∈ numberedTrades 9 10,
        r.withTextSequence ∈ matchingRecords RawScanFilter.all (numberedTrades 9 10) := by
      intro r hr
      exact List.mem_filter.mpr ⟨List.mem_map_of_mem hr, rfl⟩
    have hlt := hcolumns _ (hmem _ List.mem_cons_self) _
      (hmem _ (List.mem_cons_of_mem _ List.mem_cons_self)) ⟨rfl, rfl, rfl, rfl⟩ 9 10 rfl rfl
      (by norm_num)
    -- priority, generation and channel are the same, so the texts decide
    rcases Prod.Lex.toLex_lt_toLex.mp hlt with h | ⟨-, h⟩
    · exact absurd h (lt_irrefl _)
    rcases Prod.Lex.toLex_lt_toLex.mp h with h | ⟨-, h⟩
    · exact absurd h (lt_irrefl _)
    rcases Prod.Lex.toLex_lt_toLex.mp h with h | ⟨-, h⟩
    · exact absurd h (lt_irrefl _)
    exact htext h

end Cvf
