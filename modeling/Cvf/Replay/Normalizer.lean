/-
# Cvf.Replay.Normalizer — journal records and what replay makes of them.

A normalized event is persisted as one raw record whose payload is the JSON of the event and whose
metadata repeats the event's.  Replay validates the payload again and compares the metadata field by
field; only the sequence id is compared as text, since that is how it is stored.

The JSON codec is outside the repository, so it is a parameter (`EventCodec`).  For an event it carries
faithfully, `journal_round_trip` follows the record through the Parquet row and through the sort row of
the external sort, back to the event.  The generation of the event has to fit the `int64` column.
-/
import Cvf.Replay.RawReader

namespace Cvf

open Cvf.Library

/-! ## Valid events

What the validators of the event classes admit; the enumerations, the counts and the aware timestamps
are in the types. -/

/-- `symbol_is_canonical` leaves the symbol as it is, and `wildcard_is_exchange_health_only`. -/
def EventBase.Valid (b : EventBase) (eventType : EventType) : Prop :=
  validateCanonicalSymbol b.symbol true = .ok b.symbol ∧ (b.symbol = "*" → eventType = .exchangeHealth)

/-- `PositiveDecimal` -/
def PositiveDecimal (value : Decimal) : Prop := 0 < value

/-- `NonNegativeDecimal` -/
def NonNegativeDecimal (value : Decimal) : Prop := 0 ≤ value

/-- The fields of a valid event of each type. -/
def NormalizedMarketEvent.ValidFields : NormalizedMarketEvent → Prop
  | .trade e => PositiveDecimal e.price ∧ PositiveDecimal e.quantity ∧
      ∀ q ∈ e.contractQuantity, PositiveDecimal q
  | .orderBookSnapshot e => e.validate = .ok ()
  | .orderBookUpdate e => e.validate = .ok ()
  | .bestBidAsk e => PositiveDecimal e.bidPrice ∧ NonNegativeDecimal e.bidQuantity ∧
      PositiveDecimal e.askPrice ∧ NonNegativeDecimal e.askQuantity ∧ e.bidPrice < e.askPrice
  | .openInterest e => NonNegativeDecimal e.openInterestContracts ∧
      (∀ v ∈ e.openInterestBase, NonNegativeDecimal v) ∧ ∀ v ∈ e.openInterestQuote, NonNegativeDecimal v
  | .fundingRate _ => True
  | .markPrice e => PositiveDecimal e.markPrice
  | .indexPrice e => PositiveDecimal e.indexPrice
  | .liquidation e => PositiveDecimal e.price ∧ PositiveDecimal e.quantity ∧
      ∀ q ∈ e.contractQuantity, PositiveDecimal q
  | .exchangeHealth e => isBlank e.channel = false ∧ e.validate = .ok ()

def NormalizedMarketEvent.Valid (e : NormalizedMarketEvent) : Prop :=
  e.base.Valid e.eventType ∧ e.ValidFields

/-! ## The journal record -/

/-- The JSON of the models: `model_payload_json`, and the validating readers of the event union and of
`FeatureTimelineEnd`. -/
structure EventCodec where
  payloadJson : NormalizedMarketEvent → String
  validateJson : ByteArray → Except String NormalizedMarketEvent
  timelineEndJson : Int → String
  validateTimelineEndJson : ByteArray → Except String Int

/-- The JSON of the event reads back as the event. -/
def EventCodec.FaithfulAt (codec : EventCodec) (e : NormalizedMarketEvent) : Prop :=
  codec.validateJson (codec.payloadJson e).toUTF8 = .ok e

/-- `normalized_event_journal_record`; the id is drawn by the record's default factory. -/
def normalizedEventJournalRecord (codec : EventCodec) (recordId : Uuid) (event : NormalizedMarketEvent) :
    Except String RawMarketRecord :=
  RawMarketRecord.construct recordId event.base.exchange event.base.symbol
    normalizedEventJournalChannel "normalized_event" "internal" (some event.base.exchangeTimestamp)
    event.base.localReceiveTimestamp (some event.base.normalizationTimestamp) event.base.sequenceId
    event.generation (codec.payloadJson event).toUTF8

/-- `feature_timeline_end_timestamp` -/
def featureTimelineEndTimestamp (codec : EventCodec) (r : RawMarketRecord) :
    Except String (Option Int) :=
  if r.messageKind ≠ featureTimelineEndMessageKind then .ok none
  else if r.channel ≠ normalizedEventJournalChannel ∨ r.transport ≠ .internal ∨ r.symbol ≠ "*" ∨
      r.exchange ≠ .binance ∨ r.exchangeTimestamp ≠ none ∨ r.sequenceId ≠ none ∨
      r.connectionGeneration ≠ 0 then
    .error "invalid feature-timeline end routing"
  else do
    let throughTimestamp ← codec.validateTimelineEndJson r.rawPayload
    if r.localReceiveTimestamp ≠ throughTimestamp ∨
        r.normalizationTimestamp ≠ some throughTimestamp then
      .error "feature-timeline end metadata mismatch"
    else .ok (some throughTimestamp)

/-! ## The normalizer -/

/-- The metadata of the record is that of its event. -/
def metadataMatches (event : NormalizedMarketEvent) (r : RawMarketRecord) : Prop :=
  event.base.exchange = r.exchange ∧ event.base.symbol = r.symbol ∧
    some event.base.exchangeTimestamp = r.exchangeTimestamp ∧
    event.base.localReceiveTimestamp = r.localReceiveTimestamp ∧
    some event.base.normalizationTimestamp = r.normalizationTimestamp ∧
    event.base.sequenceId.map SequenceId.str = r.sequenceId.map SequenceId.str ∧
    event.generation = r.connectionGeneration

instance (event : NormalizedMarketEvent) (r : RawMarketRecord) : Decidable (metadataMatches event r) := by
  unfold metadataMatches
  infer_instance

/-- `_NON_MARKET_CHANNELS` -/
def nonMarketChannels : List String := ["_unparsed", "server_time"]

/-- `RawRecordNormalizer.normalize`; `venue` is the venue normalizer, which no journal row reaches. -/
def normalize (codec : EventCodec) (venue : RawMarketRecord → Except String (List NormalizedMarketEvent))
    (r : RawMarketRecord) : Except String (List NormalizedMarketEvent) :=
  if r.channel = normalizedEventJournalChannel then
    if r.messageKind = featureTimelineEndMessageKind then do
      let _ ← featureTimelineEndTimestamp codec r
      return []
    else if r.messageKind ≠ "normalized_event" ∨ r.transport ≠ .internal then
      .error "invalid normalized-event journal routing"
    else do
      let event ← codec.validateJson r.rawPayload
      if ¬ metadataMatches event r then .error "normalized-event journal metadata mismatch"
      else return [event]
  else if r.messageKind ≠ "market_data" ∨ r.transport = .internal ∨ r.channel ∈ nonMarketChannels then
    .ok []
  else venue r

/-! ## The round trip -/

section

variable {codec : EventCodec} {recordId : Uuid} {e : NormalizedMarketEvent} {r : RawMarketRecord}

/-- The fields of a journal record. -/
structure JournalOf (codec : EventCodec) (e : NormalizedMarketEvent) (r : RawMarketRecord) : Prop where
  channel : r.channel = normalizedEventJournalChannel
  messageKind : r.messageKind = "normalized_event"
  transport : r.transport = .internal
  metadata : metadataMatches e r
  payload : r.rawPayload = (codec.payloadJson e).toUTF8

theorem journalChannel_not_blank : isBlank normalizedEventJournalChannel = false := by decide +kernel

theorem normalizedEvent_not_blank : isBlank "normalized_event" = false := by decide +kernel

/-- The record of a valid event. -/
def journalRecord (codec : EventCodec) (recordId : Uuid) (e : NormalizedMarketEvent) (h : e.Valid) :
    RawMarketRecord :=
  { recordId
    exchange := e.base.exchange
    symbol := e.base.symbol
    channel := normalizedEventJournalChannel
    messageKind := "normalized_event"
    transport := .internal
    exchangeTimestamp := some e.base.exchangeTimestamp
    localReceiveTimestamp := e.base.localReceiveTimestamp
    normalizationTimestamp := some e.base.normalizationTimestamp
    sequenceId := e.base.sequenceId
    connectionGeneration := e.generation
    rawPayload := (codec.payloadJson e).toUTF8
    symbol_canonical := h.1.1
    channel_not_blank := journalChannel_not_blank
    messageKind_not_blank := normalizedEvent_not_blank }

/-- A valid event has a journal record. -/
theorem normalizedEventJournalRecord_ok (h : e.Valid) :
    normalizedEventJournalRecord codec recordId e = .ok (journalRecord codec recordId e h) :=
  (journalRecord codec recordId e h).construct_self e.base.sequenceId

theorem journalOf_journalRecord (h : e.Valid) : JournalOf codec e (journalRecord codec recordId e h) :=
  ⟨rfl, rfl, rfl, ⟨rfl, rfl, rfl, rfl, rfl, rfl, rfl⟩, rfl⟩

/-- Storing the sequence id as text changes nothing the normalizer looks at. -/
theorem JournalOf.withTextSequence (h : JournalOf codec e r) : JournalOf codec e r.withTextSequence := by
  obtain ⟨hchannel, hkind, htransport, hmetadata, hpayload⟩ := h
  refine ⟨hchannel, hkind, htransport, ?_, hpayload⟩
  unfold metadataMatches RawMarketRecord.withTextSequence at *
  rw [Option.map_map]
  exact hmetadata

theorem normalize_of_journalOf (hfaithful : codec.FaithfulAt e) (h : JournalOf codec e r)
    (venue : RawMarketRecord → Except String (List NormalizedMarketEvent)) :
    normalize codec venue r = .ok [e] := by
  have hkind : ¬ r.messageKind = featureTimelineEndMessageKind := by
    rw [h.messageKind]
    decide +kernel
  have hrouting : ¬ (r.messageKind ≠ "normalized_event" ∨ r.transport ≠ .internal) := by
    rintro (hne | hne)
    · exact hne h.messageKind
    · exact hne h.transport
  unfold normalize
  rw [if_pos h.channel, if_neg hkind, if_neg hrouting, h.payload, hfaithful]
  simp only [bind, Except.bind, pure, Except.pure]
  exact if_neg (not_not.mpr h.metadata)

/-- Storable exactly when the generation fits its column. -/
theorem tableFromRows_journalRecord (h : e.Valid) :
    tableFromRows [row (journalRecord codec recordId e h)] =
        .ok [row (journalRecord codec recordId e h)] ↔ e.generation < 2 ^ 63 := by
  have hfits : (row (journalRecord codec recordId e h)).fitsSchema ↔ e.generation < 2 ^ 63 :=
    fitsSchema_row_iff _
  unfold tableFromRows
  simp only [List.mem_singleton, forall_eq, hfits]
  split_ifs with hgeneration
  · exact iff_of_true rfl hgeneration
  · exact iff_of_false nofun hgeneration

end

/-- What replay makes of a journal record: the event, at the receive time of the event. -/
def Replays (codec : EventCodec) (venue : RawMarketRecord → Except String (List NormalizedMarketEvent))
    (e : NormalizedMarketEvent) (read : Except String RawMarketRecord) : Prop :=
  ∃ r, read = .ok r ∧ normalize codec venue r = .ok [e] ∧
    r.localReceiveTimestamp = e.base.localReceiveTimestamp ∧
    replayTimestamp r .receiveTime = e.base.localReceiveTimestamp

theorem JournalOf.replays {codec : EventCodec} {e : NormalizedMarketEvent} {r : RawMarketRecord}
    (h : JournalOf codec e r) (hfaithful : codec.FaithfulAt e)
    (venue : RawMarketRecord → Except String (List NormalizedMarketEvent)) :
    Replays codec venue e (.ok r) := by
  have hreceived := h.metadata.2.2.2.1.symm
  exact ⟨r, rfl, normalize_of_journalOf hfaithful h venue, hreceived, hreceived⟩

/-- A valid event whose generation fits its column comes back from its journal record, read from the
Parquet row or rebuilt from the sort row of that row. -/
theorem journal_round_trip (codec : EventCodec)
    (venue : RawMarketRecord → Except String (List NormalizedMarketEvent)) (recordId : Uuid)
    (e : NormalizedMarketEvent) (hvalid : e.Valid) (hfaithful : codec.FaithfulAt e)
    (hgeneration : e.generation < 2 ^ 63) :
    ∃ r, normalizedEventJournalRecord codec recordId e = .ok r ∧
      tableFromRows [row r] = .ok [row r] ∧
      Replays codec venue e (recordFromRow (row r)) ∧
      ∀ (order : ReplayOrder) (ordinal : Nat), Replays codec venue e
        (recordFromRow (row r) >>= fun direct => recordFromSortRow (sortRow order direct ordinal)) := by
  refine ⟨journalRecord codec recordId e hvalid, normalizedEventJournalRecord_ok hvalid,
    (tableFromRows_journalRecord hvalid).mpr hgeneration, ?_, ?_⟩
  · rw [recordFromRow_row]
    exact (journalOf_journalRecord hvalid).withTextSequence.replays hfaithful venue
  · intro order ordinal
    rw [recordFromRow_row]
    simp only [bind, Except.bind]
    rw [recordFromSortRow_sortRow]
    exact (journalOf_journalRecord hvalid).withTextSequence.withTextSequence.replays hfaithful venue

/-- An index price with an integer sequence id. -/
def indexPriceEvent : NormalizedMarketEvent :=
  .indexPrice
    { exchange := .okx
      symbol := "BTC-USDT-PERP"
      exchangeTimestamp := -1
      localReceiveTimestamp := 0
      normalizationTimestamp := 2
      sequenceId := some (.int 7)
      rawPayloadReference := none
      indexPrice := 5 }

/-- The JSON of `indexPriceEvent`, as `canonical_json` writes it. -/
def indexPriceJson : String :=
  "\x7b\"event_type\":\"INDEX_PRICE\",\"exchange\":\"OKX\"," ++
    "\"exchange_timestamp\":\"1969-12-31T23:59:59.999999Z\",\"index_price\":\"5\"," ++
    "\"local_receive_timestamp\":\"1970-01-01T00:00:00Z\"," ++
    "\"normalization_timestamp\":\"1970-01-01T00:00:00.000002Z\"," ++
    "\"raw_payload_reference\":null,\"sequence_id\":7,\"symbol\":\"BTC-USDT-PERP\"\x7d"

def indexPriceCodec : EventCodec :=
  { payloadJson := fun _ => indexPriceJson
    validateJson := fun _ => .ok indexPriceEvent
    timelineEndJson := fun _ => ""
    validateTimelineEndJson := fun _ => .error "Invalid JSON" }

theorem indexPriceEvent_valid : indexPriceEvent.Valid := by
  refine ⟨⟨by decide +kernel, fun hwild => absurd hwild (by decide +kernel)⟩, ?_⟩
  show (0 : Rat) < 5
  norm_num

def firstRecordId : Uuid := { int := 1, lt := Uuid.one_lt_limit }

theorem journal_round_trip_indexPrice :
    ∃ r, normalizedEventJournalRecord indexPriceCodec firstRecordId indexPriceEvent = .ok r ∧
      tableFromRows [row r] = .ok [row r] ∧
      Replays indexPriceCodec (fun _ => .ok []) indexPriceEvent (recordFromRow (row r)) ∧
      ∀ (order : ReplayOrder) (ordinal : Nat), Replays indexPriceCodec (fun _ => .ok []) indexPriceEvent
        (recordFromRow (row r) >>= fun direct => recordFromSortRow (sortRow order direct ordinal)) :=
  journal_round_trip indexPriceCodec (fun _ => .ok []) firstRecordId indexPriceEvent
    indexPriceEvent_valid rfl (show 0 < 2 ^ 63 by norm_num)

/-- An update of one bid, of a book generation that no `int64` holds. -/
def lateGenerationEvent : NormalizedMarketEvent :=
  .orderBookUpdate
    { exchange := .binance
      symbol := "BTC-USDT-PERP"
      exchangeTimestamp := 0
      localReceiveTimestamp := 0
      normalizationTimestamp := 0
      bids := [{ price := 5, quantity := 1 }]
      generation := 2 ^ 63 }

theorem lateGenerationEvent_valid : lateGenerationEvent.Valid := by
  refine ⟨⟨by decide +kernel, fun hwild => absurd hwild (by decide +kernel)⟩, ?_⟩
  apply OrderBookUpdate.validate_ok
  · simp
  · simp
  · simp

def lateGenerationCodec : EventCodec :=
  { indexPriceCodec with validateJson := fun _ => .ok lateGenerationEvent }

/-- The record of a valid event need not fit the columns of its row. -/
theorem late_generation_is_not_storable :
    ¬ ∀ (codec : EventCodec) (recordId : Uuid) (e : NormalizedMarketEvent), e.Valid →
      codec.FaithfulAt e →
      ∃ r, normalizedEventJournalRecord codec recordId e = .ok r ∧
        tableFromRows [row r] = .ok [row r] := by
  intro h
  obtain ⟨r, hrecord, htable⟩ :=
    h lateGenerationCodec firstRecordId lateGenerationEvent lateGenerationEvent_valid rfl
  rw [normalizedEventJournalRecord_ok lateGenerationEvent_valid] at hrecord
  obtain rfl := Except.ok.inj hrecord
  exact lt_irrefl _ ((tableFromRows_journalRecord lateGenerationEvent_valid).mp htable)

end Cvf
