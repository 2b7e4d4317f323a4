/-
# Cvf.Storage.ArrivalTrees — the tree of a run does not depend on how its events arrived.

A receive-time driver orders the events, the runtime behind it calculates the outputs, and a feature writer
puts them below its root.  Whatever the order in which the same events are published, however the clock
advances in between and however two writers cut and flush what they are handed, the trees compare as
identical, and what is read back from them are the outputs, one for each id (`trees_independent_of_arrival`).
-/
import Cvf.Features.DrivenRuntime
import Cvf.Storage.WrittenTrees

namespace Cvf

open Cvf.Library

open FeatureTreeWriter in
/-- Two finished drivers were given the same different events, a runtime behind each took its timeline, and a
writer on an empty root was handed what the runtime wrote: the trees compare as identical, and each is read
to its end as outputs of the runtime, one for each id. -/
theorem trees_independent_of_arrival {F : Type} [Field F] [LinearOrder F] (engines : RuntimeEngines F)
    (identity : PayloadIdentity) (hsha : Function.Injective identity.sha256Text) (settings : DriverSettings)
    (calls₁ calls₂ : List ReceiveTimeFeatureDriver.Call) (through : Int)
    (hevents : (ReceiveTimeFeatureDriver.published calls₁).Perm (ReceiveTimeFeatureDriver.published calls₂))
    (hcontent : ReceiveTimeFeatureDriver.ContentDistinct identity
      (ReceiveTimeFeatureDriver.published calls₁))
    (hwithin₁ : ∀ c ∈ calls₁, c.Within through) (hwithin₂ : ∀ c ∈ calls₂, c.Within through)
    {d₁ d₂ : ReceiveTimeFeatureDriver}
    (hrun₁ : ReceiveTimeFeatureDriver.run identity (ReceiveTimeFeatureDriver.new settings)
      (calls₁ ++ [.finish (some through)]) = .ok d₁)
    (hrun₂ : ReceiveTimeFeatureDriver.run identity (ReceiveTimeFeatureDriver.new settings)
      (calls₂ ++ [.finish (some through)]) = .ok d₂)
    {runtime₁ runtime₂ : FeatureRuntime F}
    (hruntime₁ : FeatureRuntime.run engines (timelineCalls d₁.timeline) = .ok runtime₁)
    (hruntime₂ : FeatureRuntime.run engines (timelineCalls d₂.timeline) = .ok runtime₂)
    (houtputs : runtime₁.written ≠ []) (reader : FeatureParquetReader F)
    (rowDigest : String × String × String → Nat) (versions : WriterVersions)
    (fileName : List (FeatureEnvelope F) → String)
    (hmodels : ∀ output ∈ runtime₁.written, reader.codec.accepted output)
    {s₁ s₂ : FeatureTreeWriter F}
    (hscheduled₁ : Scheduled reader.codec versions fileName runtime₁.written s₁)
    (hscheduled₂ : Scheduled reader.codec versions fileName runtime₂.written s₂)
    (hhanded₁ : Handed reader.codec versions runtime₁.written s₁)
    (hhanded₂ : Handed reader.codec versions runtime₂.written s₂)
    (hnames₁ : Unreplaced fileName s₁) (hnames₂ : Unreplaced fileName s₂) (schemaRoot : String) :
    (∃ report, compareFeatureTrees reader rowDigest (s₁.tree schemaRoot) (s₂.tree schemaRoot) {} =
        .ok report ∧ report.identical = true) ∧
      ∀ s ∈ [s₁, s₂], ∃ yielded, reader.iterRecords (s.tree schemaRoot) {} = .ok (yielded, none) ∧
        (yielded.map (·.snapshot.featureSnapshotId)).Nodup ∧
        (∀ r ∈ yielded, r.snapshot ∈ runtime₁.written) ∧
        ∀ output ∈ runtime₁.written, ∃ r ∈ yielded,
          r.snapshot.featureSnapshotId = output.featureSnapshotId := by
  have htimeline := ReceiveTimeFeatureDriver.timeline_eq hsha hevents hcontent hwithin₁ hwithin₂ hrun₁ hrun₂
  -- one timeline, so one runtime
  rw [← htimeline] at hruntime₂
  obtain rfl : runtime₁ = runtime₂ := Except.ok.inj (hruntime₁.symm.trans hruntime₂)
  have hfiled₁ := hscheduled₁.filed hmodels
  have hfiled₂ := hscheduled₂.filed hmodels
  constructor
  · obtain ⟨report, hcompare, hidentical, -⟩ := hhanded₁.agree hhanded₂ hfiled₁ hfiled₂ houtputs hnames₁
      hnames₂ rowDigest schemaRoot
    exact ⟨report, hcompare, hidentical⟩
  · intro s hs
    rcases List.mem_cons.mp hs with rfl | hs
    · exact hhanded₁.reads hfiled₁ houtputs hnames₁ schemaRoot
    · obtain rfl := List.mem_singleton.mp hs
      exact hhanded₂.reads hfiled₂ houtputs hnames₂ schemaRoot

/-! ### Two trades in both orders -/

/-- Two trades, between two ticks. -/
def exampleArrivals : NormalizedMarketEvent × NormalizedMarketEvent :=
  (.trade { exampleTrade with localReceiveTimestamp := 6100000 },
    .trade { exampleTrade with tradeId := "2", localReceiveTimestamp := 6200000 })

def exampleArrivalCalls : List ReceiveTimeFeatureDriver.Call :=
  [.publish exampleArrivals.2, .publish exampleArrivals.1]

def exampleArrivalCallsInOrder : List ReceiveTimeFeatureDriver.Call :=
  [.publish exampleArrivals.1, .advanceTo 6150000, .publish exampleArrivals.2]

def exampleArrivalTimeline : List (NormalizedMarketEvent ⊕ DecisionTick) :=
  [.inl exampleArrivals.1, .inl exampleArrivals.2, .inr ⟨7000000, .feature⟩]

theorem exampleArrivalCalls_run {calls : List ReceiveTimeFeatureDriver.Call}
    (hcalls : calls = exampleArrivalCalls ∨ calls = exampleArrivalCallsInOrder) :
    ∃ d, ReceiveTimeFeatureDriver.run exampleDrivenIdentity
        (ReceiveTimeFeatureDriver.new exampleDrivenSettings) (calls ++ [.finish (some 7000000)]) = .ok d ∧
      d.timeline = exampleArrivalTimeline := by
  have htimeline : (ReceiveTimeFeatureDriver.run exampleDrivenIdentity
      (ReceiveTimeFeatureDriver.new exampleDrivenSettings)
        (calls ++ [.finish (some 7000000)])).toOption.map (·.timeline) = some exampleArrivalTimeline := by
    rcases hcalls with rfl | rfl <;> decide +kernel
  obtain ⟨d, hsome, hd⟩ := Option.map_eq_some_iff.mp htimeline
  exact ⟨d, toOption_eq_some_iff.mp hsome, hd⟩

/-- The example engines, of the versions that the example writer stamps. -/
def exampleArrivalEngines : RuntimeEngines ℚ :=
  { exampleRuntimeEngines with
    cross :=
      { exampleRuntimeEngines.cross with
        settings :=
          { exampleRuntimeEngines.cross.settings with
            codeVersion := exampleWriterVersions.codeVersion
            configHash := exampleWriterVersions.configHash } } }

def exampleArrivalOutputs : List (PersistableFeatureSnapshot ℚ) :=
  ((FeatureRuntime.run exampleArrivalEngines (timelineCalls exampleArrivalTimeline)).toOption.map
    (·.written)).getD []

theorem exampleArrivalTimeline_run : ∃ runtime,
    FeatureRuntime.run exampleArrivalEngines (timelineCalls exampleArrivalTimeline) = .ok runtime ∧
      runtime.written = exampleArrivalOutputs := by
  have hreturns : (FeatureRuntime.run exampleArrivalEngines
      (timelineCalls exampleArrivalTimeline)).toOption.isSome = true := by decide +kernel
  obtain ⟨runtime, hsome⟩ := Option.isSome_iff_exists.mp hreturns
  refine ⟨runtime, toOption_eq_some_iff.mp hsome, ?_⟩
  unfold exampleArrivalOutputs
  rw [hsome]
  rfl

/-! The outputs as `canonical_json` writes them; only their reasons are put in. -/

def reasonJson (reason : FeatureUnavailableReason) : String :=
  "\x7b\"channel\":" ++ reason.channel.elim "null" (fun channel => "\"" ++ channel ++ "\"") ++
    ",\"code\":\"" ++ reason.code.value ++ "\",\"detail\":\"" ++ reason.detail ++ "\"\x7d"

def reasonsJson (reasons : List FeatureUnavailableReason) : String :=
  "[" ++ ",".intercalate (reasons.map reasonJson) ++ "]"

def exampleBinanceJson (s : FeatureSnapshot ℚ) : String :=
  "\x7b\"book_generation\":0,\"calculation_timestamp\":\"1970-01-01T00:00:07Z\"," ++
    "\"crowding\":\x7b\"funding_rate\":null,\"funding_zscore\":null,\"joint_state\":null," ++
    "\"mark_index_premium\":null,\"premium_zscore\":null,\"taker_bias\":1.0\x7d," ++
    "\"data_age_ms\":2000.0,\"decision_timestamp\":\"1970-01-01T00:00:07Z\"," ++
    "\"event_type\":\"MARKET_FEATURE\",\"exchange\":\"BINANCE\"," ++
    "\"exchange_timestamp\":\"1970-01-01T00:00:07Z\"," ++
    "\"feature_snapshot_id\":\"00000000-0000-0000-0000-000000d59f80\",\"is_healthy\":false," ++
    "\"is_warm\":false,\"liquidation\":\x7b\"activity_with_oi_decline\":null," ++
    "\"public_sample_activity_zscore\":null,\"public_sample_long_notional\":\"0\"," ++
    "\"public_sample_short_notional\":\"0\"\x7d,\"local_receive_timestamp\":\"1970-01-01T00:00:07Z\"," ++
    "\"newest_source_timestamp\":\"1970-01-01T00:00:05Z\"," ++
    "\"normalization_timestamp\":\"1970-01-01T00:00:07Z\"," ++
    "\"oldest_source_timestamp\":\"1970-01-01T00:00:05Z\",\"open_interest\":null,\"order_book\":null," ++
    "\"price\":\x7b\"abnormal_jump\":null,\"atr_1m\":\"0\",\"impulse_zscore\":null," ++
    "\"realized_volatility\":null,\"recent_move_atr\":null,\"return_value\":0.0," ++
    "\"trailing_high\":\"100\",\"trailing_low\":\"100\"\x7d," ++
    "\"raw_payload_reference\":\"feature-sources://sha256-sum-xor-v1/2\",\"schema_version\":1," ++
    "\"sequence_id\":null,\"source_event_count\":2,\"source_sequence_id\":null," ++
    "\"strategy_version\":\"CVF-01\",\"symbol\":\"BTC-USDT-PERP\"," ++
    "\"trade_flow\":\x7b\"aggressive_buy_notional\":\"200\",\"aggressive_sell_notional\":\"0\"," ++
    "\"average_trade_notional\":\"100\",\"large_trade_share\":0.0,\"taker_imbalance\":1.0," ++
    "\"taker_imbalance_zscore\":null,\"trade_count_impulse\":null,\"trade_notional_impulse\":null\x7d," ++
    "\"unavailable_reasons\":" ++ reasonsJson s.unavailableReasons ++ ",\"window_seconds\":5\x7d"

def exampleOkxJson (s : FeatureSnapshot ℚ) : String :=
  "\x7b\"book_generation\":0,\"calculation_timestamp\":\"1970-01-01T00:00:07Z\"," ++
    "\"crowding\":\x7b\"funding_rate\":null,\"funding_zscore\":null,\"joint_state\":null," ++
    "\"mark_index_premium\":null,\"premium_zscore\":null,\"taker_bias\":null\x7d,\"data_age_ms\":null," ++
    "\"decision_timestamp\":\"1970-01-01T00:00:07Z\",\"event_type\":\"MARKET_FEATURE\"," ++
    "\"exchange\":\"OKX\",\"exchange_timestamp\":\"1970-01-01T00:00:07Z\"," ++
    "\"feature_snapshot_id\":\"00000000-0000-0000-0000-000000d59f81\",\"is_healthy\":false," ++
    "\"is_warm\":false,\"liquidation\":\x7b\"activity_with_oi_decline\":null," ++
    "\"public_sample_activity_zscore\":null,\"public_sample_long_notional\":\"0\"," ++
    "\"public_sample_short_notional\":\"0\"\x7d,\"local_receive_timestamp\":\"1970-01-01T00:00:07Z\"," ++
    "\"newest_source_timestamp\":null,\"normalization_timestamp\":\"1970-01-01T00:00:07Z\"," ++
    "\"oldest_source_timestamp\":null,\"open_interest\":null,\"order_book\":null," ++
    "\"price\":\x7b\"abnormal_jump\":null,\"atr_1m\":null,\"impulse_zscore\":null," ++
    "\"realized_volatility\":null,\"recent_move_atr\":null,\"return_value\":null," ++
    "\"trailing_high\":null,\"trailing_low\":null\x7d," ++
    "\"raw_payload_reference\":\"feature-sources://sha256-sum-xor-v1/0\",\"schema_version\":1," ++
    "\"sequence_id\":null,\"source_event_count\":0,\"source_sequence_id\":null," ++
    "\"strategy_version\":\"CVF-01\",\"symbol\":\"BTC-USDT-PERP\"," ++
    "\"trade_flow\":\x7b\"aggressive_buy_notional\":\"0\",\"aggressive_sell_notional\":\"0\"," ++
    "\"average_trade_notional\":null,\"large_trade_share\":null,\"taker_imbalance\":null," ++
    "\"taker_imbalance_zscore\":null,\"trade_count_impulse\":null,\"trade_notional_impulse\":null\x7d," ++
    "\"unavailable_reasons\":" ++ reasonsJson s.unavailableReasons ++ ",\"window_seconds\":5\x7d"

def exampleCrossVenueJson (s : CrossVenueFeatureSnapshot ℚ) : String :=
  "\x7b\"alignment\":\x7b\"binance_data_age_ms\":2000.0," ++
    "\"binance_snapshot_id\":\"00000000-0000-0000-0000-000000d59f80\"," ++
    "\"binance_source_timestamp\":\"1970-01-01T00:00:05Z\",\"data_age_difference_ms\":null," ++
    "\"decision_timestamp\":\"1970-01-01T00:00:07Z\",\"okx_data_age_ms\":null," ++
    "\"okx_snapshot_id\":\"00000000-0000-0000-0000-000000d59f81\",\"okx_source_timestamp\":null," ++
    "\"quality\":0.0,\"snapshot_time_difference_ms\":null,\"status\":\"DEGRADED\"," ++
    "\"unavailable_reasons\":" ++ reasonsJson s.alignment.unavailableReasons ++
    "\x7d,\"binance_book_generation\":0,\"calculation_timestamp\":\"1970-01-01T00:00:07Z\"," ++
    "\"code_version\":\"0.3.1\"," ++
    "\"config_hash\":\"cde0fb0dec1400c54a0f7e7eafa73624c53e4da258bbd34b3380a0defeba95c1\"," ++
    "\"confirmation\":\x7b\"alignment_quality\":0.0,\"cross_venue_confirmation\":null," ++
    "\"crowding_agreement\":\"UNAVAILABLE\",\"divergence_penalty_input\":null," ++
    "\"liquidation_activity_agreement\":\"UNAVAILABLE\",\"ofi_agreement\":\"UNAVAILABLE\"," ++
    "\"oi_context_conflict\":null,\"price_direction_agreement\":\"UNAVAILABLE\"," ++
    "\"price_impulse_agreement\":\"UNAVAILABLE\",\"research_only\":true," ++
    "\"taker_flow_agreement\":\"UNAVAILABLE\"\x7d,\"data_age_ms\":2000.0," ++
    "\"decision_timestamp\":\"1970-01-01T00:00:07Z\",\"event_type\":\"MARKET_FEATURE\"," ++
    "\"exchange\":\"CROSS_VENUE\",\"exchange_timestamp\":\"1970-01-01T00:00:07Z\"," ++
    "\"feature_snapshot_id\":\"00000000-0000-0000-0000-0000006acfc0\",\"is_healthy\":false," ++
    "\"is_warm\":false,\"lead_lag\":\x7b\"alignment_quality\":0.0,\"ofi_status\":\"UNAVAILABLE\"," ++
    "\"price_impulse_status\":\"UNAVAILABLE\",\"research_only\":true," ++
    "\"taker_flow_status\":\"UNAVAILABLE\",\"unavailable_reasons\":" ++
    reasonsJson s.leadLag.unavailableReasons ++ "\x7d,\"local_receive_timestamp\":\"1970-01-01T00:00:07Z\"," ++
    "\"newest_source_timestamp\":\"1970-01-01T00:00:05Z\"," ++
    "\"normalization_timestamp\":\"1970-01-01T00:00:07Z\",\"okx_book_generation\":0," ++
    "\"oldest_source_timestamp\":\"1970-01-01T00:00:05Z\"," ++
    "\"order_flow\":\x7b\"depth_imbalance_difference\":null,\"liquidity_addition_difference\":null," ++
    "\"liquidity_divergence_status\":\"UNAVAILABLE\",\"liquidity_removal_difference\":null," ++
    "\"ofi_difference\":null,\"ofi_direction_agreement\":\"UNAVAILABLE\"," ++
    "\"order_book_recovery_speed_difference\":null,\"taker_flow_direction_agreement\":\"UNAVAILABLE\"," ++
    "\"taker_imbalance_difference\":null,\"taker_imbalance_strength_agreement\":\"UNAVAILABLE\"\x7d," ++
    "\"positioning\":\x7b\"binance_funding_abnormality\":null," ++
    "\"binance_oi_change_direction\":\"UNAVAILABLE\",\"crowding_direction_agreement\":\"UNAVAILABLE\"," ++
    "\"funding_abnormality_difference\":null,\"funding_direction_agreement\":\"UNAVAILABLE\"," ++
    "\"liquidation_activity_agreement\":\"UNAVAILABLE\",\"mark_index_premium_difference\":null," ++
    "\"oi_context_conflict\":null,\"okx_funding_abnormality\":null," ++
    "\"okx_oi_change_direction\":\"UNAVAILABLE\",\"one_sided_crowding_unconfirmed\":null," ++
    "\"price_oi_state_agreement\":\"UNAVAILABLE\"\x7d,\"price\":\x7b\"binance_mid_price\":null," ++
    "\"mid_price_absolute_spread\":null,\"mid_price_difference\":null," ++
    "\"mid_price_percentage_spread\":null,\"mid_price_spread_zscore\":null,\"okx_mid_price\":null," ++
    "\"percentage_spread_denominator\":null,\"price_impulse_direction_agreement\":\"UNAVAILABLE\"," ++
    "\"price_impulse_strength_difference\":null,\"realized_volatility_difference\":null," ++
    "\"relative_spread_divergence\":null,\"return_direction_agreement\":\"UNAVAILABLE\"\x7d," ++
    "\"raw_payload_reference\":null,\"schema_version\":1," ++
    "\"sequence_id\":\"000000000000000000000000006acfc0\",\"source_event_count\":2," ++
    "\"source_snapshot_ids\":[\"00000000-0000-0000-0000-000000d59f80\"," ++
    "\"00000000-0000-0000-0000-000000d59f81\"],\"spread_history_pair_count\":0," ++
    "\"spread_history_sha256\":null,\"strategy_version\":\"CVF-01\",\"symbol\":\"BTC-USDT-PERP\"," ++
    "\"unavailable_reasons\":" ++ reasonsJson s.unavailableReasons ++ ",\"window_seconds\":5\x7d"

def exampleArrivalPayload : PersistableFeatureSnapshot ℚ → String
  | .singleVenue s => if s.exchange = .binance then exampleBinanceJson s else exampleOkxJson s
  | .crossVenue s => exampleCrossVenueJson s

/-- The byte in which the three texts differ. -/
def exchangeByte : Exchange → UInt8
  | .binance => 49
  | .okx => 110
  | _ => 112

/-- The digests of the three texts. -/
def exampleArrivalSha256 (text : String) : String :=
  if textByte 202 text = some (exchangeByte .binance) then
    "863f1e37ad09abfaab5bba607edebd3104a79e138a74dde84486ec8df7834383"
  else if textByte 202 text = some (exchangeByte .okx) then
    "7b94ed2242b0bd26b234baf991980c1d8416ecc56d858a47d314a8cd3079b9aa"
  else "aa1f2d07bfdf2bfa4dc94cdba4b8ae9388b322f7258136ebed722b70bddecba4"

theorem exampleArrivalOutputs_exchanges :
    exampleArrivalOutputs.map (·.exchange) = [.binance, .okx, .crossVenue] := by decide +kernel

theorem textByte_exampleArrivalPayload : ∀ output ∈ exampleArrivalOutputs,
    textByte 202 (exampleArrivalPayload output) = some (exchangeByte output.exchange) := by decide +kernel

/-- The payload of an output tells its exchange, and the exchange the output. -/
theorem exampleArrivalPayload_exchange (s t : PersistableFeatureSnapshot ℚ)
    (hs : s ∈ exampleArrivalOutputs) (ht : t ∈ exampleArrivalOutputs)
    (h : exampleArrivalPayload s = exampleArrivalPayload t) : s.exchange = t.exchange := by
  have hbytes : some (exchangeByte s.exchange) = some (exchangeByte t.exchange) := by
    rw [← textByte_exampleArrivalPayload s hs, ← textByte_exampleArrivalPayload t ht, h]
  have hmem : ∀ output ∈ exampleArrivalOutputs, output.exchange ∈ [Exchange.binance, .okx, .crossVenue] := by
    intro output houtput
    rw [← exampleArrivalOutputs_exchanges]
    exact List.mem_map_of_mem houtput
  have htold : ∀ exchange ∈ [Exchange.binance, .okx, .crossVenue],
      ∀ other ∈ [Exchange.binance, .okx, .crossVenue],
        some (exchangeByte exchange) = some (exchangeByte other) → exchange = other := by decide
  exact htold _ (hmem s hs) _ (hmem t ht) hbytes

theorem exampleArrivalPayload_injective (s t : PersistableFeatureSnapshot ℚ)
    (hs : s ∈ exampleArrivalOutputs) (ht : t ∈ exampleArrivalOutputs)
    (h : exampleArrivalPayload s = exampleArrivalPayload t) : s = t := by
  have hdistinct : (exampleArrivalOutputs.map (·.exchange)).Nodup := by
    rw [exampleArrivalOutputs_exchanges]
    decide
  exact List.inj_on_of_nodup_map hdistinct hs ht (exampleArrivalPayload_exchange s t hs ht h)

/-- The output with a payload. -/
def exampleArrivalOutput (text : String) : Option (PersistableFeatureSnapshot ℚ) :=
  exampleArrivalOutputs.find? fun output => exampleArrivalPayload output = text

theorem exampleArrivalOutput_payload {s : PersistableFeatureSnapshot ℚ} (h : s ∈ exampleArrivalOutputs) :
    exampleArrivalOutput (exampleArrivalPayload s) = some s := by
  unfold exampleArrivalOutput
  cases hfound : exampleArrivalOutputs.find? fun output =>
      decide (exampleArrivalPayload output = exampleArrivalPayload s) with
  | none => exact absurd (decide_eq_true rfl) (List.find?_eq_none.mp hfound s h)
  | some found =>
    have hpayload : exampleArrivalPayload found = exampleArrivalPayload s := by
      simpa using List.find?_some hfound
    rw [exampleArrivalPayload_injective found s (List.mem_of_find?_eq_some hfound) h hpayload]

def exampleValidateSingle (text : String) : Except String (FeatureSnapshot ℚ) :=
  match exampleArrivalOutput text with
  | some (.singleVenue s) => .ok s
  | _ => .error "Invalid JSON"

def exampleValidateCross (text : String) : Except String (CrossVenueFeatureSnapshot ℚ) :=
  match exampleArrivalOutput text with
  | some (.crossVenue s) => .ok s
  | _ => .error "Invalid JSON"

theorem exampleValidateSingle_payload (s : FeatureSnapshot ℚ)
    (h : .singleVenue s ∈ exampleArrivalOutputs) :
    exampleValidateSingle (exampleArrivalPayload (.singleVenue s)) = .ok s := by
  unfold exampleValidateSingle
  rw [exampleArrivalOutput_payload h]

theorem exampleValidateCross_payload (s : CrossVenueFeatureSnapshot ℚ)
    (h : .crossVenue s ∈ exampleArrivalOutputs) :
    exampleValidateCross (exampleArrivalPayload (.crossVenue s)) = .ok s := by
  unfold exampleValidateCross
  rw [exampleArrivalOutput_payload h]

theorem exampleValidateSingle_accepted (text : String) (s : FeatureSnapshot ℚ)
    (h : exampleValidateSingle text = .ok s) : .singleVenue s ∈ exampleArrivalOutputs := by
  unfold exampleValidateSingle at h
  split at h
  · next found hfound =>
    rw [← Except.ok.inj h]
    exact List.mem_of_find?_eq_some hfound
  · cases h

theorem exampleValidateCross_accepted (text : String) (s : CrossVenueFeatureSnapshot ℚ)
    (h : exampleValidateCross text = .ok s) : .crossVenue s ∈ exampleArrivalOutputs := by
  unfold exampleValidateCross at h
  split at h
  · next found hfound =>
    rw [← Except.ok.inj h]
    exact List.mem_of_find?_eq_some hfound
  · cases h

/-- The models on the three outputs, with the digests of their payloads. -/
def exampleArrivalReader : FeatureParquetReader ℚ where
  codec :=
    { modelPayloadJson := exampleArrivalPayload
      validateSingleVenue := exampleValidateSingle
      validateCrossVenue := exampleValidateCross
      sha256Text := exampleArrivalSha256
      accepted := (· ∈ exampleArrivalOutputs)
      validateSingleVenue_payload := exampleValidateSingle_payload
      validateCrossVenue_payload := exampleValidateCross_payload
      accepted_singleVenue := exampleValidateSingle_accepted
      accepted_crossVenue := exampleValidateCross_accepted
      payload_exchange := exampleArrivalPayload_exchange }
  iterBatches := fun rows => rows.map fun row => [row]
  flatten_iterBatches := exampleIterBatches_flatten

/-- Each write is flushed before the next one. -/
def exampleFlushEach : List (FeatureWriterInput ℚ) :=
  .start :: exampleArrivalOutputs.flatMap (fun output => [.write output none, .getItem, .fileWritten]) ++
    [.close, .runClose, .getItem, .returnClose]

/-- The writes are all on the queue before the first is flushed. -/
def exampleFlushBehind : List (FeatureWriterInput ℚ) :=
  .start :: exampleArrivalOutputs.map (.write · none) ++
    [.close, .runClose, .getItem, .fileWritten, .getItem, .fileWritten, .getItem, .fileWritten, .getItem,
      .returnClose]

def exampleArrivalWriter (inputs : List (FeatureWriterInput ℚ)) : FeatureTreeWriter ℚ :=
  (FeatureTreeWriter.new 1 4 exampleQueueCapacity_pos 1000).run exampleArrivalReader.codec
    exampleWriterVersions examplePartName inputs

theorem exampleArrivalWriter_scheduled {inputs : List (FeatureWriterInput ℚ)}
    (hinputs : inputs = exampleFlushEach ∨ inputs = exampleFlushBehind) :
    FeatureTreeWriter.Scheduled exampleArrivalReader.codec exampleWriterVersions examplePartName
      exampleArrivalOutputs (exampleArrivalWriter inputs) := by
  refine ⟨1, 4, exampleQueueCapacity_pos, 1000, inputs, fun snapshot callback hin => ?_, rfl⟩
  rcases hinputs with rfl | rfl
  · have hwritten : snapshot ∈ exampleArrivalOutputs ∧ callback = none := by
      simpa [exampleFlushEach] using hin
    exact hwritten.1
  · have hwritten : snapshot ∈ exampleArrivalOutputs ∧ none = callback := by
      simpa [exampleFlushBehind] using hin
    exact hwritten.1

/-- What the writer is left with, whenever it flushes. -/
theorem exampleArrivalWriter_left {inputs : List (FeatureWriterInput ℚ)}
    (hinputs : inputs = exampleFlushEach ∨ inputs = exampleFlushBehind) :
    let s := exampleArrivalWriter inputs
    (s.writer.found = [] ∧ s.writer.close = .returned) ∧
      (∀ call ∈ s.writer.calls, call.Answered) ∧
        (s.writer.calls.filterMap FeatureWriteCall.envelope?).map (·.featureSnapshotId) =
            exampleArrivalOutputs.map (·.featureSnapshotId) ∧
          ((s.published.map (FeatureTreeWriter.batchFile examplePartName)).map (·.path)).Nodup := by
  rcases hinputs with rfl | rfl <;> decide +kernel

theorem exampleArrivalWriter_handed {inputs : List (FeatureWriterInput ℚ)}
    (hinputs : inputs = exampleFlushEach ∨ inputs = exampleFlushBehind) :
    FeatureTreeWriter.Handed exampleArrivalReader.codec exampleWriterVersions exampleArrivalOutputs
      (exampleArrivalWriter inputs) := by
  obtain ⟨⟨hfound, hreturned⟩, hanswered, hids, -⟩ := exampleArrivalWriter_left hinputs
  have hfiled := (exampleArrivalWriter_scheduled hinputs).filed fun _ houtput => houtput
  exact ⟨hfound, hanswered, hfiled.envelopes (fun _ haccepted => haccepted) (by decide +kernel) hids,
    hreturned⟩

theorem exampleArrivalWriter_unreplaced {inputs : List (FeatureWriterInput ℚ)}
    (hinputs : inputs = exampleFlushEach ∨ inputs = exampleFlushBehind) :
    FeatureTreeWriter.Unreplaced examplePartName (exampleArrivalWriter inputs) :=
  (exampleArrivalWriter_left hinputs).2.2.2

/-- The trades arrive in both orders, and the writers flush at different times. -/
theorem trees_independent_of_arrival_example : ∃ report,
    compareFeatureTrees exampleArrivalReader exampleRowDigest
        ((exampleArrivalWriter exampleFlushEach).tree "/data/feature_schema=v1")
        ((exampleArrivalWriter exampleFlushBehind).tree "/data/feature_schema=v1") {} = .ok report ∧
      report.identical = true := by
  obtain ⟨d₁, hrun₁, htimeline₁⟩ := exampleArrivalCalls_run (.inl rfl)
  obtain ⟨d₂, hrun₂, htimeline₂⟩ := exampleArrivalCalls_run (.inr rfl)
  obtain ⟨runtime, hruntime, hwritten⟩ := exampleArrivalTimeline_run
  have hnonempty : exampleArrivalOutputs ≠ [] := by decide +kernel
  have hdistinct : ∀ e ∈ ReceiveTimeFeatureDriver.published exampleArrivalCalls,
      ∀ f ∈ ReceiveTimeFeatureDriver.published exampleArrivalCalls,
        exampleDrivenIdentity.modelPayloadJson e = exampleDrivenIdentity.modelPayloadJson f → e = f := by
    decide +kernel
  rw [← hwritten] at hnonempty
  refine (trees_independent_of_arrival exampleArrivalEngines exampleDrivenIdentity exampleDrivenIdentity_injective
    exampleDrivenSettings exampleArrivalCalls exampleArrivalCallsInOrder 7000000 (List.Perm.swap ..)
    hdistinct (by decide) (by decide) hrun₁ hrun₂ (htimeline₁ ▸ hruntime) (htimeline₂ ▸ hruntime) hnonempty
    exampleArrivalReader exampleRowDigest exampleWriterVersions examplePartName ?_ ?_ ?_ ?_ ?_
    (exampleArrivalWriter_unreplaced (.inl rfl)) (exampleArrivalWriter_unreplaced (.inr rfl))
    "/data/feature_schema=v1").1
  · intro output houtput
    rw [hwritten] at houtput
    exact houtput
  · exact hwritten ▸ exampleArrivalWriter_scheduled (.inl rfl)
  · exact hwritten ▸ exampleArrivalWriter_scheduled (.inr rfl)
  · exact hwritten ▸ exampleArrivalWriter_handed (.inl rfl)
  · exact hwritten ▸ exampleArrivalWriter_handed (.inr rfl)

end Cvf
