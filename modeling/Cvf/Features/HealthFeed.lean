/-
# Cvf.Features.HealthFeed — from the health registry to the feature gate.

A report is stamped with the last market event of its channel, and all channels of a symbol share one
health window with one watermark.  A channel that lags behind another is therefore late with every
report, and the gate goes on without its status.  The statuses arrive when no report is stamped before
the watermark, and none runs a retention ahead of a channel that has just reported
(`last_status_seen_when_stamps_advance`).
-/
import Cvf.Features.AsOf
import Cvf.Features.HealthSources
import Cvf.Features.Retention

namespace Cvf

open Cvf.Library

/-- A report, and when it was asked for. -/
structure HealthEmission where
  time : Int
  health : ExchangeHealth
  deriving DecidableEq

/-- The registry, the store behind it, and the reports that went from one to the other. -/
structure HealthFeed where
  registry : StreamHealthRegistry
  store : MarketStateStore
  emitted : List HealthEmission := []

inductive HealthFeedInput where
  | operation (op : HealthOperation)
  | emit (key : StreamKey) (now normalizedAt : Int) (rawPayloadReference : Option String)

/-- The window that the health events of a symbol go to. -/
def MarketStateStore.healthWindow (store : MarketStateStore) (exchange : Exchange) (symbol : String) :
    BoundedTimeWindow ExchangeHealth :=
  if symbol = "*" then store.exchangeHealthEvents exchange
  else (store.lookup exchange symbol).healthEvents

/-! ## What ingesting a health event does to the windows -/

namespace MarketStateStore

/-- The health windows of two stores, but for one. -/
structure HealthAppended (before after : MarketStateStore) (health : ExchangeHealth) : Prop where
  own : after.healthWindow health.exchange health.symbol =
    ((before.healthWindow health.exchange health.symbol).append health.exchangeTimestamp health).1
  exchangeWide : health.symbol ≠ "*" → after.exchangeHealthEvents = before.exchangeHealthEvents
  symbols : health.symbol = "*" → ∀ exchange symbol,
    (after.lookup exchange symbol).healthEvents = (before.lookup exchange symbol).healthEvents

theorem healthAppended_updateHealth (store : MarketStateStore) {health : ExchangeHealth}
    (hconcrete : health.exchange.isConcrete = true) :
    ∃ after status, store.updateHealth health = .ok (after, status) ∧
      HealthAppended store after health := by
  unfold updateHealth
  rw [hconcrete]
  dsimp only
  rw [if_neg (by simp)]
  by_cases hstar : health.symbol = "*"
  · -- the window of the exchange; statuses are written, but no window of a state
    rw [if_pos hstar]
    have hown : ∀ after : MarketStateStore,
        after.exchangeHealthEvents = Function.update store.exchangeHealthEvents health.exchange
          ((store.exchangeHealthEvents health.exchange).append health.exchangeTimestamp health).1 →
        after.healthWindow health.exchange health.symbol =
          ((store.healthWindow health.exchange health.symbol).append health.exchangeTimestamp
            health).1 := by
      intro after hafter
      unfold healthWindow
      rw [if_pos hstar, if_pos hstar, hafter, Function.update_self]
    split_ifs
    · exact ⟨_, _, rfl, hown _ rfl, fun hne => absurd hstar hne, fun _ _ _ => rfl⟩
    · refine ⟨_, _, rfl, hown _ rfl, fun hne => absurd hstar hne, fun _ exchange symbol => ?_⟩
      obtain ⟨channels, hchannels⟩ := lookup_setExchangeHealth
        { store with
          exchangeHealthEvents := Function.update store.exchangeHealthEvents health.exchange
            ((store.exchangeHealthEvents health.exchange).append health.exchangeTimestamp health).1 }
        health.exchange health.channel health.status exchange symbol
      rw [hchannels]
      rfl
  · rw [if_neg hstar]
    obtain ⟨hexchange, hsymbol⟩ := store.lookup_key health.exchange health.symbol
    -- the state under the key is written back with its window appended to
    have hown : ∀ state : VenueSymbolState, state.exchange = health.exchange →
        state.symbol = health.symbol →
        state.healthEvents = ((store.lookup health.exchange health.symbol).healthEvents.append
          health.exchangeTimestamp health).1 →
        (store.put state).healthWindow health.exchange health.symbol =
          ((store.healthWindow health.exchange health.symbol).append health.exchangeTimestamp
            health).1 := by
      intro state hstateExchange hstateSymbol hevents
      unfold healthWindow
      rw [if_neg hstar, if_neg hstar, lookup_put, if_pos ⟨hstateExchange, hstateSymbol⟩, hevents]
    split_ifs
    · exact ⟨_, _, rfl, hown _ hexchange hsymbol rfl, fun _ => rfl, fun hstar' => absurd hstar' hstar⟩
    · exact ⟨_, _, rfl, hown _ hexchange hsymbol rfl, fun _ => rfl, fun hstar' => absurd hstar' hstar⟩

theorem healthAppended_perform (digest : SourceDigest) (store : MarketStateStore)
    {health : ExchangeHealth} (hconcrete : health.exchange.isConcrete = true) :
    HealthAppended store (store.perform digest (.ingest (.exchangeHealth health))) health := by
  obtain ⟨after, status, hupdate, happended⟩ := healthAppended_updateHealth store hconcrete
  have hingest : store.ingest digest (.exchangeHealth health) = .ok (after,
      { status, exchange := health.exchange, symbol := health.symbol, eventType := .exchangeHealth
        reason := none }) := by
    simp only [ingest, hupdate]
    rfl
  rw [perform_ingest_ok digest hingest]
  exact happended

end MarketStateStore

namespace BoundedTimeWindow

variable {α : Type}

/-- A forward append without a capacity eviction drops what is at or below the cutoff. -/
theorem append_forward_items {window : BoundedTimeWindow α} {timestamp : Int} (value : α)
    (hforward : window.watermark.all (· ≤ timestamp) = true)
    (hroom : (window.append timestamp value).1.capacityEvictions = 0) :
    (window.append timestamp value).1.items =
      window.items.dropWhile (·.timestamp ≤ timestamp - window.bounds.retention) ++
        [window.nextItem timestamp value] := by
  have haccepted := admissibility_of_forward hforward
  have hentered : window.entered (window.nextItem timestamp value) =
      window.items ++ [window.nextItem timestamp value] := if_pos hforward
  rw [append_capacityEvictions value haccepted] at hroom
  have hnone := (Nat.add_eq_zero_iff.mp hroom).2
  unfold evicted at hnone
  rw [(append_of_accepted value haccepted).2.1, pruned, hnone, List.drop_zero,
    advanced_of_forward hforward, hentered]
  have hkept : ¬ (window.nextItem timestamp value).timestamp ≤ timestamp - window.bounds.retention := by
    have hpos := window.bounds.retention_pos
    rw [nextItem_timestamp]
    omega
  rw [List.dropWhile_append]
  split_ifs with hempty
  · rw [List.isEmpty_iff.mp hempty, List.nil_append, List.dropWhile_cons_of_neg (by simpa using hkept)]
  · rfl

end BoundedTimeWindow

/-! ## The feed -/

namespace HealthFeed

variable (digest : SourceDigest)

/-- A report that is built goes to the store; where the constructor raises there is none. -/
def step (feed : HealthFeed) : HealthFeedInput → HealthFeed
  | .operation op => { feed with registry := feed.registry.perform op }
  | .emit key now normalizedAt rawPayloadReference =>
    let reported := feed.registry.exchangeHealth key now normalizedAt rawPayloadReference
    match reported.2 with
    | .error _ => { feed with registry := reported.1 }
    | .ok health =>
      { registry := reported.1
        store := feed.store.perform digest (.ingest (.exchangeHealth health))
        emitted := feed.emitted ++ [{ time := now, health }] }

def run (registry : StreamHealthRegistry) (config : FeaturesConfig) (inputs : List HealthFeedInput) :
    HealthFeed :=
  inputs.foldl (step digest) { registry, store := .new config }

/-- The latest report of a channel. -/
def lastEmission (feed : HealthFeed) (channel : String) : Option HealthEmission :=
  feed.emitted.reverse.find? (·.health.channel = channel)

/-- The event time a report is stamped with. -/
def stamp (feed : HealthFeed) (key : StreamKey) (now : Int) : Int :=
  (feed.registry.state key).lastEventTimestamp.getD now

/-- Reports of one symbol, at increasing times, none older than its market event, without an eviction
at the item cap. -/
def Periodic (exchange : Exchange) (symbol : String) (feed : HealthFeed) : HealthFeedInput → Prop
  | .operation _ => True
  | .emit key now normalizedAt rawPayloadReference =>
    let after := feed.step digest (.emit key now normalizedAt rawPayloadReference)
    key.exchange = exchange ∧ key.symbol = symbol ∧
      (∀ emission ∈ feed.emitted, emission.time ≤ now) ∧
      (∀ last ∈ (feed.registry.state key).lastEventTimestamp, last ≤ now) ∧
      (after.store.healthWindow exchange symbol).capacityEvictions = 0

/-- A report that is built is not stamped before the watermark of its window, and no other channel's
recent report falls out of the window with it. -/
def StampAdvances (feed : HealthFeed) : HealthFeedInput → Prop
  | .operation _ => True
  | .emit key now _ _ =>
    let window := feed.store.healthWindow key.exchange key.symbol
    let retention := feed.store.config.retention
    (feed.registry.state key).Consistent →
      (∀ mark ∈ window.watermark, mark ≤ feed.stamp key now) ∧
        ∀ emission ∈ feed.emitted, feed.lastEmission emission.health.channel = some emission →
          emission.health.channel ≠ key.channel → now - retention < emission.time →
            feed.stamp key now - retention < emission.health.exchangeTimestamp

/-- At every decision from the last report on, the states of the symbol read the last report of each
channel that reported within the retention. -/
def LastStatusSeen (exchange : Exchange) (symbol : String) (feed : HealthFeed) : Prop :=
  ∀ target, symbol = "*" ∨ target = symbol →
    ∀ decision, (∀ emission ∈ feed.emitted, emission.time ≤ decision) →
      ∀ channel, ∀ emission ∈ feed.lastEmission channel,
        decision - feed.store.config.retention < emission.time →
          ∃ source ∈ (feed.store.lookup exchange target).healthSourcesAtOrBefore
              (feed.store.exchangeHealthEvents exchange) decision,
            source.value.channel = channel ∧ source.value.status = emission.health.status

/-- The window of the symbol ends, channel by channel, with what the channel reported last. -/
structure Tracked (exchange : Exchange) (symbol : String) (feed : HealthFeed) : Prop where
  bounds : (feed.store.healthWindow exchange symbol).bounds = feed.store.config.windowBounds
  stamped : ∀ item ∈ (feed.store.healthWindow exchange symbol).items,
    item.timestamp = item.value.exchangeTimestamp
  ordered : ∀ emission ∈ feed.emitted, emission.health.exchangeTimestamp ≤ emission.time
  last : ∀ now, (∀ emission ∈ feed.emitted, emission.time ≤ now) →
    ∀ channel, ∀ emission ∈ feed.lastEmission channel,
      now - feed.store.config.retention < emission.time →
        ∃ item, (feed.store.healthWindow exchange symbol).items.reverse.find?
            (·.value.channel = channel) = some item ∧ item.value = emission.health
  /-- Nothing is reported to the windows of the other scope. -/
  ownScope : symbol = "*" → ∀ target, (feed.store.lookup exchange target).healthEvents.items = []
  wideScope : symbol ≠ "*" → (feed.store.exchangeHealthEvents exchange).items = []

theorem Tracked.new (registry : StreamHealthRegistry) (config : FeaturesConfig) (exchange : Exchange)
    (symbol : String) : Tracked exchange symbol { registry, store := .new config } where
  bounds := by
    unfold MarketStateStore.healthWindow
    split_ifs <;> rfl
  stamped := by
    have hempty : ((MarketStateStore.new config).healthWindow exchange symbol).items = [] := by
      unfold MarketStateStore.healthWindow
      split_ifs <;> rfl
    intro item hitem
    rw [hempty] at hitem
    cases hitem
  ordered := fun _ hemission => by cases hemission
  last := fun _ _ _ _ hemission => by cases hemission
  ownScope := fun _ _ => rfl
  wideScope := fun _ => rfl

instance (exchange : Exchange) (symbol : String) (feed : HealthFeed) :
    ∀ input, Decidable (Periodic digest exchange symbol feed input)
  | .operation _ => .isTrue trivial
  | .emit .. => inferInstanceAs (Decidable (_ ∧ _ ∧ _ ∧ _ ∧ _))

instance (s : StreamState) : Decidable s.Consistent := inferInstanceAs (Decidable (_ → _))

instance (feed : HealthFeed) : ∀ input, Decidable (StampAdvances feed input)
  | .operation _ => .isTrue trivial
  | .emit .. => inferInstanceAs (Decidable (StreamState.Consistent _ → _ ∧ _))

/-- What a report does: it is refused, or it is appended and remembered. -/
theorem step_emit (feed : HealthFeed) (key : StreamKey) (now normalizedAt : Int)
    (rawPayloadReference : Option String) :
    ((feed.step digest (.emit key now normalizedAt rawPayloadReference)).store = feed.store ∧
      (feed.step digest (.emit key now normalizedAt rawPayloadReference)).emitted = feed.emitted) ∨
    ((feed.registry.state key).Consistent ∧ ∃ health : ExchangeHealth,
      health.exchange = key.exchange ∧ health.symbol = key.symbol ∧ health.channel = key.channel ∧
      health.exchangeTimestamp = feed.stamp key now ∧
      (feed.step digest (.emit key now normalizedAt rawPayloadReference)).store =
        feed.store.perform digest (.ingest (.exchangeHealth health)) ∧
      (feed.step digest (.emit key now normalizedAt rawPayloadReference)).emitted =
        feed.emitted ++ [{ time := now, health }]) := by
  have hconstruct := StreamHealthRegistry.construct_healthArguments feed.registry key now normalizedAt
    rawPayloadReference
  have hiff := StreamHealthRegistry.validate_healthArguments_iff feed.registry key now normalizedAt
    rawPayloadReference
  unfold step StreamHealthRegistry.exchangeHealth
  dsimp only
  rw [hconstruct]
  cases hvalidate : (feed.registry.healthArguments key now normalizedAt rawPayloadReference).validate with
  | error e => exact .inl ⟨rfl, rfl⟩
  | ok _ => exact .inr ⟨hiff.mp hvalidate, _, rfl, rfl, rfl, rfl, rfl, rfl⟩

theorem stamp_le {feed : HealthFeed} {key : StreamKey} {now : Int}
    (hevent : ∀ last ∈ (feed.registry.state key).lastEventTimestamp, last ≤ now) :
    feed.stamp key now ≤ now := by
  unfold stamp
  cases hlast : (feed.registry.state key).lastEventTimestamp with
  | none => exact le_rfl
  | some last => exact hevent last hlast

/-- The step lemma. -/
theorem Tracked.step {exchange : Exchange} {symbol : String} (hconcrete : exchange.isConcrete = true)
    {feed : HealthFeed} (h : Tracked exchange symbol feed) {input : HealthFeedInput}
    (hperiodic : Periodic digest exchange symbol feed input) (hadvances : StampAdvances feed input) :
    Tracked exchange symbol (feed.step digest input) := by
  cases input with
  | operation op => exact ⟨h.bounds, h.stamped, h.ordered, h.last, h.ownScope, h.wideScope⟩
  | emit key now normalizedAt rawPayloadReference =>
    obtain ⟨hexchange, hsymbol, hlater, hevent, hroom⟩ := hperiodic
    rcases feed.step_emit digest key now normalizedAt rawPayloadReference with
      ⟨hstore, hemitted⟩ | ⟨hconsistent, health, hhealthExchange, hhealthSymbol, hchannel, hstamp, hstore,
        hemitted⟩
    · -- no report, and nothing ingested
      refine ⟨?_, ?_, ?_, ?_, ?_, ?_⟩
      · rw [hstore]
        exact h.bounds
      · rw [hstore]
        exact h.stamped
      · rw [hemitted]
        exact h.ordered
      · unfold lastEmission
        rw [hstore, hemitted]
        exact h.last
      · rw [hstore]
        exact h.ownScope
      · rw [hstore]
        exact h.wideScope
    · obtain ⟨hmark, hfresh⟩ := hadvances hconsistent
      rw [hexchange, hsymbol] at hmark
      rw [hexchange] at hhealthExchange
      rw [hsymbol] at hhealthSymbol
      have hconcrete' : health.exchange.isConcrete = true := by rw [hhealthExchange]; exact hconcrete
      have happended := MarketStateStore.healthAppended_perform digest feed.store hconcrete'
      have hconfig := MarketStateStore.perform_config digest feed.store (.ingest (.exchangeHealth health))
      rw [hstore] at hroom
      generalize feed.store.perform digest (.ingest (.exchangeHealth health)) = after at *
      obtain ⟨hown, hwide, hsymbols⟩ := happended
      rw [hhealthExchange, hhealthSymbol] at hown
      rw [hhealthSymbol] at hwide hsymbols
      -- the window behind the report
      have hforward : (feed.store.healthWindow exchange symbol).watermark.all
          (· ≤ health.exchangeTimestamp) = true := by
        rw [hstamp]
        exact forward_iff.mpr hmark
      have hitems := BoundedTimeWindow.append_forward_items health hforward (by rw [← hown]; exact hroom)
      rw [h.bounds] at hitems
      refine ⟨?_, ?_, ?_, ?_, ?_, ?_⟩
      · rw [hstore, hown, BoundedTimeWindow.append_bounds, hconfig]
        exact h.bounds
      · rw [hstore, hown, hitems]
        intro item hitem
        rcases List.mem_append.mp hitem with hitem | hitem
        · exact h.stamped item ((List.dropWhile_suffix _).subset hitem)
        · obtain rfl := List.mem_singleton.mp hitem
          rfl
      · rw [hemitted]
        intro emission hemission
        rcases List.mem_append.mp hemission with hemission | hemission
        · exact h.ordered emission hemission
        · obtain rfl := List.mem_singleton.mp hemission
          show health.exchangeTimestamp ≤ now
          rw [hstamp]
          exact stamp_le hevent
      · rw [hstore, hown, hitems, hconfig]
        unfold lastEmission
        rw [hemitted]
        intro decision hdecision channel emission hemission hrecent
        rw [List.reverse_append, List.reverse_singleton, List.singleton_append] at hemission ⊢
        by_cases hsame : health.channel = channel
        · -- the report itself
          rw [List.find?_cons_of_pos (by simpa using hsame)] at hemission
          obtain rfl := Option.some.inj hemission
          refine ⟨(feed.store.healthWindow exchange symbol).nextItem health.exchangeTimestamp health,
            ?_, rfl⟩
          rw [List.find?_cons_of_pos]
          exact decide_eq_true hsame
        · -- another channel's, which was there before and stays
          rw [List.find?_cons_of_neg (by simpa using hsame)] at hemission
          have hnow : now ≤ decision := by
            apply hdecision { time := now, health }
            exact List.mem_append_right _ List.mem_cons_self
          have hstill : now - feed.store.config.retention < emission.time := by omega
          obtain ⟨item, hfound, hvalue⟩ := h.last now hlater channel emission hemission hstill
          have hin := List.mem_reverse.mp (List.mem_of_find?_eq_some hfound)
          have hof : emission.health.channel = channel := by simpa using List.find?_some hemission
          have hreported := List.mem_reverse.mp (List.mem_of_find?_eq_some hemission)
          have hothers : emission.health.channel ≠ key.channel := by
            rw [hof, ← hchannel]
            exact fun heq => hsame heq.symm
          have habove := hfresh emission hreported (by rw [hof]; exact hemission) hothers hstill
          rw [← hvalue, ← h.stamped item hin, ← hstamp] at habove
          refine ⟨item, ?_, hvalue⟩
          rw [List.find?_cons_of_neg]
          · apply find?_reverse_dropWhile hfound
            show ¬ decide (item.timestamp ≤ health.exchangeTimestamp - feed.store.config.retention) = true
            rw [decide_eq_true_iff]
            omega
          · show ¬ decide (health.channel = channel) = true
            simpa using hsame
      · rw [hstore]
        intro hstar target
        rw [hsymbols hstar]
        exact h.ownScope hstar target
      · rw [hstore]
        intro hne
        rw [hwide hne]
        exact h.wideScope hne

theorem healthCandidates_of_empty {window : BoundedTimeWindow ExchangeHealth}
    (hempty : window.items = []) (scope : Nat) (decision : Int) :
    healthCandidates scope window decision = [] := by
  unfold healthCandidates
  rw [hempty]
  rfl

/-- One of the two windows a state reads is empty, and the other is the one reported to. -/
theorem Tracked.exists_scope {exchange : Exchange} {symbol target : String} {feed : HealthFeed}
    (h : Tracked exchange symbol feed) (htarget : symbol = "*" ∨ target = symbol) (decision : Int) :
    ∃ scope, ∀ candidate,
      candidate ∈ healthCandidates 0 (feed.store.exchangeHealthEvents exchange) decision ++
          healthCandidates 1 (feed.store.lookup exchange target).healthEvents decision ↔
        candidate.1 = scope ∧ candidate.2 ∈ (feed.store.healthWindow exchange symbol).items ∧
          candidate.2.timestamp ≤ decision := by
  unfold MarketStateStore.healthWindow
  by_cases hstar : symbol = "*"
  · refine ⟨0, fun candidate => ?_⟩
    rw [if_pos hstar, healthCandidates_of_empty (h.ownScope hstar target), List.append_nil]
    exact mem_healthCandidates
  · refine ⟨1, fun candidate => ?_⟩
    have hsame : target = symbol := htarget.resolve_left hstar
    rw [if_neg hstar, healthCandidates_of_empty (h.wideScope hstar), List.nil_append, hsame]
    exact mem_healthCandidates

/-- What the window ends with is what the states of the symbol read. -/
theorem Tracked.seen {exchange : Exchange} {symbol : String} {feed : HealthFeed}
    (h : Tracked exchange symbol feed) : LastStatusSeen exchange symbol feed := by
  intro target htarget decision hdecision channel emission hemission hrecent
  obtain ⟨item, hfound, hvalue⟩ := h.last decision hdecision channel emission hemission hrecent
  have hreported : emission ∈ feed.emitted :=
    List.mem_reverse.mp (List.mem_of_find?_eq_some hemission)
  have hin := List.mem_reverse.mp (List.mem_of_find?_eq_some hfound)
  have htime : item.timestamp ≤ decision := by
    rw [h.stamped item hin, hvalue]
    exact (h.ordered emission hreported).trans (hdecision emission hreported)
  have hsorted : (feed.store.healthWindow exchange symbol).items.Pairwise fun a b =>
      toLex (a.timestamp, a.ordinal) < toLex (b.timestamp, b.ordinal) :=
    (feed.store.healthWindow exchange symbol).retained.sorted.imp fun hprecedes =>
      Prod.Lex.toLex_lt_toLex.mpr hprecedes
  obtain ⟨-, hchannel, hgreatest⟩ := greatest_of_find?_reverse hsorted hfound
  obtain ⟨scope, hcandidates⟩ := h.exists_scope htarget decision
  refine ⟨item, ?_, of_decide_eq_true hchannel, congrArg ExchangeHealth.status hvalue⟩
  apply (VenueSymbolState.mem_healthSources_iff _ _ _ _).mpr
  refine ⟨scope, (hcandidates _).mpr ⟨rfl, hin, htime⟩, ?_⟩
  intro other hother hsame
  obtain ⟨hscope, hotherIn, -⟩ := (hcandidates other).mp hother
  have hbelow := hgreatest other.2 hotherIn
    (decide_eq_true (hsame.trans (of_decide_eq_true hchannel)))
  unfold healthOrder
  rw [hscope]
  rw [Prod.Lex.toLex_le_toLex] at hbelow ⊢
  rcases hbelow with hearlier | ⟨htie, hordinal⟩
  · exact .inl hearlier
  · exact .inr ⟨htie, Prod.Lex.toLex_le_toLex.mpr (.inr ⟨rfl, hordinal⟩)⟩

/-- In every run of registry calls and periodic reports whose reports advance the stamps of their
window, every decision from the last report on reads each channel's last status. -/
theorem last_status_seen_when_stamps_advance {exchange : Exchange} (symbol : String)
    (hconcrete : exchange.isConcrete = true) (registry : StreamHealthRegistry) (config : FeaturesConfig)
    {inputs : List HealthFeedInput}
    (hperiodic : Admitted (step digest) (Periodic digest exchange symbol)
      { registry, store := .new config } inputs)
    (hadvances : Admitted (step digest) StampAdvances { registry, store := .new config } inputs) :
    ∀ done, done <+: inputs → LastStatusSeen exchange symbol (run digest registry config done) := by
  rintro done ⟨rest, rfl⟩
  have hboth := (admitted_append.mp hperiodic).1.and (admitted_append.mp hadvances).1
  have hstep : ∀ feed input, Tracked exchange symbol feed →
      Periodic digest exchange symbol feed input ∧ StampAdvances feed input →
        Tracked exchange symbol (step digest feed input) :=
    fun feed input h hinput => h.step digest hconcrete hinput.1 hinput.2
  have htracked : Tracked exchange symbol (run digest registry config done) :=
    invariant_of_admitted hstep (Tracked.new registry config exchange symbol) hboth
  exact htracked.seen

/-! ### A quiet trade channel beside a busy book -/

theorem tradeChannel_not_blank : isBlank "aggTrade" = false := by
  decide +kernel

def exampleTradeKey : StreamKey :=
  { StreamHealthRegistry.exampleKey with
    channel := "aggTrade"
    channel_not_blank := tradeChannel_not_blank }

/-- Both channels connect and have an event, the trade channel at one second and the book at
`bookAt`. -/
def exampleChannels (bookAt : Int) : List HealthFeedInput :=
  [.operation (.markConnected StreamHealthRegistry.exampleKey 0),
    .operation (.markConnected exampleTradeKey 0),
    .operation (.recordMessage exampleTradeKey 1000000 1000000 1000000 none false),
    .operation (.recordMessage StreamHealthRegistry.exampleKey bookAt bookAt bookAt none false)]

/-- Both are reported, the book first. -/
def exampleReports (now : Int) : List HealthFeedInput :=
  [.emit StreamHealthRegistry.exampleKey now now none, .emit exampleTradeKey now now none]

/-- Both channels, after one report of each. -/
def exampleFeed (bookAt now : Int) : HealthFeed :=
  run (fun _ _ => 0) StreamHealthRegistry.exampleRegistry exampleFeatures
    (exampleChannels bookAt ++ exampleReports now)

theorem last_status_seen_equal_stamps :
    LastStatusSeen .binance "BTC-USDT-PERP" (exampleFeed 1000000 2000000) := by
  have hconcrete : Exchange.binance.isConcrete = true := rfl
  have hperiodic : Admitted (step fun _ _ => 0)
      (Periodic (fun _ _ => 0) .binance "BTC-USDT-PERP")
      { registry := StreamHealthRegistry.exampleRegistry, store := .new exampleFeatures }
      (exampleChannels 1000000 ++ exampleReports 2000000) := by
    decide +kernel
  have hadvances : Admitted (step fun _ _ => 0) StampAdvances
      { registry := StreamHealthRegistry.exampleRegistry, store := .new exampleFeatures }
      (exampleChannels 1000000 ++ exampleReports 2000000) := by
    decide +kernel
  exact last_status_seen_when_stamps_advance _ _ hconcrete _ _ hperiodic hadvances _ (List.prefix_refl _)

/-- The book is at twenty seconds and the trade channel went stale after one: its report is stamped with
one second, behind the book's, and the states do not see that it is stale. -/
theorem stale_report_is_dropped :
    exampleFeatures.lateEventPolicy = .drop ∧
      Admitted (step fun _ _ => 0) (Periodic (fun _ _ => 0) .binance "BTC-USDT-PERP")
        { registry := StreamHealthRegistry.exampleRegistry, store := .new exampleFeatures }
        (exampleChannels 20000000 ++ exampleReports 20000000) ∧
      ((exampleFeed 20000000 20000000).lastEmission "aggTrade").map (·.health.status) = some .stale ∧
      ¬ LastStatusSeen .binance "BTC-USDT-PERP" (exampleFeed 20000000 20000000) := by
  refine ⟨rfl, by decide +kernel, by decide +kernel, ?_⟩
  have htimes : ∀ emission ∈ (exampleFeed 20000000 20000000).emitted, emission.time ≤ 20000000 := by
    decide +kernel
  have hlast : ((exampleFeed 20000000 20000000).lastEmission "aggTrade").map (·.time) = some 20000000 := by
    decide +kernel
  have hwide : ∀ item ∈ ((exampleFeed 20000000 20000000).store.exchangeHealthEvents .binance).items,
        item.value.channel ≠ "aggTrade" := by
    decide +kernel
  have hown : ∀ item ∈ ((exampleFeed 20000000 20000000).store.lookup .binance
        "BTC-USDT-PERP").healthEvents.items, item.value.channel ≠ "aggTrade" := by
    decide +kernel
  have hretention : (exampleFeed 20000000 20000000).store.config.retention > 0 :=
    FeaturesConfig.retention_pos _
  generalize exampleFeed 20000000 20000000 = feed at *
  intro hseen
  obtain ⟨emission, hemission, htime⟩ := Option.map_eq_some_iff.mp hlast
  obtain ⟨source, hsource, hchannel, -⟩ := hseen "BTC-USDT-PERP" (.inr rfl) 20000000 htimes "aggTrade"
    emission hemission (by omega)
  obtain ⟨scope, hin, -⟩ := (VenueSymbolState.mem_healthSources_iff _ _ _ _).mp hsource
  rcases List.mem_append.mp hin with hin | hin
  · exact hwide source (mem_healthCandidates.mp hin).2.1 hchannel
  · exact hown source (mem_healthCandidates.mp hin).2.1 hchannel

end HealthFeed

end Cvf
