/-
# Cvf.Models — the normalized market-data records and their validators.

The venue-neutral event vocabulary (`cvf.models.enums`, `cvf.models.common`, `cvf.models.market`):
every event carries the shared metadata of `EventBase` and one typed payload.  The pydantic
validators that can refuse a record are executable functions returning the validator's own text,
so a normalizer that builds a record fails exactly where the source raises.

`BookSide` is the `dict[Decimal, Decimal]` of one side of a book: a finite map from price to
quantity whose equality is equality of contents.
-/
import Cvf.Text

namespace Cvf

/-! ## Enumerations -/

inductive Exchange where
  | binance
  | okx
  | crossVenue
  | simulated
  deriving DecidableEq, Repr

/-- The string value of the enumeration member. -/
def Exchange.value : Exchange → String
  | .binance => "BINANCE"
  | .okx => "OKX"
  | .crossVenue => "CROSS_VENUE"
  | .simulated => "SIMULATED"

/-- The event types a normalized market event can have. -/
inductive EventType where
  | trade
  | orderBookSnapshot
  | orderBookUpdate
  | bestBidAsk
  | openInterest
  | fundingRate
  | markPrice
  | indexPrice
  | liquidation
  | exchangeHealth
  deriving DecidableEq, Repr

def EventType.value : EventType → String
  | .trade => "TRADE"
  | .orderBookSnapshot => "ORDER_BOOK_SNAPSHOT"
  | .orderBookUpdate => "ORDER_BOOK_UPDATE"
  | .bestBidAsk => "BEST_BID_ASK"
  | .openInterest => "OPEN_INTEREST"
  | .fundingRate => "FUNDING_RATE"
  | .markPrice => "MARK_PRICE"
  | .indexPrice => "INDEX_PRICE"
  | .liquidation => "LIQUIDATION"
  | .exchangeHealth => "EXCHANGE_HEALTH"

inductive AggressorSide where
  | buy
  | sell
  deriving DecidableEq, Repr

inductive LiquidatedPositionSide where
  | long
  | short
  deriving DecidableEq, Repr

inductive HealthStatus where
  | connected
  | degraded
  | stale
  | resyncing
  | disconnected
  deriving DecidableEq, Repr

def HealthStatus.value : HealthStatus → String
  | .connected => "CONNECTED"
  | .degraded => "DEGRADED"
  | .stale => "STALE"
  | .resyncing => "RESYNCING"
  | .disconnected => "DISCONNECTED"

/-! ## Event records -/

/-- `int | str` sequence ids. -/
inductive SequenceId where
  | int (value : Int)
  | text (value : String)
  deriving DecidableEq, Repr

/-- `str(sequence_id)`. -/
def SequenceId.str : SequenceId → String
  | .int v => toString v
  | .text s => s

/-- Metadata present on every normalized event (the event type is the payload's constructor). -/
structure EventBase where
  exchange : Exchange
  symbol : String
  exchangeTimestamp : Int
  localReceiveTimestamp : Int
  normalizationTimestamp : Int
  sequenceId : Option SequenceId := none
  rawPayloadReference : Option String := none
  deriving DecidableEq, Repr

structure OrderBookLevel where
  price : Decimal
  quantity : Decimal
  deriving DecidableEq, Repr

structure Trade extends EventBase where
  tradeId : String
  price : Decimal
  quantity : Decimal
  contractQuantity : Option Decimal := none
  aggressorSide : AggressorSide
  deriving DecidableEq, Repr

def Trade.notional (t : Trade) : Decimal := t.price * t.quantity

structure OrderBookSnapshot extends EventBase where
  bids : List OrderBookLevel
  asks : List OrderBookLevel
  depth : Int
  checksum : Option String := none
  generation : Nat := 0
  deriving DecidableEq, Repr

structure OrderBookUpdate extends EventBase where
  bids : List OrderBookLevel := []
  asks : List OrderBookLevel := []
  previousSequenceId : Option SequenceId := none
  checksum : Option String := none
  generation : Nat := 0
  deriving DecidableEq, Repr

structure BestBidAsk extends EventBase where
  bidPrice : Decimal
  bidQuantity : Decimal
  askPrice : Decimal
  askQuantity : Decimal
  deriving DecidableEq, Repr

def BestBidAsk.midPrice (q : BestBidAsk) : Decimal := (q.bidPrice + q.askPrice) / 2

structure OpenInterest extends EventBase where
  openInterestContracts : Decimal
  openInterestBase : Option Decimal := none
  openInterestQuote : Option Decimal := none
  deriving DecidableEq, Repr

structure FundingRate extends EventBase where
  fundingRate : Decimal
  nextFundingTimestamp : Option Int := none
  deriving DecidableEq, Repr

structure MarkPrice extends EventBase where
  markPrice : Decimal
  deriving DecidableEq, Repr

structure IndexPrice extends EventBase where
  indexPrice : Decimal
  deriving DecidableEq, Repr

structure LiquidationEvent extends EventBase where
  liquidationId : Option String := none
  positionSide : LiquidatedPositionSide
  price : Decimal
  quantity : Decimal
  contractQuantity : Option Decimal := none
  deriving DecidableEq, Repr

def LiquidationEvent.notional (e : LiquidationEvent) : Decimal := e.price * e.quantity

/-- `str | int | float | bool | None` -/
inductive DetailValue where
  | text (value : String)
  | int (value : Int)
  | float (value : Rat)
  | bool (value : Bool)
  | none
  deriving DecidableEq, Repr

/-- Millisecond measurements of the health records are exact rationals here. -/
structure ExchangeHealth extends EventBase where
  channel : String
  status : HealthStatus
  isConnected : Bool
  lastEventTimestamp : Option Int := none
  lastLatencyMs : Option Rat := none
  averageLatencyMs : Option Rat := none
  maximumLatencyMs : Option Rat := none
  lastNormalizationLatencyMs : Option Rat := none
  clockSkewMs : Option Rat := none
  messagesReceived : Nat := 0
  duplicateEvents : Nat := 0
  sequenceGaps : Nat := 0
  checksumFailures : Nat := 0
  reconnects : Nat := 0
  resubscriptions : Nat := 0
  parseErrors : Nat := 0
  droppedEvents : Nat := 0
  backpressureEvents : Nat := 0
  sequenceGapDetected : Bool := false
  resyncing : Bool := false
  bookGeneration : Nat := 0
  restHealthy : Bool := true
  openInterestStale : Bool := false
  lastError : Option String := none
  /-- A dictionary, by ascending key. -/
  details : List (String × DetailValue) := []
  deriving DecidableEq, Repr

/-- The union `NormalizedMarketEvent`. -/
inductive NormalizedMarketEvent where
  | trade (event : Trade)
  | orderBookSnapshot (event : OrderBookSnapshot)
  | orderBookUpdate (event : OrderBookUpdate)
  | bestBidAsk (event : BestBidAsk)
  | openInterest (event : OpenInterest)
  | fundingRate (event : FundingRate)
  | markPrice (event : MarkPrice)
  | indexPrice (event : IndexPrice)
  | liquidation (event : LiquidationEvent)
  | exchangeHealth (event : ExchangeHealth)
  deriving DecidableEq, Repr

namespace NormalizedMarketEvent

def base : NormalizedMarketEvent → EventBase
  | .trade e => e.toEventBase
  | .orderBookSnapshot e => e.toEventBase
  | .orderBookUpdate e => e.toEventBase
  | .bestBidAsk e => e.toEventBase
  | .openInterest e => e.toEventBase
  | .fundingRate e => e.toEventBase
  | .markPrice e => e.toEventBase
  | .indexPrice e => e.toEventBase
  | .liquidation e => e.toEventBase
  | .exchangeHealth e => e.toEventBase

def eventType : NormalizedMarketEvent → EventType
  | .trade _ => .trade
  | .orderBookSnapshot _ => .orderBookSnapshot
  | .orderBookUpdate _ => .orderBookUpdate
  | .bestBidAsk _ => .bestBidAsk
  | .openInterest _ => .openInterest
  | .fundingRate _ => .fundingRate
  | .markPrice _ => .markPrice
  | .indexPrice _ => .indexPrice
  | .liquidation _ => .liquidation
  | .exchangeHealth _ => .exchangeHealth

/-- `getattr(event, "generation", 0)`. -/
def generation : NormalizedMarketEvent → Nat
  | .orderBookSnapshot e => e.generation
  | .orderBookUpdate e => e.generation
  | _ => 0

/-- Replace the shared metadata of an event. -/
def withBase (f : EventBase → EventBase) : NormalizedMarketEvent → NormalizedMarketEvent
  | .trade e => .trade { e with toEventBase := f e.toEventBase }
  | .orderBookSnapshot e => .orderBookSnapshot { e with toEventBase := f e.toEventBase }
  | .orderBookUpdate e => .orderBookUpdate { e with toEventBase := f e.toEventBase }
  | .bestBidAsk e => .bestBidAsk { e with toEventBase := f e.toEventBase }
  | .openInterest e => .openInterest { e with toEventBase := f e.toEventBase }
  | .fundingRate e => .fundingRate { e with toEventBase := f e.toEventBase }
  | .markPrice e => .markPrice { e with toEventBase := f e.toEventBase }
  | .indexPrice e => .indexPrice { e with toEventBase := f e.toEventBase }
  | .liquidation e => .liquidation { e with toEventBase := f e.toEventBase }
  | .exchangeHealth e => .exchangeHealth { e with toEventBase := f e.toEventBase }

end NormalizedMarketEvent

/-! ## Validators -/

/-- `OrderBookLevel`: `price: PositiveDecimal`, `quantity: NonNegativeDecimal`. -/
def OrderBookLevel.validate (level : OrderBookLevel) : Except String Unit :=
  if level.price ≤ 0 then .error "Input should be greater than 0"
  else if level.quantity < 0 then .error "Input should be greater than or equal to 0"
  else .ok ()

/-- Prices of neighbouring levels compare by `rel`, as the zip of a side with its tail checks. -/
def neighbours (rel : Decimal → Decimal → Bool) : List OrderBookLevel → Bool
  | left :: right :: rest => rel left.price right.price && neighbours rel (right :: rest)
  | _ => true

/-- The fields and `validate_book` of `OrderBookSnapshot`. -/
def OrderBookSnapshot.validate (s : OrderBookSnapshot) : Except String Unit := do
  s.bids.forM OrderBookLevel.validate
  s.asks.forM OrderBookLevel.validate
  if s.bids = [] ∨ s.asks = [] then .error "List should have at least 1 item after validation"
  else if s.depth < 1 then .error "Input should be greater than or equal to 1"
  else if s.depth < s.bids.length ∨ s.depth < s.asks.length then
    .error "book sides cannot contain more levels than depth"
  else if !neighbours (fun left right => right < left) s.bids then
    .error "bids must be strictly descending by price"
  else if !neighbours (fun left right => left < right) s.asks then
    .error "asks must be strictly ascending by price"
  else if (s.asks.head?.map (·.price)).getD 0 ≤ (s.bids.head?.map (·.price)).getD 0 then
    .error "order book is crossed or locked"
  else .ok ()

/-- The fields and `update_is_not_empty` of `OrderBookUpdate`. -/
def OrderBookUpdate.validate (u : OrderBookUpdate) : Except String Unit := do
  u.bids.forM OrderBookLevel.validate
  u.asks.forM OrderBookLevel.validate
  if u.bids = [] ∧ u.asks = [] then .error "an order-book update must change at least one level"
  else .ok ()

theorem forM_validate_ok {levels : List OrderBookLevel} (hprice : ∀ l ∈ levels, 0 < l.price)
    (hquantity : ∀ l ∈ levels, 0 ≤ l.quantity) :
    levels.forM OrderBookLevel.validate = .ok () := by
  induction levels with
  | nil => rfl
  | cons l levels ih =>
      have hl : l.validate = .ok () := by
        have h1 : ¬ l.price ≤ 0 := not_le.mpr (hprice l (by simp))
        have h2 : ¬ l.quantity < 0 := not_lt.mpr (hquantity l (by simp))
        simp [OrderBookLevel.validate, h1, h2]
      have hrest := ih (fun l' hl' => hprice l' (by simp [hl']))
        fun l' hl' => hquantity l' (by simp [hl'])
      show (l.validate >>= fun _ => List.forM _ _) = .ok ()
      rw [hl]
      exact hrest

theorem forM_validate_eq_ok_iff {levels : List OrderBookLevel} :
    levels.forM OrderBookLevel.validate = .ok () ↔ ∀ l ∈ levels, 0 < l.price ∧ 0 ≤ l.quantity := by
  refine ⟨fun h => ?_, fun h => forM_validate_ok (fun l hl => (h l hl).1) fun l hl => (h l hl).2⟩
  induction levels with
  | nil => simp
  | cons l levels ih =>
      have hsplit : (l.validate >>= fun _ => levels.forM OrderBookLevel.validate) = .ok () := h
      unfold OrderBookLevel.validate at hsplit
      split_ifs at hsplit with hprice hquantity
      · cases hsplit
      · cases hsplit
      · rw [List.forall_mem_cons]
        exact ⟨⟨not_le.mp hprice, not_lt.mp hquantity⟩, ih hsplit⟩

theorem neighbours_of_pairwise {rel : Decimal → Decimal → Bool} {levels : List OrderBookLevel}
    (h : levels.Pairwise fun l r => rel l.price r.price = true) : neighbours rel levels = true := by
  induction levels with
  | nil => rfl
  | cons l levels ih =>
      rw [List.pairwise_cons] at h
      cases levels with
      | nil => rfl
      | cons r rest => simp [neighbours, h.1 r (by simp), ih h.2]

theorem pairwise_of_neighbours {rel : Decimal → Decimal → Bool}
    (htrans : ∀ a b c, rel a b = true → rel b c = true → rel a c = true)
    {levels : List OrderBookLevel} (h : neighbours rel levels = true) :
    levels.Pairwise fun l r => rel l.price r.price = true := by
  induction levels with
  | nil => exact .nil
  | cons l levels ih =>
      cases levels with
      | nil => exact List.pairwise_singleton _ _
      | cons r rest =>
          unfold neighbours at h
          rw [Bool.and_eq_true] at h
          have hrest := ih h.2
          refine List.pairwise_cons.mpr ⟨?_, hrest⟩
          rw [List.forall_mem_cons]
          exact ⟨h.1, fun l' hl' => htrans _ _ _ h.1 ((List.pairwise_cons.mp hrest).1 l' hl')⟩

/-- What `OrderBookUpdate` accepts. -/
theorem OrderBookUpdate.validate_ok {u : OrderBookUpdate}
    (hprice : ∀ l ∈ u.bids ++ u.asks, 0 < l.price)
    (hquantity : ∀ l ∈ u.bids ++ u.asks, 0 ≤ l.quantity) (hne : u.bids ≠ [] ∨ u.asks ≠ []) :
    u.validate = .ok () := by
  have hbids : u.bids.forM OrderBookLevel.validate = .ok () :=
    forM_validate_ok (fun l hl => hprice l (by simp [hl])) fun l hl => hquantity l (by simp [hl])
  have hasks : u.asks.forM OrderBookLevel.validate = .ok () :=
    forM_validate_ok (fun l hl => hprice l (by simp [hl])) fun l hl => hquantity l (by simp [hl])
  have hne' : ¬ (u.bids = [] ∧ u.asks = []) := by tauto
  simp only [OrderBookUpdate.validate, hbids, hasks, bind, Except.bind, if_neg hne']

theorem OrderBookUpdate.validate_eq_ok_iff {u : OrderBookUpdate} :
    u.validate = .ok () ↔ (∀ l ∈ u.bids, 0 < l.price ∧ 0 ≤ l.quantity) ∧
      (∀ l ∈ u.asks, 0 < l.price ∧ 0 ≤ l.quantity) ∧ (u.bids ≠ [] ∨ u.asks ≠ []) := by
  rw [← forM_validate_eq_ok_iff, ← forM_validate_eq_ok_iff]
  unfold OrderBookUpdate.validate
  cases hbids : u.bids.forM OrderBookLevel.validate with
  | error e => simp [bind, Except.bind]
  | ok _ =>
      cases hasks : u.asks.forM OrderBookLevel.validate with
      | error e => simp [bind, Except.bind]
      | ok _ =>
          simp only [bind, Except.bind, true_and]
          split_ifs with hempty
          · simp [hempty]
          · simp only [true_iff]
            tauto

/-- What `OrderBookSnapshot` accepts: best price first, two-sided, uncrossed, within its depth. -/
theorem OrderBookSnapshot.validate_ok {s : OrderBookSnapshot}
    (hprice : ∀ l ∈ s.bids ++ s.asks, 0 < l.price)
    (hquantity : ∀ l ∈ s.bids ++ s.asks, 0 ≤ l.quantity) (hbidsNe : s.bids ≠ [])
    (hasksNe : s.asks ≠ []) (hbids : s.bids.Pairwise fun l r => r.price < l.price)
    (hasks : s.asks.Pairwise fun l r => l.price < r.price)
    (huncrossed : ∀ b ∈ s.bids.head?, ∀ a ∈ s.asks.head?, b.price < a.price)
    (hbidDepth : s.bids.length ≤ s.depth) (haskDepth : s.asks.length ≤ s.depth) :
    s.validate = .ok () := by
  have hbidsOk : s.bids.forM OrderBookLevel.validate = .ok () :=
    forM_validate_ok (fun l hl => hprice l (by simp [hl])) fun l hl => hquantity l (by simp [hl])
  have hasksOk : s.asks.forM OrderBookLevel.validate = .ok () :=
    forM_validate_ok (fun l hl => hprice l (by simp [hl])) fun l hl => hquantity l (by simp [hl])
  have hbidsSorted := @neighbours_of_pairwise (fun left right => decide (right < left)) s.bids
    (hbids.imp fun hlt => by simpa using hlt)
  have hasksSorted := @neighbours_of_pairwise (fun left right => decide (left < right)) s.asks
    (hasks.imp fun hlt => by simpa using hlt)
  obtain ⟨b, bs, hb⟩ := List.exists_cons_of_ne_nil hbidsNe
  obtain ⟨a, as, ha⟩ := List.exists_cons_of_ne_nil hasksNe
  have hbhead : s.bids.head? = some b := by rw [hb, List.head?_cons]
  have hahead : s.asks.head? = some a := by rw [ha, List.head?_cons]
  have hba : ¬ a.price ≤ b.price := not_le.mpr (huncrossed b hbhead a hahead)
  have hne : ¬ (s.bids = [] ∨ s.asks = []) := by tauto
  have hdepth : ¬ s.depth < 1 := by
    rw [hb, List.length_cons] at hbidDepth
    omega
  have hfits : ¬ (s.depth < s.bids.length ∨ s.depth < s.asks.length) := by omega
  simp only [OrderBookSnapshot.validate, hbidsOk, hasksOk, bind, Except.bind, if_neg hne,
    if_neg hdepth, if_neg hfits, hbidsSorted, hasksSorted, Bool.not_true, Bool.false_eq_true,
    if_false, hbhead, hahead, Option.map_some, Option.getD_some, if_neg hba]

theorem OrderBookSnapshot.validate_eq_ok_iff {s : OrderBookSnapshot}
    (hbidDepth : s.bids.length ≤ s.depth) (haskDepth : s.asks.length ≤ s.depth) :
    s.validate = .ok () ↔ (∀ l ∈ s.bids, 0 < l.price ∧ 0 ≤ l.quantity) ∧
      (∀ l ∈ s.asks, 0 < l.price ∧ 0 ≤ l.quantity) ∧
      (s.bids.Pairwise fun l r => r.price < l.price) ∧
      (s.asks.Pairwise fun l r => l.price < r.price) ∧
      ∃ b ∈ s.bids.head?, ∃ a ∈ s.asks.head?, b.price < a.price := by
  constructor
  · intro h
    unfold OrderBookSnapshot.validate at h
    cases hbids : s.bids.forM OrderBookLevel.validate with
    | error e => simp [hbids, bind, Except.bind] at h
    | ok _ =>
        cases hasks : s.asks.forM OrderBookLevel.validate with
        | error e => simp [hbids, hasks, bind, Except.bind] at h
        | ok _ =>
            simp only [hbids, hasks, bind, Except.bind] at h
            split_ifs at h with hempty hdepth hlength hdescending hascending hcrossed
            obtain ⟨hbidsNe, hasksNe⟩ := not_or.mp hempty
            obtain ⟨b, bs, hb⟩ := List.exists_cons_of_ne_nil hbidsNe
            obtain ⟨a, as, ha⟩ := List.exists_cons_of_ne_nil hasksNe
            refine ⟨forM_validate_eq_ok_iff.mp hbids, forM_validate_eq_ok_iff.mp hasks, ?_, ?_, b, ?_, a,
              ?_, ?_⟩
            · refine (pairwise_of_neighbours ?_ (by simpa using hdescending)).imp of_decide_eq_true
              exact fun p q r hpq hqr =>
                decide_eq_true ((of_decide_eq_true hqr).trans (of_decide_eq_true hpq))
            · refine (pairwise_of_neighbours ?_ (by simpa using hascending)).imp of_decide_eq_true
              exact fun p q r hpq hqr =>
                decide_eq_true ((of_decide_eq_true hpq).trans (of_decide_eq_true hqr))
            · rw [hb]
              rfl
            · rw [ha]
              rfl
            · rw [ha, hb] at hcrossed
              exact not_le.mp hcrossed
  · rintro ⟨hbids, hasks, hdescending, hascending, b, hb, a, ha, hba⟩
    have hall : ∀ l ∈ s.bids ++ s.asks, 0 < l.price ∧ 0 ≤ l.quantity := by
      intro l hl
      exact (List.mem_append.mp hl).elim (hbids l) (hasks l)
    refine OrderBookSnapshot.validate_ok (fun l hl => (hall l hl).1) (fun l hl => (hall l hl).2)
      (List.ne_nil_of_mem (List.mem_of_head? hb)) (List.ne_nil_of_mem (List.mem_of_head? ha))
      hdescending hascending ?_ hbidDepth haskDepth
    intro b' hb' a' ha'
    obtain rfl : b = b' := Option.some.inj (hb.symm.trans hb')
    obtain rfl : a = a' := Option.some.inj (ha.symm.trans ha')
    exact hba

/-- `ExchangeHealth.state_fields_are_consistent`. -/
def ExchangeHealth.validate (h : ExchangeHealth) : Except String Unit :=
  if h.status = .disconnected ∧ h.isConnected = true then
    .error "DISCONNECTED health cannot report an active connection"
  else if h.status ≠ .disconnected ∧ h.isConnected = false then
    .error s!"{h.status.value} health requires an active transport connection"
  else if h.resyncing ≠ decide (h.status = .resyncing) then
    .error "resyncing must be true exactly when status is RESYNCING"
  else .ok ()

/-! ## One side of a book -/

/-- `dict[Decimal, Decimal]` from price to quantity. -/
abbrev BookSide := Finmap fun _ : Decimal => Decimal

namespace BookSide

/-- Store a quantity, or drop the price when the quantity is zero. -/
def put (side : BookSide) (price quantity : Decimal) : BookSide :=
  if quantity = 0 then side.erase price else side.insert price quantity

theorem lookup_put (side : BookSide) (price quantity p : Decimal) :
    (side.put price quantity).lookup p =
      if p = price then (if quantity = 0 then none else some quantity) else side.lookup p := by
  unfold put
  by_cases hp : p = price
  · subst hp
    by_cases hq : quantity = 0
    · simp [hq]
    · simp [hq]
  · by_cases hq : quantity = 0
    · simp [hq, hp, Finmap.lookup_erase_ne hp]
    · simp [hq, hp, Finmap.lookup_insert_of_ne _ hp]

/-- `max(side)` and `min(side)` over the stored prices. -/
def maxPrice (side : BookSide) : WithBot Decimal := side.keys.max
def minPrice (side : BookSide) : WithTop Decimal := side.keys.min

/-- `max(bids) >= min(asks)`, on two non-empty sides. -/
def crossed (bids asks : BookSide) : Bool :=
  match bids.maxPrice, asks.minPrice with
  | some b, some a => decide (a ≤ b)
  | _, _ => false

end BookSide

end Cvf
