/-
# Cvf.Features.Availability — when the features of a venue may be used.

`evaluate_availability` lists what stands in the way of a snapshot: no trades, a book that is not
synchronized or too young, open interest that is missing or old, blocked health.  The engine takes that list
without the reasons of the current book and adds those of the book as of its decision.

Both derive their two flags from the list by the same two sets of codes, which between them hold every code
the list can have.  So the flags are both set exactly when the list is empty (`Graded.available_iff`).
-/
import Cvf.Features.AsOf
import Cvf.Features.CrossVenue
import Cvf.Features.HealthSources

namespace Cvf

open Cvf.Library

structure FeatureAvailability where
  isWarm : Bool
  isHealthy : Bool
  reasons : List FeatureUnavailableReason
  deriving DecidableEq

namespace FeatureUnavailableCode

/-- `warm_codes` -/
def isWarmCode : FeatureUnavailableCode → Bool
  | .noTrades | .bookGenerationWarmup | .openInterestMissing => true
  | _ => false

/-- `health_codes` -/
def isHealthCode : FeatureUnavailableCode → Bool
  | .bookUnsynchronized | .openInterestStale | .healthBlocked | .pipelineBacklog => true
  | _ => false

/-- `book_codes` -/
def isBookCode : FeatureUnavailableCode → Bool
  | .bookUnsynchronized | .bookGenerationWarmup => true
  | _ => false

end FeatureUnavailableCode

/-- The end of both functions: the flags of some reasons. -/
def FeatureAvailability.ofReasons (reasons : List FeatureUnavailableReason) : FeatureAvailability :=
  { isWarm := !reasons.any (·.code.isWarmCode)
    isHealthy := !reasons.any (·.code.isHealthCode)
    reasons }

/-- The flags are those of the reasons, and every reason counts for one of them. -/
structure FeatureAvailability.Graded (availability : FeatureAvailability) : Prop where
  flags : availability = .ofReasons availability.reasons
  coded : ∀ reason ∈ availability.reasons,
    (reason.code.isWarmCode || reason.code.isHealthCode) = true

theorem FeatureAvailability.Graded.available_iff {availability : FeatureAvailability}
    (h : availability.Graded) :
    (availability.isWarm = true ∧ availability.isHealthy = true) ↔ availability.reasons = [] := by
  rw [h.flags]
  show ((!availability.reasons.any (·.code.isWarmCode)) = true ∧
    (!availability.reasons.any (·.code.isHealthCode)) = true) ↔ availability.reasons = []
  constructor
  · rintro ⟨hwarm, hhealthy⟩
    apply List.eq_nil_iff_forall_not_mem.mpr
    intro reason hreason
    rw [Bool.not_eq_true', List.any_eq_false] at hwarm hhealthy
    have hcode := h.coded reason hreason
    rw [Bool.or_eq_true] at hcode
    exact hcode.elim (hwarm reason hreason) (hhealthy reason hreason)
  · intro hempty
    rw [hempty]
    exact ⟨rfl, rfl⟩

/-! ## The reasons -/

namespace FeatureUnavailableReason

def noTrades : FeatureUnavailableReason :=
  { code := .noTrades, detail := "no accepted trades are available" }

/-- `last_error or …` -/
def bookUnsynchronized (lastError : Option String) : FeatureUnavailableReason :=
  { code := .bookUnsynchronized
    detail :=
      match lastError with
      | none | some "" => "local feature book has no valid snapshot"
      | some text => text
    channel := some "order_book" }

def bookGenerationWarmup : FeatureUnavailableReason :=
  { code := .bookGenerationWarmup
    detail := "current book generation has not covered the required warmup"
    channel := some "order_book" }

def openInterestMissing : FeatureUnavailableReason :=
  { code := .openInterestMissing
    detail := "open interest has not been observed"
    channel := some "open_interest" }

def openInterestStale : FeatureUnavailableReason :=
  { code := .openInterestStale
    detail := "latest open interest exceeds the configured freshness limit"
    channel := some "open_interest" }

def healthBlocked (exchange : Exchange) (channel : String) (status : HealthStatus) :
    FeatureUnavailableReason :=
  { code := .healthBlocked
    detail := exchange.value ++ " " ++ channel ++ " is " ++ status.value
    channel := some channel }

def pipelineBacklog : FeatureUnavailableReason :=
  { code := .pipelineBacklog, detail := "feature consumer backlog makes the snapshot stale" }

end FeatureUnavailableReason

/-- A reason that is given or not. -/
def givenIf (condition : Prop) [Decidable condition] (reason : FeatureUnavailableReason) :
    List FeatureUnavailableReason :=
  if condition then [reason] else []

theorem mem_givenIf {condition : Prop} [Decidable condition] {reason other : FeatureUnavailableReason} :
    other ∈ givenIf condition reason ↔ condition ∧ other = reason := by
  unfold givenIf
  split_ifs with h
  · simp [h]
  · simp [h]

theorem uniqueReasons_eq_nil_iff {reasons : List FeatureUnavailableReason} :
    uniqueReasons reasons = [] ↔ reasons = [] := by
  rw [List.eq_nil_iff_forall_not_mem, List.eq_nil_iff_forall_not_mem]
  exact forall_congr' fun reason => not_congr List.mem_eraseDups

/-! ## Evaluation -/

/-- The keyword arguments that come from the configuration. -/
structure AvailabilityPolicy where
  openInterestStaleAfter : Int
  blockedHealthStatuses : List HealthStatus

namespace VenueSymbolState

/-- `health_statuses`: as of the decision, or, while no health event is retained, the current ones.
`channels` are the keys of `health_by_channel` in the order of the dictionary. -/
def healthStatuses (state : VenueSymbolState) (exchangeHealthEvents : BoundedTimeWindow ExchangeHealth)
    (channels : List String) (decision : Int) : List (String × HealthStatus) :=
  if exchangeHealthEvents.items = [] ∧ state.healthEvents.items = [] then
    channels.filterMap fun channel => (state.healthByChannel channel).map (channel, ·)
  else
    (state.healthSourcesAtOrBefore exchangeHealthEvents decision).map fun item =>
      (item.value.channel, item.value.status)

/-- The reasons of the open interest. -/
def openInterestReasons (policy : AvailabilityPolicy) (state : VenueSymbolState) (decision : Int) :
    List FeatureUnavailableReason :=
  match state.openInterest.latestAtOrBefore decision with
  | none => [.openInterestMissing]
  | some latest =>
    givenIf (policy.openInterestStaleAfter < decision - latest.value.exchangeTimestamp)
      .openInterestStale

/-- The reasons of the health statuses. -/
def healthReasons (policy : AvailabilityPolicy) (state : VenueSymbolState)
    (exchangeHealthEvents : BoundedTimeWindow ExchangeHealth) (channels : List String)
    (decision : Int) : List FeatureUnavailableReason :=
  ((state.healthStatuses exchangeHealthEvents channels decision).filter
    (·.2 ∈ policy.blockedHealthStatuses)).map fun channel => .healthBlocked state.exchange channel.1 channel.2

/-- `evaluate_availability`. -/
def evaluateAvailability (policy : AvailabilityPolicy) (state : VenueSymbolState)
    (exchangeHealthEvents : BoundedTimeWindow ExchangeHealth) (channels : List String)
    (decision warmup : Int) (pipelineBacklogged : Bool) : Except String FeatureAvailability :=
  if warmup ≤ 0 then .error "warmup must be positive"
  else if policy.openInterestStaleAfter ≤ 0 then .error "open_interest_stale_after must be positive"
  else
    .ok (.ofReasons
      (givenIf ((state.trades.latestAtOrBefore decision).isNone) .noTrades ++
        givenIf (!state.orderBook.synchronized) (.bookUnsynchronized state.orderBook.lastError) ++
        givenIf (state.bookUpdates.items.head?.all fun earliest => decision - warmup < earliest.timestamp)
          .bookGenerationWarmup ++
        state.openInterestReasons policy decision ++
        state.healthReasons policy exchangeHealthEvents channels decision ++
        givenIf (pipelineBacklogged) .pipelineBacklog))

/-- The reasons of the book as of a decision. -/
def bookViewReasons (bookView : FeatureBookView) (decision warmup : Int) :
    List FeatureUnavailableReason :=
  givenIf (!bookView.synchronized) (.bookUnsynchronized bookView.lastError) ++
    givenIf (bookView.synchronizedSince.all fun startedAt => decision - warmup < startedAt)
      .bookGenerationWarmup

/-- `SingleVenueFeatureEngine._availability_as_of`. -/
def availabilityAsOf (policy : AvailabilityPolicy) (state : VenueSymbolState)
    (exchangeHealthEvents : BoundedTimeWindow ExchangeHealth) (channels : List String)
    (decision warmup : Int) (bookView : FeatureBookView) : Except String FeatureAvailability :=
  match state.evaluateAvailability policy exchangeHealthEvents channels decision warmup false with
  | .error e => .error e
  | .ok current =>
    .ok (.ofReasons (uniqueReasons
      (current.reasons.filter (!·.code.isBookCode) ++ bookViewReasons bookView decision warmup)))

/-! ## What the engine's list consists of -/

/-- The reasons that do not come from the book. -/
def plainReasons (policy : AvailabilityPolicy) (state : VenueSymbolState)
    (exchangeHealthEvents : BoundedTimeWindow ExchangeHealth) (channels : List String)
    (decision : Int) : List FeatureUnavailableReason :=
  givenIf ((state.trades.latestAtOrBefore decision).isNone) .noTrades ++
    state.openInterestReasons policy decision ++
    state.healthReasons policy exchangeHealthEvents channels decision

theorem openInterestReasons_code {policy : AvailabilityPolicy} {state : VenueSymbolState} {decision : Int}
    {reason : FeatureUnavailableReason} (h : reason ∈ state.openInterestReasons policy decision) :
    reason.code = .openInterestMissing ∨ reason.code = .openInterestStale := by
  unfold openInterestReasons at h
  split at h
  · rw [List.mem_singleton.mp h]
    exact .inl rfl
  · rw [(mem_givenIf.mp h).2]
    exact .inr rfl

theorem healthReasons_code {policy : AvailabilityPolicy} {state : VenueSymbolState}
    {exchangeHealthEvents : BoundedTimeWindow ExchangeHealth} {channels : List String} {decision : Int}
    {reason : FeatureUnavailableReason}
    (h : reason ∈ state.healthReasons policy exchangeHealthEvents channels decision) :
    reason.code = .healthBlocked := by
  obtain ⟨status, -, rfl⟩ := List.mem_map.mp h
  rfl

theorem plainReasons_code {policy : AvailabilityPolicy} {state : VenueSymbolState}
    {exchangeHealthEvents : BoundedTimeWindow ExchangeHealth} {channels : List String} {decision : Int}
    {reason : FeatureUnavailableReason}
    (h : reason ∈ state.plainReasons policy exchangeHealthEvents channels decision) :
    reason.code.isBookCode = false ∧ (reason.code.isWarmCode || reason.code.isHealthCode) = true := by
  rcases List.mem_append.mp h with h | h
  · rcases List.mem_append.mp h with h | h
    · rw [(mem_givenIf.mp h).2]
      exact ⟨rfl, rfl⟩
    · rcases openInterestReasons_code h with hcode | hcode
      · rw [hcode]
        exact ⟨rfl, rfl⟩
      · rw [hcode]
        exact ⟨rfl, rfl⟩
  · rw [healthReasons_code h]
    exact ⟨rfl, rfl⟩

theorem bookViewReasons_code {bookView : FeatureBookView} {decision warmup : Int}
    {reason : FeatureUnavailableReason} (h : reason ∈ bookViewReasons bookView decision warmup) :
    (reason.code.isWarmCode || reason.code.isHealthCode) = true := by
  rcases List.mem_append.mp h with h | h
  · rw [(mem_givenIf.mp h).2]
    rfl
  · rw [(mem_givenIf.mp h).2]
    rfl

/-- The current book leaves no trace: the view of the decision takes its place. -/
theorem availabilityAsOf_eq {policy : AvailabilityPolicy} (hstale : 0 < policy.openInterestStaleAfter)
    (state : VenueSymbolState) (exchangeHealthEvents : BoundedTimeWindow ExchangeHealth)
    (channels : List String) (decision : Int) {warmup : Int} (hwarmup : 0 < warmup)
    (bookView : FeatureBookView) :
    state.availabilityAsOf policy exchangeHealthEvents channels decision warmup bookView =
      .ok (.ofReasons (uniqueReasons
        (state.plainReasons policy exchangeHealthEvents channels decision ++
          bookViewReasons bookView decision warmup))) := by
  have hkept : ∀ reasons : List FeatureUnavailableReason, (∀ r ∈ reasons, r.code.isBookCode = false) →
      reasons.filter (!·.code.isBookCode) = reasons := by
    intro reasons hall
    apply List.filter_eq_self.mpr
    intro reason hreason
    rw [hall reason hreason]
    rfl
  have hdropped : ∀ (condition : Prop) [Decidable condition] (reason : FeatureUnavailableReason),
      reason.code.isBookCode = true →
        (givenIf condition reason).filter (!·.code.isBookCode) = [] := by
    intro condition _ reason hbook
    apply List.filter_eq_nil_iff.mpr
    intro other hother
    rw [(mem_givenIf.mp hother).2, hbook]
    decide
  have hplain : ∀ reason ∈ state.plainReasons policy exchangeHealthEvents channels decision,
      reason.code.isBookCode = false := fun reason hreason => (plainReasons_code hreason).1
  unfold plainReasons at hplain ⊢
  rw [List.forall_mem_append, List.forall_mem_append] at hplain
  unfold availabilityAsOf evaluateAvailability
  rw [if_neg (not_le.mpr hwarmup), if_neg (not_le.mpr hstale)]
  dsimp only [FeatureAvailability.ofReasons]
  rw [List.filter_append, List.filter_append, List.filter_append, List.filter_append, List.filter_append,
    hkept _ hplain.1.1, hdropped _ (.bookUnsynchronized state.orderBook.lastError) rfl,
    hdropped _ .bookGenerationWarmup rfl, hkept _ hplain.1.2, hkept _ hplain.2]
  have hbacklog : givenIf (false = true) .pipelineBacklog = [] := rfl
  rw [hbacklog, List.filter_nil, List.append_nil, List.append_nil, List.append_nil]

theorem availabilityAsOf_error {policy : AvailabilityPolicy} (state : VenueSymbolState)
    (exchangeHealthEvents : BoundedTimeWindow ExchangeHealth) (channels : List String) (decision : Int)
    {warmup : Int} (hwarmup : warmup ≤ 0) (bookView : FeatureBookView) :
    state.availabilityAsOf policy exchangeHealthEvents channels decision warmup bookView =
      .error "warmup must be positive" := by
  unfold availabilityAsOf evaluateAvailability
  rw [if_pos hwarmup]

theorem availabilityAsOf_graded {policy : AvailabilityPolicy} (hstale : 0 < policy.openInterestStaleAfter)
    {state : VenueSymbolState} {exchangeHealthEvents : BoundedTimeWindow ExchangeHealth}
    {channels : List String} {decision warmup : Int} {bookView : FeatureBookView}
    {availability : FeatureAvailability}
    (h : state.availabilityAsOf policy exchangeHealthEvents channels decision warmup bookView =
      .ok availability) : availability.Graded := by
  rcases lt_or_ge 0 warmup with hwarmup | hwarmup
  · rw [availabilityAsOf_eq hstale _ _ _ _ hwarmup] at h
    obtain rfl := Except.ok.inj h
    refine ⟨rfl, fun reason hreason => ?_⟩
    have hreason' := List.mem_eraseDups.mp hreason
    rcases List.mem_append.mp hreason' with hplain | hbook
    · exact (plainReasons_code hplain).2
    · exact bookViewReasons_code hbook
  · rw [availabilityAsOf_error _ _ _ _ hwarmup] at h
    cases h

end VenueSymbolState

end Cvf
