/-
# Cvf.Features.HealthSources — the latest health of each channel.

A state reads two health windows: its own, and the one all states of its exchange share.  Of both
together the latest event of each channel at or before a decision counts.
-/
import Cvf.Features.State
import Cvf.Library.LastByKey
import Cvf.Library.SortByKey

namespace Cvf

open Cvf.Library

/-- The order of `sorted(candidates)`: a scope and an item of its window. -/
def healthOrder (candidate : Nat × TimedValue ExchangeHealth) : Int ×ₗ Nat ×ₗ Nat :=
  toLex (candidate.2.timestamp, toLex (candidate.1, candidate.2.ordinal))

/-- The candidates of one window. -/
def healthCandidates (scope : Nat) (window : BoundedTimeWindow ExchangeHealth) (decision : Int) :
    List (Nat × TimedValue ExchangeHealth) :=
  (window.items.filter (·.timestamp ≤ decision)).map fun item => (scope, item)

/-- `health_sources_at_or_before`; the first window is the one that the states of an exchange share. -/
def VenueSymbolState.healthSourcesAtOrBefore (state : VenueSymbolState)
    (exchangeHealthEvents : BoundedTimeWindow ExchangeHealth) (decision : Int) :
    List (TimedValue ExchangeHealth) :=
  let candidates := healthCandidates 0 exchangeHealthEvents decision ++
    healthCandidates 1 state.healthEvents decision
  (lastValues (fun candidate => candidate.2.value.channel) (sortByKey healthOrder candidates)).map
    Prod.snd

theorem mem_healthCandidates {scope : Nat} {window : BoundedTimeWindow ExchangeHealth} {decision : Int}
    {candidate : Nat × TimedValue ExchangeHealth} :
    candidate ∈ healthCandidates scope window decision ↔
      candidate.1 = scope ∧ candidate.2 ∈ window.items ∧ candidate.2.timestamp ≤ decision := by
  unfold healthCandidates
  rw [List.mem_map]
  constructor
  · rintro ⟨item, hitem, rfl⟩
    obtain ⟨hin, hle⟩ := List.mem_filter.mp hitem
    exact ⟨rfl, hin, of_decide_eq_true hle⟩
  · rintro ⟨rfl, hin, hle⟩
    exact ⟨candidate.2, List.mem_filter.mpr ⟨hin, decide_eq_true hle⟩, rfl⟩

/-- The order tells the items of a window apart. -/
theorem healthCandidates_distinct (scope : Nat) (window : BoundedTimeWindow ExchangeHealth)
    (decision : Int) :
    (healthCandidates scope window decision).Pairwise fun a b => healthOrder a ≠ healthOrder b := by
  unfold healthCandidates
  rw [List.pairwise_map]
  apply (window.retained.sorted.filter _).imp
  intro a b hprecedes heq
  have htime : a.timestamp = b.timestamp := congrArg (fun key => (ofLex key).1) heq
  have hordinal : a.ordinal = b.ordinal := congrArg (fun key => (ofLex (ofLex key).2).2) heq
  unfold TimedValue.Precedes at hprecedes
  omega

/-- The sources are the candidates that no candidate of their channel follows. -/
theorem VenueSymbolState.mem_healthSources_iff (state : VenueSymbolState)
    (exchangeHealthEvents : BoundedTimeWindow ExchangeHealth) (decision : Int)
    (item : TimedValue ExchangeHealth) :
    item ∈ state.healthSourcesAtOrBefore exchangeHealthEvents decision ↔
      ∃ scope, (scope, item) ∈ healthCandidates 0 exchangeHealthEvents decision ++
          healthCandidates 1 state.healthEvents decision ∧
        ∀ other ∈ healthCandidates 0 exchangeHealthEvents decision ++
            healthCandidates 1 state.healthEvents decision,
          other.2.value.channel = item.value.channel → healthOrder other ≤ healthOrder (scope, item) := by
  unfold healthSourcesAtOrBefore
  dsimp only
  generalize hcandidates : healthCandidates 0 exchangeHealthEvents decision ++
    healthCandidates 1 state.healthEvents decision = candidates
  have hdistinct : candidates.Pairwise fun a b => healthOrder a ≠ healthOrder b := by
    rw [← hcandidates]
    refine List.pairwise_append.mpr
      ⟨healthCandidates_distinct .., healthCandidates_distinct .., ?_⟩
    intro a ha b hb heq
    have hscope : a.1 = b.1 := congrArg (fun key => (ofLex (ofLex key).2).1) heq
    rw [(mem_healthCandidates.mp ha).1, (mem_healthCandidates.mp hb).1] at hscope
    cases hscope
  have hsorted := pairwise_lt_sortByKey hdistinct
  have hmem : ∀ candidate, candidate ∈ sortByKey healthOrder candidates ↔ candidate ∈ candidates :=
    fun candidate => (sortByKey_perm healthOrder candidates).mem_iff
  rw [List.mem_map]
  constructor
  · rintro ⟨⟨scope, found⟩, hfound, rfl⟩
    obtain ⟨hin, -, hgreatest⟩ := (find?_reverse_iff_of_ascending hsorted).mp (mem_lastValues.mp hfound)
    refine ⟨scope, (hmem _).mp hin, fun other hother hchannel => ?_⟩
    exact hgreatest other ((hmem _).mpr hother) (decide_eq_true hchannel)
  · rintro ⟨scope, hin, hgreatest⟩
    refine ⟨(scope, item), mem_lastValues.mpr ?_, rfl⟩
    apply (find?_reverse_iff_of_ascending hsorted).mpr
    refine ⟨(hmem _).mpr hin, decide_eq_true rfl, fun other hother hchannel => ?_⟩
    exact hgreatest other ((hmem _).mp hother) (of_decide_eq_true hchannel)

end Cvf
