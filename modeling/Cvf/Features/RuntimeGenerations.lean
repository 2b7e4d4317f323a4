/-
# Cvf.Features.RuntimeGenerations — the deques and the generations of the books.

The runtime notes the generation of a book at each of its events, and drops the snapshots of a symbol when
one of its books has another generation than was noted.  So what the deques of a symbol hold was calculated
while each of its books, once it had an event, was of the generation it is of now
(`held_of_one_generation`).
-/
import Cvf.Features.RuntimeGuarantees

namespace Cvf

open Cvf.Library

/-- A book event of a market. -/
def NormalizedMarketEvent.IsBookOf (event : NormalizedMarketEvent) (exchange : Exchange) (symbol : String) :
    Prop :=
  event.isBook = true ∧ event.base.exchange = exchange ∧ event.base.symbol = symbol

/-- The generation of a book. -/
def MarketStateStore.generation (store : MarketStateStore) (exchange : Exchange) (symbol : String) : Nat :=
  (store.lookup exchange symbol).orderBook.generation

/-- Only a book event of a market changes the generation of its book. -/
theorem MarketStateStore.generation_ingest {digest : SourceDigest} {store after : MarketStateStore}
    {event : NormalizedMarketEvent} {result : StateUpdateResult}
    (hingest : store.ingest digest event = .ok (after, result)) {exchange : Exchange} {symbol : String}
    (hother : ¬ event.IsBookOf exchange symbol) :
    after.generation exchange symbol = store.generation exchange symbol := by
  have hafter := MarketStateStore.perform_ingest_ok digest hingest
  unfold generation
  rcases store.lookup_perform digest (.ingest event) exchange symbol with
    ⟨other, heq, -, hexchange, hsymbol, hlookup⟩ | ⟨events, channels, hlookup⟩
  · obtain rfl := StoreOperation.ingest.inj heq
    have hscalar : event.isBook = false := by
      by_contra hbook
      exact hother ⟨Bool.not_eq_false _ |>.mp hbook, hexchange, hsymbol⟩
    rw [← hafter, hlookup]
    obtain ⟨hbook, -⟩ := VenueSymbolState.ingest_scalar_book digest store.config
      (store.lookup exchange symbol) hscalar
    rw [hbook]
  · rw [← hafter, hlookup]

section

variable {F : Type} [Field F] [LinearOrder F] {engines : RuntimeEngines F} {calls : List RuntimeCall}
  {runtime : FeatureRuntime F}

/-- What was calculated at a tick among some calls, while the books of its symbol were of the generations that
they are of now. -/
def OfGeneration (engines : RuntimeEngines F) (calls : List RuntimeCall) (runtime : FeatureRuntime F)
    (snapshot : FeatureSnapshot F) : Prop :=
  ∃ earlier later before,
    calls = earlier ++ .consumeTick ⟨snapshot.decisionTimestamp, .feature⟩ :: later ∧
      FeatureRuntime.run engines earlier = .ok before ∧
        ∀ exchange, (∃ event ∈ consumedEvents earlier, event.IsBookOf exchange snapshot.symbol) →
          before.timeline.store.generation exchange snapshot.symbol =
            runtime.timeline.store.generation exchange snapshot.symbol

/-- The notes are those of the books, and what is held is of their generations. -/
structure Noted (engines : RuntimeEngines F) (calls : List RuntimeCall) (runtime : FeatureRuntime F) :
    Prop where
  notes : ∀ exchange symbol, ∀ generation ∈ runtime.history.bookGenerations (exchange, symbol),
    runtime.timeline.store.generation exchange symbol = generation
  noted : ∀ exchange symbol, (∃ event ∈ consumedEvents calls, event.IsBookOf exchange symbol) →
    (runtime.history.bookGenerations (exchange, symbol)).isSome = true
  held : ∀ key, ∀ snapshot ∈ runtime.history.history key, OfGeneration engines calls runtime snapshot

/-- Calls that leave the store and the deques as they are. -/
theorem Noted.pass (h : Noted engines calls runtime) {call : RuntimeCall} {after : FeatureRuntime F}
    (hevents : consumedEvents [call] = []) (hstore : after.timeline.store = runtime.timeline.store)
    (hhistory : after.history = runtime.history) : Noted engines (calls ++ [call]) after where
  notes := by
    rw [hhistory, hstore]
    exact h.notes
  noted := by
    rw [consumedEvents_concat, hevents, List.append_nil, hhistory]
    exact h.noted
  held := by
    intro key snapshot hin
    rw [hhistory] at hin
    obtain ⟨earlier, later, before, rfl, hbefore, hsame⟩ := h.held key snapshot hin
    refine ⟨earlier, later ++ [call], before, ?_, hbefore, ?_⟩
    · rw [List.append_assoc]
      rfl
    · rw [hstore]
      exact hsame

theorem Noted.featureTick (h : Noted engines calls runtime) (hrunning : Running engines calls runtime)
    (hrun : FeatureRuntime.run engines calls = .ok runtime) {decision : Int}
    {singles : List (FeatureSnapshot F)} {memory : SingleVenueMemory F}
    {crosses : List (CrossVenueFeatureSnapshot F)} {counts : OutputCounts}
    (hdone : TickDone engines runtime decision singles memory crosses counts) :
    Noted engines (calls ++ [.consumeTick ⟨decision, .feature⟩])
      (runtime.ticked engines singles memory crosses counts) := by
  obtain ⟨hcalculated, -⟩ := hrunning.calculated hdone
  have hnotes : (runtime.ticked engines singles memory crosses counts).history.bookGenerations =
      runtime.history.bookGenerations := RuntimeHistory.bookGenerations_foldl_append _ _ _
  refine ⟨?_, ?_, ?_⟩
  · rw [hnotes]
    exact h.notes
  · rw [consumedEvents_concat, hnotes]
    show ∀ exchange symbol, (∃ event ∈ consumedEvents calls ++ [], _) → _
    rw [List.append_nil]
    exact h.noted
  · intro key snapshot hin
    rcases RuntimeHistory.mem_foldl_append hin with hold | ⟨hnew, -⟩
    · obtain ⟨earlier, later, before, rfl, hbefore, hsame⟩ := h.held key snapshot hold
      refine ⟨earlier, later ++ [.consumeTick ⟨decision, .feature⟩], before, ?_, hbefore, hsame⟩
      rw [List.append_assoc]
      rfl
    · obtain ⟨pair, -, htick⟩ := exists_of_mem_forall₂_right hcalculated hnew
      refine ⟨calls, [], runtime, ?_, hrun, fun exchange _ => rfl⟩
      rw [htick.decisionTimestamp]

theorem Noted.consumeEvent (h : Noted engines calls runtime) (hrunning : Running engines calls runtime)
    {event : NormalizedMarketEvent} {after : FeatureRuntime F}
    (hconsumed : runtime.consumeEvent engines event = .ok after) :
    Noted engines (calls ++ [.consumeEvent event]) after := by
  obtain ⟨-, -, store, result, hingest, rfl⟩ := FeatureRuntime.consumeEvent_ok.mp hconsumed
  have hevents : consumedEvents (calls ++ [.consumeEvent event]) = consumedEvents calls ++ [event] :=
    consumedEvents_concat ..
  have hlater : ∀ snapshot : FeatureSnapshot F, ∀ reached : FeatureRuntime F,
      (∀ exchange, (∃ other ∈ consumedEvents calls, other.IsBookOf exchange snapshot.symbol) →
        reached.timeline.store.generation exchange snapshot.symbol =
          runtime.timeline.store.generation exchange snapshot.symbol) →
      OfGeneration engines calls runtime snapshot →
        OfGeneration engines (calls ++ [.consumeEvent event]) reached snapshot := by
    rintro snapshot reached hkept ⟨earlier, later, before, rfl, hbefore, hsame⟩
    refine ⟨earlier, later ++ [.consumeEvent event], before, ?_, hbefore, ?_⟩
    · rw [List.append_assoc]
      rfl
    · rintro exchange ⟨other, hother, hbook⟩
      have hin : other ∈ consumedEvents
          (earlier ++ .consumeTick ⟨snapshot.decisionTimestamp, .feature⟩ :: later) := by
        unfold consumedEvents at hother ⊢
        rw [List.filterMap_append]
        exact List.mem_append_left _ hother
      rw [hkept exchange ⟨other, hin, hbook⟩]
      exact hsame exchange ⟨other, hother, hbook⟩
  unfold FeatureRuntime.noteBook
  split_ifs with hbook
  · refine ⟨?_, ?_, ?_⟩
    · intro exchange symbol generation hnote
      change generation ∈ Function.update runtime.history.bookGenerations
        (event.base.exchange, event.base.symbol)
          (some (store.generation event.base.exchange event.base.symbol)) (exchange, symbol) at hnote
      show store.generation exchange symbol = generation
      by_cases hkey : (exchange, symbol) = (event.base.exchange, event.base.symbol)
      · rw [hkey, Function.update_self] at hnote
        obtain ⟨rfl, rfl⟩ := Prod.mk.inj hkey
        exact Option.some.inj hnote
      · rw [Function.update_of_ne hkey] at hnote
        rw [MarketStateStore.generation_ingest hingest
          fun hof => hkey (Prod.ext hof.2.1.symm hof.2.2.symm)]
        exact h.notes exchange symbol generation hnote
    · rintro exchange symbol ⟨other, hother, hof⟩
      show (Function.update runtime.history.bookGenerations (event.base.exchange, event.base.symbol)
        (some (store.generation event.base.exchange event.base.symbol)) (exchange, symbol)).isSome = true
      by_cases hkey : (exchange, symbol) = (event.base.exchange, event.base.symbol)
      · rw [hkey, Function.update_self]
        rfl
      · rw [Function.update_of_ne hkey]
        rw [hevents] at hother
        rcases List.mem_append.mp hother with hother | hother
        · exact h.noted exchange symbol ⟨other, hother, hof⟩
        · rw [List.mem_singleton.mp hother] at hof
          exact absurd (Prod.ext hof.2.1.symm hof.2.2.symm) hkey
    · intro key snapshot hin
      change snapshot ∈ (if ((runtime.history.bookGenerations (event.base.exchange, event.base.symbol)).any
        (· ≠ store.generation event.base.exchange event.base.symbol) &&
          decide (key.2.1 = event.base.symbol)) = true then [] else runtime.history.history key) at hin
      split_ifs at hin with hrebuilt
      · cases hin
      · obtain ⟨hkey, -⟩ := hrunning.held key snapshot hin
        refine hlater snapshot _ ?_ (h.held key snapshot hin)
        intro exchange hseen
        show store.generation exchange snapshot.symbol = _
        by_cases hof : event.IsBookOf exchange snapshot.symbol
        · -- its generation is the noted one, or the deque would have been dropped
          obtain ⟨-, rfl, hsymbol⟩ := hof
          obtain ⟨noted, hnoted⟩ := Option.isSome_iff_exists.mp (h.noted _ _ hseen)
          rw [h.notes _ _ noted hnoted]
          by_contra hne
          refine hrebuilt ?_
          rw [hsymbol, hnoted, ← hkey]
          show (decide (noted ≠ store.generation event.base.exchange snapshot.symbol) &&
            decide (snapshot.symbol = snapshot.symbol)) = true
          simp [Ne.symm hne]
        · exact MarketStateStore.generation_ingest hingest hof
  · have hother : ∀ exchange symbol, ¬ event.IsBookOf exchange symbol := fun exchange symbol hof => hbook hof.1
    have hsame : ∀ exchange symbol, store.generation exchange symbol =
        runtime.timeline.store.generation exchange symbol := fun exchange symbol =>
      MarketStateStore.generation_ingest hingest (hother exchange symbol)
    refine ⟨?_, ?_, ?_⟩
    · intro exchange symbol generation hnote
      exact (hsame exchange symbol).trans (h.notes exchange symbol generation hnote)
    · rintro exchange symbol ⟨other, hin, hof⟩
      rw [hevents] at hin
      rcases List.mem_append.mp hin with hin | hin
      · exact h.noted exchange symbol ⟨other, hin, hof⟩
      · rw [List.mem_singleton.mp hin] at hof
        exact absurd hof (hother exchange symbol)
    · intro key snapshot hin
      exact hlater snapshot _ (fun exchange _ => hsame exchange snapshot.symbol) (h.held key snapshot hin)

theorem Noted.new : Noted engines [] (FeatureRuntime.new engines) where
  notes := fun _ _ _ hnote => by cases hnote
  noted := fun _ _ ⟨_, hin, _⟩ => absurd hin List.not_mem_nil
  held := fun _ _ hin => absurd hin List.not_mem_nil

theorem Noted.run (hrun : FeatureRuntime.run engines calls = .ok runtime) : Noted engines calls runtime := by
  induction calls using List.reverseRecOn generalizing runtime with
  | nil =>
    obtain rfl := Except.ok.inj hrun
    exact .new
  | append_singleton calls last ih =>
    rw [FeatureRuntime.run_concat] at hrun
    obtain ⟨before, hbefore, hlast⟩ := bind_eq_ok_iff.mp hrun
    have h := ih hbefore
    have hrunning := Running.run hbefore
    cases last with
    | start =>
      unfold FeatureRuntime.perform at hlast
      dsimp only at hlast
      split_ifs at hlast
      obtain rfl := Except.ok.inj hlast
      exact h.pass rfl rfl rfl
    | close =>
      obtain rfl := Except.ok.inj hlast
      exact h.pass rfl rfl rfl
    | consumeEvent event => exact h.consumeEvent hrunning hlast
    | consumeTick tick =>
      obtain ⟨timestamp, kind⟩ := tick
      cases kind with
      | feature =>
        obtain ⟨-, singles, memory, crosses, counts, hdone, rfl⟩ :=
          FeatureRuntime.consumeTick_feature_ok.mp hlast
        exact h.featureTick hrunning hbefore hdone
      | signal =>
        have hsignal : before.consumeTick engines ⟨timestamp, .signal⟩ = .ok runtime := hlast
        obtain ⟨-, rfl⟩ := FeatureRuntime.consumeTick_signal_ok.mp hsignal
        exact h.pass rfl rfl rfl

/-- Whatever the deques of a symbol hold was calculated at an earlier tick, and each book of the symbol that
had an event by then is still of the generation that it was of. -/
theorem held_of_one_generation (hrun : FeatureRuntime.run engines calls = .ok runtime) {exchange : Exchange}
    {symbol : String} {windowSeconds : Int} {snapshot : FeatureSnapshot F}
    (hheld : snapshot ∈ runtime.history.history (exchange, symbol, windowSeconds)) :
    ∃ earlier later before,
      calls = earlier ++ .consumeTick ⟨snapshot.decisionTimestamp, .feature⟩ :: later ∧
        FeatureRuntime.run engines earlier = .ok before ∧
          ∀ venue, (∃ event ∈ consumedEvents earlier, event.IsBookOf venue symbol) →
            before.timeline.store.generation venue symbol =
              runtime.timeline.store.generation venue symbol := by
  obtain ⟨hkey, -⟩ := (Running.run hrun).held _ snapshot hheld
  have hsymbol : snapshot.symbol = symbol := (Prod.mk.inj (Prod.mk.inj hkey).2).1
  rw [← hsymbol]
  exact (Noted.run hrun).held _ snapshot hheld

/-- After a feature tick the deque of every market and window holds something. -/
theorem exists_held {decision : Int}
    (hrun : FeatureRuntime.run engines (calls ++ [.consumeTick ⟨decision, .feature⟩]) = .ok runtime)
    {pair : String × Int} (hpair : pair ∈ engines.pairs) :
    ∃ exchange snapshot, snapshot ∈ runtime.history.history (exchange, pair.1, pair.2) := by
  rw [FeatureRuntime.run_concat] at hrun
  obtain ⟨before, hbefore, hlast⟩ := bind_eq_ok_iff.mp hrun
  obtain ⟨-, singles, memory, crosses, counts, hdone, rfl⟩ :=
    FeatureRuntime.consumeTick_feature_ok.mp hlast
  obtain ⟨snapshot, hcandidate, -⟩ :=
    (Running.run hbefore).exists_candidate hdone (.inl rfl) hpair
  rcases RuntimeHistory.mem_candidates.mp hcandidate with hin | hin
  · exact ⟨.binance, snapshot, hin⟩
  · exact ⟨.okx, snapshot, hin⟩

end

theorem held_of_one_generation_book : ∃ runtime exchange snapshot earlier later before,
    FeatureRuntime.run exampleRuntimeEngines (timelineCalls exampleRuntimeTimeline) = .ok runtime ∧
      snapshot ∈ runtime.history.history (exchange, "BTC-USDT-PERP", 5) ∧
        timelineCalls exampleRuntimeTimeline =
          earlier ++ .consumeTick ⟨snapshot.decisionTimestamp, .feature⟩ :: later ∧
        FeatureRuntime.run exampleRuntimeEngines earlier = .ok before := by
  obtain ⟨runtime, hrun⟩ := exampleRuntimeTimeline_run
  obtain ⟨exchange, snapshot, hheld⟩ := exists_held
    (show FeatureRuntime.run exampleRuntimeEngines
      (timelineCalls (exampleRuntimeTimeline.take 4) ++ [.consumeTick ⟨9000000, .feature⟩]) =
        .ok runtime from hrun)
    (show ("BTC-USDT-PERP", 5) ∈ exampleRuntimeEngines.pairs from List.mem_cons_self)
  obtain ⟨earlier, later, before, hcalls, hbefore, -⟩ := held_of_one_generation hrun hheld
  exact ⟨runtime, exchange, snapshot, earlier, later, before, hrun, hheld, hcalls, hbefore⟩

end Cvf
