/-
# Cvf.Pipeline.Delivery — every consumer handles each event once, and `drain` is a barrier.

The invariant ties a queue to the publish calls: what has entered a consumer's queue is, in order, what
the consumer has handled, is handling and has still to take, and the calls whose event has entered are
exactly those that have walked past the consumer or whose put on its queue is done.  A join returns at a
moment when the queue has nothing unfinished; every call that had returned when the drain started has
entered that queue by then, hence has been handled.

A step that hands events to queues is a `FeedStep`: one call advances past some consumers, whose queues
take its event, and nothing else changes but the parked putters.
-/
import Cvf.Pipeline.EventBus

namespace Cvf

open Cvf.Library

variable {ι E : Type*}

/-- The call's event has entered the queue of the consumer. -/
def PublishCall.Entered (call : PublishCall ι E) (name : ι) : Prop :=
  name ∉ call.remaining ∨ (call.remaining.head? = some name ∧ call.put = .done)

/-- Two states of a consumer that differ at most in the parked putters. -/
structure ConsumerRuntime.Alike (c c' : ConsumerRuntime E) : Prop where
  items : c'.queue.items = c.queue.items
  unfinishedTasks : c'.unfinishedTasks = c.unfinishedTasks
  handling : c'.handling = c.handling
  handled : c'.handled = c.handled
  entered : c'.entered = c.entered

theorem ConsumerRuntime.Alike.refl (c : ConsumerRuntime E) : c.Alike c := ⟨rfl, rfl, rfl, rfl, rfl⟩

/-- The items the handler has been called with. -/
def ConsumerRuntime.invoked (c : ConsumerRuntime E) : List (BusItem E) :=
  c.handled ++ c.handling.toList

/-- The queue has taken one item. -/
structure ConsumerRuntime.Fed (item : BusItem E) (c c' : ConsumerRuntime E) : Prop where
  items : c'.queue.items = c.queue.items ++ [item]
  unfinishedTasks : c'.unfinishedTasks = c.unfinishedTasks + 1
  handling : c'.handling = c.handling
  handled : c'.handled = c.handled
  entered : c'.entered = c.entered ++ [item]

theorem ConsumerRuntime.fed_putNowait (c : ConsumerRuntime E) (item : BusItem E)
    (h : c.queue.full = false) : c.Fed item (c.putNowait item h) := ⟨rfl, rfl, rfl, rfl, rfl⟩

theorem JoinPhase.run_done {phase : JoinPhase} {unfinishedTasks : Nat}
    (h : phase.run unfinishedTasks = .done) : phase = .done ∨ unfinishedTasks = 0 := by
  unfold JoinPhase.run at h
  split at h
  · split_ifs at h with hzero
    exact Or.inr hzero
  · exact Or.inl h

theorem JoinPhase.release_done {phase : JoinPhase} {unfinishedTasks : Nat}
    (h : phase.release unfinishedTasks = .done) : phase = .done ∨ unfinishedTasks = 0 := by
  unfold JoinPhase.release at h
  split_ifs at h with hboth
  · exact Or.inr hboth.2
  · exact Or.inl h

namespace NormalizedEventBus

def HasEntered (bus : NormalizedEventBus ι E) (id : Nat) (name : ι) : Prop :=
  ∃ call, bus.calls id = some call ∧ call.Entered name

/-! ## The invariant -/

structure ConsumerOk (bus : NormalizedEventBus ι E) (name : ι) : Prop where
  /-- First in, first out. -/
  log : (bus.consumers name).entered = (bus.consumers name).handled ++
    ((bus.consumers name).handling.toList ++ (bus.consumers name).queue.items)
  unfinished : (bus.consumers name).unfinishedTasks =
    (bus.consumers name).handling.toList.length + (bus.consumers name).queue.items.length
  nodup : ((bus.consumers name).entered.map BusItem.call).Nodup
  entered_iff : ∀ id, id ∈ (bus.consumers name).entered.map BusItem.call ↔ bus.HasEntered id name
  event : ∀ item ∈ (bus.consumers name).entered,
    ∃ call, bus.calls item.call = some call ∧ call.event = item.event

structure DrainOk (bus : NormalizedEventBus ι E) (drain : DrainCall ι) : Prop where
  before : ∀ id ∈ drain.before, ∃ call, bus.calls id = some call ∧ call.remaining = []
  joined : ∀ name ∈ bus.names, drain.joins name = .done →
    ∀ id ∈ drain.before, id ∈ (bus.consumers name).handled.map BusItem.call
  returned : drain.returned = true → ∀ name ∈ bus.names, drain.joins name = .done

structure Delivering (bus : NormalizedEventBus ι E) : Prop where
  consumers : ∀ name ∈ bus.names, bus.ConsumerOk name
  /-- A call walks the consumers in order. -/
  suffix : ∀ id call, bus.calls id = some call → call.remaining <:+ bus.names
  drains : ∀ d drain, bus.drains d = some drain → bus.DrainOk drain

/-! ## Steps that hand events to queues -/

/-- The call `id`, now `call`, has walked past the consumers `fed`. -/
structure FeedStep (bus bus' : NormalizedEventBus ι E) (id : Nat) (call : PublishCall ι E)
    (fed : List ι) : Prop where
  names : bus'.names = bus.names
  drains : bus'.drains = bus.drains
  calls : bus'.calls = Function.update bus.calls id (some call)
  suffix : call.remaining <:+ bus.names
  entered_iff : ∀ name ∈ bus.names, call.Entered name ↔ bus.HasEntered id name ∨ name ∈ fed
  fresh : ∀ name ∈ fed, ¬ bus.HasEntered id name
  kept : ∀ old, bus.calls id = some old →
    old.event = call.event ∧ (old.remaining = [] → call.remaining = [])
  fedTo : ∀ name ∈ fed,
    (bus.consumers name).Fed { call := id, event := call.event } (bus'.consumers name)
  alike : ∀ name, name ∉ fed → (bus.consumers name).Alike (bus'.consumers name)

namespace FeedStep

variable {bus bus' : NormalizedEventBus ι E} {id : Nat} {call : PublishCall ι E} {fed : List ι}

theorem calls_self (hs : FeedStep bus bus' id call fed) : bus'.calls id = some call := by
  rw [hs.calls, Function.update_self]

theorem calls_of_ne (hs : FeedStep bus bus' id call fed) {other : Nat} (h : other ≠ id) :
    bus'.calls other = bus.calls other := by
  rw [hs.calls, Function.update_of_ne h]

theorem hasEntered_iff (hs : FeedStep bus bus' id call fed) {name : ι} (hname : name ∈ bus.names)
    (other : Nat) :
    bus'.HasEntered other name ↔ bus.HasEntered other name ∨ (other = id ∧ name ∈ fed) := by
  unfold HasEntered
  by_cases h : other = id
  · subst h
    rw [hs.calls_self]
    have hiff := hs.entered_iff name hname
    unfold HasEntered at hiff
    simp only [Option.some.injEq, exists_eq_left', true_and]
    exact hiff
  · rw [hs.calls_of_ne h]
    simp [h]

theorem handled (hs : FeedStep bus bus' id call fed) (name : ι) :
    (bus'.consumers name).handled = (bus.consumers name).handled := by
  by_cases h : name ∈ fed
  · exact (hs.fedTo name h).handled
  · exact (hs.alike name h).handled

theorem consumerOk (hs : FeedStep bus bus' id call fed) {name : ι} (hname : name ∈ bus.names)
    (h : bus.ConsumerOk name) : bus'.ConsumerOk name := by
  have hevent : ∀ item ∈ (bus.consumers name).entered,
      ∃ c, bus'.calls item.call = some c ∧ c.event = item.event := by
    intro item hitem
    obtain ⟨c, hc, hevent⟩ := h.event item hitem
    by_cases hid : item.call = id
    · refine ⟨call, by rw [hid, hs.calls_self], ?_⟩
      rw [← (hs.kept c (hid ▸ hc)).1, hevent]
    · exact ⟨c, by rw [hs.calls_of_ne hid, hc], hevent⟩
  by_cases hfed : name ∈ fed
  · obtain ⟨hitems, hunfinished, hhandling, hhandled, hentered⟩ := hs.fedTo name hfed
    refine ⟨?_, ?_, ?_, ?_, ?_⟩
    · rw [hentered, h.log, hhandled, hhandling, hitems]
      simp
    · rw [hunfinished, h.unfinished, hhandling, hitems, List.length_append]
      rfl
    · have hnot : id ∉ (bus.consumers name).entered.map BusItem.call := by
        rw [h.entered_iff]
        exact hs.fresh name hfed
      rw [hentered, List.map_append]
      apply h.nodup.append (by simp)
      simpa [List.disjoint_right] using hnot
    · intro other
      rw [hs.hasEntered_iff hname, hentered, List.map_append, List.mem_append, h.entered_iff]
      simp [hfed]
    · intro item hitem
      rw [hentered, List.mem_append, List.mem_singleton] at hitem
      rcases hitem with hitem | rfl
      · exact hevent item hitem
      · exact ⟨call, hs.calls_self, rfl⟩
  · obtain ⟨hitems, hunfinished, hhandling, hhandled, hentered⟩ := hs.alike name hfed
    refine ⟨?_, ?_, ?_, ?_, ?_⟩
    · rw [hentered, h.log, hhandled, hhandling, hitems]
    · rw [hunfinished, h.unfinished, hhandling, hitems]
    · rw [hentered]
      exact h.nodup
    · intro other
      rw [hs.hasEntered_iff hname, hentered, h.entered_iff]
      simp [hfed]
    · rw [hentered]
      exact hevent

theorem delivering (hs : FeedStep bus bus' id call fed) (h : bus.Delivering) : bus'.Delivering := by
  have hcalls : ∀ other c, bus.calls other = some c → c.remaining = [] →
      ∃ c', bus'.calls other = some c' ∧ c'.remaining = [] := by
    intro other c hc hreturned
    by_cases hid : other = id
    · exact ⟨call, by rw [hid, hs.calls_self], (hs.kept c (hid ▸ hc)).2 hreturned⟩
    · exact ⟨c, by rw [hs.calls_of_ne hid, hc], hreturned⟩
  refine ⟨?_, ?_, ?_⟩
  · intro name hname
    rw [hs.names] at hname
    exact hs.consumerOk hname (h.consumers name hname)
  · intro other c hc
    rw [hs.names]
    by_cases hid : other = id
    · rw [hid, hs.calls_self] at hc
      rw [← Option.some.inj hc]
      exact hs.suffix
    · rw [hs.calls_of_ne hid] at hc
      exact h.suffix other c hc
  · intro d drain hdrain
    rw [hs.drains] at hdrain
    obtain ⟨hbefore, hjoined, hreturned⟩ := h.drains d drain hdrain
    refine ⟨?_, ?_, ?_⟩
    · intro other hother
      obtain ⟨c, hc, hempty⟩ := hbefore other hother
      exact hcalls other c hc hempty
    · intro name hname hdone other hother
      rw [hs.names] at hname
      rw [hs.handled]
      exact hjoined name hname hdone other hother
    · rw [hs.names]
      exact hreturned

end FeedStep

/-! ## The walk over the consumers -/

/-- The consumers a walk reaches: those it passes and the full one it stops at. -/
def reached (bus : NormalizedEventBus ι E) : List ι → List ι
  | [] => []
  | name :: names =>
    if (bus.consumers name).queue.full = false then name :: bus.reached names else [name]

/-- What a walk over `names` leaves behind: it has passed the consumers `passed` and waits for the
first of `rest`. -/
structure Walked (bus bus' : NormalizedEventBus ι E) (id : Nat) (event : E) (names passed rest : List ι)
    (put : PutPhase) : Prop where
  names_eq : names = passed ++ rest
  put_eq : rest = [] ∨ put = .created
  reached : bus.reached names = passed ++ rest.head?.toList
  names : bus'.names = bus.names
  drains : bus'.drains = bus.drains
  started : bus'.started = bus.started
  calls : bus'.calls = Function.update bus.calls id (some { event, remaining := rest, put })
  fedTo : ∀ name ∈ passed, (bus.consumers name).Fed { call := id, event } (bus'.consumers name)
  kept : ∀ name, name ∉ passed → bus'.consumers name = bus.consumers name

theorem reached_congr {bus bus' : NormalizedEventBus ι E} {names : List ι}
    (h : ∀ name ∈ names, bus'.consumers name = bus.consumers name) :
    bus'.reached names = bus.reached names := by
  induction names with
  | nil => rfl
  | cons name names ih =>
      simp only [reached, h name (by simp), ih fun n hn => h n (by simp [hn])]

/-- A change of the put of one call that is not done before nor after. -/
theorem feedStep_of_put {bus bus' : NormalizedEventBus ι E} (h : bus.Delivering) {id : Nat}
    {event : E} {remaining : List ι} {old put : PutPhase}
    (hid : bus.calls id = some { event, remaining, put := old }) (hold : old ≠ .done)
    (hput : put ≠ .done) (hnames : bus'.names = bus.names) (hdrains : bus'.drains = bus.drains)
    (hcalls : bus'.calls = Function.update bus.calls id (some { event, remaining, put }))
    (halike : ∀ name, (bus.consumers name).Alike (bus'.consumers name)) :
    FeedStep bus bus' id { event, remaining, put } [] := by
  have hsuffix : remaining <:+ bus.names := h.suffix id _ hid
  refine ⟨hnames, hdrains, hcalls, hsuffix, ?_, by simp, ?_, by simp, fun name _ => halike name⟩
  · intro name _
    simp [HasEntered, PublishCall.Entered, hid, hold, hput]
  · intro c hc
    rw [hid] at hc
    obtain rfl := Option.some.inj hc
    exact ⟨rfl, fun hr => hr⟩

theorem wake_delivering {bus : NormalizedEventBus ι E} (h : bus.Delivering) (woken : Option Nat) :
    (bus.wake woken).Delivering := by
  cases woken with
  | none => exact h
  | some id =>
      simp only [wake]
      split
      · rename_i event remaining hid
        have hs : FeedStep bus (bus.setCall id { event, remaining, put := .woken }) id
            { event, remaining, put := .woken } [] :=
          feedStep_of_put h hid (by simp) (by simp) rfl rfl rfl
            fun name => ConsumerRuntime.Alike.refl _
        exact hs.delivering h
      · exact h

/-- With nothing unfinished in its queue, a consumer has handled the event of every returned call. -/
theorem handled_of_finished {bus : NormalizedEventBus ι E} (h : bus.Delivering) {name : ι}
    (hname : name ∈ bus.names) (hzero : (bus.consumers name).unfinishedTasks = 0) {id : Nat}
    (hid : ∃ call, bus.calls id = some call ∧ call.remaining = []) :
    id ∈ (bus.consumers name).handled.map BusItem.call := by
  obtain ⟨call, hcall, hreturned⟩ := hid
  obtain ⟨hlog, hunfinished, -, hiff, -⟩ := h.consumers name hname
  have hentered : id ∈ (bus.consumers name).entered.map BusItem.call := by
    rw [hiff]
    exact ⟨call, hcall, Or.inl (by simp [hreturned])⟩
  rw [hzero] at hunfinished
  have hhandling : (bus.consumers name).handling.toList = [] :=
    List.length_eq_zero_iff.mp (by omega)
  have hitems : (bus.consumers name).queue.items = [] := List.length_eq_zero_iff.mp (by omega)
  rw [hlog, hhandling, hitems] at hentered
  simpa using hentered

theorem Delivering.setDrains {bus : NormalizedEventBus ι E} (h : bus.Delivering)
    {drains : Nat → Option (DrainCall ι)}
    (hdrains : ∀ d drain, drains d = some drain → bus.DrainOk drain) :
    Delivering { bus with drains } := by
  refine ⟨?_, h.suffix, ?_⟩
  · intro name hname
    obtain ⟨hlog, hunfinished, hnodup, hiff, hevent⟩ := h.consumers name hname
    exact ⟨hlog, hunfinished, hnodup, hiff, hevent⟩
  · intro d drain hdrain
    obtain ⟨hbefore, hjoined, hreturned⟩ := hdrains d drain hdrain
    exact ⟨hbefore, hjoined, hreturned⟩

theorem new_delivering (registered : Registration ι) :
    (new registered : NormalizedEventBus ι E).Delivering := by
  refine ⟨?_, ?_, ?_⟩
  · intro name _
    refine ⟨rfl, rfl, List.nodup_nil, ?_, ?_⟩
    · intro id
      simp [new, HasEntered]
    · intro item hitem
      cases hitem
  · intro id call hid
    cases hid
  · intro d drain hdrain
    cases hdrain

variable [DecidableEq ι]

theorem offer_walked (id : Nat) (event : E) {names : List ι} (hnodup : names.Nodup)
    (bus : NormalizedEventBus ι E) :
    ∃ passed rest put, Walked bus (bus.offer id event names) id event names passed rest put := by
  induction names generalizing bus with
  | nil =>
      exact ⟨[], [], .done, rfl, Or.inl rfl, rfl, rfl, rfl, rfl, rfl, by simp, fun _ _ => rfl⟩
  | cons name names ih =>
      obtain ⟨hnot, hrest⟩ := List.nodup_cons.mp hnodup
      unfold offer
      split_ifs with hfull
      · set next := bus.setConsumer name
          ((bus.consumers name).putNowait { call := id, event } hfull) with hnext
        have hself : next.consumers name =
            (bus.consumers name).putNowait { call := id, event } hfull := by
          simp [hnext, setConsumer]
        have hother : ∀ n, n ≠ name → next.consumers n = bus.consumers n := by
          intro n hn
          simp [hnext, setConsumer, hn]
        have hothers : ∀ n ∈ names, next.consumers n = bus.consumers n := by
          intro n hn
          apply hother
          rintro rfl
          exact hnot hn
        obtain ⟨passed, rest, put, hw⟩ := ih hrest next
        have hsub : ∀ n ∈ passed, n ∈ names := by
          intro n hn
          rw [hw.names_eq]
          exact List.mem_append_left rest hn
        refine ⟨name :: passed, rest, put, ?_, hw.put_eq, ?_, hw.names, hw.drains, hw.started,
          hw.calls, ?_, ?_⟩
        · rw [List.cons_append, ← hw.names_eq]
        · rw [reached, if_pos hfull, ← reached_congr hothers, hw.reached, List.cons_append]
        · intro n hn
          rcases List.mem_cons.mp hn with rfl | hn
          · have hnotPassed : n ∉ passed := fun h => hnot (hsub n h)
            rw [hw.kept n hnotPassed, hself]
            exact (bus.consumers n).fed_putNowait _ hfull
          · have hfed := hw.fedTo n hn
            rw [hothers n (hsub n hn)] at hfed
            exact hfed
        · intro n hn
          rw [List.mem_cons, not_or] at hn
          rw [hw.kept n hn.2, hother n hn.1]
      · refine ⟨[], name :: names, .created, rfl, Or.inr rfl, ?_, rfl, rfl, rfl, rfl, by simp,
          fun _ _ => rfl⟩
        rw [reached, if_neg hfull]
        rfl

/-- A walk that starts after what the call has entered is a feed step. -/
theorem Walked.feedStep {bus bus' : NormalizedEventBus ι E} {id : Nat} {event : E}
    {names passed rest : List ι} {put : PutPhase}
    (hw : Walked bus bus' id event names passed rest put) (hsuffix : names <:+ bus.names)
    (hentered : ∀ name ∈ bus.names, bus.HasEntered id name ↔ name ∉ names)
    (hkept : ∀ old, bus.calls id = some old → old.event = event ∧ old.remaining ≠ []) :
    FeedStep bus bus' id { event, remaining := rest, put } passed := by
  have hnodup : (passed ++ rest).Nodup := hw.names_eq ▸ hsuffix.nodup bus.names_nodup
  have hmem : ∀ name ∈ passed, name ∈ bus.names := by
    intro name hname
    apply hsuffix.subset
    rw [hw.names_eq]
    exact List.mem_append_left rest hname
  have hdisjoint := List.disjoint_of_nodup_append hnodup
  refine ⟨hw.names, hw.drains, hw.calls, ?_, ?_, ?_, ?_, hw.fedTo, ?_⟩
  · exact (hw.names_eq ▸ List.suffix_append passed rest : rest <:+ names).trans hsuffix
  · intro name hname
    have hhead : ¬ (rest.head? = some name ∧ put = .done) := by
      rintro ⟨hhead, hdone⟩
      rcases hw.put_eq with hnil | hcreated
      · rw [hnil] at hhead
        cases hhead
      · rw [hcreated] at hdone
        cases hdone
    rw [hentered name hname, hw.names_eq, List.mem_append]
    unfold PublishCall.Entered
    by_cases hpassed : name ∈ passed
    · have hrest : name ∉ rest := fun h => hdisjoint hpassed h
      simp [hpassed, hrest]
    · simp [hpassed, hhead]
  · intro name hname
    rw [hentered name (hmem name hname), hw.names_eq]
    simp [hname]
  · intro old hold
    obtain ⟨hevent, hremaining⟩ := hkept old hold
    exact ⟨hevent, fun h => absurd h hremaining⟩
  · intro name hname
    rw [hw.kept name hname]
    exact ConsumerRuntime.Alike.refl _

theorem publish_walked {bus : NormalizedEventBus ι E} {id : Nat} (hid : bus.calls id = none)
    (event : E) :
    ∃ passed rest put, Walked { bus with started := bus.started ++ [id] }
      (bus.step (.publish id event)) id event bus.names passed rest put := by
  simp only [step, hid]
  exact offer_walked id event bus.names_nodup _

theorem publish_feedStep {bus : NormalizedEventBus ι E} {id : Nat} (hid : bus.calls id = none)
    {event : E} {passed rest : List ι} {put : PutPhase}
    (hw : Walked { bus with started := bus.started ++ [id] } (bus.step (.publish id event)) id event
      bus.names passed rest put) :
    FeedStep bus (bus.step (.publish id event)) id { event, remaining := rest, put } passed := by
  have hs := hw.feedStep (List.suffix_refl _)
    (by
      intro name hname
      simp [HasEntered, hid, hname])
    (by
      intro old hold
      rw [hid] at hold
      cases hold)
  exact ⟨hs.names, hs.drains, hs.calls, hs.suffix, hs.entered_iff, hs.fresh, hs.kept, hs.fedTo,
    hs.alike⟩

theorem resumePublish_walked {bus : NormalizedEventBus ι E} (h : bus.Delivering) {id : Nat}
    {event : E} {name : ι} {names : List ι}
    (hid : bus.calls id = some { event, remaining := name :: names, put := .done }) :
    ∃ passed rest put, Walked bus (bus.step (.resumePublish id)) id event names passed rest put := by
  simp only [step, hid]
  apply offer_walked
  have hsuffix : (name :: names) <:+ bus.names := h.suffix id _ hid
  exact (List.nodup_cons.mp (hsuffix.nodup bus.names_nodup)).2

theorem resumePublish_feedStep {bus bus' : NormalizedEventBus ι E} (h : bus.Delivering) {id : Nat}
    {event : E} {name : ι} {names passed rest : List ι} {put : PutPhase}
    (hid : bus.calls id = some { event, remaining := name :: names, put := .done })
    (hw : Walked bus bus' id event names passed rest put) :
    FeedStep bus bus' id { event, remaining := rest, put } passed := by
  have hsuffix : (name :: names) <:+ bus.names := h.suffix id _ hid
  have hnot := (List.nodup_cons.mp (hsuffix.nodup bus.names_nodup)).1
  apply hw.feedStep ((List.suffix_cons name names).trans hsuffix)
  · intro n _
    unfold HasEntered PublishCall.Entered
    simp only [hid, Option.some.injEq, exists_eq_left', List.mem_cons, not_or, List.head?_cons]
    constructor
    · rintro (⟨-, hn⟩ | ⟨rfl, -⟩)
      · exact hn
      · exact hnot
    · intro hn
      by_cases hne : n = name
      · exact Or.inr ⟨hne.symm, trivial⟩
      · exact Or.inl ⟨hne, hn⟩
  · intro old hold
    rw [hid] at hold
    obtain rfl := Option.some.inj hold
    exact ⟨rfl, by simp⟩

theorem alike_setConsumer {bus : NormalizedEventBus ι E} {name : ι} {runtime : ConsumerRuntime E}
    (h : (bus.consumers name).Alike runtime) (n : ι) :
    (bus.consumers n).Alike ((bus.setConsumer name runtime).consumers n) := by
  by_cases hn : n = name
  · subst hn
    simpa [setConsumer] using h
  · simp only [setConsumer, Function.update_of_ne hn]
    exact ConsumerRuntime.Alike.refl _

/-- The put of a blocked call: it puts its event on the queue, or parks, or is not ready. -/
theorem runPut_cases {bus : NormalizedEventBus ι E} (h : bus.Delivering) {id : Nat} {event : E}
    {name : ι} {names : List ι} {put : PutPhase}
    (hid : bus.calls id = some { event, remaining := name :: names, put }) :
    bus.step (.runPut id) = bus ∨
      FeedStep bus (bus.step (.runPut id)) id { event, remaining := name :: names, put := .waiting }
        [] ∨
      (FeedStep bus (bus.step (.runPut id)) id { event, remaining := name :: names, put := .done }
        [name] ∧ put ≠ .done) := by
  have hsuffix : (name :: names) <:+ bus.names := h.suffix id _ hid
  have hnot := (List.nodup_cons.mp (hsuffix.nodup bus.names_nodup)).1
  have hready : put = .waiting ∨ put = .done ∨ put ≠ .waiting ∧ put ≠ .done := by
    cases put <;> simp
  simp only [step, hid]
  rcases hready with rfl | rfl | ⟨hwaiting, hdone⟩
  · exact Or.inl rfl
  · exact Or.inl rfl
  right
  have hrun : bus.runPut id { event, remaining := name :: names, put } name =
      if h : (bus.consumers name).queue.full = false then
        (bus.setConsumer name
          ((bus.consumers name).putNowait { call := id, event } h)).setCall id
            { event, remaining := name :: names, put := .done }
      else
        (bus.setConsumer name
          { bus.consumers name with queue := (bus.consumers name).queue.park id }).setCall id
            { event, remaining := name :: names, put := .waiting } := by
    cases put with
    | created => rfl
    | woken => rfl
    | waiting => exact absurd rfl hwaiting
    | done => exact absurd rfl hdone
  rw [hrun]
  split_ifs with hfull
  · right
    refine ⟨⟨rfl, rfl, rfl, hsuffix, ?_, ?_, ?_, ?_, ?_⟩, hdone⟩
    · intro n _
      simp only [HasEntered, PublishCall.Entered, hid, Option.some.injEq, exists_eq_left',
        List.head?_cons, List.mem_cons, not_or, List.not_mem_nil, or_false, hdone, and_false,
        and_true]
      exact or_congr_right eq_comm
    · intro n hn
      rw [List.mem_singleton] at hn
      subst hn
      simp [HasEntered, PublishCall.Entered, hid, hdone]
    · intro c hc
      rw [hid] at hc
      obtain rfl := Option.some.inj hc
      exact ⟨rfl, fun hr => hr⟩
    · intro n hn
      rw [List.mem_singleton] at hn
      subst hn
      simp only [setCall, setConsumer, Function.update_self]
      exact (bus.consumers n).fed_putNowait _ hfull
    · intro n hn
      rw [List.mem_singleton] at hn
      simp only [setCall, setConsumer, Function.update_of_ne hn]
      exact ConsumerRuntime.Alike.refl _
  · left
    exact feedStep_of_put h hid hdone (by simp) rfl rfl rfl
      (alike_setConsumer ⟨rfl, rfl, rfl, rfl, rfl⟩)

/-! ## The consumers' turns -/

/-- A consumer moves items along its own log. -/
theorem setConsumer_delivering {bus : NormalizedEventBus ι E} (h : bus.Delivering) {name : ι}
    {runtime : ConsumerRuntime E} (hentered : runtime.entered = (bus.consumers name).entered)
    (hlog : name ∈ bus.names → runtime.entered =
      runtime.handled ++ (runtime.handling.toList ++ runtime.queue.items))
    (hunfinished : name ∈ bus.names → runtime.unfinishedTasks =
      runtime.handling.toList.length + runtime.queue.items.length)
    (hhandled : ∀ id ∈ (bus.consumers name).handled.map BusItem.call,
      id ∈ runtime.handled.map BusItem.call) :
    (bus.setConsumer name runtime).Delivering := by
  have hself : (bus.setConsumer name runtime).consumers name = runtime := by
    simp [setConsumer]
  have hother : ∀ n, n ≠ name → (bus.setConsumer name runtime).consumers n = bus.consumers n := by
    intro n hn
    simp [setConsumer, hn]
  refine ⟨?_, h.suffix, ?_⟩
  · intro n hn
    obtain ⟨hoklog, hokunfinished, hnodup, hiff, hevent⟩ := h.consumers n hn
    by_cases hne : n = name
    · subst hne
      refine ⟨?_, ?_, ?_, ?_, ?_⟩
      · rw [hself]
        exact hlog hn
      · rw [hself]
        exact hunfinished hn
      · rw [hself, hentered]
        exact hnodup
      · rw [hself, hentered]
        exact hiff
      · rw [hself, hentered]
        exact hevent
    · refine ⟨?_, ?_, ?_, ?_, ?_⟩ <;> rw [hother n hne]
      · exact hoklog
      · exact hokunfinished
      · exact hnodup
      · exact hiff
      · exact hevent
  · intro d drain hdrain
    obtain ⟨hbefore, hjoined, hreturned⟩ := h.drains d drain hdrain
    refine ⟨hbefore, ?_, hreturned⟩
    intro n hn hdone id hid
    have hmem := hjoined n hn hdone id hid
    by_cases hne : n = name
    · subst hne
      rw [hself]
      exact hhandled id hmem
    · rw [hother n hne]
      exact hmem

theorem take_delivering {bus : NormalizedEventBus ι E} (h : bus.Delivering) {name : ι}
    {woken : Option Nat} {runtime : ConsumerRuntime E}
    (htake : (bus.consumers name).take = some (woken, runtime)) :
    (bus.setConsumer name runtime).Delivering := by
  unfold ConsumerRuntime.take at htake
  split at htake
  · rename_i item woken' queue hhandling hget
    obtain ⟨rfl, rfl⟩ := Prod.mk.inj (Option.some.inj htake)
    have hitems := AsyncQueue.items_of_getNowait hget
    apply setConsumer_delivering h
    · rfl
    · intro hname
      show (bus.consumers name).entered = (bus.consumers name).handled ++ ([item] ++ queue.items)
      rw [(h.consumers name hname).log, hhandling, hitems]
      rfl
    · intro hname
      show (bus.consumers name).unfinishedTasks = 1 + queue.items.length
      rw [(h.consumers name hname).unfinished, hhandling, hitems, List.length_cons]
      simp only [Option.toList_none, List.length_nil]
      omega
    · exact fun id hid => hid
  · cases htake

theorem finishHandling_delivering {bus : NormalizedEventBus ι E} (h : bus.Delivering) (name : ι) :
    (bus.setConsumer name (bus.consumers name).finishHandling).Delivering := by
  unfold ConsumerRuntime.finishHandling
  split
  · rename_i hhandling
    exact setConsumer_delivering h rfl (fun hname => (h.consumers name hname).log)
      (fun hname => (h.consumers name hname).unfinished) fun id hid => hid
  · rename_i item hhandling
    apply setConsumer_delivering h
    · rfl
    · intro hname
      show (bus.consumers name).entered =
        ((bus.consumers name).handled ++ [item]) ++ ([] ++ (bus.consumers name).queue.items)
      rw [(h.consumers name hname).log, hhandling]
      simp
    · intro hname
      show (bus.consumers name).unfinishedTasks - 1 = 0 + (bus.consumers name).queue.items.length
      rw [(h.consumers name hname).unfinished, hhandling]
      simp only [Option.toList_some, List.length_singleton]
      omega
    · intro id hid
      rw [List.map_append]
      exact List.mem_append_left _ hid

/-! ## Joins -/

/-- A join may be reported done when the queue has nothing unfinished. -/
theorem DrainOk.setJoin {bus : NormalizedEventBus ι E} (h : bus.Delivering) {drain : DrainCall ι}
    (hdrain : bus.DrainOk drain) {name : ι} {phase : JoinPhase}
    (hphase : phase = .done → drain.joins name = .done ∨ (bus.consumers name).unfinishedTasks = 0)
    (hdone : drain.joins name = .done → phase = .done) :
    bus.DrainOk { drain with joins := Function.update drain.joins name phase } := by
  obtain ⟨hbefore, hjoined, hreturned⟩ := hdrain
  refine ⟨hbefore, ?_, ?_⟩
  · intro n hn hn' id hid
    by_cases hne : n = name
    · subst hne
      simp only [Function.update_self] at hn'
      rcases hphase hn' with hold | hzero
      · exact hjoined n hn hold id hid
      · exact handled_of_finished h hn hzero (hbefore id hid)
    · simp only [Function.update_of_ne hne] at hn'
      exact hjoined n hn hn' id hid
  · intro hret n hn
    have hold := hreturned hret n hn
    by_cases hne : n = name
    · subst hne
      simpa using hdone hold
    · simpa [Function.update_of_ne hne] using hold

/-! ## Every run -/

/-- The step lemma. -/
theorem step_delivering {bus : NormalizedEventBus ι E} (h : bus.Delivering) (input : BusInput ι E) :
    (bus.step input).Delivering := by
  cases input with
  | publish id event =>
      cases hid : bus.calls id with
      | some call =>
          have hsame : bus.step (.publish id event) = bus := by simp only [step, hid]
          rw [hsame]
          exact h
      | none =>
          obtain ⟨passed, rest, put, hw⟩ := publish_walked hid event
          exact (publish_feedStep hid hw).delivering h
  | runPut id =>
      have hother : (∀ event name names put,
          bus.calls id ≠ some { event, remaining := name :: names, put }) →
          bus.step (.runPut id) = bus := by
        intro hnone
        simp only [step]
      by_cases hid : ∃ event name names put,
          bus.calls id = some { event, remaining := name :: names, put }
      · obtain ⟨event, name, names, put, hid⟩ := hid
        rcases runPut_cases h hid with hsame | hs | ⟨hs, -⟩
        · rw [hsame]
          exact h
        · exact hs.delivering h
        · exact hs.delivering h
      · rw [hother fun event name names put hcall => hid ⟨event, name, names, put, hcall⟩]
        exact h
  | resumePublish id =>
      by_cases hid : ∃ event name names,
          bus.calls id = some { event, remaining := name :: names, put := .done }
      · obtain ⟨event, name, names, hid⟩ := hid
        obtain ⟨passed, rest, put, hw⟩ := resumePublish_walked h hid
        exact (resumePublish_feedStep h hid hw).delivering h
      · have hsame : bus.step (.resumePublish id) = bus := by
          simp only [step]
          split
          · rename_i hcall
            exact absurd ⟨_, _, _, hcall⟩ hid
          · rfl
        rw [hsame]
        exact h
  | take name =>
      simp only [step]
      split
      · exact h
      · rename_i htake
        exact wake_delivering (take_delivering h htake) _
  | finishHandling name =>
      have hfinished := finishHandling_delivering h name
      apply hfinished.setDrains
      intro d drain hdrain
      simp only [Option.map_eq_some_iff] at hdrain
      obtain ⟨old, hold, rfl⟩ := hdrain
      apply DrainOk.setJoin hfinished (hfinished.drains d old hold)
      · intro hdone
        rcases JoinPhase.release_done hdone with hdone | hzero
        · exact Or.inl hdone
        · right
          simpa [setConsumer] using hzero
      · intro hdone
        simp [JoinPhase.release, hdone]
  | drain d =>
      simp only [step]
      split
      · exact h
      · apply h.setDrains
        intro d' drain hdrain
        by_cases hd : d' = d
        · rw [hd, Function.update_self] at hdrain
          obtain rfl := Option.some.inj hdrain
          refine ⟨?_, by simp, by simp⟩
          intro id hid
          have hreturned := (List.mem_filter.mp hid).2
          unfold callReturned at hreturned
          split at hreturned
          · rename_i call hcall
            exact ⟨call, hcall, by simpa using hreturned⟩
          · cases hreturned
        · rw [Function.update_of_ne hd] at hdrain
          exact h.drains d' drain hdrain
  | runJoin d name =>
      apply h.setDrains
      intro d' drain hdrain
      by_cases hd : d' = d
      · rw [hd, Function.update_self, Option.map_eq_some_iff] at hdrain
        obtain ⟨old, hold, rfl⟩ := hdrain
        apply DrainOk.setJoin h (h.drains d old hold)
        · exact fun hdone => JoinPhase.run_done hdone
        · intro hdone
          simp [JoinPhase.run, hdone]
      · rw [Function.update_of_ne hd] at hdrain
        exact h.drains d' drain hdrain
  | returnDrain d =>
      apply h.setDrains
      intro d' drain hdrain
      by_cases hd : d' = d
      · rw [hd, Function.update_self, Option.map_eq_some_iff] at hdrain
        obtain ⟨old, hold, rfl⟩ := hdrain
        obtain ⟨hbefore, hjoined, hreturned⟩ := h.drains d old hold
        refine ⟨hbefore, hjoined, ?_⟩
        intro hret name hname
        simp only [Bool.or_eq_true, List.all_eq_true, decide_eq_true_eq] at hret
        rcases hret with hret | hall
        · exact hreturned hret name hname
        · exact hall name hname
      · rw [Function.update_of_ne hd] at hdrain
        exact h.drains d' drain hdrain

/-- The run lemma. -/
theorem run_delivering (registered : Registration ι) (inputs : List (BusInput ι E)) :
    (inputs.foldl step (new registered)).Delivering :=
  @invariant_of_admitted _ _ step (fun _ _ => True) Delivering
    (fun _ input h _ => step_delivering h input) _ (new_delivering registered) inputs
    (admitted_of_forall fun _ _ => trivial)

theorem names_offer (id : Nat) (event : E) (names : List ι) (bus : NormalizedEventBus ι E) :
    (bus.offer id event names).names = bus.names := by
  induction names generalizing bus with
  | nil => rfl
  | cons name names ih =>
      unfold offer
      split_ifs
      · rw [ih]
        rfl
      · rfl

/-- No step registers a consumer. -/
theorem names_step (bus : NormalizedEventBus ι E) (input : BusInput ι E) :
    (bus.step input).names = bus.names := by
  cases input with
  | publish id event =>
      simp only [step]
      split
      · rfl
      · rw [names_offer]
  | runPut id =>
      simp only [step]
      split
      · unfold runPut
        split
        · rfl
        · rfl
        · split_ifs <;> rfl
      · rfl
  | resumePublish id =>
      simp only [step]
      split
      · rw [names_offer]
      · rfl
  | take name =>
      simp only [step]
      split
      · rfl
      · unfold wake
        split
        · rfl
        · split <;> rfl
  | finishHandling name => rfl
  | drain d =>
      simp only [step]
      split <;> rfl
  | runJoin d name => rfl
  | returnDrain d => rfl

theorem names_run (registered : Registration ι) (inputs : List (BusInput ι E)) :
    (inputs.foldl step (new registered)).names = registered.names :=
  @invariant_of_admitted _ _ step (fun _ _ => True)
    (fun bus : NormalizedEventBus ι E => bus.names = registered.names)
    (fun bus input h _ => (names_step bus input).trans h) _ rfl inputs
    (admitted_of_forall fun _ _ => trivial)

/-- In every run of concurrent publish and drain calls, each consumer's handler is called at most once
for each publish call, with that call's event, in the order in which the events entered its queue; and
when a drain has returned, every consumer has handled the event of every call that had returned when
the drain started, exactly once. -/
theorem delivers_once_and_drains (registered : Registration ι) (inputs : List (BusInput ι E)) :
    let bus := inputs.foldl step (new registered)
    ∀ name ∈ registered.names,
      (bus.consumers name).invoked <+: (bus.consumers name).entered ∧
      ((bus.consumers name).invoked.map BusItem.call).Nodup ∧
      (∀ item ∈ (bus.consumers name).invoked,
        ∃ call, bus.calls item.call = some call ∧ call.event = item.event) ∧
      ∀ d drain, bus.drains d = some drain → drain.returned = true →
        ∀ id ∈ drain.before, ((bus.consumers name).handled.map BusItem.call).count id = 1 := by
  intro bus name hname
  have hdelivering : bus.Delivering := run_delivering registered inputs
  have hnames : bus.names = registered.names := names_run registered inputs
  rw [← hnames] at hname
  obtain ⟨hlog, -, hnodup, -, hevent⟩ := hdelivering.consumers name hname
  have hinvoked : (bus.consumers name).invoked <+: (bus.consumers name).entered := by
    rw [hlog, ← List.append_assoc]
    exact List.prefix_append _ _
  refine ⟨hinvoked, ?_, ?_, ?_⟩
  · exact (hinvoked.sublist.map BusItem.call).nodup hnodup
  · exact fun item hitem => hevent item (hinvoked.subset hitem)
  · intro d drain hdrain hreturned id hid
    obtain ⟨-, hjoined, hdone⟩ := hdelivering.drains d drain hdrain
    have hmem := hjoined name hname (hdone hreturned name hname) id hid
    have hhandled : (bus.consumers name).handled.Sublist (bus.consumers name).entered := by
      rw [hlog]
      exact List.sublist_append_left _ _
    exact List.count_eq_one_of_mem ((hhandled.map BusItem.call).nodup hnodup) hmem

end NormalizedEventBus

end Cvf
