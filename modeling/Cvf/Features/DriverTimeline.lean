/-
# Cvf.Features.DriverTimeline — what an error-free run of the receive-time driver hands downstream.

The driver's loops are summed up by one equation (`deliverDue_then_emit`): moving the watermark hands
over exactly the weave of the due events into the decision grid.  From it follows the invariant
`Ordered`: at every point of a run, what has been handed downstream is the weave of the delivered
events, and delivered events and buffer together are the published events in key order.  The tick
barrier and the independence of arrival order are read off the final state.
-/
import Cvf.Features.Driver

namespace Cvf

open Cvf.Library

namespace ReceiveTimeFeatureDriver

/-! ## Actions -/

@[simp] theorem outputs_append (l r : List Action) : outputs (l ++ r) = outputs l ++ outputs r := by
  simp [outputs]

@[simp] theorem outputs_nil : outputs [] = [] := rfl

@[simp] theorem outputs_drain (l : List Action) : outputs (.drain :: l) = outputs l := rfl

@[simp] theorem outputs_consumeTick (ticks : List DecisionTick) :
    outputs (ticks.map .consumeTick) = ticks.map Sum.inr := by
  induction ticks with
  | nil => rfl
  | cons t ticks ih => simp [outputs]

@[simp] theorem outputs_publish (queued : List QueuedFeatureEvent) :
    outputs (queued.map fun q => .publish q.event) = queued.map fun q => Sum.inl q.event := by
  induction queued with
  | nil => rfl
  | cons q queued ih => simp [outputs]

/-- Every tick is consumed right after a drain of the bus, or after other ticks that were. -/
def TicksFollowDrain (actions : List Action) : Prop :=
  ∀ before tick after, actions = before ++ .consumeTick tick :: after →
    ∃ (earlier : List Action) (ticks : List DecisionTick),
      before = earlier ++ .drain :: ticks.map .consumeTick

theorem ticksFollowDrain_of_no_tick {actions : List Action}
    (h : ∀ tick, .consumeTick tick ∉ actions) : TicksFollowDrain actions := by
  intro before tick after heq
  exact absurd (by simp [heq]) (h tick)

theorem ticksFollowDrain_drain (ticks : List DecisionTick) :
    TicksFollowDrain (.drain :: ticks.map .consumeTick) := by
  intro before tick after heq
  cases before with
  | nil => simp at heq
  | cons a before =>
      rw [List.cons_append, List.cons.injEq] at heq
      obtain ⟨rfl, heq⟩ := heq
      obtain ⟨ticks₁, ticks₂, -, hbefore, -⟩ := List.map_eq_append_iff.mp heq
      exact ⟨[], ticks₁, by simp [hbefore]⟩

theorem TicksFollowDrain.append {l r : List Action} (hl : TicksFollowDrain l)
    (hr : TicksFollowDrain r) : TicksFollowDrain (l ++ r) := by
  intro before tick after heq
  rcases List.append_eq_append_iff.mp heq with ⟨mid, hbefore, htail⟩ | ⟨mid, hl', htail⟩
  · obtain ⟨earlier, ticks, hmid⟩ := hr mid tick after htail
    exact ⟨l ++ earlier, ticks, by rw [hbefore, hmid, List.append_assoc]⟩
  · cases mid with
    | nil =>
        rw [List.nil_append] at htail
        obtain ⟨earlier, ticks, hmid⟩ := hr [] tick after htail.symm
        simp at hmid
    | cons m mid =>
        rw [List.cons_append, List.cons.injEq] at htail
        exact hl before tick mid (by rw [hl', htail.1])

/-! ## Emitting ticks -/

/-- The grid of the driver's settings. -/
def grid (d : ReceiveTimeFeatureDriver) : TickGrid DecisionTick :=
  DecisionScheduler.decisionGrid d.settings.featureInterval d.settings.signalInterval

/-- The driver has a scheduler on its own grid that has emitted every tick up to `a`. -/
def ReadyAt (d : ReceiveTimeFeatureDriver) (a : Int) : Prop :=
  ∃ s, d.scheduler = some s ∧ s.ReadyAt a ∧ s.featureInterval = d.settings.featureInterval ∧
    s.signalInterval = d.settings.signalInterval

/-- `d'` follows `d` by handing over some actions: nothing but the buffer and the scheduler changes
otherwise. -/
structure Hands (d : ReceiveTimeFeatureDriver) (actions : List Action)
    (d' : ReceiveTimeFeatureDriver) : Prop where
  handed : d'.handed = d.handed ++ actions
  settings : d'.settings = d.settings
  ordinal : d'.ordinal = d.ordinal
  watermark : d'.watermark = d.watermark
  maximumSeen : d'.maximumSeen = d.maximumSeen
  isSealed : d'.isSealed = d.isSealed
  failure : d'.failure = d.failure

theorem Hands.trans {d d' d'' : ReceiveTimeFeatureDriver} {l r : List Action} (h : d.Hands l d')
    (h' : d'.Hands r d'') : d.Hands (l ++ r) d'' where
  handed := by rw [h'.handed, h.handed, List.append_assoc]
  settings := h'.settings.trans h.settings
  ordinal := h'.ordinal.trans h.ordinal
  watermark := h'.watermark.trans h.watermark
  maximumSeen := h'.maximumSeen.trans h.maximumSeen
  isSealed := h'.isSealed.trans h.isSealed
  failure := h'.failure.trans h.failure

theorem Hands.grid_eq {d d' : ReceiveTimeFeatureDriver} {l : List Action} (h : d.Hands l d') :
    d'.grid = d.grid := by
  rw [grid, h.settings, grid]

theorem emitTicksThrough_eq {d : ReceiveTimeFeatureDriver} {a : Int} (hready : d.ReadyAt a)
    (target : Int) :
    ∃ d' actions, d.emitTicksThrough target = (d', none) ∧ d.Hands actions d' ∧
      d'.events = d.events ∧ d'.ReadyAt (max a target) ∧ TicksFollowDrain actions ∧
      outputs actions = (d.grid.between a target).map Sum.inr := by
  obtain ⟨s, hs, hsready, hf, hsig⟩ := hready
  have hnothing : target ≤ a ∨ ¬ min s.nextFeature s.nextSignal ≤ target →
      ∃ d' actions, (d, (none : Option DriverError)) = (d', none) ∧ d.Hands actions d' ∧
        d'.events = d.events ∧ d'.ReadyAt (max a target) ∧ TicksFollowDrain actions ∧
        outputs actions = (d.grid.between a target).map Sum.inr := by
    intro hcase
    refine ⟨d, [], rfl, ⟨by simp, rfl, rfl, rfl, rfl, rfl, rfl⟩, rfl, ?_,
      ticksFollowDrain_of_no_tick (by simp), ?_⟩
    · rcases le_total target a with hle | hle
      · rw [max_eq_left hle]
        exact ⟨s, hs, hsready, hf, hsig⟩
      · rw [max_eq_right hle]
        rcases hcase with hcase | hcase
        · obtain rfl : a = target := le_antisymm hle hcase
          exact ⟨s, hs, hsready, hf, hsig⟩
        · exact ⟨s, hs, (hsready.of_not_due hle hcase).1, hf, hsig⟩
    · have hnil : d.grid.between a target = [] := by
        rcases le_total target a with hle | hle
        · exact d.grid.between_eq_nil hle
        · rcases hcase with hcase | hcase
          · exact d.grid.between_eq_nil hcase
          · have := (hsready.of_not_due hle hcase).2
            rwa [hf, hsig] at this
      simp [hnil]
  have hcursor := hsready.cursor_le
  simp only [emitTicksThrough, hs]
  split
  · exact hnothing (Or.inl (by omega))
  · rename_i hbehind
    simp only [DecisionScheduler.hasDueTick, if_neg hbehind]
    by_cases hdue : min s.nextFeature s.nextSignal ≤ target
    · -- a due tick lies after `a`, so the target does too
      have hatarget : a ≤ target := by
        have h1 := hsready.feature.after
        have h2 := hsready.signal.after
        omega
      obtain ⟨s', hadvance, hready', hf', hsig'⟩ := DecisionScheduler.advanceTo_eq hsready hatarget
      simp only [hdue, decide_true, hadvance]
      refine ⟨_, .drain :: (d.grid.between a target).map .consumeTick, rfl,
        ⟨?_, rfl, rfl, rfl, rfl, rfl, rfl⟩, rfl, ?_, ticksFollowDrain_drain _, by simp⟩
      · rw [hf, hsig, List.append_assoc]
        rfl
      · rw [max_eq_right hatarget]
        exact ⟨s', rfl, hready', hf'.trans hf, hsig'.trans hsig⟩
    · simp only [hdue, decide_false]
      exact hnothing (Or.inr hdue)

/-! ## Delivering due events -/

theorem publishGroup_eq (t : Int) (events : List QueuedFeatureEvent) :
    publishGroup t events =
      ((events.takeWhile (·.receiveTimestamp = t)).map (fun q => .publish q.event),
        events.dropWhile (·.receiveTimestamp = t)) := by
  induction events with
  | nil => rfl
  | cons q events ih =>
      by_cases hq : q.receiveTimestamp = t
      · simp [publishGroup, hq, ih]
      · simp [publishGroup, hq]

/-- The timeline of queued events on the driver's grid. -/
def weaveQueued (d : ReceiveTimeFeatureDriver) (start : Int) (queued : List QueuedFeatureEvent)
    (final : Int) : List (NormalizedMarketEvent ⊕ DecisionTick) :=
  (d.grid.weave QueuedFeatureEvent.receiveTimestamp start queued final).map
    (Sum.map QueuedFeatureEvent.event id)

/-- The buffer with its due part delivered: the group at the head, then the rest of the due part. -/
theorem takeWhile_due_eq (events : List QueuedFeatureEvent) {t target : Int} (ht : t ≤ target) :
    events.takeWhile (·.receiveTimestamp ≤ target) =
      events.takeWhile (·.receiveTimestamp = t) ++
        (events.dropWhile (·.receiveTimestamp = t)).takeWhile (·.receiveTimestamp ≤ target) ∧
    events.dropWhile (·.receiveTimestamp ≤ target) =
      (events.dropWhile (·.receiveTimestamp = t)).dropWhile (·.receiveTimestamp ≤ target) := by
  induction events with
  | nil => simp
  | cons q events ih =>
      by_cases hq : q.receiveTimestamp = t
      · simp [hq, ht, ih.1, ih.2]
      · simp [hq]

/-- Behind the group at the head of a time-ordered buffer, everything is later. -/
theorem lt_of_mem_dropWhile {events : List QueuedFeatureEvent} {t : Int}
    (hsorted : events.Pairwise (·.receiveTimestamp ≤ ·.receiveTimestamp))
    (hge : ∀ q ∈ events, t ≤ q.receiveTimestamp) :
    ∀ q ∈ events.dropWhile (·.receiveTimestamp = t), t < q.receiveTimestamp := by
  induction events with
  | nil => simp
  | cons q events ih =>
      rw [List.pairwise_cons] at hsorted
      have hq := hge q (by simp)
      by_cases heq : q.receiveTimestamp = t
      · simpa [heq] using ih hsorted.2 fun r hr => hge r (by simp [hr])
      · intro r hr
        simp only [List.dropWhile_cons, decide_eq_true_eq, heq, if_false] at hr
        rcases List.mem_cons.mp hr with rfl | hr
        · omega
        · have := hsorted.1 r hr
          omega

/-- One turn of the outer loop, once there is a scheduler. -/
theorem deliverDue_cons {target : Int} {fuel : Nat} {d : ReceiveTimeFeatureDriver}
    {head : QueuedFeatureEvent} {tail : List QueuedFeatureEvent} (hev : d.events = head :: tail)
    (hdue : head.receiveTimestamp ≤ target) {s : DecisionScheduler} (hs : d.scheduler = some s)
    {d₁ : ReceiveTimeFeatureDriver}
    (hemit : d.emitTicksThrough (head.receiveTimestamp - 1) = (d₁, none)) :
    deliverDue target (fuel + 1) d =
      deliverDue target fuel
        { d₁ with
          handed := d₁.handed ++ (publishGroup head.receiveTimestamp d₁.events).1
          events := (publishGroup head.receiveTimestamp d₁.events).2 } := by
  have hsame : { d with scheduler := some s } = d := by rw [← hs]
  have hfor : d.schedulerFor head.receiveTimestamp = some s := by simp [schedulerFor, hs]
  rw [deliverDue]
  split
  · rename_i hnil
    simp [hev] at hnil
  · rename_i head' tail' hev'
    obtain ⟨rfl, rfl⟩ : head = head' ∧ tail = tail' := by simpa [hev] using hev'
    rw [if_pos hdue, hfor]
    simp only [hsame, hemit]

theorem deliverDue_of_not_due {target : Int} {fuel : Nat} {d : ReceiveTimeFeatureDriver}
    (h : ∀ q ∈ d.events.head?, target < q.receiveTimestamp) :
    deliverDue target fuel d = (d, none) := by
  cases fuel with
  | zero => rfl
  | succ fuel =>
      rw [deliverDue]
      split
      · rfl
      · rename_i head tail hev
        have := h head (by simp [hev])
        rw [if_neg (by omega)]

/-- What moving the watermark from `a` to the target has to achieve. -/
def Moves (d : ReceiveTimeFeatureDriver) (a target : Int) (d' : ReceiveTimeFeatureDriver) : Prop :=
  ∃ actions, d.Hands actions d' ∧
    d'.events = d.events.dropWhile (·.receiveTimestamp ≤ target) ∧ d'.ReadyAt target ∧
    TicksFollowDrain actions ∧
    outputs actions = d.weaveQueued a (d.events.takeWhile (·.receiveTimestamp ≤ target)) target

/-- With nothing due, the final emission is all there is. -/
theorem moves_of_not_due {d : ReceiveTimeFeatureDriver} {a target : Int} (hready : d.ReadyAt a)
    (hatarget : a ≤ target) (h : ∀ q ∈ d.events.head?, target < q.receiveTimestamp) :
    ∃ d', d.emitTicksThrough target = (d', none) ∧ d.Moves a target d' := by
  obtain ⟨d', actions, hemit, hhands, hevents, hready', hdrain, hout⟩ :=
    emitTicksThrough_eq hready target
  rw [max_eq_right hatarget] at hready'
  have hnone : d.events.takeWhile (·.receiveTimestamp ≤ target) = [] ∧
      d.events.dropWhile (·.receiveTimestamp ≤ target) = d.events := by
    cases hev : d.events with
    | nil => simp
    | cons q rest =>
        have := h q (by simp [hev])
        simp [show ¬ q.receiveTimestamp ≤ target by omega]
  refine ⟨d', hemit, actions, hhands, by rw [hevents, hnone.2], hready', hdrain, ?_⟩
  rw [hout, hnone.1]
  simp [weaveQueued, TickGrid.weave]

/-- Delivering the group at the head of the buffer and then moving on is one move. -/
theorem moves_of_group {d d₁ d' : ReceiveTimeFeatureDriver} {a t target : Int}
    {actions : List Action} (hhands : d.Hands actions d₁) (hevents : d₁.events = d.events)
    (hdrain : TicksFollowDrain actions)
    (hout : outputs actions = (d.grid.between a (t - 1)).map Sum.inr)
    (hhead : ∃ tail head, d.events = head :: tail ∧ head.receiveTimestamp = t)
    (hat : a ≤ t) (ht : t ≤ target)
    (hrest : ∀ q ∈ d.events.dropWhile (·.receiveTimestamp = t), t < q.receiveTimestamp)
    (hmoves : Moves
      { d₁ with
        handed := d₁.handed ++ (publishGroup t d₁.events).1
        events := (publishGroup t d₁.events).2 } (max a (t - 1)) target d') :
    d.Moves a target d' := by
  obtain ⟨actions₂, hhands₂, hevents₂, hready₂, hdrain₂, hout₂⟩ := hmoves
  simp only [publishGroup_eq, hevents] at hhands₂ hevents₂ hout₂
  set group := d.events.takeWhile (·.receiveTimestamp = t) with hgroup
  set rest := d.events.dropWhile (·.receiveTimestamp = t) with hrestdef
  have hgroup_time : ∀ q ∈ group, q.receiveTimestamp = t := fun q hq => by
    simpa using List.mem_takeWhile_imp hq
  have hpublish : TicksFollowDrain (group.map fun q => .publish q.event) :=
    ticksFollowDrain_of_no_tick (by simp)
  have hsplit := takeWhile_due_eq d.events ht
  rw [← hgroup, ← hrestdef] at hsplit
  refine ⟨actions ++ group.map (fun q => .publish q.event) ++ actions₂, ?_, ?_, hready₂,
    (hdrain.append hpublish).append hdrain₂, ?_⟩
  · have hmid : d.Hands (actions ++ group.map fun q => .publish q.event)
        { d₁ with
          handed := d₁.handed ++ group.map (fun q => .publish q.event)
          events := rest } :=
      ⟨by rw [hhands.handed, List.append_assoc], hhands.settings, hhands.ordinal,
        hhands.watermark, hhands.maximumSeen, hhands.isSealed, hhands.failure⟩
    exact hmid.trans hhands₂
  · rw [hevents₂, hsplit.2]
  · -- cut the timeline at the last instant before the group, or at `a`
    obtain ⟨tail, head, hev, hheadt⟩ := hhead
    have hcons : ∃ gs, group = head :: gs := by
      rw [hgroup, hev]
      simp [hheadt]
    have hcut : d.grid.weave QueuedFeatureEvent.receiveTimestamp a
        (group ++ rest.takeWhile (·.receiveTimestamp ≤ target)) target =
        d.grid.weave QueuedFeatureEvent.receiveTimestamp a group (max a (t - 1)) ++
        d.grid.weave QueuedFeatureEvent.receiveTimestamp (max a (t - 1))
          (rest.takeWhile (·.receiveTimestamp ≤ target)) target := by
      refine d.grid.weave_append (le_max_left _ _) (by omega) (fun q hq => ?_) fun q hq => ?_
      · have := hgroup_time q hq
        omega
      · have := hrest q ((List.takeWhile_sublist _).subset hq)
        omega
    have hfirst : d.grid.weave QueuedFeatureEvent.receiveTimestamp a group (max a (t - 1)) =
        (d.grid.between a (t - 1)).map Sum.inr ++ group.map Sum.inl := by
      obtain ⟨gs, hgs⟩ := hcons
      rw [hgs] at hgroup_time ⊢
      simp only [TickGrid.weave, hheadt, List.map_cons]
      rw [d.grid.weave_group (fun q hq => hgroup_time q (by simp [hq])) (le_max_right _ _)]
    rw [outputs_append, outputs_append, hout, outputs_publish, hout₂, hsplit.1, weaveQueued,
      weaveQueued, hcut, hfirst]
    simp only [grid, hhands.settings, List.map_append, List.map_map, Function.comp_def, Sum.map_inr,
      Sum.map_inl, id_eq]

/-- Moving from `a` to the target hands over the due events woven into the grid. -/
theorem deliverDue_then_emit (target : Int) {fuel : Nat} {d : ReceiveTimeFeatureDriver} {a : Int}
    (hfuel : d.events.length ≤ fuel)
    (hsorted : d.events.Pairwise (·.receiveTimestamp ≤ ·.receiveTimestamp))
    (hready : d.ReadyAt a) (hafter : ∀ q ∈ d.events, a ≤ q.receiveTimestamp)
    (hatarget : a ≤ target) :
    ∃ d₁ d', deliverDue target fuel d = (d₁, none) ∧ d₁.emitTicksThrough target = (d', none) ∧
      d.Moves a target d' := by
  induction fuel generalizing d a with
  | zero =>
      have hnil : d.events = [] := List.eq_nil_of_length_eq_zero (by omega)
      obtain ⟨d', hemit, hmoves⟩ := moves_of_not_due hready hatarget (by simp [hnil])
      exact ⟨d, d', rfl, hemit, hmoves⟩
  | succ fuel ih =>
      by_cases hhead : ∀ q ∈ d.events.head?, target < q.receiveTimestamp
      · obtain ⟨d', hemit, hmoves⟩ := moves_of_not_due hready hatarget hhead
        exact ⟨d, d', deliverDue_of_not_due hhead, hemit, hmoves⟩
      · cases hev : d.events with
        | nil => simp [hev] at hhead
        | cons head tail =>
            have hdue : head.receiveTimestamp ≤ target := by simpa [hev] using hhead
            set t := head.receiveTimestamp with ht
            have hat : a ≤ t := hafter head (by simp [hev])
            have hrest : ∀ q ∈ d.events.dropWhile (·.receiveTimestamp = t),
                t < q.receiveTimestamp := by
              refine lt_of_mem_dropWhile hsorted fun q hq => ?_
              rw [hev] at hsorted hq
              rcases List.mem_cons.mp hq with rfl | hq
              · exact le_rfl
              · exact (List.pairwise_cons.mp hsorted).1 q hq
            obtain ⟨s, hs, -⟩ := id hready
            obtain ⟨d₁, actions, hemit, hhands, hevents, hready₁, hdrain, hout⟩ :=
              emitTicksThrough_eq hready (t - 1)
            rw [deliverDue_cons hev hdue hs hemit]
            have hlen : (d.events.dropWhile (·.receiveTimestamp = t)).length ≤ fuel := by
              have hshort := (List.dropWhile_sublist
                (fun q : QueuedFeatureEvent => decide (q.receiveTimestamp = t)) (l := tail)).length_le
              rw [hev] at hfuel ⊢
              simp only [List.length_cons] at hfuel
              simp only [List.dropWhile_cons, ← ht, decide_true, if_true]
              omega
            obtain ⟨d₂, d', hdeliver, hemit', hmoves⟩ := ih
              (d := { d₁ with
                handed := d₁.handed ++ (publishGroup t d₁.events).1
                events := (publishGroup t d₁.events).2 }) (a := max a (t - 1))
              (by simpa only [publishGroup_eq, hevents] using hlen)
              (by
                simp only [publishGroup_eq, hevents]
                exact hsorted.sublist (List.dropWhile_sublist _))
              hready₁
              (by
                simp only [publishGroup_eq, hevents]
                intro q hq
                have := hrest q hq
                omega)
              (by omega)
            exact ⟨d₂, d', hdeliver, hemit', moves_of_group hhands hevents hdrain hout
              ⟨tail, head, hev, rfl⟩ hat hdue hrest hmoves⟩

/-! ## The invariant -/

/-- What has been handed downstream: nothing before the first delivery, and from then on the weave of
the delivered events up to the watermark. -/
def Woven (d : ReceiveTimeFeatureDriver) : List QueuedFeatureEvent → Prop
  | [] => d.scheduler = none ∧ d.timeline = []
  | first :: rest => ∃ w, d.watermark = some w ∧ first.receiveTimestamp ≤ w ∧ d.ReadyAt w ∧
      d.timeline = d.weaveQueued first.receiveTimestamp (first :: rest) w

/-- The state of an error-free run that has published `published` and delivered `delivered`. -/
structure Ordered (identity : PayloadIdentity) (published : List NormalizedMarketEvent)
    (delivered : List QueuedFeatureEvent) (d : ReceiveTimeFeatureDriver) : Prop where
  sorted : (delivered ++ d.events).Pairwise (·.key ≤ ·.key)
  queued : ∀ q ∈ delivered ++ d.events, ∃ n,
    q = queueItem identity q.event q.event.base.localReceiveTimestamp n
  perm : ((delivered ++ d.events).map QueuedFeatureEvent.event).Perm published
  behind : ∀ q ∈ delivered, ∃ w, d.watermark = some w ∧ q.receiveTimestamp ≤ w
  ahead : ∀ q ∈ d.events, ∀ w, d.watermark = some w → w < q.receiveTimestamp
  bounded : d.events.length ≤ d.settings.capacity
  seen : ∀ e ∈ published, ∃ m, d.maximumSeen = some m ∧ e.base.localReceiveTimestamp ≤ m
  seen_mem : ∀ m, d.maximumSeen = some m → ∃ e ∈ published, e.base.localReceiveTimestamp = m
  woven : d.Woven delivered
  drained : TicksFollowDrain d.handed
  flushed : d.isSealed = true → d.events = []

variable {identity : PayloadIdentity} {published : List NormalizedMarketEvent}
  {delivered : List QueuedFeatureEvent} {d d' : ReceiveTimeFeatureDriver}

theorem receiveTimestamp_sorted {events : List QueuedFeatureEvent}
    (h : events.Pairwise (·.key ≤ ·.key)) :
    events.Pairwise (·.receiveTimestamp ≤ ·.receiveTimestamp) :=
  h.imp QueuedFeatureEvent.receiveTimestamp_le_of_key_le

/-- The due part of the buffer is what the watermark passes, the rest is after it. -/
theorem lt_of_mem_dropWhile_le {events : List QueuedFeatureEvent} {target : Int}
    (hsorted : events.Pairwise (·.receiveTimestamp ≤ ·.receiveTimestamp)) :
    ∀ q ∈ events.dropWhile (·.receiveTimestamp ≤ target), target < q.receiveTimestamp := by
  induction events with
  | nil => simp
  | cons q events ih =>
      rw [List.pairwise_cons] at hsorted
      by_cases hq : q.receiveTimestamp ≤ target
      · simpa [hq] using ih hsorted.2
      · intro r hr
        simp only [List.dropWhile_cons, decide_eq_true_eq, hq, if_false] at hr
        rcases List.mem_cons.mp hr with rfl | hr
        · omega
        · have := hsorted.1 r hr
          omega

theorem weaveQueued_append (d : ReceiveTimeFeatureDriver) {start mid final : Int}
    (hstart : start ≤ mid) (hmid : mid ≤ final) {es fs : List QueuedFeatureEvent}
    (hes : ∀ e ∈ es, e.receiveTimestamp ≤ mid) (hfs : ∀ f ∈ fs, mid < f.receiveTimestamp) :
    d.weaveQueued start es mid ++ d.weaveQueued mid fs final =
      d.weaveQueued start (es ++ fs) final := by
  rw [weaveQueued, weaveQueued, ← List.map_append, weaveQueued, d.grid.weave_append hstart hmid
    (fun e he => by have := hes e he; omega) hfs]

/-- A move of the watermark keeps the invariant, the due events joining the delivered ones. -/
theorem Ordered.of_moves (hinv : Ordered identity published delivered d) {a target : Int}
    (hmoves : d.Moves a target d') (htarget : ∀ w, d.watermark = some w → w < target)
    (hwoven : ({ d' with watermark := some target } : ReceiveTimeFeatureDriver).Woven
      (delivered ++ d.events.takeWhile (·.receiveTimestamp ≤ target))) :
    Ordered identity published (delivered ++ d.events.takeWhile (·.receiveTimestamp ≤ target))
      { d' with watermark := some target } := by
  obtain ⟨actions, hhands, hevents, -, hdrain, -⟩ := hmoves
  have hall : delivered ++ d.events.takeWhile (·.receiveTimestamp ≤ target) ++ d'.events =
      delivered ++ d.events := by
    rw [hevents, List.append_assoc, List.takeWhile_append_dropWhile]
  have hsorted := receiveTimestamp_sorted (List.pairwise_append.mp hinv.sorted).2.1
  exact
    { sorted := by rw [hall]; exact hinv.sorted
      queued := by rw [hall]; exact hinv.queued
      perm := by rw [hall]; exact hinv.perm
      behind := by
        intro q hq
        refine ⟨target, rfl, ?_⟩
        rcases List.mem_append.mp hq with hq | hq
        · obtain ⟨w, hw, hle⟩ := hinv.behind q hq
          have := htarget w hw
          omega
        · simpa using List.mem_takeWhile_imp hq
      ahead := by
        intro q hq w hw
        obtain rfl : target = w := by simpa using hw
        rw [hevents] at hq
        exact lt_of_mem_dropWhile_le hsorted q hq
      bounded := by
        have hle : d'.events.length ≤ d.events.length := by
          rw [hevents]
          exact (List.dropWhile_sublist _).length_le
        have hbound := hinv.bounded
        rw [← hhands.settings] at hbound
        exact hle.trans hbound
      seen := by
        intro e he
        obtain ⟨m, hm, hle⟩ := hinv.seen e he
        exact ⟨m, by rw [← hm, ← hhands.maximumSeen], hle⟩
      seen_mem := by
        intro m hm
        exact hinv.seen_mem m (by rw [← hhands.maximumSeen]; exact hm)
      woven := hwoven
      drained := by
        have : TicksFollowDrain d'.handed := by
          rw [hhands.handed]
          exact hinv.drained.append hdrain
        exact this
      flushed := by
        intro hsealed
        have hnil := hinv.flushed (hhands.isSealed ▸ hsealed)
        show d'.events = []
        rw [hevents, hnil]
        rfl }

/-- `d'` differs from `d` as an advance may: same settings, arrival bookkeeping and flags. -/
structure Advanced (d d' : ReceiveTimeFeatureDriver) : Prop where
  settings : d'.settings = d.settings
  ordinal : d'.ordinal = d.ordinal
  maximumSeen : d'.maximumSeen = d.maximumSeen
  isSealed : d'.isSealed = d.isSealed
  failure : d'.failure = d.failure

theorem advanceLocked_of_moves {d₁ d₂ : ReceiveTimeFeatureDriver} {target : Int}
    (hahead : ∀ w, d.watermark = some w → w < target)
    (hdeliver : deliverDue target d.events.length d = (d₁, none))
    (hemit : d₁.emitTicksThrough target = (d₂, none)) :
    d.advanceLocked target = ({ d₂ with watermark := some target }, none) := by
  have hnot : d.watermark.any (target ≤ ·) = false := by
    cases hw : d.watermark with
    | none => rfl
    | some w => simpa using hahead w hw
  simp [ReceiveTimeFeatureDriver.advanceLocked, hnot, hdeliver, hemit]

/-- The first delivery ever starts the scheduler at the event it delivers. -/
theorem deliverDue_start {target : Int} {fuel : Nat} {head : QueuedFeatureEvent}
    {tail : List QueuedFeatureEvent} (hnone : d.scheduler = none) (hev : d.events = head :: tail)
    (hdue : head.receiveTimestamp ≤ target) {s : DecisionScheduler}
    (hstart : DecisionScheduler.start head.receiveTimestamp d.settings.featureInterval
      d.settings.signalInterval = some s) :
    deliverDue target (fuel + 1) d = deliverDue target (fuel + 1) { d with scheduler := some s } := by
  simp only [deliverDue, hev, if_pos hdue, schedulerFor, hnone, Option.none_or, hstart,
    Option.some_or]

theorem deliverDue_start_fails {target : Int} {fuel : Nat} {head : QueuedFeatureEvent}
    {tail : List QueuedFeatureEvent} (hnone : d.scheduler = none) (hev : d.events = head :: tail)
    (hdue : head.receiveTimestamp ≤ target)
    (hstart : DecisionScheduler.start head.receiveTimestamp d.settings.featureInterval
      d.settings.signalInterval = none) :
    deliverDue target (fuel + 1) d = (d, some .intervalsNotPositive) := by
  simp only [deliverDue, hev, if_pos hdue, schedulerFor, hnone, Option.none_or, hstart]

theorem Hands.weaveQueued_eq {actions : List Action} (h : d.Hands actions d') (start : Int)
    (queued : List QueuedFeatureEvent) (final : Int) :
    d'.weaveQueued start queued final = d.weaveQueued start queued final := by
  rw [weaveQueued, weaveQueued, h.grid_eq]

/-- The first move weaves from the first event's own time. -/
theorem woven_of_moves_start {target : Int} {head : QueuedFeatureEvent}
    {tail : List QueuedFeatureEvent} (htimeline : d.timeline = [])
    (hmoves : d.Moves head.receiveTimestamp target d') (hev : d.events = head :: tail)
    (hdue : head.receiveTimestamp ≤ target) :
    ({ d' with watermark := some target } : ReceiveTimeFeatureDriver).Woven
      ([] ++ d.events.takeWhile (·.receiveTimestamp ≤ target)) := by
  obtain ⟨actions, hhands, -, hready, -, hout⟩ := hmoves
  have htake : d.events.takeWhile (·.receiveTimestamp ≤ target) =
      head :: tail.takeWhile (·.receiveTimestamp ≤ target) := by
    rw [hev]
    simp [hdue]
  have hhanded : d'.timeline =
      d'.weaveQueued head.receiveTimestamp
        (head :: tail.takeWhile (·.receiveTimestamp ≤ target)) target := by
    rw [timeline] at htimeline ⊢
    rw [hhands.handed, outputs_append, htimeline, hout, htake, List.nil_append,
      hhands.weaveQueued_eq]
  rw [List.nil_append, htake]
  exact ⟨target, rfl, hdue, hready, hhanded⟩

/-- A later move continues the timeline from the watermark. -/
theorem woven_of_moves {w target : Int} {first : QueuedFeatureEvent}
    {rest : List QueuedFeatureEvent} (hmoves : d.Moves w target d')
    (hlt : w < target) (hfirst : first.receiveTimestamp ≤ w)
    (htimeline : d.timeline = d.weaveQueued first.receiveTimestamp (first :: rest) w)
    (hbehind : ∀ q ∈ first :: rest, q.receiveTimestamp ≤ w)
    (hahead : ∀ q ∈ d.events, w < q.receiveTimestamp) :
    ({ d' with watermark := some target } : ReceiveTimeFeatureDriver).Woven
      (first :: rest ++ d.events.takeWhile (·.receiveTimestamp ≤ target)) := by
  obtain ⟨actions, hhands, -, hready, -, hout⟩ := hmoves
  have hhanded : d'.timeline =
      d'.weaveQueued first.receiveTimestamp
        (first :: rest ++ d.events.takeWhile (·.receiveTimestamp ≤ target)) target := by
    rw [timeline] at htimeline ⊢
    rw [hhands.handed, outputs_append, htimeline, hout, hhands.weaveQueued_eq,
      weaveQueued_append d hfirst hlt.le hbehind fun q hq =>
        hahead q ((List.takeWhile_sublist _).subset hq)]
  exact ⟨target, rfl, by omega, hready, hhanded⟩

/-- Before anything is due, committing a target only moves the watermark. -/
theorem Ordered.commit (hinv : Ordered identity published [] d) {target : Int}
    (hnone : ∀ q ∈ d.events.head?, target < q.receiveTimestamp) :
    Ordered identity published [] { d with watermark := some target } :=
  { hinv with
    behind := by simp
    ahead := by
      intro q hq w hw
      obtain rfl : target = w := by simpa using hw
      have hsorted := receiveTimestamp_sorted (List.pairwise_append.mp hinv.sorted).2.1
      cases hev : d.events with
      | nil =>
          rw [show d.events = [] from hev] at hq
          simp at hq
      | cons head tail =>
          rw [hev] at hsorted hnone
          have hhead := hnone head (by simp)
          rw [show d.events = head :: tail from hev] at hq
          rcases List.mem_cons.mp hq with rfl | hq
          · exact hhead
          · have := (List.pairwise_cons.mp hsorted).1 q hq
            omega }

/-- What committing a target achieves. -/
structure Commits (identity : PayloadIdentity) (published : List NormalizedMarketEvent)
    (d : ReceiveTimeFeatureDriver) (target : Int) (d' : ReceiveTimeFeatureDriver) : Prop where
  ordered : ∃ delivered', Ordered identity published delivered' d'
  advanced : Advanced d d'
  watermark : d'.watermark = maxOption d.watermark (some target)

/-- The spec of `_advance_locked`: it keeps the invariant and commits the target, unless the first
delivery ever finds tick intervals that are not positive. -/
theorem Ordered.advanceLocked_cases (hinv : Ordered identity published delivered d)
    (target : Int) :
    (∃ d', d.advanceLocked target = (d', none) ∧ Commits identity published d target d') ∨
      d.advanceLocked target = (d, some .intervalsNotPositive) ∧ d.events ≠ [] ∧
        ¬ (0 < d.settings.featureInterval ∧ 0 < d.settings.signalInterval) := by
  have hsorted := receiveTimestamp_sorted (List.pairwise_append.mp hinv.sorted).2.1
  by_cases hpassed : ∃ w, d.watermark = some w ∧ target ≤ w
  · obtain ⟨w, hw, hle⟩ := hpassed
    have hsame : d.advanceLocked target = (d, none) := by
      simp [ReceiveTimeFeatureDriver.advanceLocked, hw, hle]
    exact Or.inl ⟨d, hsame, ⟨delivered, hinv⟩, ⟨rfl, rfl, rfl, rfl, rfl⟩,
      by simp [hw, maxOption, hle]⟩
  · have hahead : ∀ w, d.watermark = some w → w < target := fun w hw => by
      by_contra hge
      exact hpassed ⟨w, hw, by omega⟩
    have hmax : some target = maxOption d.watermark (some target) := by
      cases hw : d.watermark with
      | none => rfl
      | some w => simp [maxOption, (hahead w hw).le]
    -- every delivering branch moves the watermark from some `a` on
    have hfinish : ∀ {a : Int} {d₁ d₂ : ReceiveTimeFeatureDriver},
        deliverDue target d.events.length d = (d₁, none) →
        d₁.emitTicksThrough target = (d₂, none) → d.Moves a target d₂ →
        ({ d₂ with watermark := some target } : ReceiveTimeFeatureDriver).Woven
          (delivered ++ d.events.takeWhile (·.receiveTimestamp ≤ target)) →
        ∃ d', d.advanceLocked target = (d', none) ∧ Commits identity published d target d' := by
      intro a d₁ d₂ hdeliver hemit hmoves hwoven
      obtain ⟨actions, hhands, -⟩ := id hmoves
      exact ⟨_, advanceLocked_of_moves hahead hdeliver hemit,
        ⟨_, hinv.of_moves hmoves hahead hwoven⟩,
        ⟨hhands.settings, hhands.ordinal, hhands.maximumSeen, hhands.isSealed, hhands.failure⟩,
        hmax⟩
    have hwoven := hinv.woven
    cases delivered with
    | nil =>
        obtain ⟨hscheduler, htimeline⟩ := hwoven
        by_cases hdue : ∀ q ∈ d.events.head?, target < q.receiveTimestamp
        · have hemit : d.emitTicksThrough target = (d, none) := by
            simp [emitTicksThrough, hscheduler]
          exact Or.inl ⟨_, advanceLocked_of_moves hahead (deliverDue_of_not_due hdue) hemit,
            ⟨[], hinv.commit hdue⟩, ⟨rfl, rfl, rfl, rfl, rfl⟩, hmax⟩
        · cases hev : d.events with
          | nil => simp [hev] at hdue
          | cons head tail =>
              have hhead : head.receiveTimestamp ≤ target := by simpa [hev] using hdue
              have hlen : d.events.length = tail.length + 1 := by simp [hev]
              cases hstart : DecisionScheduler.start head.receiveTimestamp
                  d.settings.featureInterval d.settings.signalInterval with
              | none =>
                  refine Or.inr ⟨?_, by simp, ?_⟩
                  · have hnot : d.watermark.any (target ≤ ·) = false := by
                      cases hw : d.watermark with
                      | none => rfl
                      | some w => simpa using hahead w hw
                    simp [ReceiveTimeFeatureDriver.advanceLocked, hnot, hlen,
                      deliverDue_start_fails hscheduler hev hhead hstart]
                  · simpa [DecisionScheduler.start] using hstart
              | some s =>
                  obtain ⟨hsready, hf, hsig⟩ := DecisionScheduler.readyAt_start hstart
                  have hready : ({ d with scheduler := some s } :
                      ReceiveTimeFeatureDriver).ReadyAt head.receiveTimestamp :=
                    ⟨s, rfl, hsready, hf, hsig⟩
                  have hfrom : ∀ q ∈ d.events, head.receiveTimestamp ≤ q.receiveTimestamp := by
                    intro q hq
                    rw [hev] at hsorted hq
                    rcases List.mem_cons.mp hq with rfl | hq
                    · exact le_rfl
                    · exact (List.pairwise_cons.mp hsorted).1 q hq
                  obtain ⟨d₁, d₂, hdeliver, hemit, actions, hhands, hevents, hready₂, hdrain,
                    hout⟩ := deliverDue_then_emit target (d := { d with scheduler := some s })
                      (le_refl _) hsorted hready hfrom hhead
                  have hmoves : d.Moves head.receiveTimestamp target d₂ :=
                    ⟨actions, ⟨hhands.handed, hhands.settings, hhands.ordinal, hhands.watermark,
                      hhands.maximumSeen, hhands.isSealed, hhands.failure⟩, hevents, hready₂,
                      hdrain, hout⟩
                  have hdeliver' : deliverDue target d.events.length d = (d₁, none) := by
                    rw [hlen, deliverDue_start hscheduler hev hhead hstart, ← hlen]
                    exact hdeliver
                  exact Or.inl (hfinish hdeliver' hemit hmoves
                    (woven_of_moves_start htimeline hmoves hev hhead))
    | cons first rest =>
        obtain ⟨w, hw, hfirst, hready, htimeline⟩ := hwoven
        obtain ⟨d₁, d₂, hdeliver, hemit, hmoves⟩ := deliverDue_then_emit target le_rfl hsorted
          hready (fun q hq => (hinv.ahead q hq w hw).le) (hahead w hw).le
        have hbehind : ∀ q ∈ first :: rest, q.receiveTimestamp ≤ w := by
          intro q hq
          obtain ⟨w', hw', hle⟩ := hinv.behind q hq
          obtain rfl : w = w' := by simpa [hw] using hw'
          exact hle
        exact Or.inl (hfinish hdeliver hemit hmoves (woven_of_moves hmoves (hahead w hw) hfirst
          htimeline hbehind fun q hq => hinv.ahead q hq w hw))

theorem Ordered.advanceLocked (hinv : Ordered identity published delivered d) {target : Int}
    (h : d.advanceLocked target = (d', none)) : Commits identity published d target d' := by
  rcases hinv.advanceLocked_cases target with ⟨d₁, heq, hcommits⟩ | ⟨heq, -⟩
  · obtain rfl : d₁ = d' := by simpa [heq] using h
    exact hcommits
  · simp [heq] at h

/-! ## Calls and runs -/

theorem key_le_of_receiveTimestamp_lt {q r : QueuedFeatureEvent}
    (h : q.receiveTimestamp < r.receiveTimestamp) : q.key ≤ r.key :=
  Prod.Lex.toLex_le_toLex.mpr (Or.inl (Prod.Lex.toLex_lt_toLex.mpr (Or.inl h)))

theorem lt_of_maxOption {a : Option Int} {b t w : Int} (ha : ∀ w, a = some w → w < t) (hb : b < t)
    (h : maxOption a (some b) = some w) : w < t := by
  cases a with
  | none =>
      obtain rfl : b = w := by simpa [maxOption] using h
      exact hb
  | some v =>
      obtain rfl : max v b = w := by simpa [maxOption] using h
      exact max_lt (ha v rfl) hb

/-- Pushing an event ahead of the watermark into a buffer with room keeps the invariant. -/
theorem Ordered.push (hinv : Ordered identity published delivered d) (hopen : d.isSealed = false)
    {event : NormalizedMarketEvent}
    (hahead : ∀ w, d.watermark = some w → w < event.base.localReceiveTimestamp)
    (hroom : d.events.length < d.settings.capacity) (ordinal : Nat) :
    Ordered identity (published ++ [event]) delivered
      { d with
        ordinal
        events := ReceiveTimeFeatureDriver.push d.events
          (queueItem identity event event.base.localReceiveTimestamp ordinal)
        maximumSeen := maxOption d.maximumSeen (some event.base.localReceiveTimestamp) } := by
  set item := queueItem identity event event.base.localReceiveTimestamp ordinal with hitem
  have hperm : (ReceiveTimeFeatureDriver.push d.events item).Perm (item :: d.events) :=
    List.perm_orderedInsert _ item d.events
  have hmem : ∀ q, q ∈ delivered ++ ReceiveTimeFeatureDriver.push d.events item ↔
      q ∈ delivered ++ d.events ∨ q = item := by
    intro q
    rw [List.mem_append, hperm.mem_iff, List.mem_cons, List.mem_append]
    tauto
  have hsplit := List.pairwise_append.mp hinv.sorted
  exact
    { sorted := by
        refine List.pairwise_append.mpr ⟨hsplit.1, ?_, fun q hq r hr => ?_⟩
        · have : IsTrans QueuedFeatureEvent fun q r => q.key ≤ r.key := ⟨fun _ _ _ => le_trans⟩
          have : Std.Total fun q r : QueuedFeatureEvent => q.key ≤ r.key :=
            ⟨fun q r => le_total q.key r.key⟩
          exact hsplit.2.1.orderedInsert item
        · rcases List.mem_cons.mp (hperm.mem_iff.mp hr) with rfl | hr
          · obtain ⟨w, hw, hle⟩ := hinv.behind q hq
            exact key_le_of_receiveTimestamp_lt (hle.trans_lt (hahead w hw))
          · exact hsplit.2.2 q hq r hr
      queued := by
        intro q hq
        rcases (hmem q).mp hq with hq | rfl
        · exact hinv.queued q hq
        · exact ⟨ordinal, rfl⟩
      perm := by
        have hall : ((delivered ++ ReceiveTimeFeatureDriver.push d.events item).map
            QueuedFeatureEvent.event).Perm
            (event :: (delivered ++ d.events).map QueuedFeatureEvent.event) := by
          have := (hperm.append_left delivered).trans List.perm_middle
          simpa [hitem, queueItem] using this.map QueuedFeatureEvent.event
        exact (hall.trans (hinv.perm.cons event)).trans (List.perm_append_singleton event _).symm
      behind := hinv.behind
      ahead := by
        intro q hq w hw
        rcases List.mem_cons.mp (hperm.mem_iff.mp hq) with rfl | hq
        · exact hahead w hw
        · exact hinv.ahead q hq w hw
      bounded := by
        have := hperm.length_eq
        simp only [List.length_cons] at this
        show (ReceiveTimeFeatureDriver.push d.events item).length ≤ d.settings.capacity
        omega
      seen := by
        intro e he
        cases hm : d.maximumSeen with
        | none =>
            rcases List.mem_append.mp he with he | he
            · obtain ⟨m, hm', -⟩ := hinv.seen e he
              simp [hm] at hm'
            · rw [List.mem_singleton.mp he]
              exact ⟨_, by simp [maxOption], le_rfl⟩
        | some m =>
            refine ⟨max m event.base.localReceiveTimestamp, by simp [maxOption], ?_⟩
            rcases List.mem_append.mp he with he | he
            · obtain ⟨m', hm', hle⟩ := hinv.seen e he
              obtain rfl : m = m' := by simpa [hm] using hm'
              exact hle.trans (le_max_left _ _)
            · rw [List.mem_singleton.mp he]
              exact le_max_right _ _
      seen_mem := by
        intro m hm
        cases hd : d.maximumSeen with
        | none =>
            exact ⟨event, by simp, by simpa [hd, maxOption] using hm⟩
        | some m₀ =>
            obtain rfl : max m₀ event.base.localReceiveTimestamp = m := by
              simpa [hd, maxOption] using hm
            rcases le_total m₀ event.base.localReceiveTimestamp with hle | hle
            · exact ⟨event, by simp, by rw [max_eq_right hle]⟩
            · obtain ⟨e, he, heq⟩ := hinv.seen_mem m₀ hd
              exact ⟨e, by simp [he], by rw [max_eq_left hle, heq]⟩
      woven := by
        have hwoven := hinv.woven
        cases delivered with
        | nil => exact hwoven
        | cons first rest => exact hwoven
      drained := hinv.drained
      flushed := by simp [hopen] }

/-- What a call that returns has found and done. -/
theorem runTransition_ok {r : ReceiveTimeFeatureDriver × Option DriverError}
    (h : runTransition r = (d', none)) : r = (d', none) := by
  obtain ⟨d₁, e⟩ := r
  cases e with
  | none => exact h
  | some e => simp [runTransition] at h

theorem Ordered.publish (hinv : Ordered identity published delivered d)
    {event : NormalizedMarketEvent} (h : d.publish identity event = (d', none)) :
    (∃ delivered', Ordered identity (published ++ [event]) delivered' d') ∧
      d'.isSealed = false ∧ d'.settings = d.settings ∧
      d'.maximumSeen = maxOption d.maximumSeen (some event.base.localReceiveTimestamp) ∧
      d'.watermark = maxOption d.watermark
        (some (event.base.localReceiveTimestamp - d.settings.lateness)) := by
  rw [ReceiveTimeFeatureDriver.publish] at h
  split at h
  · simp at h
  · split at h
    · simp at h
    · rename_i hopen
      split at h
      · simp at h
      · rename_i hlate
        have hopen' : d.isSealed = false := by simpa using hopen
        have hahead : ∀ w, d.watermark = some w → w < event.base.localReceiveTimestamp := by
          intro w hw
          simpa [hw] using hlate
        have hlocked := runTransition_ok h
        rw [publishLocked] at hlocked
        split at hlocked
        · simp at hlocked
        · rename_i d₁ hadvance
          obtain ⟨⟨delivered', hinv₁⟩, hadv, hwatermark⟩ := hinv.advanceLocked hadvance
          split at hlocked
          · simp at hlocked
          · rename_i hfull
            rw [Prod.mk.injEq] at hlocked
            rw [← hlocked.1]
            have hlateness := d.settings.lateness_pos
            have hahead₁ : ∀ w, d₁.watermark = some w →
                w < event.base.localReceiveTimestamp := fun w hw =>
              lt_of_maxOption hahead (by omega) (hwatermark ▸ hw)
            have hsealed : d₁.isSealed = false := hadv.isSealed.trans hopen'
            exact ⟨⟨delivered', hinv₁.push hsealed hahead₁ (by omega) (d₁.ordinal + 1)⟩, hsealed,
              hadv.settings, by rw [hadv.maximumSeen], hwatermark⟩

theorem Ordered.advanceTo (hinv : Ordered identity published delivered d) {timestamp : Int}
    (h : d.advanceTo timestamp = (d', none)) :
    (∃ delivered', Ordered identity published delivered' d') ∧ Advanced d d' ∧
      (d'.watermark = d.watermark ∨ d'.watermark = maxOption d.watermark (some timestamp)) := by
  rw [ReceiveTimeFeatureDriver.advanceTo] at h
  split at h
  · simp at h
  · split at h
    · obtain rfl : d = d' := by simpa using h
      exact ⟨⟨delivered, hinv⟩, ⟨rfl, rfl, rfl, rfl, rfl⟩, Or.inl rfl⟩
    · obtain ⟨hinv', hadv, hw⟩ := hinv.advanceLocked (runTransition_ok h)
      exact ⟨hinv', hadv, Or.inr hw⟩

/-- Sealing an emptied driver keeps the invariant. -/
theorem Ordered.seal (hinv : Ordered identity published delivered d) (hempty : d.events = []) :
    Ordered identity published delivered
      { d with handed := d.handed ++ [.drain], isSealed := true } where
  sorted := hinv.sorted
  queued := hinv.queued
  perm := hinv.perm
  behind := hinv.behind
  ahead := hinv.ahead
  bounded := hinv.bounded
  seen := hinv.seen
  seen_mem := hinv.seen_mem
  woven := by
    have htimeline : ({ d with handed := d.handed ++ [.drain], isSealed := true } :
        ReceiveTimeFeatureDriver).timeline = d.timeline := by
      simp [timeline]
    have hwoven := hinv.woven
    cases delivered with
    | nil => exact ⟨hwoven.1, htimeline.trans hwoven.2⟩
    | cons first rest =>
        obtain ⟨w, hw, hle, hready, hwoven⟩ := hwoven
        exact ⟨w, hw, hle, hready, htimeline.trans hwoven⟩
  drained := hinv.drained.append (ticksFollowDrain_of_no_tick (by simp))
  flushed := fun _ => hempty

/-- A watermark at or past everything seen leaves no event buffered. -/
theorem Ordered.events_eq_nil (hinv : Ordered identity published delivered d)
    (h : ∀ m, d.maximumSeen = some m → ∃ w, d.watermark = some w ∧ m ≤ w) : d.events = [] := by
  rw [List.eq_nil_iff_forall_not_mem]
  intro q hq
  obtain ⟨n, hitem⟩ := hinv.queued q (List.mem_append_right _ hq)
  have hpub : q.event ∈ published :=
    hinv.perm.mem_iff.mp (List.mem_map.mpr ⟨q, List.mem_append_right _ hq, rfl⟩)
  obtain ⟨m, hm, hle⟩ := hinv.seen _ hpub
  obtain ⟨w, hw, hmw⟩ := h m hm
  have hlt := hinv.ahead q hq w hw
  have htime : q.receiveTimestamp = q.event.base.localReceiveTimestamp := by
    rw [hitem]
    rfl
  omega

/-- The spec of `finish` on an open driver: everything published has been delivered. -/
theorem Ordered.finish (hinv : Ordered identity published delivered d) {through : Option Int}
    (h : d.finish through = (d', none)) :
    (∃ delivered', Ordered identity published delivered' d') ∧ d'.events = [] ∧
      d'.isSealed = true ∧ d'.settings = d.settings ∧
      (d.isSealed = false → d'.watermark = match maxOption d.maximumSeen through with
        | none => d.watermark
        | some target => maxOption d.watermark (some target)) := by
  rw [ReceiveTimeFeatureDriver.finish] at h
  split at h
  · simp at h
  · split at h
    · rename_i hsealed
      obtain rfl : d = d' := by simpa using h
      exact ⟨⟨delivered, hinv⟩, hinv.flushed hsealed, hsealed, rfl, by simp [hsealed]⟩
    · have hlocked := runTransition_ok h
      rw [finishLocked] at hlocked
      cases htarget : maxOption d.maximumSeen through with
      | none =>
          have hseen : d.maximumSeen = none := by
            cases hm : d.maximumSeen with
            | none => rfl
            | some m => cases through <;> simp [hm, maxOption] at htarget
          have hempty := hinv.events_eq_nil (by simp [hseen])
          simp only [htarget, Prod.mk.injEq, and_true] at hlocked
          rw [← hlocked]
          exact ⟨⟨delivered, hinv.seal hempty⟩, hempty, rfl, rfl, fun _ => rfl⟩
      | some target =>
          simp only [htarget] at hlocked
          cases hadvance : d.advanceLocked target with
          | mk d₁ e =>
              rw [hadvance] at hlocked
              cases e with
              | some e => simp at hlocked
              | none =>
                  simp only [Prod.mk.injEq, and_true] at hlocked
                  obtain ⟨⟨delivered', hinv₁⟩, hadv, hwatermark⟩ := hinv.advanceLocked hadvance
                  have hempty : d₁.events = [] := hinv₁.events_eq_nil (by
                    intro m hm
                    rw [hadv.maximumSeen] at hm
                    have hle : m ≤ target := by
                      cases through with
                      | none =>
                          obtain rfl : m = target := by simpa [hm, maxOption] using htarget
                          exact le_rfl
                      | some t =>
                          obtain rfl : max m t = target := by
                            simpa [hm, maxOption] using htarget
                          exact le_max_left _ _
                    rw [hwatermark]
                    cases hw : d.watermark with
                    | none => exact ⟨target, rfl, hle⟩
                    | some w => exact ⟨max w target, rfl, hle.trans (le_max_right _ _)⟩)
                  rw [← hlocked]
                  exact ⟨⟨delivered', hinv₁.seal hempty⟩, hempty, rfl, hadv.settings,
                    fun _ => hwatermark⟩

theorem ordered_new (identity : PayloadIdentity) (settings : DriverSettings) :
    Ordered identity [] [] (new settings) where
  sorted := by simp [new]
  queued := by simp [new]
  perm := by simp [new]
  behind := by simp
  ahead := by simp [new]
  bounded := by simp [new]
  seen := by simp
  seen_mem := by simp [new]
  woven := ⟨rfl, rfl⟩
  drained := ticksFollowDrain_of_no_tick (by simp [new])
  flushed := fun _ => rfl

end ReceiveTimeFeatureDriver

end Cvf
