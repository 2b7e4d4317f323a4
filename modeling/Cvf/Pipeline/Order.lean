/-
# Cvf.Pipeline.Order — when all consumers see one order.

The bus orders each consumer's queue and nothing across queues.  A call suspended on a full queue has
entered the queues before it; a later call may then reach that queue, find a slot that has been freed
but not refilled, and enter it first: two consumers see the two events in opposite orders
(`overtaken_on_full_queue`).

When no call reaches a queue on which another call is suspended, a call never passes an earlier one:
whatever has entered a queue is a prefix of the calls in the order they started.
-/
import Cvf.Pipeline.Delivery

namespace Cvf

open Cvf.Library

variable {ι E : Type*}

/-! ## Prefixes of one sequence -/

/-- A prefix that has everything before `x` and not `x` ends there. -/
theorem eq_of_prefix_of_notMem {xs pre post : List Nat} {x : Nat} (h : xs <+: pre ++ x :: post)
    (hx : x ∉ xs) (hpre : ∀ y ∈ pre, y ∈ xs) (hnodup : (pre ++ x :: post).Nodup) : xs = pre := by
  obtain ⟨rest, hrest⟩ := h
  rcases List.append_eq_append_iff.mp hrest with ⟨tail, hpreEq, -⟩ | ⟨tail, hxs, hpost⟩
  · cases tail with
    | nil => simpa using hpreEq.symm
    | cons y tail =>
        -- an element of `pre` past the end of `xs` would occur twice
        have hy : y ∈ xs := hpre y (by rw [hpreEq]; simp)
        rw [hpreEq] at hnodup
        have hdisjoint := List.disjoint_of_nodup_append (List.nodup_append.mp hnodup).1
        exact absurd (List.mem_cons_self) (hdisjoint hy)
  · cases tail with
    | nil => simpa using hxs
    | cons y tail =>
        rw [List.cons_append] at hpost
        obtain ⟨rfl, -⟩ := List.cons.inj hpost
        exact absurd (by rw [hxs]; simp) hx

/-- Any two entries of both lists come in the same order in both. -/
def AgreeOnOrder (xs ys : List Nat) : Prop :=
  ∀ a ∈ xs, ∀ b ∈ xs, a ∈ ys → b ∈ ys → ([a, b].Sublist xs ↔ [a, b].Sublist ys)

instance (xs ys : List Nat) : Decidable (AgreeOnOrder xs ys) := by
  unfold AgreeOnOrder
  infer_instance

theorem agreeOnOrder_of_initial {xs ys : List Nat} (h : xs <+: ys) (hnodup : ys.Nodup) :
    AgreeOnOrder xs ys := by
  obtain ⟨rest, rfl⟩ := h
  intro a ha b hb _ _
  constructor
  · exact fun hab => hab.trans (List.sublist_append_left _ _)
  · intro hab
    obtain ⟨l₁, l₂, heq, h₁, h₂⟩ := List.sublist_append_iff.mp hab
    have hdisjoint := List.disjoint_of_nodup_append hnodup
    cases l₂ with
    | nil => simpa [heq] using h₁
    | cons c l₂ =>
        -- one of the two would come after `xs`
        have hc : c ∈ [a, b] := by simp [heq]
        have hcxs : c ∈ xs := by
          rcases List.mem_pair.mp hc with rfl | rfl
          · exact ha
          · exact hb
        exact absurd (h₂.subset List.mem_cons_self) (hdisjoint hcxs)

/-- Two prefixes of one sequence agree on their order. -/
theorem agreeOnOrder_of_initials {xs ys zs : List Nat} (hx : xs <+: zs) (hy : ys <+: zs)
    (hnodup : zs.Nodup) : AgreeOnOrder xs ys := by
  rcases List.prefix_or_prefix_of_prefix hx hy with h | h
  · exact agreeOnOrder_of_initial h (hy.sublist.nodup hnodup)
  · intro a hax b hbx hay hby
    exact (agreeOnOrder_of_initial h (hx.sublist.nodup hnodup) a hay b hby hax hbx).symm

namespace NormalizedEventBus

/-! ## The invariant -/

/-- The call `c` has returned or stands at a later consumer than `c'`. -/
def PublishCall.Ahead (c c' : PublishCall ι E) : Prop :=
  c.remaining = [] ∨
    (c.remaining <:+ c'.remaining ∧ c.remaining.length < c'.remaining.length)

/-- No call has passed an earlier one. -/
structure InOrder (bus : NormalizedEventBus ι E) : Prop where
  nodup : bus.started.Nodup
  started_iff : ∀ id, id ∈ bus.started ↔ ∃ call, bus.calls id = some call
  ahead : bus.started.Pairwise fun i j => ∀ ci cj, bus.calls i = some ci → bus.calls j = some cj →
    PublishCall.Ahead ci cj
  entered : ∀ name ∈ bus.names, (bus.consumers name).entered.map BusItem.call <+: bus.started

/-- A call that moves on keeps its place: it stays behind the earlier calls `pre` and ahead of the later
ones `post`, and the earlier calls have entered every queue it enters. -/
theorem InOrder.feed {bus bus' : NormalizedEventBus ι E} {id : Nat} {call : PublishCall ι E}
    {fed : List ι} {pre post : List Nat} (h : bus.Delivering)
    (hs : FeedStep bus bus' id call fed) (hstarted : bus'.started = pre ++ id :: post)
    (hnodup : (pre ++ id :: post).Nodup)
    (hcalls : ∀ other, other ∈ pre ++ post ↔ other ≠ id ∧ ∃ c, bus.calls other = some c)
    (hahead : (pre ++ post).Pairwise fun i j =>
      ∀ ci cj, bus.calls i = some ci → bus.calls j = some cj → PublishCall.Ahead ci cj)
    (hpre : ∀ i ∈ pre, ∀ ci, bus.calls i = some ci → PublishCall.Ahead ci call)
    (hpost : ∀ j ∈ post, ∀ cj, bus.calls j = some cj → PublishCall.Ahead call cj)
    (hentered : ∀ name ∈ bus.names,
      (bus.consumers name).entered.map BusItem.call <+: pre ++ id :: post)
    (hearlier : ∀ name ∈ fed, ∀ i ∈ pre, bus.HasEntered i name) : bus'.InOrder := by
  have hne : ∀ other ∈ pre ++ post, other ≠ id := fun other hother => ((hcalls other).mp hother).1
  rw [List.pairwise_append] at hahead
  obtain ⟨hpairPre, hpairPost, hpairBoth⟩ := hahead
  refine ⟨hstarted ▸ hnodup, ?_, ?_, ?_⟩
  · intro other
    have hmem : other ∈ pre ++ id :: post ↔ other = id ∨ other ∈ pre ++ post := by
      simp only [List.mem_append, List.mem_cons]
      tauto
    rw [hstarted, hmem]
    by_cases hid : other = id
    · subst hid
      simp [hs.calls_self]
    · rw [hcalls, hs.calls_of_ne hid]
      simp [hid]
  · rw [hstarted, List.pairwise_append, List.pairwise_cons]
    refine ⟨?_, ⟨?_, ?_⟩, ?_⟩
    · apply hpairPre.imp_of_mem
      intro i j hi hj hij
      rw [hs.calls_of_ne (hne i (List.mem_append_left _ hi)),
        hs.calls_of_ne (hne j (List.mem_append_left _ hj))]
      exact hij
    · intro j hj ci cj hci hcj
      rw [hs.calls_self] at hci
      rw [hs.calls_of_ne (hne j (List.mem_append_right _ hj))] at hcj
      rw [← Option.some.inj hci]
      exact hpost j hj cj hcj
    · apply hpairPost.imp_of_mem
      intro i j hi hj hij
      rw [hs.calls_of_ne (hne i (List.mem_append_right _ hi)),
        hs.calls_of_ne (hne j (List.mem_append_right _ hj))]
      exact hij
    · intro i hi j hj ci cj hci hcj
      rw [hs.calls_of_ne (hne i (List.mem_append_left _ hi))] at hci
      rcases List.mem_cons.mp hj with rfl | hj
      · rw [hs.calls_self] at hcj
        rw [← Option.some.inj hcj]
        exact hpre i hi ci hci
      · rw [hs.calls_of_ne (hne j (List.mem_append_right _ hj))] at hcj
        exact hpairBoth i hi j hj ci cj hci hcj
  · intro name hname
    rw [hs.names] at hname
    rw [hstarted]
    by_cases hin : name ∈ fed
    · -- exactly the earlier calls have entered this queue
      have hiff := (h.consumers name hname).entered_iff
      have hexact := eq_of_prefix_of_notMem (hentered name hname)
        (by rw [hiff]; exact hs.fresh name hin)
        (fun i hi => (hiff i).mpr (hearlier name hin i hi)) hnodup
      rw [(hs.fedTo name hin).entered, List.map_append, hexact]
      exact ⟨post, by simp⟩
    · rw [(hs.alike name hin).entered]
      exact hentered name hname

/-- A step that moves no call keeps the order. -/
theorem InOrder.congr {bus bus' : NormalizedEventBus ι E} (h : bus.InOrder)
    (hnames : bus'.names = bus.names) (hstarted : bus'.started = bus.started)
    (hcalls : bus'.calls = bus.calls)
    (hentered : ∀ name, (bus'.consumers name).entered = (bus.consumers name).entered) :
    bus'.InOrder := by
  obtain ⟨hnodup, hiff, hahead, hinvoked⟩ := h
  refine ⟨?_, ?_, ?_, ?_⟩
  · rw [hstarted]
    exact hnodup
  · rw [hstarted, hcalls]
    exact hiff
  · rw [hstarted, hcalls]
    exact hahead
  · intro name hname
    rw [hnames] at hname
    rw [hstarted, hentered]
    exact hinvoked name hname

/-- The calls around one that has started. -/
theorem InOrder.split {bus : NormalizedEventBus ι E} (h : bus.InOrder) {id : Nat}
    {old : PublishCall ι E} (hid : bus.calls id = some old) :
    ∃ pre post, bus.started = pre ++ id :: post ∧
      (∀ other, other ∈ pre ++ post ↔ other ≠ id ∧ ∃ c, bus.calls other = some c) ∧
      ((pre ++ post).Pairwise fun i j =>
        ∀ ci cj, bus.calls i = some ci → bus.calls j = some cj → PublishCall.Ahead ci cj) ∧
      (∀ i ∈ pre, ∀ ci, bus.calls i = some ci → PublishCall.Ahead ci old) ∧
      (∀ j ∈ post, ∀ cj, bus.calls j = some cj → PublishCall.Ahead old cj) := by
  obtain ⟨pre, post, hstarted⟩ := List.append_of_mem ((h.started_iff id).mpr ⟨old, hid⟩)
  have hnodup := h.nodup
  have hahead := h.ahead
  rw [hstarted] at hnodup hahead
  have hpair := hahead
  rw [List.pairwise_append, List.pairwise_cons] at hahead
  obtain ⟨-, ⟨hpost, -⟩, hboth⟩ := hahead
  refine ⟨pre, post, hstarted, ?_, ?_, ?_, ?_⟩
  · intro other
    have hnotMem : id ∉ pre ++ post := (List.nodup_middle.mp hnodup).notMem
    have hiff := h.started_iff other
    rw [hstarted] at hiff
    constructor
    · intro hmem
      refine ⟨fun heq => hnotMem (heq ▸ hmem), hiff.mp ?_⟩
      simp only [List.mem_append, List.mem_cons] at hmem ⊢
      tauto
    · rintro ⟨hne, hcall⟩
      have hmem := hiff.mpr hcall
      simp only [List.mem_append, List.mem_cons] at hmem ⊢
      tauto
  · exact hpair.sublist ((List.Sublist.refl pre).append (List.sublist_cons_self id post))
  · exact fun i hi ci hci => hboth i hi id List.mem_cons_self ci old hci hid
  · exact fun j hj cj hcj => hpost j hj old cj hid hcj

/-- A call that stays where it is: its put may have been done meanwhile, when every earlier call has
entered the queue. -/
theorem InOrder.feed_standing {bus bus' : NormalizedEventBus ι E} (h : bus.Delivering)
    (horder : bus.InOrder) {id : Nat} {event : E} {remaining : List ι} {old put : PutPhase}
    {fed : List ι} (hid : bus.calls id = some { event, remaining, put := old })
    (hs : FeedStep bus bus' id { event, remaining, put } fed) (hstarted : bus'.started = bus.started)
    (hfed : ∀ name ∈ fed, remaining.head? = some name) : bus'.InOrder := by
  obtain ⟨pre, post, hsplit, hcalls, hahead, hpre, hpost⟩ := horder.split hid
  have hnodup := horder.nodup
  have hentered := horder.entered
  rw [hsplit] at hnodup hentered
  have hsuffix : remaining <:+ bus.names := h.suffix id _ hid
  refine InOrder.feed h hs (hstarted.trans hsplit) hnodup hcalls hahead hpre hpost hentered ?_
  intro name hname i hi
  obtain ⟨-, ci, hci⟩ := (hcalls i).mp (List.mem_append_left post hi)
  refine ⟨ci, hci, Or.inl ?_⟩
  obtain ⟨names, rfl⟩ : ∃ names, remaining = name :: names := by
    have hhead := hfed name hname
    cases remaining with
    | nil => cases hhead
    | cons n names => exact ⟨names, by rw [Option.some.inj hhead]⟩
  rcases hpre i hi ci hci with hreturned | ⟨hbehind, hlength⟩
  · simp [hreturned]
  · rcases List.suffix_cons_iff.mp hbehind with heq | hbehind
    · rw [heq] at hlength
      exact absurd hlength (lt_irrefl _)
    · intro hmem
      exact (List.nodup_cons.mp (hsuffix.nodup bus.names_nodup)).1 (hbehind.subset hmem)

/-! ## Unobstructed walks -/

/-- The consumers a call is about to walk over. -/
def walk? (bus : NormalizedEventBus ι E) : BusInput ι E → Option (Nat × List ι)
  | .publish id _ =>
    match bus.calls id with
    | some _ => none
    | none => some (id, bus.names)
  | .resumePublish id =>
    match bus.calls id with
    | some { remaining := _ :: names, put := .done, .. } => some (id, names)
    | _ => none
  | _ => none

/-- No other call is suspended on a queue the call reaches. -/
def Unobstructed (bus : NormalizedEventBus ι E) (input : BusInput ι E) : Prop :=
  ∀ walk ∈ bus.walk? input, ∀ other ∈ bus.started, other ≠ walk.1 → ∀ call ∈ bus.calls other,
    ∀ name ∈ call.remaining.head?, name ∉ bus.reached walk.2

/-- A call suspended beyond the queues a walk reaches stays ahead of it. -/
theorem ahead_of_unreached {c : PublishCall ι E} {passed rest : List ι} {event : E} {put : PutPhase}
    (hsuffix : c.remaining <:+ passed ++ rest)
    (hfree : ∀ name ∈ c.remaining.head?, name ∉ passed ++ rest.head?.toList) :
    PublishCall.Ahead c { event, remaining := rest, put } := by
  unfold PublishCall.Ahead
  cases hremaining : c.remaining with
  | nil => exact Or.inl rfl
  | cons n ns =>
      right
      rw [hremaining] at hsuffix hfree
      have hnot := hfree n (by simp)
      rw [List.mem_append, not_or] at hnot
      have hhead : rest ≠ n :: ns := by
        rintro rfl
        exact hnot.2 (by simp)
      rcases List.suffix_or_suffix_of_suffix hsuffix (List.suffix_append passed rest) with h | h
      · refine ⟨h, lt_of_le_of_ne h.length_le ?_⟩
        intro hlength
        exact hhead (h.eq_of_length hlength).symm
      · -- the walk would have passed `n`
        obtain ⟨t, ht⟩ := h
        obtain ⟨s, hs⟩ := hsuffix
        rw [← ht, ← List.append_assoc] at hs
        have hpassed : s ++ t = passed := List.append_cancel_right hs
        cases t with
        | nil => exact absurd ht hhead
        | cons m t =>
            obtain ⟨rfl, -⟩ := List.cons.inj ht
            exact absurd (by rw [← hpassed]; simp) hnot.1

theorem hasEntered_of_ahead {bus : NormalizedEventBus ι E} {names passed rest : List ι}
    (hnodup : names.Nodup) (hnames : names = passed ++ rest) {i : Nat} {ci : PublishCall ι E}
    (hci : bus.calls i = some ci) {event : E} {put : PutPhase}
    (hahead : PublishCall.Ahead ci { event, remaining := rest, put }) {name : ι}
    (hname : name ∈ passed) : bus.HasEntered i name := by
  refine ⟨ci, hci, Or.inl ?_⟩
  rw [hnames] at hnodup
  rcases hahead with hreturned | ⟨hsuffix, -⟩
  · simp [hreturned]
  · exact fun hmem => List.disjoint_of_nodup_append hnodup hname (hsuffix.subset hmem)

theorem wake_inOrder {bus : NormalizedEventBus ι E} (h : bus.Delivering) (horder : bus.InOrder)
    (woken : Option Nat) : (bus.wake woken).InOrder := by
  cases woken with
  | none => exact horder
  | some id =>
      simp only [wake]
      split
      · rename_i event remaining hid
        have hs : FeedStep bus (bus.setCall id { event, remaining, put := .woken }) id
            { event, remaining, put := .woken } [] :=
          feedStep_of_put h hid (by simp) (by simp) rfl rfl rfl
            fun name => ConsumerRuntime.Alike.refl _
        exact horder.feed_standing h hid hs rfl (by simp)
      · exact horder

variable [DecidableEq ι]

instance (bus : NormalizedEventBus ι E) (input : BusInput ι E) : Decidable (bus.Unobstructed input) :=
  inferInstanceAs (Decidable (∀ walk ∈ bus.walk? input, ∀ other ∈ bus.started, other ≠ walk.1 →
    ∀ call ∈ bus.calls other, ∀ name ∈ call.remaining.head?, name ∉ bus.reached walk.2))

theorem publish_inOrder {bus : NormalizedEventBus ι E} (h : bus.Delivering) (horder : bus.InOrder)
    {id : Nat} {event : E} (hid : bus.calls id = none)
    (hfree : bus.Unobstructed (.publish id event)) : (bus.step (.publish id event)).InOrder := by
  obtain ⟨passed, rest, put, hw⟩ := publish_walked hid event
  have hreached : bus.reached bus.names = passed ++ rest.head?.toList := by
    rw [← hw.reached]
    exact reached_congr fun _ _ => rfl
  have hahead : ∀ i ∈ bus.started, ∀ ci, bus.calls i = some ci →
      PublishCall.Ahead ci { event, remaining := rest, put } := by
    intro i hi ci hci
    apply ahead_of_unreached
    · rw [← hw.names_eq]
      exact h.suffix i ci hci
    · rw [← hreached]
      refine hfree (id, bus.names) (by simp only [walk?, hid, Option.mem_some_iff]) i hi ?_ ci hci
      rintro rfl
      rw [hid] at hci
      cases hci
  have hnotStarted : id ∉ bus.started := by
    rw [horder.started_iff, hid]
    rintro ⟨c, hc⟩
    cases hc
  refine InOrder.feed h (publish_feedStep hid hw) hw.started ?_ ?_ ?_ hahead (by simp) ?_ ?_
  · refine List.nodup_append.mpr ⟨horder.nodup, by simp, ?_⟩
    rintro a ha b hb rfl
    rw [List.mem_singleton] at hb
    exact hnotStarted (hb ▸ ha)
  · intro other
    rw [List.append_nil, horder.started_iff]
    constructor
    · rintro ⟨c, hc⟩
      refine ⟨?_, c, hc⟩
      rintro rfl
      rw [hid] at hc
      cases hc
    · exact fun hother => hother.2
  · rw [List.append_nil]
    exact horder.ahead
  · intro name hname
    exact (horder.entered name hname).trans (List.prefix_append _ _)
  · intro name hname i hi
    obtain ⟨ci, hci⟩ := (horder.started_iff i).mp hi
    exact hasEntered_of_ahead bus.names_nodup hw.names_eq hci (hahead i hi ci hci) hname

theorem resumePublish_inOrder {bus : NormalizedEventBus ι E} (h : bus.Delivering)
    (horder : bus.InOrder) {id : Nat} {event : E} {name : ι} {names : List ι}
    (hid : bus.calls id = some { event, remaining := name :: names, put := .done })
    (hfree : bus.Unobstructed (.resumePublish id)) : (bus.step (.resumePublish id)).InOrder := by
  obtain ⟨passed, rest, put, hw⟩ := resumePublish_walked h hid
  obtain ⟨pre, post, hsplit, hcalls, hahead, hpre, hpost⟩ := horder.split hid
  have hnodup := horder.nodup
  have hentered := horder.entered
  rw [hsplit] at hnodup hentered
  have hsuffix : (name :: names) <:+ bus.names := h.suffix id _ hid
  have hnames := (List.nodup_cons.mp (hsuffix.nodup bus.names_nodup)).2
  have hne : ∀ i ∈ pre, i ≠ id := fun i hi => ((hcalls i).mp (List.mem_append_left post hi)).1
  have hbehind : ∀ i ∈ pre, ∀ ci, bus.calls i = some ci →
      PublishCall.Ahead ci { event, remaining := rest, put } := by
    intro i hi ci hci
    apply ahead_of_unreached
    · rw [← hw.names_eq]
      rcases hpre i hi ci hci with hreturned | ⟨hbehind, hlength⟩
      · rw [hreturned]
        exact List.nil_suffix
      · rcases List.suffix_cons_iff.mp hbehind with heq | hbehind
        · rw [heq] at hlength
          exact absurd hlength (lt_irrefl _)
        · exact hbehind
    · rw [← hw.reached]
      exact hfree (id, names) (by simp only [walk?, hid, Option.mem_some_iff]) i
        (by rw [hsplit]; exact List.mem_append_left _ hi) (hne i hi) ci hci
  refine InOrder.feed h (resumePublish_feedStep h hid hw) (hw.started.trans hsplit) hnodup hcalls
    hahead hbehind ?_ hentered ?_
  · intro j hj cj hcj
    rcases hpost j hj cj hcj with hreturned | ⟨hafter, hlength⟩
    · cases hreturned
    · have hrest : rest <:+ name :: names := by
        rw [hw.names_eq]
        exact (List.suffix_append passed rest).trans (List.suffix_cons name _)
      right
      exact ⟨hrest.trans hafter, lt_of_le_of_lt hrest.length_le hlength⟩
  · intro n hn i hi
    obtain ⟨-, ci, hci⟩ := (hcalls i).mp (List.mem_append_left post hi)
    exact hasEntered_of_ahead hnames hw.names_eq hci (hbehind i hi ci hci) hn

/-- The step lemma. -/
theorem step_inOrder {bus : NormalizedEventBus ι E} (h : bus.Delivering) (horder : bus.InOrder)
    {input : BusInput ι E} (hfree : bus.Unobstructed input) : (bus.step input).InOrder := by
  cases input with
  | publish id event =>
      cases hid : bus.calls id with
      | some call =>
          have hsame : bus.step (.publish id event) = bus := by simp only [step, hid]
          rw [hsame]
          exact horder
      | none => exact publish_inOrder h horder hid hfree
  | runPut id =>
      by_cases hid : ∃ event name names put,
          bus.calls id = some { event, remaining := name :: names, put }
      · obtain ⟨event, name, names, put, hid⟩ := hid
        have hstarted : (bus.step (.runPut id)).started = bus.started := by
          simp only [step, hid, runPut]
          split
          · rfl
          · rfl
          · split_ifs <;> rfl
        rcases runPut_cases h hid with hsame | hs | ⟨hs, -⟩
        · rw [hsame]
          exact horder
        · exact horder.feed_standing h hid hs hstarted (by simp)
        · exact horder.feed_standing h hid hs hstarted (by simp)
      · have hsame : bus.step (.runPut id) = bus := by
          have hnone : ∀ event name names put,
              bus.calls id ≠ some { event, remaining := name :: names, put } :=
            fun event name names put hcall => hid ⟨event, name, names, put, hcall⟩
          simp only [step]
        rw [hsame]
        exact horder
  | resumePublish id =>
      by_cases hid : ∃ event name names,
          bus.calls id = some { event, remaining := name :: names, put := .done }
      · obtain ⟨event, name, names, hid⟩ := hid
        exact resumePublish_inOrder h horder hid hfree
      · have hsame : bus.step (.resumePublish id) = bus := by
          simp only [step]
          split
          · rename_i hcall
            exact absurd ⟨_, _, _, hcall⟩ hid
          · rfl
        rw [hsame]
        exact horder
  | take name =>
      simp only [step]
      split
      · exact horder
      · rename_i woken runtime htake
        have hentered : runtime.entered = (bus.consumers name).entered := by
          unfold ConsumerRuntime.take at htake
          split at htake
          · obtain ⟨-, rfl⟩ := Prod.mk.inj (Option.some.inj htake)
            rfl
          · cases htake
        apply wake_inOrder (take_delivering h htake)
        refine horder.congr rfl rfl rfl ?_
        intro n
        by_cases hn : n = name
        · subst hn
          simpa [setConsumer] using hentered
        · simp [setConsumer, hn]
  | finishHandling name =>
      refine horder.congr rfl rfl rfl ?_
      intro n
      by_cases hn : n = name
      · subst hn
        simp only [step, setConsumer, Function.update_self, ConsumerRuntime.finishHandling]
        split <;> rfl
      · simp [step, setConsumer, hn]
  | drain d =>
      simp only [step]
      split
      · exact horder
      · exact horder.congr rfl rfl rfl fun _ => rfl
  | runJoin d name => exact horder.congr rfl rfl rfl fun _ => rfl
  | returnDrain d => exact horder.congr rfl rfl rfl fun _ => rfl

/-- In a run in which no publish call reaches a queue on which another call is suspended, the handler
of every consumer is called with a prefix of the published events in the order their calls started, and
any two consumers agree on the order of the events both have handled. -/
theorem consumers_agree_on_order (registered : Registration ι) (inputs : List (BusInput ι E))
    (hinputs : Admitted step Unobstructed (new registered) inputs) :
    let bus := inputs.foldl step (new registered)
    ∀ name ∈ registered.names,
      (bus.consumers name).invoked.map BusItem.call <+: bus.started ∧
      ∀ name' ∈ registered.names,
        AgreeOnOrder ((bus.consumers name).invoked.map BusItem.call)
          ((bus.consumers name').invoked.map BusItem.call) := by
  intro bus
  have hstart : (new registered : NormalizedEventBus ι E).Delivering ∧
      (new registered : NormalizedEventBus ι E).InOrder := by
    refine ⟨new_delivering registered, List.nodup_nil, ?_, List.Pairwise.nil, ?_⟩
    · simp [new]
    · simp [new]
  have hrun := @invariant_of_admitted _ _ step Unobstructed
    (fun bus : NormalizedEventBus ι E => bus.Delivering ∧ bus.InOrder)
    (fun _ _ h hfree => ⟨step_delivering h.1 _, step_inOrder h.1 h.2 hfree⟩) _ hstart inputs hinputs
  obtain ⟨hdelivering, horder⟩ : bus.Delivering ∧ bus.InOrder := hrun
  have hnames : bus.names = registered.names := names_run registered inputs
  have hinvoked : ∀ name ∈ registered.names,
      (bus.consumers name).invoked.map BusItem.call <+: bus.started := by
    intro name hname
    rw [← hnames] at hname
    refine List.IsPrefix.trans ?_ (horder.entered name hname)
    apply List.IsPrefix.map
    rw [(hdelivering.consumers name hname).log, ← List.append_assoc]
    exact List.prefix_append _ _
  intro name hname
  refine ⟨hinvoked name hname, ?_⟩
  intro name' hname'
  exact agreeOnOrder_of_initials (hinvoked name hname) (hinvoked name' hname') horder.nodup

/-! ## A publisher overtaken on a full queue -/

/-- Two consumers, the second with room for one event. -/
def exampleRegistration : Registration Nat :=
  { names := [0, 1], names_nodup := by decide
    capacity := fun name => if name = 0 then 2 else 1
    capacity_pos := by
      intro name
      split <;> decide }

/-- Call 1 waits for a slot of consumer 1; the slot is freed, and call 2 takes it first. -/
def overtakenRun : List (BusInput Nat String) :=
  [.publish 0 "x", .publish 1 "a", .runPut 1, .take 0, .finishHandling 0, .take 1, .publish 2 "b",
    .runPut 1, .finishHandling 1, .take 1, .runPut 1, .resumePublish 1, .finishHandling 1, .take 1,
    .finishHandling 1, .take 0, .finishHandling 0, .take 0, .finishHandling 0]

/-- Both consumers handle the three events, in different orders. -/
theorem overtaken_on_full_queue :
    let bus := overtakenRun.foldl step (new exampleRegistration)
    ((bus.consumers 0).handled.map BusItem.call = [0, 1, 2] ∧
      (bus.consumers 1).handled.map BusItem.call = [0, 2, 1]) ∧
    ¬ AgreeOnOrder ((bus.consumers 0).handled.map BusItem.call)
      ((bus.consumers 1).handled.map BusItem.call) := by
  decide +kernel

/-- The same calls, the third one after the second has returned. -/
def waitingRun : List (BusInput Nat String) :=
  [.publish 0 "x", .publish 1 "a", .runPut 1, .take 0, .finishHandling 0, .take 1, .finishHandling 1,
    .runPut 1, .resumePublish 1, .publish 2 "b", .runPut 2, .take 1, .finishHandling 1, .runPut 2,
    .take 0, .finishHandling 0, .take 0]

theorem consumers_agree_on_order_waiting :
    let bus := waitingRun.foldl step (new exampleRegistration)
    ∀ name ∈ exampleRegistration.names,
      (bus.consumers name).invoked.map BusItem.call <+: bus.started ∧
      ∀ name' ∈ exampleRegistration.names,
        AgreeOnOrder ((bus.consumers name).invoked.map BusItem.call)
          ((bus.consumers name').invoked.map BusItem.call) :=
  consumers_agree_on_order exampleRegistration waitingRun (by decide +kernel)

end NormalizedEventBus

end Cvf
