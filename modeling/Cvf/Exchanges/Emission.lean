/-
# Cvf.Exchanges.Emission — between a payload and the event sink.

What both connectors share: the receipt a payload is normalized with, the normalizer's errors, and the
`BoundedTTLDeduplicator` every event passes on its way to the sink.  The deduplicator remembers
recently emitted event identities, oldest first.  The identity of an event is its content without the
local processing metadata; the source hashes that content with SHA-256, and the hash is taken to be
collision-free here, so the content itself is the identity.
-/
import Cvf.Models

namespace Cvf

/-- When a payload was received and normalized, where its raw bytes are stored, and the monotonic
instant of the deduplication look-up. -/
structure Receipt where
  receivedAt : Int
  normalizedAt : Int
  rawPayloadReference : Option String := none
  monotonicNow : Int
  /-- `normalization timestamp cannot precede receipt` -/
  ordered : receivedAt ≤ normalizedAt
  deriving DecidableEq

/-- A receipt whose instants coincide. -/
def Receipt.instant (t : Int) : Receipt :=
  { receivedAt := t, normalizedAt := t, monotonicNow := t, ordered := le_rfl }

/-- What the normalizer raises. -/
inductive NormalizationError where
  | payload (error : PayloadError)
  /-- A pydantic validator refused the record. -/
  | validation (message : String)
  deriving DecidableEq, Repr

/-- `normalized_event_identity`: the content an identity is computed over. -/
def normalizedEventIdentity (event : NormalizedMarketEvent) : NormalizedMarketEvent :=
  event.withBase fun base =>
    { base with
      localReceiveTimestamp := 0
      normalizationTimestamp := 0
      rawPayloadReference := none }

/-- Entries `(identity, last seen)`, oldest first; instants are those of the monotonic clock.  The
connectors identify events by their content and read the clock in whole units. -/
structure BoundedTTLDeduplicator (ι : Type := NormalizedMarketEvent) (τ : Type := Int) [Zero τ]
    [LT τ] where
  capacity : Nat
  ttl : τ
  /-- `capacity must be positive` -/
  capacity_pos : 1 ≤ capacity
  /-- `ttl_seconds must be positive` -/
  ttl_pos : 0 < ttl
  entries : List (ι × τ) := []
  lastNow : Option τ := none

namespace BoundedTTLDeduplicator

section

variable {ι τ : Type} [DecidableEq ι] [LinearOrder τ] [Zero τ] [Sub τ]

/-- `_expire`. -/
def expire (dedupe : BoundedTTLDeduplicator ι τ) (now : τ) : List (ι × τ) :=
  dedupe.entries.dropWhile fun entry => dedupe.ttl ≤ now - entry.2

/-- `seen_or_add`; `none` is `ValueError("monotonic time cannot move backwards")`. -/
def seenOrAdd (dedupe : BoundedTTLDeduplicator ι τ) (identity : ι) (now : τ) :
    Option (BoundedTTLDeduplicator ι τ × Bool) :=
  if dedupe.lastNow.any (now < ·) then none
  else
    let live := dedupe.expire now
    if identity ∈ live.map Prod.fst then
      some ({ dedupe with
        entries := live.filter (·.1 ≠ identity) ++ [(identity, now)]
        lastNow := some now }, true)
    else
      let added := live ++ [(identity, now)]
      some ({ dedupe with
        entries := if dedupe.capacity < added.length then added.drop 1 else added
        lastNow := some now }, false)

end

/-- The identities currently remembered. -/
def identities (dedupe : BoundedTTLDeduplicator) : List NormalizedMarketEvent :=
  dedupe.entries.map Prod.fst

/-- What one look-up does to the remembered identities: a duplicate was remembered, and whatever is
remembered afterwards was remembered before or is the identity itself. -/
theorem seenOrAdd_spec {dedupe : BoundedTTLDeduplicator} {identity : NormalizedMarketEvent}
    {now : Int} (hnow : ∀ t, dedupe.lastNow = some t → t ≤ now) :
    ∃ dedupe' seen, dedupe.seenOrAdd identity now = some (dedupe', seen) ∧
      dedupe'.lastNow = some now ∧
      (seen = true → identity ∈ dedupe.identities) ∧
      ∀ i ∈ dedupe'.identities, i = identity ∨ i ∈ dedupe.identities := by
  have hforward : dedupe.lastNow.any (now < ·) = false := by
    cases h : dedupe.lastNow with
    | none => rfl
    | some t => simpa using hnow t h
  have hexpire : ∀ i ∈ (dedupe.expire now).map Prod.fst, i ∈ dedupe.identities := fun i hi =>
    ((List.dropWhile_sublist _).map Prod.fst).subset hi
  rw [seenOrAdd, hforward]
  simp only [Bool.false_eq_true, if_false]
  split
  · rename_i hmem
    refine ⟨_, true, rfl, rfl, fun _ => hexpire identity hmem, fun i hi => ?_⟩
    simp only [identities, List.map_append, List.map_cons, List.map_nil, List.mem_append,
      List.mem_singleton] at hi
    rcases hi with hi | hi
    · exact Or.inr (hexpire i ((List.filter_sublist.map Prod.fst).subset hi))
    · exact Or.inl hi
  · refine ⟨_, false, rfl, rfl, by simp, fun i hi => ?_⟩
    have hsub : i ∈ (dedupe.expire now ++ [(identity, now)]).map Prod.fst := by
      simp only [identities] at hi
      split at hi
      · exact ((List.drop_sublist 1 _).map Prod.fst).subset hi
      · exact hi
    simp only [List.map_append, List.map_cons, List.map_nil, List.mem_append,
      List.mem_singleton] at hsub
    rcases hsub with hsub | hsub
    · exact Or.inr (hexpire i hsub)
    · exact Or.inl hsub

/-- `_emit_events`: what reaches the sink.  A duplicate is skipped, and a look-up that raises ends the
batch. -/
def emitEvents (dedupe : BoundedTTLDeduplicator) (now : Int) :
    List NormalizedMarketEvent → BoundedTTLDeduplicator × List NormalizedMarketEvent
  | [] => (dedupe, [])
  | event :: rest =>
    match dedupe.seenOrAdd (normalizedEventIdentity event) now with
    | none => (dedupe, [])
    | some (dedupe, true) => emitEvents dedupe now rest
    | some (dedupe, false) => ((emitEvents dedupe now rest).1, event :: (emitEvents dedupe now rest).2)

/-- The first event of a batch, when the monotonic clock has not gone back: it reaches the sink unless
its identity is still remembered. -/
theorem emitEvents_cons {dedupe : BoundedTTLDeduplicator} {now : Int}
    (hnow : ∀ t, dedupe.lastNow = some t → t ≤ now) (event : NormalizedMarketEvent)
    (rest : List NormalizedMarketEvent) :
    ∃ dedupe' : BoundedTTLDeduplicator, dedupe'.lastNow = some now ∧
      (∀ i ∈ dedupe'.identities, i = normalizedEventIdentity event ∨ i ∈ dedupe.identities) ∧
      (dedupe.emitEvents now (event :: rest) =
          ((dedupe'.emitEvents now rest).1, event :: (dedupe'.emitEvents now rest).2) ∨
        normalizedEventIdentity event ∈ dedupe.identities ∧
          dedupe.emitEvents now (event :: rest) = dedupe'.emitEvents now rest) := by
  obtain ⟨dedupe', seen, hlookup, hlast, hseen, hkept⟩ := seenOrAdd_spec hnow
  refine ⟨dedupe', hlast, hkept, ?_⟩
  cases seen with
  | true => exact Or.inr ⟨hseen rfl, by simp only [emitEvents, hlookup]⟩
  | false => exact Or.inl (by simp only [emitEvents, hlookup])

/-- A batch is emitted piece by piece: after a look-up that raised, every later one raises too. -/
theorem emitEvents_append (dedupe : BoundedTTLDeduplicator) (now : Int)
    (events rest : List NormalizedMarketEvent) :
    dedupe.emitEvents now (events ++ rest) =
      (((dedupe.emitEvents now events).1.emitEvents now rest).1,
        (dedupe.emitEvents now events).2 ++ ((dedupe.emitEvents now events).1.emitEvents now rest).2) := by
  induction events generalizing dedupe with
  | nil => rfl
  | cons event events ih =>
      rw [List.cons_append, emitEvents, emitEvents]
      cases hlookup : dedupe.seenOrAdd (normalizedEventIdentity event) now with
      | none =>
          have hback : dedupe.lastNow.any (now < ·) = true := by
            by_contra hforward
            simp only [seenOrAdd, hforward, if_false] at hlookup
            split at hlookup <;> cases hlookup
          cases rest with
          | nil => rfl
          | cons other rest => simp only [emitEvents, seenOrAdd, hback, if_true, List.nil_append]
      | some looked =>
          obtain ⟨dedupe', seen⟩ := looked
          cases seen with
          | true => exact ih dedupe'
          | false => simp only [ih dedupe', List.cons_append]

end BoundedTTLDeduplicator

end Cvf
