/-
# Cvf.Exchanges.Deduplication — what a deduplicator remembers.

The entries are an end of the last uses: what was forgotten is older, and as long as there is room it
has expired.  Both the expiry, which stops at the first fresh entry, and the eviction of the oldest
entry cut that list at its old end, so a look-up answers what the history of the calls says
(`seenOrAdd_exact`).

Times are any linear order with a subtraction; `Monotone` subtraction is all that is asked of it, which
exact and rounded subtraction both satisfy.
-/
import Cvf.Exchanges.Emission
import Cvf.Library.Bisect
import Cvf.Library.LastUse

namespace Cvf

open Library

namespace BoundedTTLDeduplicator

variable {ι τ : Type} [DecidableEq ι] [LinearOrder τ] [Zero τ] [Sub τ]

/-- A deduplicator that has seen nothing. -/
def fresh (ι : Type) {τ : Type} [LinearOrder τ] [Zero τ] (capacity : Nat) (ttl : τ)
    (hcapacity : 1 ≤ capacity) (httl : 0 < ttl) : BoundedTTLDeduplicator ι τ :=
  { capacity := capacity, ttl := ttl, capacity_pos := hcapacity, ttl_pos := httl }

/-- `seen_or_add` for one call after another. -/
def seeAll (dedupe : BoundedTTLDeduplicator ι τ) :
    List (ι × τ) → Option (BoundedTTLDeduplicator ι τ)
  | [] => some dedupe
  | (identity, now) :: calls =>
    match dedupe.seenOrAdd identity now with
    | none => none
    | some (dedupe, _) => dedupe.seeAll calls

/-- After `calls`: the entries are the end of the last uses, within the capacity, and what is missing
before them has expired unless there was no room. -/
structure Remembers (dedupe : BoundedTTLDeduplicator ι τ) (calls : List (ι × τ)) : Prop where
  clock : dedupe.lastNow = calls.getLast?.map Prod.snd
  ending : ∃ forgotten, lastUses calls = forgotten ++ dedupe.entries ∧
    (dedupe.entries.length < dedupe.capacity →
      ∀ entry ∈ forgotten, ∀ last, dedupe.lastNow = some last → dedupe.ttl ≤ last - entry.2)
  bounded : dedupe.entries.length ≤ dedupe.capacity

/-- Calls never go back in time. -/
def Forward (calls : List (ι × τ)) : Prop := calls.Pairwise fun a b => a.2 ≤ b.2

/-- A later instant is no nearer to an earlier one. -/
def MonotoneSub (τ : Type) [LE τ] [Sub τ] : Prop :=
  ∀ {a b s t : τ}, a ≤ b → t ≤ s → a - s ≤ b - t

variable {dedupe : BoundedTTLDeduplicator ι τ} {calls : List (ι × τ)} {identity : ι} {now : τ}

theorem remembers_fresh {capacity : Nat} {ttl : τ} (hcapacity : 1 ≤ capacity) (httl : 0 < ttl) :
    (fresh ι capacity ttl hcapacity httl).Remembers [] where
  clock := rfl
  ending := ⟨[], rfl, fun _ entry hentry => by cases hentry⟩
  bounded := Nat.zero_le _

/-! ## Expiry -/

omit [DecidableEq ι] in
/-- The entries expire from the old end, and those that stay are fresh. -/
theorem expire_spec (hsub : MonotoneSub τ) (hforward : Forward dedupe.entries) :
    ∃ expired, dedupe.entries = expired ++ dedupe.expire now ∧
      (∀ entry ∈ expired, dedupe.ttl ≤ now - entry.2) ∧
      ∀ entry ∈ dedupe.expire now, now - entry.2 < dedupe.ttl := by
  have hinitial : Initial (fun entry : ι × τ => decide (dedupe.ttl ≤ now - entry.2))
      dedupe.entries := by
    apply List.Pairwise.imp _ hforward
    intro first second hle hexpired
    have := of_decide_eq_true hexpired
    exact decide_eq_true (this.trans (hsub le_rfl hle))
  refine ⟨dedupe.entries.takeWhile fun entry => dedupe.ttl ≤ now - entry.2,
    List.takeWhile_append_dropWhile.symm, ?_, ?_⟩
  · intro entry hentry
    have hp := List.mem_takeWhile_imp hentry
    exact of_decide_eq_true hp
  · intro entry hentry
    unfold expire at hentry
    rw [hinitial.dropWhile_eq_filter, List.mem_filter] at hentry
    simpa using hentry.2

/-- What an expiry leaves is again an end of the last uses, and what is missing before it has expired
unless there was no room. -/
theorem Remembers.expire (h : dedupe.Remembers calls) (hsub : MonotoneSub τ)
    (hforward : Forward (calls ++ [(identity, now)])) :
    ∃ forgotten, lastUses calls = forgotten ++ dedupe.expire now ∧
      ((dedupe.expire now).length < dedupe.capacity →
        ∀ entry ∈ forgotten, dedupe.ttl ≤ now - entry.2) ∧
      (∀ entry ∈ dedupe.expire now, now - entry.2 < dedupe.ttl) ∧
      (dedupe.expire now).length ≤ dedupe.capacity := by
  obtain ⟨forgotten, huses, hroom⟩ := h.ending
  have hordered : Forward (lastUses calls) :=
    (List.pairwise_append.mp hforward).1.sublist (lastUses_sublist calls)
  rw [huses] at hordered
  obtain ⟨hforgotten, hentries, hacross⟩ := List.pairwise_append.mp hordered
  obtain ⟨expired, hsplit, hexpired, hfresh⟩ :
      ∃ expired, dedupe.entries = expired ++ dedupe.expire now ∧ _ := expire_spec hsub hentries
  have hlength : dedupe.entries.length = expired.length + (dedupe.expire now).length := by
    rw [← List.length_append, ← hsplit]
  refine ⟨forgotten ++ expired, ?_, ?_, hfresh, ?_⟩
  · rw [huses, hsplit, List.append_assoc, ← hsplit]
  · intro hlt entry hentry
    rcases List.mem_append.mp hentry with hold | hgone
    · cases expired with
      | nil =>
        -- nothing expired, so there was room before
        have hroom := hroom (by rw [hlength]; simpa using hlt) entry hold
        cases hlast : calls.getLast? with
        | none =>
          rw [List.getLast?_eq_none_iff] at hlast
          subst hlast
          rw [show lastUses ([] : List (ι × τ)) = [] from rfl] at huses
          have hnil := (List.append_eq_nil_iff.mp huses.symm).1
          rw [hnil] at hold
          cases hold
        | some last =>
          have hmem : last ∈ calls := List.mem_of_getLast? hlast
          have hle : last.2 ≤ now :=
            (List.pairwise_append.mp hforward).2.2 last hmem _ (List.mem_singleton_self _)
          have hbefore := hroom last.2 (by rw [h.clock, hlast]; rfl)
          exact hbefore.trans (hsub hle le_rfl)
      | cons first rest =>
        -- what was forgotten is older than what expired
        have hfirst := hexpired first List.mem_cons_self
        have hle : entry.2 ≤ first.2 :=
          hacross entry hold first (by rw [hsplit]; exact List.mem_append_left _ List.mem_cons_self)
        exact hfirst.trans (hsub le_rfl hle)
    · exact hexpired entry hgone
  · have := h.bounded
    omega

/-! ## Look-ups -/

/-- An identity is among the live entries exactly when its last use is fresh and fewer than capacity
others follow it. -/
theorem mem_expire_iff (h : dedupe.Remembers calls) (hsub : MonotoneSub τ)
    (hforward : Forward (calls ++ [(identity, now)])) :
    identity ∈ (dedupe.expire now).map Prod.fst ↔
      ∃ before t after, calls = before ++ (identity, t) :: after ∧
        identity ∉ after.map Prod.fst ∧ now - t < dedupe.ttl ∧
        (after.map Prod.fst).dedup.length < dedupe.capacity := by
  obtain ⟨forgotten, huses, hroom, hfresh, hbounded⟩ := h.expire hsub hforward
  constructor
  · intro hmem
    obtain ⟨⟨key, t⟩, hentry, rfl⟩ := List.mem_map.mp hmem
    obtain ⟨earlier, later, hsplit⟩ := List.append_of_mem hentry
    obtain ⟨before, after, hcalls, hnot, hlater⟩ :=
      lastUses_split_iff.mp ⟨forgotten ++ earlier, by rw [huses, hsplit, List.append_assoc]⟩
    refine ⟨before, t, after, hcalls, hnot, hfresh _ hentry, ?_⟩
    rw [← length_lastUses, ← hlater]
    have : (dedupe.expire now).length = earlier.length + (later.length + 1) := by
      rw [hsplit, List.length_append, List.length_cons]
    omega
  · rintro ⟨before, t, after, hcalls, hnot, hlive, hfew⟩
    obtain ⟨earlier, hearlier⟩ := lastUses_split_iff.mpr ⟨before, after, hcalls, hnot, rfl⟩
    rw [← length_lastUses] at hfew
    rw [huses, List.append_eq_append_iff] at hearlier
    have hstays : (identity, t) ∈ dedupe.expire now := by
      rcases hearlier with ⟨rest, -, hexpire⟩ | ⟨rest, hforgotten, hrest⟩
      · rw [hexpire]
        exact List.mem_append_right _ List.mem_cons_self
      · cases rest with
        | nil =>
          rw [← List.nil_append (dedupe.expire now), ← hrest]
          exact List.mem_cons_self
        | cons first rest =>
          -- a forgotten last use with room behind it has expired
          obtain ⟨rfl, hafter⟩ := List.cons_eq_cons.mp hrest
          have hlength : (lastUses after).length = rest.length + (dedupe.expire now).length := by
            rw [hafter]
            exact List.length_append
          have hexpired := hroom (by omega) (identity, t)
            (by rw [hforgotten]; exact List.mem_append_right _ List.mem_cons_self)
          exact absurd hlive (not_lt.mpr hexpired)
    exact List.mem_map.mpr ⟨_, hstays, rfl⟩

omit [DecidableEq ι] [LinearOrder τ] [Zero τ] [Sub τ] in
/-- Room for one more entry is made at the old end. -/
theorem evict_spec {capacity : Nat} {live : List (ι × τ)} (hpos : 1 ≤ capacity)
    (hlive : live.length ≤ capacity) (use : ι × τ) {kept : List (ι × τ)}
    (hkept : kept = if capacity < (live ++ [use]).length then (live ++ [use]).drop 1 else live ++ [use]) :
    ∃ evicted, live ++ [use] = evicted ++ kept ∧ kept.length ≤ capacity ∧
      (kept.length < capacity → evicted = [] ∧ live.length < capacity) := by
  rw [List.length_append, List.length_singleton] at hkept
  split_ifs at hkept with hfull
  · have hlength : kept.length = live.length := by
      rw [hkept, List.length_drop, List.length_append, List.length_singleton]
      omega
    refine ⟨(live ++ [use]).take 1, ?_, hlength.trans_le hlive, fun hlt => by omega⟩
    rw [hkept, List.take_append_drop]
  · have hlength : kept.length = live.length + 1 := by
      rw [hkept, List.length_append, List.length_singleton]
    exact ⟨[], hkept.symm, by omega, fun hlt => ⟨rfl, by omega⟩⟩

/-- One call: it answers whether the identity is live, and what is remembered is again the end of the
last uses. -/
theorem Remembers.seenOrAdd (h : dedupe.Remembers calls) (hsub : MonotoneSub τ)
    (hforward : Forward (calls ++ [(identity, now)])) :
    ∃ after seen, dedupe.seenOrAdd identity now = some (after, seen) ∧
      after.Remembers (calls ++ [(identity, now)]) ∧ after.capacity = dedupe.capacity ∧
      after.ttl = dedupe.ttl ∧ (seen = true ↔ identity ∈ (dedupe.expire now).map Prod.fst) := by
  obtain ⟨forgotten, huses, hroom, -, hbounded⟩ := h.expire hsub hforward
  have hclock : dedupe.lastNow.any (now < ·) = false := by
    rw [h.clock]
    cases hlast : calls.getLast? with
    | none => rfl
    | some last =>
      have hle : last.2 ≤ now := (List.pairwise_append.mp hforward).2.2 last
        (List.mem_of_getLast? hlast) _ (List.mem_singleton_self _)
      simpa using hle
  have hlater : some now = ((calls ++ [(identity, now)]).getLast?).map Prod.snd := by
    rw [List.getLast?_concat]
    rfl
  have huses' : lastUses (calls ++ [(identity, now)]) =
      forgotten.filter (·.1 ≠ identity) ++ touch (dedupe.expire now) (identity, now) := by
    rw [lastUses_concat, huses, touch_append]
  have hexpired : (dedupe.expire now).length < dedupe.capacity →
      ∀ entry ∈ forgotten.filter (·.1 ≠ identity), dedupe.ttl ≤ now - entry.2 :=
    fun hlt entry hentry => hroom hlt entry (List.mem_filter.mp hentry).1
  unfold BoundedTTLDeduplicator.seenOrAdd
  rw [hclock, if_neg Bool.false_ne_true]
  by_cases hmem : identity ∈ (dedupe.expire now).map Prod.fst
  · -- a refreshed entry moves to the end
    have hkeys : ((dedupe.expire now).map Prod.fst).Nodup := by
      have hnodup := nodup_lastUses calls
      rw [huses, List.map_append] at hnodup
      exact (List.nodup_append.mp hnodup).2.1
    have hlength : (touch (dedupe.expire now) (identity, now)).length =
        (dedupe.expire now).length := length_touch_of_mem hkeys hmem
    rw [if_pos hmem]
    refine ⟨_, true, rfl, ⟨hlater, ⟨_, huses', ?_⟩, ?_⟩, rfl, rfl, iff_of_true rfl hmem⟩
    · intro hlt entry hentry last hlast
      cases hlast
      exact hexpired (hlength ▸ hlt) entry hentry
    · exact hlength.trans_le hbounded
  · have happend : touch (dedupe.expire now) (identity, now) =
        dedupe.expire now ++ [(identity, now)] := touch_of_notMem hmem
    rw [if_neg hmem]
    obtain ⟨evicted, hkept, hwithin, hroomier⟩ :=
      evict_spec dedupe.capacity_pos hbounded (identity, now) rfl
    refine ⟨_, false, rfl, ⟨hlater, ⟨forgotten.filter (·.1 ≠ identity) ++ evicted, ?_, ?_⟩, hwithin⟩,
      rfl, rfl, iff_of_false Bool.false_ne_true hmem⟩
    · rw [huses', happend, List.append_assoc]
      exact congrArg _ hkept
    · intro hlt entry hentry last hlast
      obtain ⟨rfl, hless⟩ := hroomier hlt
      cases hlast
      rw [List.append_nil] at hentry
      exact hexpired hless entry hentry

/-! ## Runs -/

/-- Calls that never go back are all answered, and what is remembered after them is the end of their
last uses. -/
theorem Remembers.seeAll (h : dedupe.Remembers calls) (hsub : MonotoneSub τ) {more : List (ι × τ)}
    (hforward : Forward (calls ++ more)) :
    ∃ after, dedupe.seeAll more = some after ∧ after.Remembers (calls ++ more) ∧
      after.capacity = dedupe.capacity ∧ after.ttl = dedupe.ttl := by
  induction more generalizing dedupe calls with
  | nil => exact ⟨dedupe, rfl, by rwa [List.append_nil], rfl, rfl⟩
  | cons call more ih =>
    rw [List.append_cons] at hforward
    obtain ⟨next, seen, hseen, hnext, hcapacity, httl, -⟩ :=
      h.seenOrAdd hsub (List.pairwise_append.mp hforward).1
    obtain ⟨after, hafter, hremembers, hcapacity', httl'⟩ := ih hnext hforward
    refine ⟨after, ?_, ?_, hcapacity'.trans hcapacity, httl'.trans httl⟩
    · rw [BoundedTTLDeduplicator.seeAll, hseen]
      exact hafter
    · rwa [← List.append_cons] at hremembers

/-- For every sequence of calls that never goes back in time, the next call is a duplicate exactly when
its identity was passed before, the most recent call of it is fresh, and fewer than capacity distinct
other identities were passed since; and the entries stay within the capacity. -/
theorem seenOrAdd_exact {capacity : Nat} {ttl : τ} (hcapacity : 1 ≤ capacity) (httl : 0 < ttl)
    (hsub : MonotoneSub τ) {calls : List (ι × τ)} {identity : ι} {now : τ}
    (hforward : Forward (calls ++ [(identity, now)])) :
    ∃ dedupe after seen, (fresh ι capacity ttl hcapacity httl).seeAll calls = some dedupe ∧
      dedupe.seenOrAdd identity now = some (after, seen) ∧
      (seen = true ↔ ∃ before t since, calls = before ++ (identity, t) :: since ∧
        identity ∉ since.map Prod.fst ∧ now - t < ttl ∧
        (since.map Prod.fst).dedup.length < capacity) ∧
      dedupe.entries.length ≤ capacity ∧ after.entries.length ≤ capacity := by
  have hempty : Forward ([] ++ calls) := (List.pairwise_append.mp hforward).1
  obtain ⟨dedupe, hall, hremembers, hsame, httl'⟩ :=
    (remembers_fresh hcapacity httl).seeAll hsub hempty
  obtain ⟨after, seen, hseen, hafter, hsame', -, hanswer⟩ := hremembers.seenOrAdd hsub hforward
  have hcap : dedupe.capacity = capacity := hsame
  have httl : dedupe.ttl = ttl := httl'
  refine ⟨dedupe, after, seen, hall, hseen, ?_, hcap ▸ hremembers.bounded,
    (hsame'.trans hcap) ▸ hafter.bounded⟩
  rw [hanswer, mem_expire_iff hremembers hsub hforward, hcap, httl]
  rfl

/-- Capacity two, two others in between: the first identity is new again, the second is not. -/
theorem seenOrAdd_exact_evicted :
    ∃ (dedupe after : BoundedTTLDeduplicator Nat Int) (seen : Bool),
      (fresh Nat 2 (10 : Int) (by norm_num) (by norm_num)).seeAll [(1, 0), (2, 1), (3, 2)] =
        some dedupe ∧
      dedupe.seenOrAdd 1 3 = some (after, seen) ∧
      (seen = true ↔ ∃ (before : List (Nat × Int)) (t : Int) (since : List (Nat × Int)),
        [(1, 0), (2, 1), (3, 2)] = before ++ (1, t) :: since ∧
        1 ∉ since.map Prod.fst ∧ 3 - t < 10 ∧ (since.map Prod.fst).dedup.length < 2) ∧
      dedupe.entries.length ≤ 2 ∧ after.entries.length ≤ 2 :=
  seenOrAdd_exact (show 1 ≤ 2 by norm_num) (show (0 : Int) < 10 by norm_num)
    (fun hle hge => Int.sub_le_sub hle hge)
    (show Forward ([((1 : Nat), (0 : Int)), (2, 1), (3, 2)] ++ [(1, 3)]) by unfold Forward; decide)

end BoundedTTLDeduplicator

end Cvf
