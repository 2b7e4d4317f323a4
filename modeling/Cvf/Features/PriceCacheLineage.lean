/-
# Cvf.Features.PriceCacheLineage — lineages of ranges, by subtraction.

Each cached point carries the sum and the xor of the digests of all points up to it, from a base that moves
when points in front are dropped.  Between two positions these running values differ by the sum and the
xor of the points there (`Digested.lineageBetween`), which is what combining their sources gives.

The invariant asks for no order of the points and no epoch, unlike `Indexed`: only the instants of a
range need it, being read off its first and its last point.
-/
import Cvf.Features.LineageMonoid
import Cvf.Features.PriceCacheIndex

namespace Cvf

open Cvf.Library

namespace PriceHistoryCache

variable {α R : Type*}

/-! ## Ranges of positions -/

theorem lineage_eq (cache : PriceHistoryCache α R) (start stop : Int) :
    cache.lineage start stop =
      cache.bounds start stop >>= fun positions => cache.lineageBetween positions.1 positions.2 := by
  unfold lineage
  cases cache.bounds start stop with
  | error text => rfl
  | ok positions => rfl

/-- The instant and the digest of an item. -/
def leaf (math : PriceMath α R) (item : TimedValue α) : Int × BitVec 256 :=
  (item.timestamp, math.digest item.timestamp item.value)

def digests (math : PriceMath α R) (items : List (TimedValue α)) : List (BitVec 256) :=
  items.map fun item => math.digest item.timestamp item.value

theorem leaves_digests (math : PriceMath α R) (items : List (TimedValue α)) :
    (items.map (leaf math)).map Prod.snd = digests math items := List.map_map ..

theorem leaves_timestamps (math : PriceMath α R) (items : List (TimedValue α)) :
    (items.map (leaf math)).map Prod.fst = items.map (·.timestamp) := List.map_map ..

/-! ## Running digests -/

/-- The points are made of `items`, and carry the digests up to themselves, from the base. -/
structure Digested (math : PriceMath α R) (cache : PriceHistoryCache α R)
    (items : List (TimedValue α)) : Prop where
  made : cache.points.map (·.item) = items
  digestSum : ∀ (position : Nat) (point : CachedPricePoint α R), cache.points[position]? = some point →
    point.prefixDigestSum = cache.baseDigestSum + (digests math (items.take (position + 1))).sum
  digestXor : ∀ (position : Nat) (point : CachedPricePoint α R), cache.points[position]? = some point →
    point.prefixDigestXor =
      cache.baseDigestXor ^^^ (digests math (items.take (position + 1))).foldr (· ^^^ ·) 0

namespace Digested

variable {math : PriceMath α R} {cache : PriceHistoryCache α R} {items : List (TimedValue α)}

theorem length_eq (h : Digested math cache items) : cache.points.length = items.length := by
  rw [← h.made, List.length_map]

theorem exists_point (h : Digested math cache items) {position : Nat} {item : TimedValue α}
    (hitem : items[position]? = some item) :
    ∃ point, cache.points[position]? = some point ∧ point.timestamp = item.timestamp := by
  rw [← h.made, List.getElem?_map] at hitem
  obtain ⟨point, hpoint, rfl⟩ := Option.map_eq_some_iff.mp hitem
  exact ⟨point, hpoint, rfl⟩

/-- The running values in front of a position, at 0 the base. -/
theorem before (h : Digested math cache items) {left : Nat} (hleft : left ≤ items.length) :
    (((if left = 0 then none else cache.points[left - 1]?).map (·.prefixDigestSum)).getD
        cache.baseDigestSum = cache.baseDigestSum + (digests math (items.take left)).sum) ∧
      (((if left = 0 then none else cache.points[left - 1]?).map (·.prefixDigestXor)).getD
        cache.baseDigestXor =
          cache.baseDigestXor ^^^ (digests math (items.take left)).foldr (· ^^^ ·) 0) := by
  cases left with
  | zero =>
    rw [if_pos rfl, List.take_zero]
    exact ⟨(BitVec.add_zero _).symm, (BitVec.xor_zero).symm⟩
  | succ position =>
    have hlt : position < cache.points.length := by
      rw [h.length_eq]
      omega
    have hpoint := List.getElem?_eq_getElem hlt
    rw [if_neg (Nat.succ_ne_zero position), Nat.add_sub_cancel, hpoint]
    exact ⟨h.digestSum position _ hpoint, h.digestXor position _ hpoint⟩

theorem new [Ring R] : Digested math (PriceHistoryCache.new : PriceHistoryCache α R) [] where
  made := rfl
  digestSum := by simp [PriceHistoryCache.new]
  digestXor := by simp [PriceHistoryCache.new]

/-- The next point continues the running values of the last, or the base. -/
theorem nextPoint [Ring R] (h : Digested math cache items) (item : TimedValue α) :
    (cache.nextPoint math item).prefixDigestSum =
        cache.baseDigestSum + (digests math (items ++ [item])).sum ∧
      (cache.nextPoint math item).prefixDigestXor =
        cache.baseDigestXor ^^^ (digests math (items ++ [item])).foldr (· ^^^ ·) 0 := by
  have hdigests : digests math (items ++ [item]) =
      digests math items ++ [math.digest item.timestamp item.value] := by
    unfold digests
    rw [List.map_append, List.map_singleton]
  have hsingle : [math.digest item.timestamp item.value].foldr (· ^^^ ·) 0 =
      math.digest item.timestamp item.value := BitVec.xor_zero
  rw [hdigests, List.sum_append, LineageFields.foldr_xor_append, List.sum_singleton, hsingle,
    ← BitVec.xor_assoc, ← add_assoc]
  cases hlast : cache.points.getLast? with
  | none =>
    have hpoints : cache.points = [] := List.getLast?_eq_none_iff.mp hlast
    have hitems : items = [] := by rw [← h.made, hpoints, List.map_nil]
    have hxor : cache.baseDigestXor ^^^ (0 : BitVec 256) = cache.baseDigestXor := BitVec.xor_zero
    rw [hitems]
    unfold PriceHistoryCache.nextPoint
    rw [hlast]
    show cache.baseDigestSum + _ = cache.baseDigestSum + 0 + _ ∧
      cache.baseDigestXor ^^^ _ = cache.baseDigestXor ^^^ 0 ^^^ _
    rw [add_zero, hxor]
    exact ⟨rfl, rfl⟩
  | some previous =>
    rw [List.getLast?_eq_getElem?, h.length_eq] at hlast
    have hlt := (List.getElem?_eq_some_iff.mp hlast).1
    rw [h.length_eq] at hlt
    have hpositive : items.length - 1 + 1 = items.length := by omega
    have hsum := h.digestSum _ _ hlast
    have hxor := h.digestXor _ _ hlast
    rw [hpositive, List.take_length] at hsum hxor
    unfold PriceHistoryCache.nextPoint
    rw [List.getLast?_eq_getElem?, h.length_eq, hlast, ← hsum, ← hxor]
    exact ⟨rfl, rfl⟩

theorem append [Ring R] (h : Digested math cache items) (item : TimedValue α) :
    Digested math (cache.append math item) (items ++ [item]) := by
  have hall : (items ++ [item]).take (items.length + 1) = items ++ [item] :=
    List.take_of_length_le (by rw [List.length_append, List.length_singleton])
  -- a point is an old one at its old position, or the new one behind them
  have hpoint : ∀ (position : Nat) (point : CachedPricePoint α R),
      (cache.append math item).points[position]? = some point →
      (position + 1 ≤ items.length ∧ cache.points[position]? = some point) ∨
        (position = items.length ∧ point = cache.nextPoint math item) := by
    intro position point hin
    have hin' : (cache.points ++ [cache.nextPoint math item])[position]? = some point := hin
    rcases Nat.lt_or_ge position cache.points.length with hlt | hge
    · rw [List.getElem?_append_left hlt] at hin'
      exact .inl ⟨h.length_eq ▸ hlt, hin'⟩
    · rw [List.getElem?_append_right hge] at hin'
      have hzero := (List.getElem?_eq_some_iff.mp hin').1
      rw [List.length_singleton] at hzero
      have hposition : position = cache.points.length := by omega
      rw [hposition, Nat.sub_self] at hin'
      exact .inr ⟨hposition.trans h.length_eq, (Option.some.inj hin').symm⟩
  refine ⟨?_, ?_, ?_⟩
  · show (cache.points ++ [cache.nextPoint math item]).map (·.item) = items ++ [item]
    rw [List.map_append, h.made, List.map_singleton, nextPoint_item]
  · intro position point hin
    rcases hpoint position point hin with ⟨hle, hold⟩ | ⟨rfl, rfl⟩
    · rw [List.take_append_of_le_length hle]
      exact h.digestSum position point hold
    · rw [hall]
      exact (h.nextPoint item).1
  · intro position point hin
    rcases hpoint position point hin with ⟨hle, hold⟩ | ⟨rfl, rfl⟩
    · rw [List.take_append_of_le_length hle]
      exact h.digestXor position point hold
    · rw [hall]
      exact (h.nextPoint item).2

theorem foldl [Ring R] (h : Digested math cache items) (later : List (TimedValue α)) :
    Digested math (later.foldl (PriceHistoryCache.append math) cache) (items ++ later) := by
  induction later generalizing items cache with
  | nil =>
    rw [List.append_nil]
    exact h
  | cons item later ih =>
    rw [List.append_cons]
    exact ih (h.append item)

/-- Dropping the points before a position moves the base to the running values there. -/
theorem drop (h : Digested math cache items) {count : Nat} {removed : CachedPricePoint α R}
    (hremoved : (cache.points.take count).getLast? = some removed) {after : PriceHistoryCache α R}
    (hpoints : after.points = cache.points.drop count)
    (hsum : after.baseDigestSum = removed.prefixDigestSum)
    (hxor : after.baseDigestXor = removed.prefixDigestXor) :
    Digested math after (items.drop count) := by
  refine ⟨by rw [hpoints, ← h.made, List.map_drop], ?_, ?_⟩
  all_goals
    intro position point hin
    rw [hpoints, List.getElem?_drop] at hin
    have hlt := (List.getElem?_eq_some_iff.mp hin).1
    have hlength : (cache.points.take count).length = count :=
      List.length_take_of_le (by omega)
    rw [List.getLast?_eq_getElem?, hlength] at hremoved
    have hcount : count - 1 < count := by
      have hin := (List.getElem?_eq_some_iff.mp hremoved).1
      omega
    rw [List.getElem?_take_of_lt hcount] at hremoved
    have hone : count - 1 + 1 = count := by omega
    have htake : digests math (items.take (count + position + 1)) =
        digests math (items.take count) ++ digests math ((items.drop count).take (position + 1)) := by
      unfold digests
      rw [← List.map_append, Nat.add_assoc, List.take_add]
  · rw [hsum, h.digestSum _ _ hremoved, h.digestSum _ _ hin, hone, htake, List.sum_append, add_assoc]
  · rw [hxor, h.digestXor _ _ hremoved, h.digestXor _ _ hin, hone, htake,
      LineageFields.foldr_xor_append, BitVec.xor_assoc]

end Digested

/-- The buckets are no part of the running values. -/
theorem rebuildFirstBucket_digests {cache after : PriceHistoryCache α R}
    (h : cache.rebuildFirstBucket = .ok after) :
    after.points = cache.points ∧ after.baseDigestSum = cache.baseDigestSum ∧
      after.baseDigestXor = cache.baseDigestXor := by
  unfold rebuildFirstBucket at h
  split at h
  · dsimp only at h
    split_ifs at h
    split at h
    · cases h
    · obtain rfl := Except.ok.inj h
      exact ⟨rfl, rfl, rfl⟩
  · obtain rfl := Except.ok.inj h
    exact ⟨rfl, rfl, rfl⟩

/-- Compacting drops what lies before the active start. -/
theorem Digested.compact {math : PriceMath α R} {cache after : PriceHistoryCache α R}
    {items : List (TimedValue α)} (h : Digested math cache items) (hcompact : cache.compact = .ok after) :
    Digested math after (items.drop cache.activeStart) := by
  unfold PriceHistoryCache.compact at hcompact
  split_ifs at hcompact with hstart
  · obtain rfl := Except.ok.inj hcompact
    rw [hstart, List.drop_zero]
    exact h
  · cases hremoved : (cache.points.take cache.activeStart).getLast? with
    | none =>
      rw [hremoved] at hcompact
      cases hcompact
    | some removed =>
      rw [hremoved] at hcompact
      dsimp only at hcompact
      split at hcompact
      case h_1 hkept =>
        obtain rfl := Except.ok.inj hcompact
        exact h.drop hremoved rfl rfl rfl
      case h_2 first later hkept =>
        obtain ⟨hpoints, hsum, hxor⟩ := rebuildFirstBucket_digests hcompact
        exact h.drop hremoved hpoints hsum hxor

/-! ## The lineage of a range -/

/-- The ends of instants that never step back are the first and the last. -/
theorem extent_of_sorted {times : List Int} (hsorted : times.Pairwise (· ≤ ·)) {first last : Int}
    (hfirst : times.head? = some first) (hlast : times.getLast? = some last) :
    times.min? = some first ∧ times.max? = some last := by
  constructor
  · cases times with
    | nil => cases hfirst
    | cons time later =>
      obtain rfl := Option.some.inj hfirst
      refine List.min?_eq_some_iff.mpr ⟨List.mem_cons_self, ?_⟩
      intro t ht
      rcases List.mem_cons.mp ht with rfl | ht
      · exact le_rfl
      · exact (List.pairwise_cons.mp hsorted).1 t ht
  · obtain ⟨front, rfl⟩ := List.getLast?_eq_some_iff.mp hlast
    refine List.max?_eq_some_iff.mpr ⟨List.mem_append_right _ List.mem_cons_self, ?_⟩
    intro t ht
    rcases List.mem_append.mp ht with ht | ht
    · exact (List.pairwise_append.mp hsorted).2.2 t ht last List.mem_cons_self
    · exact (List.mem_singleton.mp ht).le

/-- Subtraction gives the count, the digests and the extent of the range. -/
theorem Digested.lineageBetween {math : PriceMath α R} {cache : PriceHistoryCache α R}
    {items : List (TimedValue α)} (h : Digested math cache items) {left right : Nat}
    (hright : right ≤ items.length)
    (hsorted : (((items.take right).drop left).map (·.timestamp)).Pairwise (· ≤ ·)) :
    cache.lineageBetween left right =
      .ok (LineageFields.typedSummary (((items.take right).drop left).map (leaf math))) := by
  unfold PriceHistoryCache.lineageBetween
  by_cases hempty : right ≤ left
  · have hnone : (items.take right).drop left = [] :=
      List.drop_eq_nil_of_le (by rw [List.length_take]; omega)
    rw [if_pos hempty, hnone]
    rfl
  · have hleft : left < right := not_le.mp hempty
    have hlength : (items.take right).length = right := List.length_take_of_le hright
    have hcount : ((items.take right).drop left).length = right - left := by
      rw [List.length_drop, hlength]
    -- what lies up to the end of the range is what lies before it, and the range
    have hsplit : items.take right = items.take left ++ (items.take right).drop left := by
      have htake : items.take left = (items.take right).take left := by
        rw [List.take_take, min_eq_left hleft.le]
      rw [htake, List.take_append_drop]
    obtain ⟨first, hfirst, holdest⟩ := h.exists_point (List.getElem?_eq_getElem (hleft.trans_le hright))
    have hend : right - 1 < items.length := by omega
    obtain ⟨last, hlast, hnewest⟩ := h.exists_point (List.getElem?_eq_getElem hend)
    obtain ⟨hsumBefore, hxorBefore⟩ := h.before (hleft.le.trans hright)
    have hsum := h.digestSum _ _ hlast
    have hxor := h.digestXor _ _ hlast
    have hone : right - 1 + 1 = right := by omega
    have hdigests : digests math (items.take right) =
        digests math (items.take left) ++ digests math ((items.take right).drop left) := by
      unfold digests
      rw [← List.map_append, ← hsplit]
    rw [hone, hdigests] at hsum hxor
    rw [List.sum_append] at hsum
    rw [LineageFields.foldr_xor_append] at hxor
    have hhead : (((items.take right).drop left).map (·.timestamp)).head? = some first.timestamp := by
      rw [List.head?_map, List.head?_drop, List.getElem?_take_of_lt hleft,
        List.getElem?_eq_getElem (hleft.trans_le hright), holdest]
      rfl
    have htail : (((items.take right).drop left).map (·.timestamp)).getLast? = some last.timestamp := by
      rw [List.getLast?_map, List.getLast?_drop, if_neg (by omega), List.getLast?_eq_getElem?, hlength,
        List.getElem?_take_of_lt (by omega), List.getElem?_eq_getElem (by omega), hnewest]
      rfl
    obtain ⟨hmin, hmax⟩ := extent_of_sorted hsorted hhead htail
    rw [if_neg hempty, hfirst, hlast]
    dsimp only
    rw [hsumBefore, hxorBefore, hsum, hxor]
    unfold LineageFields.typedSummary
    rw [leaves_digests, leaves_timestamps, List.length_map, hcount, hmin, hmax]
    congr 2
    · ring
    · generalize (digests math (items.take left)).foldr (· ^^^ ·) 0 = earlier
      generalize (digests math ((items.take right).drop left)).foldr (· ^^^ ·) 0 = inside
      calc cache.baseDigestXor ^^^ (earlier ^^^ inside) ^^^ (cache.baseDigestXor ^^^ earlier)
          = inside ^^^ ((cache.baseDigestXor ^^^ earlier) ^^^ (cache.baseDigestXor ^^^ earlier)) := by
            ac_rfl
        _ = inside := by rw [BitVec.xor_self, BitVec.xor_zero]

/-! ## The caches that arise -/

/-- A cache that arises from a new one, with the items it still has points of. -/
inductive Kept [Ring R] (math : PriceMath α R) : List (TimedValue α) → PriceHistoryCache α R → Prop where
  | new : Kept math [] PriceHistoryCache.new
  | append (items : List (TimedValue α)) (cache : PriceHistoryCache α R) (item : TimedValue α)
      (h : Kept math items cache) : Kept math (items ++ [item]) (cache.append math item)
  | seen (items : List (TimedValue α)) (cache : PriceHistoryCache α R) (ordinal : Nat)
      (h : Kept math items cache) : Kept math items { cache with lastOrdinal := ordinal }
  | activate (items : List (TimedValue α)) (cache : PriceHistoryCache α R) (start : Nat)
      (h : Kept math items cache) : Kept math items { cache with activeStart := start }
  | compact (items : List (TimedValue α)) (cache after : PriceHistoryCache α R)
      (h : Kept math items cache) (hcompact : cache.compact = .ok after) :
      Kept math (items.drop cache.activeStart) after

section

variable [Ring R] {math : PriceMath α R}

theorem Kept.digested {items : List (TimedValue α)} {cache : PriceHistoryCache α R}
    (h : Kept math items cache) : Digested math cache items := by
  induction h with
  | new => exact .new
  | append items cache item _ ih => exact ih.append item
  | seen items cache ordinal _ ih => exact ⟨ih.made, ih.digestSum, ih.digestXor⟩
  | activate items cache start _ ih => exact ⟨ih.made, ih.digestSum, ih.digestXor⟩
  | compact items cache after _ hcompact ih => exact ih.compact hcompact

theorem Kept.foldl {items : List (TimedValue α)} {cache : PriceHistoryCache α R}
    (h : Kept math items cache) (later : List (TimedValue α)) :
    Kept math (items ++ later) (later.foldl (PriceHistoryCache.append math) cache) := by
  induction later generalizing items cache with
  | nil =>
    rw [List.append_nil]
    exact h
  | cons item later ih =>
    have hnext := ih (Kept.append items cache item h)
    rw [List.append_assoc] at hnext
    exact hnext

theorem Kept.rebuild (math : PriceMath α R) (items : List (TimedValue α)) (latestOrdinal : Nat) :
    Kept math items (PriceHistoryCache.rebuild math items latestOrdinal) :=
  Kept.seen _ _ _ (Kept.new.foldl items)

theorem Kept.trimToRetainedWindow {items : List (TimedValue α)} {cache after : PriceHistoryCache α R}
    (h : Kept math items cache) {window : BoundedTimeWindow α}
    (htrim : cache.trimToRetainedWindow math window = .ok after) :
    ∃ kept, Kept math kept after := by
  unfold PriceHistoryCache.trimToRetainedWindow at htrim
  split at htrim
  · split at htrim
    · obtain rfl := Except.ok.inj htrim
      exact ⟨items, h⟩
    · obtain rfl := Except.ok.inj htrim
      exact ⟨[], Kept.rebuild math [] window.ordinal⟩
  · rename_i earliest hearliest
    dsimp only at htrim
    split_ifs at htrim
    · obtain rfl := Except.ok.inj htrim
      exact ⟨window.items, Kept.rebuild math window.items window.ordinal⟩
    · obtain rfl := Except.ok.inj htrim
      exact ⟨items, Kept.activate _ _ _ h⟩
    · exact ⟨_, Kept.compact _ _ _ (Kept.activate _ _ (cache.seek earliest) h) htrim⟩

/-- Updates stay among the caches that arise. -/
theorem Kept.update {items : List (TimedValue α)} {cache after : PriceHistoryCache α R}
    (h : Kept math items cache) {window : BoundedTimeWindow α}
    (hupdate : cache.update math window = .ok after) : ∃ kept, Kept math kept after := by
  unfold PriceHistoryCache.update at hupdate
  dsimp only at hupdate
  split_ifs at hupdate
  · obtain rfl := Except.ok.inj hupdate
    exact ⟨window.items, Kept.rebuild math window.items window.ordinal⟩
  · exact (Kept.seen _ _ window.ordinal (h.foldl _)).trimToRetainedWindow hupdate

end

/-! ## Combining the sources of a range -/

/-- `from_source` of an item. -/
def fromSource (math : PriceMath α R) (item : TimedValue α) : Except String LineageFields :=
  LineageFields.fromDigest item.timestamp
    (String.ofList (hexText 64 (math.digest item.timestamp item.value).toNat))

theorem mapM_fromSource (math : PriceMath α R) (items : List (TimedValue α)) :
    items.mapM (fromSource math) =
      .ok ((items.map fun item => [leaf math item]).map LineageFields.summary) := by
  have heq : fromSource math = fun item => pure (LineageFields.summary [leaf math item]) := by
    funext item
    exact LineageFields.fromDigest_hexText _ _
  rw [heq, List.mapM_pure, List.map_map]
  rfl

/-- Single sources combine to the summary of all. -/
theorem combine_sources (math : PriceMath α R) (items : List (TimedValue α)) :
    LineageFields.combine {} ((items.map fun item => [leaf math item]).map LineageFields.summary) =
      .ok (LineageFields.summary (items.map (leaf math))) := by
  have hflat : (items.map fun item => [leaf math item]).flatten = items.map (leaf math) := by
    rw [← List.flatMap_def, ← List.map_eq_flatMap]
  have hcombine := LineageFields.combine_summary [] (items.map fun item => [leaf math item])
  rw [LineageFields.summary_nil, List.nil_append, hflat] at hcombine
  exact hcombine

end PriceHistoryCache

open LineageFields PriceHistoryCache in
/-- Whatever is built of sources by `combine` combines again, in any order and grouping to one
lineage, and the price cache subtracts to the same between any two positions. -/
theorem lineage_commutative_monoid {α R : Type*} [Ring R] (math : PriceMath α R)
    (sha256Text : String → String) (isoformat : Int → String) :
    (∀ (leaves leaves' leaves'' : List (Int × BitVec 256)) (a b c : LineageFields),
      Built leaves a → Built leaves' b → Built leaves'' c →
        a.combine [{}] = .ok a ∧ LineageFields.combine {} [a] = .ok a ∧ a.combine [] = .ok a ∧
          ∃ ab bc abc, a.combine [b] = .ok ab ∧ b.combine [a] = .ok ab ∧ b.combine [c] = .ok bc ∧
            ab.combine [c] = .ok abc ∧ a.combine [bc] = .ok abc ∧ a.combine [b, c] = .ok abc) ∧
      (∀ (leaves : List (Int × BitVec 256)) (self : LineageFields)
        (others : List (List (Int × BitVec 256) × LineageFields)),
        Built leaves self → (∀ other ∈ others, Built other.1 other.2) →
          ∃ fields, self.combine (others.map Prod.snd) = .ok fields ∧ fields.postInit = .ok () ∧
            Built (leaves ++ others.flatMap Prod.fst) fields) ∧
      (∀ (leaves leaves' : List (Int × BitVec 256)) (a b : LineageFields), Built leaves a →
        Built leaves' b → leaves.Perm leaves' →
          a = b ∧ a.fingerprint sha256Text isoformat = b.fingerprint sha256Text isoformat) ∧
      (∀ (items : List (TimedValue α)) (cache : PriceHistoryCache α R), Kept math items cache →
        items.Pairwise (fun earlier later => earlier.timestamp ≤ later.timestamp) →
          ∀ left right, right ≤ items.length → ∃ sources lineage,
            ((items.take right).drop left).mapM (fromSource math) = .ok sources ∧
              LineageFields.combine {} sources = .ok (ofLineage lineage) ∧
              cache.lineageBetween left right = .ok lineage ∧
              ∀ start stop, cache.bounds start stop = .ok (left, right) →
                cache.lineage start stop = .ok lineage) := by
  have hpair (leaves leaves' : List (Int × BitVec 256)) :
      (summary leaves).combine [summary leaves'] = .ok (summary (leaves ++ leaves')) := by
    have hcombine := combine_summary leaves [leaves']
    rw [List.flatten_singleton] at hcombine
    exact hcombine
  refine ⟨?_, ?_, ?_, ?_⟩
  · intro leaves leaves' leaves'' a b c ha hb hc
    rw [ha.eq_summary, hb.eq_summary, hc.eq_summary, ← summary_nil]
    refine ⟨?_, ?_, ?_, summary (leaves ++ leaves'), summary (leaves' ++ leaves''),
      summary (leaves ++ leaves' ++ leaves''), hpair .., ?_, hpair .., hpair .., ?_, ?_⟩
    · rw [hpair, List.append_nil]
    · rw [hpair, List.nil_append]
    · have hcombine := combine_summary leaves []
      rw [List.flatten_nil, List.append_nil] at hcombine
      exact hcombine
    · rw [hpair, summary_perm List.perm_append_comm]
    · rw [hpair, List.append_assoc]
    · have hcombine := combine_summary leaves [leaves', leaves'']
      rw [List.flatten_cons, List.flatten_singleton, ← List.append_assoc] at hcombine
      exact hcombine
  · intro leaves self others hself hothers
    have hcombine := hself.exists_combine hothers
    exact ⟨_, hcombine, (construct_eq_ok (construct_summary _)).2,
      .combine leaves self others _ hself hothers hcombine⟩
  · intro leaves leaves' a b ha hb hperm
    have heq : a = b := by
      rw [ha.eq_summary, hb.eq_summary]
      exact summary_perm hperm
    exact ⟨heq, congrArg (fingerprint sha256Text isoformat) heq⟩
  · intro items cache hkept hsorted left right hright
    have hrange : (((items.take right).drop left).map (·.timestamp)).Pairwise (· ≤ ·) := by
      rw [List.pairwise_map]
      exact hsorted.sublist ((List.drop_sublist _ _).trans (List.take_sublist _ _))
    have hbetween := hkept.digested.lineageBetween hright hrange
    refine ⟨_, typedSummary (((items.take right).drop left).map (leaf math)), mapM_fromSource math _,
      combine_sources math _, hbetween, ?_⟩
    intro start stop hbounds
    rw [lineage_eq, hbounds]
    exact hbetween

/-- Digests that are the instants. -/
def instantMath : PriceMath Unit Int :=
  { referencePrice := fun _ => 1
    digest := fun instant _ => BitVec.ofInt 256 instant
    log := fun _ => 0
    sqrt := id }

open PriceHistoryCache in
/-- The second of two sources whose digests are their instants, and the two of them swapped. -/
theorem lineage_commutative_monoid_two :
    (∃ sources lineage, [(⟨7, (), 2⟩ : TimedValue Unit)].mapM (fromSource instantMath) = .ok sources ∧
      LineageFields.combine {} sources = .ok (LineageFields.ofLineage lineage) ∧
      ((new.append instantMath ⟨5, (), 1⟩).append instantMath ⟨7, (), 2⟩).lineageBetween 1 2 = .ok lineage) ∧
    ∃ ab, (LineageFields.summary [(5, 5)]).combine [LineageFields.summary [(7, 7)]] = .ok ab ∧
      (LineageFields.summary [(7, 7)]).combine [LineageFields.summary [(5, 5)]] = .ok ab := by
  have hkept : Kept instantMath [⟨5, (), 1⟩, ⟨7, (), 2⟩]
      ((new.append instantMath ⟨5, (), 1⟩).append instantMath ⟨7, (), 2⟩) :=
    .append _ _ _ (.append _ _ _ .new)
  have hsorted : [(⟨5, (), 1⟩ : TimedValue Unit), ⟨7, (), 2⟩].Pairwise
      fun earlier later => earlier.timestamp ≤ later.timestamp := by simp
  obtain ⟨hmonoid, -, -, hrange⟩ := lineage_commutative_monoid instantMath id toString
  obtain ⟨sources, lineage, hsources, hcombine, hbetween, -⟩ := hrange _ _ hkept hsorted 1 2 le_rfl
  have hfirst := LineageFields.built_single 5 5
  have hsecond := LineageFields.built_single 7 7
  obtain ⟨-, -, -, ab, -, -, hab, hba, -⟩ := hmonoid _ _ _ _ _ _ hfirst hsecond .empty
  exact ⟨⟨sources, lineage, hsources, hcombine, hbetween⟩, ab, hab, hba⟩

end Cvf
