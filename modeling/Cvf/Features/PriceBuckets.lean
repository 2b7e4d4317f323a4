/-
# Cvf.Features.PriceBuckets — one-second buckets and the prices they describe.

A list of buckets describes a list of quotes, each a second and a price, when the seconds ascend, every
quote has a bucket, and every bucket has the high, low and close of its second's prices.  There is only
one such list (`Describes.unique`), so the buckets a cache maintains and the ones computed from scratch
need only be shown to describe the same quotes.
-/
import Cvf.Features.PriceCache

namespace Cvf

open Cvf.Library

/-- The prices of one second, in order. -/
def pricesAt (quotes : List (Int × Decimal)) (second : Int) : List Decimal :=
  (quotes.filter (·.1 = second)).map Prod.snd

structure Describes (buckets : List PriceSecondBucket) (quotes : List (Int × Decimal)) : Prop where
  increasing : buckets.Pairwise (·.second < ·.second)
  covers : ∀ quote ∈ quotes, ∃ bucket ∈ buckets, bucket.second = quote.1
  exact : ∀ bucket ∈ buckets,
    PriceSecondBucket.ofPrices bucket.second (pricesAt quotes bucket.second) = some bucket

namespace PriceSecondBucket

theorem ofPrices_second {second : Int} {prices : List Decimal} {bucket : PriceSecondBucket}
    (h : ofPrices second prices = some bucket) : bucket.second = second := by
  unfold ofPrices at h
  split at h
  · rw [← Option.some.inj h]
  · cases h

/-- The bucket of one price and more behind it. -/
theorem ofPrices_cons (second : Int) (price : Decimal) (later : List Decimal) :
    ofPrices second (price :: later) =
      some ⟨second, later.foldl max price, later.foldl min price,
        (price :: later).getLast (List.cons_ne_nil _ _)⟩ := by
  rw [ofPrices, List.max?_cons', List.min?_cons', List.getLast?_eq_getLast_of_ne_nil]

theorem ofPrices_eq_none_iff {second : Int} {prices : List Decimal} :
    ofPrices second prices = none ↔ prices = [] := by
  cases prices with
  | nil => simp [ofPrices]
  | cons price later => simp [ofPrices_cons]

/-- Appending a price to a bucket and to the prices it was made of. -/
theorem ofPrices_snoc {second : Int} {prices : List Decimal} {bucket : PriceSecondBucket}
    (h : ofPrices second prices = some bucket) (price : Decimal) :
    ofPrices second (prices ++ [price]) = some (bucket.append price) := by
  cases prices with
  | nil => cases h
  | cons first later =>
    rw [ofPrices_cons] at h
    rw [List.cons_append, ofPrices_cons, ← Option.some.inj h]
    simp [append, List.foldl_append]

/-- A bucket's extremes are those of its prices. -/
theorem ofPrices_extremes {second : Int} {prices : List Decimal} {bucket : PriceSecondBucket}
    (h : ofPrices second prices = some bucket) :
    (bucket.high ∈ prices ∧ ∀ price ∈ prices, price ≤ bucket.high) ∧
      (bucket.low ∈ prices ∧ ∀ price ∈ prices, bucket.low ≤ price) := by
  unfold ofPrices at h
  split at h
  · rename_i high low close hhigh hlow hclose
    rw [← Option.some.inj h]
    exact ⟨List.max?_eq_some_iff.mp hhigh, List.min?_eq_some_iff.mp hlow⟩
  · cases h

end PriceSecondBucket

theorem mem_pricesAt {quotes : List (Int × Decimal)} {second : Int} {price : Decimal} :
    price ∈ pricesAt quotes second ↔ (second, price) ∈ quotes := by
  simp only [pricesAt, List.mem_map, List.mem_filter, decide_eq_true_eq]
  constructor
  · rintro ⟨quote, ⟨hquote, rfl⟩, rfl⟩
    exact hquote
  · intro hquote
    exact ⟨(second, price), ⟨hquote, rfl⟩, rfl⟩

/-- Quotes of other seconds do not matter. -/
theorem pricesAt_stretch {before after : List (Int × Decimal)} (stretch : List (Int × Decimal))
    {second : Int}
    (hbefore : ∀ quote ∈ before, quote.1 ≠ second) (hafter : ∀ quote ∈ after, quote.1 ≠ second) :
    pricesAt (before ++ stretch ++ after) second = pricesAt stretch second := by
  have hnone : before.filter (·.1 = second) = [] :=
    List.filter_eq_nil_iff.mpr fun quote hquote => by simpa using hbefore quote hquote
  have hnone' : after.filter (·.1 = second) = [] :=
    List.filter_eq_nil_iff.mpr fun quote hquote => by simpa using hafter quote hquote
  rw [pricesAt, List.filter_append, List.filter_append, hnone, hnone', List.nil_append,
    List.append_nil]
  rfl

theorem pricesAt_snoc (quotes : List (Int × Decimal)) (second : Int) (price : Decimal)
    (second' : Int) :
    pricesAt (quotes ++ [(second, price)]) second' =
      pricesAt quotes second' ++ if second = second' then [price] else [] := by
  unfold pricesAt
  rw [List.filter_append, List.map_append]
  by_cases h : second = second' <;> simp [h]

namespace Describes

theorem nil : Describes [] [] := ⟨.nil, by simp, by simp⟩

/-- Every bucket has a quote. -/
theorem exists_quote {buckets : List PriceSecondBucket} {quotes : List (Int × Decimal)}
    (h : Describes buckets quotes) {bucket : PriceSecondBucket} (hbucket : bucket ∈ buckets) :
    ∃ quote ∈ quotes, quote.1 = bucket.second := by
  have hexact := h.exact bucket hbucket
  have hne : pricesAt quotes bucket.second ≠ [] := by
    intro hnil
    rw [hnil] at hexact
    cases hexact
  obtain ⟨price, hprice⟩ := List.exists_mem_of_ne_nil _ hne
  exact ⟨(bucket.second, price), mem_pricesAt.mp hprice, rfl⟩

/-- The quotes determine the buckets. -/
theorem unique {buckets buckets' : List PriceSecondBucket} {quotes : List (Int × Decimal)}
    (h : Describes buckets quotes) (h' : Describes buckets' quotes) : buckets = buckets' := by
  have hsub : ∀ {b c : List PriceSecondBucket}, Describes b quotes → Describes c quotes →
      ∀ bucket ∈ b, bucket ∈ c := by
    intro b c hb hc bucket hbucket
    obtain ⟨quote, hquote, hsecond⟩ := hb.exists_quote hbucket
    obtain ⟨other, hother, hsame⟩ := hc.covers quote hquote
    have heq : other.second = bucket.second := hsame.trans hsecond
    have hexact := hc.exact other hother
    rw [heq, hb.exact bucket hbucket] at hexact
    rw [Option.some.inj hexact]
    exact hother
  have hnodup : ∀ {b : List PriceSecondBucket}, Describes b quotes → b.Nodup := by
    intro b hb
    exact hb.increasing.imp fun hlt heq => absurd (congrArg PriceSecondBucket.second heq) hlt.ne
  have hperm : buckets.Perm buckets' :=
    (List.perm_ext_iff_of_nodup (hnodup h) (hnodup h')).mpr fun bucket =>
      ⟨hsub h h' bucket, hsub h' h bucket⟩
  apply List.Perm.eq_of_pairwise _ h.increasing h'.increasing hperm
  intro a b _ _ hab hba
  exact absurd hba (not_lt.mpr hab.le)

/-- A quote at or after the seconds so far goes into the last bucket or starts the next. -/
theorem appendPrice {buckets : List PriceSecondBucket} {quotes : List (Int × Decimal)}
    (h : Describes buckets quotes) {second : Int} (price : Decimal)
    (hlast : ∀ quote ∈ quotes, quote.1 ≤ second) :
    Describes (PriceHistoryCache.appendPrice buckets second price) (quotes ++ [(second, price)]) := by
  have hle : ∀ bucket ∈ buckets, bucket.second ≤ second := by
    intro bucket hbucket
    obtain ⟨quote, hquote, hsecond⟩ := h.exists_quote hbucket
    rw [← hsecond]
    exact hlast quote hquote
  -- the buckets of other seconds keep their prices
  have hkept : ∀ bucket ∈ buckets, bucket.second ≠ second →
      PriceSecondBucket.ofPrices bucket.second
        (pricesAt (quotes ++ [(second, price)]) bucket.second) = some bucket := by
    intro bucket hbucket hne
    rw [pricesAt_snoc, if_neg (Ne.symm hne), List.append_nil]
    exact h.exact bucket hbucket
  -- a new bucket behind buckets of earlier seconds
  have hstart (hlt : ∀ bucket ∈ buckets, bucket.second < second) :
      Describes (buckets ++ [⟨second, price, price, price⟩]) (quotes ++ [(second, price)]) := by
    refine ⟨?_, ?_, ?_⟩
    · refine List.pairwise_append.mpr ⟨h.increasing, List.pairwise_singleton .., ?_⟩
      intro bucket hbucket next hnext
      rw [List.mem_singleton.mp hnext]
      exact hlt bucket hbucket
    · intro quote hquote
      rcases List.mem_append.mp hquote with hquote | hquote
      · obtain ⟨bucket, hbucket, hsecond⟩ := h.covers quote hquote
        exact ⟨bucket, List.mem_append_left _ hbucket, hsecond⟩
      · rw [List.mem_singleton.mp hquote]
        exact ⟨_, List.mem_append_right _ (List.mem_singleton_self _), rfl⟩
    · intro bucket hbucket
      rcases List.mem_append.mp hbucket with hbucket | hbucket
      · exact hkept bucket hbucket (hlt bucket hbucket).ne
      · rw [List.mem_singleton.mp hbucket, pricesAt_snoc, if_pos rfl]
        have hnone : pricesAt quotes second = [] := by
          apply List.eq_nil_iff_forall_not_mem.mpr
          intro other hother
          obtain ⟨found, hfound, hsame⟩ := h.covers _ (mem_pricesAt.mp hother)
          exact absurd hsame (hlt found hfound).ne
        rw [hnone]
        rfl
  unfold PriceHistoryCache.appendPrice
  rcases List.eq_nil_or_concat buckets with rfl | ⟨front, last, rfl⟩
  · exact hstart (by simp)
  · rw [List.concat_eq_append] at *
    rw [List.getLast?_concat]
    dsimp only
    obtain ⟨hfront, -, hbefore⟩ := List.pairwise_append.mp h.increasing
    have hlastMem : last ∈ front ++ [last] := by simp
    split_ifs with hsecond
    · -- the last bucket is of this second
      rw [List.dropLast_concat]
      have hsnoc := PriceSecondBucket.ofPrices_snoc (h.exact last hlastMem) price
      refine ⟨?_, ?_, ?_⟩
      · refine List.pairwise_append.mpr ⟨hfront, List.pairwise_singleton .., ?_⟩
        intro bucket hbucket next hnext
        rw [List.mem_singleton.mp hnext]
        exact hbefore bucket hbucket last (by simp)
      · intro quote hquote
        rcases List.mem_append.mp hquote with hquote | hquote
        · obtain ⟨bucket, hbucket, hcovers⟩ := h.covers quote hquote
          rcases List.mem_append.mp hbucket with hbucket | hbucket
          · exact ⟨bucket, List.mem_append_left _ hbucket, hcovers⟩
          · rw [List.mem_singleton.mp hbucket] at hcovers
            exact ⟨last.append price, by simp, hcovers⟩
        · rw [List.mem_singleton.mp hquote]
          exact ⟨last.append price, by simp, hsecond⟩
      · intro bucket hbucket
        rcases List.mem_append.mp hbucket with hbucket | hbucket
        · have hlt := hbefore bucket hbucket last (by simp)
          exact hkept bucket (List.mem_append_left _ hbucket) (by omega)
        · rw [List.mem_singleton.mp hbucket]
          show PriceSecondBucket.ofPrices last.second
            (pricesAt (quotes ++ [(second, price)]) last.second) = some (last.append price)
          rw [pricesAt_snoc, if_pos hsecond.symm]
          exact hsnoc
    · apply hstart
      intro bucket hbucket
      have hlastLt : last.second < second := lt_of_le_of_ne (hle last hlastMem) hsecond
      rcases List.mem_append.mp hbucket with hbucket | hbucket
      · exact (hbefore bucket hbucket last (by simp)).trans hlastLt
      · rw [List.mem_singleton.mp hbucket]
        exact hlastLt

/-- The extremes of every bucket, among the prices of its second. -/
theorem bucket_extremes {buckets : List PriceSecondBucket} {quotes : List (Int × Decimal)}
    (h : Describes buckets quotes) {bucket : PriceSecondBucket} (hbucket : bucket ∈ buckets) :
    bucket.high ∈ quotes.map Prod.snd ∧ bucket.low ∈ quotes.map Prod.snd ∧
      ∀ quote ∈ quotes, quote.1 = bucket.second →
        quote.2 ≤ bucket.high ∧ bucket.low ≤ quote.2 := by
  obtain ⟨⟨hhigh, hbelow⟩, hlow, habove⟩ :=
    PriceSecondBucket.ofPrices_extremes (h.exact bucket hbucket)
  refine ⟨List.mem_map_of_mem (mem_pricesAt.mp hhigh), List.mem_map_of_mem (mem_pricesAt.mp hlow),
    ?_⟩
  intro quote hquote hsecond
  have hprice : quote.2 ∈ pricesAt quotes bucket.second := by
    rw [mem_pricesAt, ← hsecond]
    exact hquote
  exact ⟨hbelow _ hprice, habove _ hprice⟩

/-- The highest high is the highest price. -/
theorem max?_high {buckets : List PriceSecondBucket} {quotes : List (Int × Decimal)}
    (h : Describes buckets quotes) :
    (buckets.map (·.high)).max? = (quotes.map Prod.snd).max? := by
  cases hprices : (quotes.map Prod.snd).max? with
  | none =>
    have hquotes : quotes = [] := List.map_eq_nil_iff.mp (List.max?_eq_none_iff.mp hprices)
    rw [List.max?_eq_none_iff, List.map_eq_nil_iff]
    apply List.eq_nil_iff_forall_not_mem.mpr
    intro bucket hbucket
    obtain ⟨quote, hquote, -⟩ := h.exists_quote hbucket
    rw [hquotes] at hquote
    exact List.not_mem_nil hquote
  | some highest =>
    obtain ⟨hmem, hle⟩ := List.max?_eq_some_iff.mp hprices
    obtain ⟨quote, hquote, rfl⟩ := List.mem_map.mp hmem
    obtain ⟨bucket, hbucket, hsecond⟩ := h.covers quote hquote
    obtain ⟨hhigh, -, hbounds⟩ := h.bucket_extremes hbucket
    have heq : bucket.high = quote.2 :=
      le_antisymm (hle _ hhigh) (hbounds quote hquote hsecond.symm).1
    refine List.max?_eq_some_iff.mpr ⟨?_, ?_⟩
    · rw [← heq]
      exact List.mem_map_of_mem hbucket
    · intro high hin
      obtain ⟨other, hother, rfl⟩ := List.mem_map.mp hin
      exact hle _ (h.bucket_extremes hother).1

/-- The lowest low is the lowest price. -/
theorem min?_low {buckets : List PriceSecondBucket} {quotes : List (Int × Decimal)}
    (h : Describes buckets quotes) :
    (buckets.map (·.low)).min? = (quotes.map Prod.snd).min? := by
  cases hprices : (quotes.map Prod.snd).min? with
  | none =>
    have hquotes : quotes = [] := List.map_eq_nil_iff.mp (List.min?_eq_none_iff.mp hprices)
    rw [List.min?_eq_none_iff, List.map_eq_nil_iff]
    apply List.eq_nil_iff_forall_not_mem.mpr
    intro bucket hbucket
    obtain ⟨quote, hquote, -⟩ := h.exists_quote hbucket
    rw [hquotes] at hquote
    exact List.not_mem_nil hquote
  | some lowest =>
    obtain ⟨hmem, hle⟩ := List.min?_eq_some_iff.mp hprices
    obtain ⟨quote, hquote, rfl⟩ := List.mem_map.mp hmem
    obtain ⟨bucket, hbucket, hsecond⟩ := h.covers quote hquote
    obtain ⟨-, hlow, hbounds⟩ := h.bucket_extremes hbucket
    have heq : bucket.low = quote.2 :=
      le_antisymm (hbounds quote hquote hsecond.symm).2 (hle _ hlow)
    refine List.min?_eq_some_iff.mpr ⟨?_, ?_⟩
    · rw [← heq]
      exact List.mem_map_of_mem hbucket
    · intro low hin
      obtain ⟨other, hother, rfl⟩ := List.mem_map.mp hin
      exact hle _ (h.bucket_extremes hother).2.1

/-- The buckets of a stretch of quotes: those of its seconds, each with the stretch's prices. -/
theorem restrict {buckets : List PriceSecondBucket} {before stretch after : List (Int × Decimal)}
    (h : Describes buckets (before ++ stretch ++ after)) (kept : Int → Bool)
    (hkept : ∀ quote ∈ stretch, kept quote.1 = true) :
    Describes
      ((buckets.filter fun bucket => kept bucket.second).filterMap fun bucket =>
        PriceSecondBucket.ofPrices bucket.second (pricesAt stretch bucket.second)) stretch where
  increasing := by
    apply List.Pairwise.filterMap (S := fun a b : PriceSecondBucket => a.second < b.second)
      _ _ (h.increasing.filter _)
    intro a a' hlt b hb b' hb'
    rw [PriceSecondBucket.ofPrices_second hb, PriceSecondBucket.ofPrices_second hb']
    exact hlt
  covers := by
    intro quote hquote
    obtain ⟨bucket, hbucket, hsecond⟩ := h.covers quote (by simp [hquote])
    have hprices : pricesAt stretch bucket.second ≠ [] := by
      apply List.ne_nil_of_mem (a := quote.2)
      rw [mem_pricesAt, hsecond]
      exact hquote
    obtain ⟨found, hfound⟩ : ∃ found,
        PriceSecondBucket.ofPrices bucket.second (pricesAt stretch bucket.second) = some found :=
      Option.ne_none_iff_exists'.mp fun hnone =>
        hprices (PriceSecondBucket.ofPrices_eq_none_iff.mp hnone)
    have hwithin := hkept quote hquote
    rw [← hsecond] at hwithin
    refine ⟨found, List.mem_filterMap.mpr ⟨bucket, ?_, hfound⟩, ?_⟩
    · exact List.mem_filter.mpr ⟨hbucket, hwithin⟩
    · rw [PriceSecondBucket.ofPrices_second hfound, hsecond]
  exact := by
    intro bucket hbucket
    obtain ⟨source, -, hsource⟩ := List.mem_filterMap.mp hbucket
    rw [PriceSecondBucket.ofPrices_second hsource]
    exact hsource

end Describes

/-! ## The buckets computed from scratch -/

/-- The second and the price of a window item. -/
def itemQuote {α R : Type*} (math : PriceMath α R) (item : TimedValue α) : Int × Decimal :=
  (wholeSecond item.timestamp, math.referencePrice item.value)

/-- The prices of one second, read off the items. -/
theorem pricesAt_map_itemQuote {α R : Type*} (math : PriceMath α R) (items : List (TimedValue α))
    (second : Int) :
    pricesAt (items.map (itemQuote math)) second =
      Direct.prices math (items.filter (wholeSecond ·.timestamp = second)) := by
  unfold pricesAt Direct.prices
  rw [List.filter_map, List.map_map]
  rfl

/-- The sorted dictionary of `_one_second_atr` describes the items it was built from. -/
theorem describes_bySecond {α R : Type*} (math : PriceMath α R) (items : List (TimedValue α)) :
    Describes
      ((Direct.bySecond items).filterMap fun group =>
        PriceSecondBucket.ofPrices group.1 (Direct.prices math group.2))
      (items.map (itemQuote math)) := by
  have hgroups := groupsOf_groupByKey (fun item : TimedValue α => wholeSecond item.timestamp) items
  have hperm := sortByKey_perm (fun group : Int × List (TimedValue α) => group.1)
    (groupByKey (fun item : TimedValue α => wholeSecond item.timestamp) items)
  have hnodup : ((Direct.bySecond items).map Prod.fst).Nodup :=
    (hperm.map Prod.fst).nodup_iff.mpr hgroups.nodup
  -- a group holds exactly the items of its second
  have hgroup : ∀ group ∈ Direct.bySecond items,
      Direct.prices math group.2 = pricesAt (items.map (itemQuote math)) group.1 := by
    intro group hmem
    rw [pricesAt_map_itemQuote, hgroups.group group (hperm.mem_iff.mp hmem)]
  have hsorted : (Direct.bySecond items).Pairwise fun a b => a.1 < b.1 := by
    have hle := pairwise_sortByKey (fun group : Int × List (TimedValue α) => group.1)
      (groupByKey (fun item : TimedValue α => wholeSecond item.timestamp) items)
    have hne : (Direct.bySecond items).Pairwise fun a b => a.1 ≠ b.1 :=
      List.pairwise_map.mp hnodup
    exact (hle.and hne).imp fun h => lt_of_le_of_ne h.1 h.2
  refine ⟨?_, ?_, ?_⟩
  · apply List.Pairwise.filterMap (S := fun a b : PriceSecondBucket => a.second < b.second)
      _ _ hsorted
    intro a a' hlt b hb b' hb'
    rw [PriceSecondBucket.ofPrices_second hb, PriceSecondBucket.ofPrices_second hb']
    exact hlt
  · intro quote hquote
    obtain ⟨item, hitem, rfl⟩ := List.mem_map.mp hquote
    have hkey : wholeSecond item.timestamp ∈
        (groupByKey (fun item : TimedValue α => wholeSecond item.timestamp) items).map Prod.fst :=
      (hgroups.mem_iff _).mpr ⟨item, hitem, rfl⟩
    obtain ⟨group, hgroupMem, hsecond⟩ := List.mem_map.mp hkey
    have hin : group ∈ Direct.bySecond items := hperm.mem_iff.mpr hgroupMem
    have hprices : Direct.prices math group.2 ≠ [] := by
      rw [hgroup group hin]
      apply List.ne_nil_of_mem (a := math.referencePrice item.value)
      rw [mem_pricesAt, hsecond]
      exact hquote
    obtain ⟨found, hfound⟩ : ∃ found,
        PriceSecondBucket.ofPrices group.1 (Direct.prices math group.2) = some found :=
      Option.ne_none_iff_exists'.mp fun hnone =>
        hprices (PriceSecondBucket.ofPrices_eq_none_iff.mp hnone)
    refine ⟨found, List.mem_filterMap.mpr ⟨group, hin, hfound⟩, ?_⟩
    rw [PriceSecondBucket.ofPrices_second hfound]
    exact hsecond
  · intro bucket hbucket
    obtain ⟨group, hin, hfound⟩ := List.mem_filterMap.mp hbucket
    rw [PriceSecondBucket.ofPrices_second hfound, ← hgroup group hin]
    exact hfound

end Cvf
