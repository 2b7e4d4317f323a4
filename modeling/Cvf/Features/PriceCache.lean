/-
# Cvf.Features.PriceCache — incremental price queries over one window.

`_PriceHistoryCache` mirrors a price window as a list of points that carry running sums, and a list of
one-second buckets over the same points.  Evictions move a logical start; now and then what lies before
it is dropped for good and its sums become the base.  A late insert rebuilds everything.

The queries are specified below by the same quantities computed from the window's items alone.  The
arithmetic is exact: prices are rationals, and the logarithm and square root of `math` are parameters
(`PriceMath`), to be read over the reals.  The index from source objects to positions serves
`covers_source` alone and is left out.
-/
import Cvf.Features.Rolling
import Cvf.Features.Lineage
import Cvf.Library.Bisect
import Cvf.Library.Grouping
import Cvf.Library.SortByKey

namespace Cvf

open Cvf.Library

/-- What the cache reads off a price event and computes with. -/
structure PriceMath (α R : Type*) where
  /-- `_reference_price` -/
  referencePrice : α → Decimal
  /-- `semantic_source_digest`, as a number -/
  digest : Int → α → BitVec 256
  /-- `math.log(float(quotient))` -/
  log : Decimal → R
  /-- `math.sqrt` -/
  sqrt : R → R

structure CachedPricePoint (α R : Type*) where
  timestamp : Int
  ordinal : Nat
  price : Decimal
  source : α
  prefixSquaredLogReturn : R
  prefixValidLogReturns : Nat
  prefixDigestSum : BitVec 256
  prefixDigestXor : BitVec 256

structure PriceSecondBucket where
  second : Int
  high : Decimal
  low : Decimal
  close : Decimal
  deriving DecidableEq, Repr

structure PriceRange (R : Type*) where
  count : Nat
  first : Option Decimal
  last : Option Decimal
  realizedVolatility : Option R

structure PriceHistoryCache (α R : Type*) where
  /-- `_points`; `_timestamps` is the list of their timestamps. -/
  points : List (CachedPricePoint α R)
  /-- `_buckets`; `_bucket_seconds` is the list of their seconds. -/
  buckets : List PriceSecondBucket
  activeStart : Nat
  lastOrdinal : Nat
  baseSquaredLogReturn : R
  baseDigestSum : BitVec 256
  baseDigestXor : BitVec 256

/-- The window item a point was made of. -/
def CachedPricePoint.item {α R : Type*} (point : CachedPricePoint α R) : TimedValue α :=
  ⟨point.timestamp, point.source, point.ordinal⟩

/-- `int(timestamp.timestamp())`: the whole seconds, towards zero. -/
def wholeSecond (timestamp : Int) : Int := timestamp.tdiv 1000000

/-- `datetime.fromtimestamp(second)`. -/
def secondStart (second : Int) : Int := second * 1000000

namespace PriceSecondBucket

/-- `append`. -/
def append (bucket : PriceSecondBucket) (price : Decimal) : PriceSecondBucket :=
  { bucket with high := max bucket.high price, low := min bucket.low price, close := price }

/-- A bucket of the prices of one second; `none` is the `ValueError` of `max([])`. -/
def ofPrices (second : Int) (prices : List Decimal) : Option PriceSecondBucket :=
  match prices.max?, prices.min?, prices.getLast? with
  | some high, some low, some close => some ⟨second, high, low, close⟩
  | _, _, _ => none

/-- The loop over buckets of `atr`. -/
def trueRanges : Option Decimal → List PriceSecondBucket → List Decimal
  | _, [] => []
  | previousClose, bucket :: later =>
    let span := bucket.high - bucket.low
    let trueRange :=
      match previousClose with
      | none => span
      | some close => max (max span |bucket.high - close|) |bucket.low - close|
    trueRange :: trueRanges (some bucket.close) later

/-- `sum(true_ranges) / len(true_ranges)`. -/
def averageTrueRange (buckets : List PriceSecondBucket) : Decimal :=
  (trueRanges none buckets).sum / (trueRanges none buckets).length

end PriceSecondBucket

namespace PriceHistoryCache

variable {α R : Type*} [Ring R] [LinearOrder R] (math : PriceMath α R)

/-- `_PriceHistoryCache()`. -/
def new : PriceHistoryCache α R :=
  { points := [], buckets := [], activeStart := 0, lastOrdinal := 0, baseSquaredLogReturn := 0,
    baseDigestSum := 0, baseDigestXor := 0 }

/-- `_timestamps`. -/
def timestamps (cache : PriceHistoryCache α R) : List Int := cache.points.map (·.timestamp)

/-- `_bucket_seconds`. -/
def bucketSeconds (cache : PriceHistoryCache α R) : List Int := cache.buckets.map (·.second)

/-! ## Updating -/

/-- The squared log return between neighbouring prices, where both are positive. -/
def squaredReturn (previous price : Decimal) : R :=
  if 0 < previous ∧ 0 < price then math.log (price / previous) * math.log (price / previous) else 0

def validReturn (previous price : Decimal) : Nat := if 0 < previous ∧ 0 < price then 1 else 0

/-- The bucket half of `_append`. -/
def appendPrice (buckets : List PriceSecondBucket) (second : Int) (price : Decimal) :
    List PriceSecondBucket :=
  match buckets.getLast? with
  | some last =>
    if last.second = second then buckets.dropLast ++ [last.append price]
    else buckets ++ [⟨second, price, price, price⟩]
  | none => [⟨second, price, price, price⟩]

/-- The point `_append` makes of an item. -/
def nextPoint (cache : PriceHistoryCache α R) (item : TimedValue α) : CachedPricePoint α R :=
  let price := math.referencePrice item.value
  let digest := math.digest item.timestamp item.value
  match cache.points.getLast? with
  | none =>
    { timestamp := item.timestamp
      ordinal := item.ordinal
      price
      source := item.value
      prefixSquaredLogReturn := cache.baseSquaredLogReturn
      prefixValidLogReturns := 0
      prefixDigestSum := cache.baseDigestSum + digest
      prefixDigestXor := cache.baseDigestXor ^^^ digest }
  | some previous =>
    { timestamp := item.timestamp
      ordinal := item.ordinal
      price
      source := item.value
      prefixSquaredLogReturn :=
        previous.prefixSquaredLogReturn + squaredReturn math previous.price price
      prefixValidLogReturns := previous.prefixValidLogReturns + validReturn previous.price price
      prefixDigestSum := previous.prefixDigestSum + digest
      prefixDigestXor := previous.prefixDigestXor ^^^ digest }

/-- `_append`. -/
def append (cache : PriceHistoryCache α R) (item : TimedValue α) : PriceHistoryCache α R :=
  { cache with
    points := cache.points ++ [cache.nextPoint math item]
    buckets :=
      appendPrice cache.buckets (wholeSecond item.timestamp) (math.referencePrice item.value) }

/-- `_rebuild`. -/
def rebuild (items : List (TimedValue α)) (latestOrdinal : Nat) : PriceHistoryCache α R :=
  { items.foldl (append math) new with lastOrdinal := latestOrdinal }

/-- `_rebuild_first_bucket`. -/
def rebuildFirstBucket (cache : PriceHistoryCache α R) : Except String (PriceHistoryCache α R) :=
  match cache.points, cache.buckets with
  | first :: _, bucket :: later =>
    let firstSecond := wholeSecond first.timestamp
    if bucket.second ≠ firstSecond then
      .error "price bucket index diverged from cached points"
    else
      let stop := bisectLeft cache.timestamps (secondStart (firstSecond + 1)) 0
      match PriceSecondBucket.ofPrices firstSecond
          ((cache.points.take stop).map (·.price)) with
      | none => .error "max() iterable argument is empty"
      | some rebuilt => .ok { cache with buckets := rebuilt :: later }
  | _, _ => .ok cache

/-- The physical trimming of `_trim_to_retained_window`. -/
def compact (cache : PriceHistoryCache α R) : Except String (PriceHistoryCache α R) :=
  if cache.activeStart = 0 then .ok cache
  else
    match (cache.points.take cache.activeStart).getLast? with
    | none => .error "list index out of range"
    | some removed =>
      let kept := cache.points.drop cache.activeStart
      let trimmed :=
        { cache with
          points := kept
          activeStart := 0
          baseSquaredLogReturn := removed.prefixSquaredLogReturn
          baseDigestSum := removed.prefixDigestSum
          baseDigestXor := removed.prefixDigestXor }
      match kept with
      | [] => .ok { trimmed with buckets := [] }
      | first :: _ =>
        let bucketTrim := bisectLeft cache.bucketSeconds (wholeSecond first.timestamp) 0
        { trimmed with buckets := cache.buckets.drop bucketTrim }.rebuildFirstBucket

/-- `_TRIM_BATCH`. -/
def trimBatch : Nat := 4096

/-- The search of `_trim_to_retained_window` for the window's earliest item. -/
def seek (cache : PriceHistoryCache α R) (earliest : TimedValue α) : Nat :=
  let trim := bisectLeft cache.timestamps earliest.timestamp cache.activeStart
  trim + ((cache.points.drop trim).takeWhile fun point =>
    point.timestamp = earliest.timestamp ∧ point.ordinal ≠ earliest.ordinal).length

/-- `_trim_to_retained_window`. -/
def trimToRetainedWindow (cache : PriceHistoryCache α R) (window : BoundedTimeWindow α) :
    Except String (PriceHistoryCache α R) :=
  match window.items.head? with
  | none =>
    .ok (match cache.points with
      | [] => cache
      | _ => rebuild math [] window.ordinal)
  | some earliest =>
    let trim := cache.seek earliest
    if (cache.points[trim]?).all (·.ordinal ≠ earliest.ordinal) then
      .ok (rebuild math window.items window.ordinal)
    else if trim < cache.activeStart then .error "price cache active boundary moved backwards"
    else
      let cache := { cache with activeStart := trim }
      if trim < trimBatch ∧ cache.points.length ≤ window.bounds.maximumItems + trimBatch then
        .ok cache
      else cache.compact

/-- Whether the keys of new items ever step back from the one before. -/
def stepsBack : Option (TimedValue α) → List (TimedValue α) → Bool
  | _, [] => false
  | previous, item :: later =>
    previous.any (fun before => decide (item.Precedes before)) || stepsBack (some item) later

/-- `update`. -/
def update (cache : PriceHistoryCache α R) (window : BoundedTimeWindow α) :
    Except String (PriceHistoryCache α R) :=
  let newItems := window.itemsAppendedAfter cache.lastOrdinal
  if stepsBack (cache.points.getLast?.map (·.item)) newItems then
    .ok (rebuild math window.items window.ordinal)
  else
    { newItems.foldl (append math) cache with lastOrdinal := window.ordinal }.trimToRetainedWindow
      math window

/-! ## Queries -/

/-- `_bounds`. -/
def bounds (cache : PriceHistoryCache α R) (start stop : Int) : Except String (Nat × Nat) :=
  if stop < start then .error "price query end cannot precede start"
  else
    .ok (bisectRight cache.timestamps start cache.activeStart,
      bisectRight cache.timestamps stop cache.activeStart)

/-- `range`. -/
def range (cache : PriceHistoryCache α R) (start stop : Int) : Except String (PriceRange R) :=
  match cache.bounds start stop with
  | .error e => .error e
  | .ok (left, right) =>
    if right ≤ left then .ok ⟨0, none, none, none⟩
    else
      match cache.points[left]?, cache.points[right - 1]? with
      | some first, some last =>
        let squared := max 0 (last.prefixSquaredLogReturn - first.prefixSquaredLogReturn)
        let validLogReturns : Int := last.prefixValidLogReturns - first.prefixValidLogReturns
        .ok
          { count := right - left
            first := some first.price
            last := some last.price
            realizedVolatility := if validLogReturns < 2 then none else some (math.sqrt squared) }
      | _, _ => .error "list index out of range"

/-- `lineage`, behind `_bounds`. -/
def lineageBetween (cache : PriceHistoryCache α R) (left right : Nat) : Except String SourceLineage :=
  if right ≤ left then .ok {}
  else
    let before := if left = 0 then none else cache.points[left - 1]?
    let beforeSum := (before.map (·.prefixDigestSum)).getD cache.baseDigestSum
    let beforeXor := (before.map (·.prefixDigestXor)).getD cache.baseDigestXor
    match cache.points[left]?, cache.points[right - 1]? with
    | some first, some last =>
      .ok
        { count := right - left
          digestSum := last.prefixDigestSum - beforeSum
          digestXor := last.prefixDigestXor ^^^ beforeXor
          oldestTimestamp := some first.timestamp
          newestTimestamp := some last.timestamp }
    | _, _ => .error "list index out of range"

/-- `lineage`. -/
def lineage (cache : PriceHistoryCache α R) (start stop : Int) : Except String SourceLineage :=
  match cache.bounds start stop with
  | .error e => .error e
  | .ok (left, right) => cache.lineageBetween left right

/-- `_partial_bucket`. -/
def partialBucket (cache : PriceHistoryCache α R) (second : Int) (left right : Nat) :
    Option PriceSecondBucket :=
  let bucketLeft := max left (bisectLeft cache.timestamps (secondStart second) 0)
  let bucketRight := min right (bisectLeft cache.timestamps (secondStart (second + 1)) 0)
  if bucketRight ≤ bucketLeft then none
  else
    PriceSecondBucket.ofPrices second
      (((cache.points.take bucketRight).drop bucketLeft).map (·.price))

/-- `buckets`: the first and last second of the query are cut to it. -/
def bucketsBetween (cache : PriceHistoryCache α R) (start stop : Int) :
    Except String (List PriceSecondBucket) :=
  match cache.bounds start stop with
  | .error e => .error e
  | .ok (left, right) =>
    if right ≤ left then .ok []
    else
      match cache.points[left]?, cache.points[right - 1]? with
      | some first, some last =>
        let firstSecond := wholeSecond first.timestamp
        let lastSecond := wholeSecond last.timestamp
        let bucketLeft := bisectLeft cache.bucketSeconds firstSecond 0
        let bucketRight := bisectRight cache.bucketSeconds lastSecond 0
        .ok (((cache.buckets.take bucketRight).drop bucketLeft).filterMap fun bucket =>
          if bucket.second = firstSecond ∨ bucket.second = lastSecond then
            cache.partialBucket bucket.second left right
          else some bucket)
      | _, _ => .error "list index out of range"

/-- `high_low`. -/
def highLow (cache : PriceHistoryCache α R) (start stop : Int) :
    Except String (Option Decimal × Option Decimal) :=
  match cache.bucketsBetween start stop with
  | .error e => .error e
  | .ok buckets => .ok ((buckets.map (·.high)).max?, (buckets.map (·.low)).min?)

/-- `atr`. -/
def atr (cache : PriceHistoryCache α R) (start stop : Int) : Except String (Option Decimal) :=
  match cache.bounds start stop with
  | .error e => .error e
  | .ok (left, right) =>
    if right < left + 2 then .ok none
    else
      match cache.bucketsBetween start stop with
      | .error e => .error e
      | .ok [] => .ok none
      | .ok buckets => .ok (some (PriceSecondBucket.averageTrueRange buckets))

end PriceHistoryCache

/-! ## The same quantities from the items of a window -/

namespace Direct

variable {α R : Type*} [Ring R] [LinearOrder R] (math : PriceMath α R)

def prices (items : List (TimedValue α)) : List Decimal :=
  items.map fun item => math.referencePrice item.value

/-- The squared log returns between neighbouring prices. -/
def squaredReturns : List Decimal → R
  | previous :: price :: later =>
    PriceHistoryCache.squaredReturn math previous price + squaredReturns (price :: later)
  | _ => 0

/-- How many neighbouring prices have a log return. -/
def validReturns : List Decimal → Nat
  | previous :: price :: later =>
    PriceHistoryCache.validReturn previous price + validReturns (price :: later)
  | _ => 0

def range (items : List (TimedValue α)) : PriceRange R :=
  let prices := prices math items
  { count := items.length
    first := prices.head?
    last := prices.getLast?
    realizedVolatility :=
      if validReturns prices < 2 then none else some (math.sqrt (squaredReturns math prices)) }

def lineage (items : List (TimedValue α)) : SourceLineage :=
  items.foldl
    (fun lineage item => lineage.combine
      (.fromDigest item.timestamp (math.digest item.timestamp item.value))) {}

def highLow (items : List (TimedValue α)) : Option Decimal × Option Decimal :=
  ((prices math items).max?, (prices math items).min?)

/-- The prices of each second, seconds ascending: the sorted dictionary of `_one_second_atr`. -/
def bySecond (items : List (TimedValue α)) : List (Int × List (TimedValue α)) :=
  sortByKey Prod.fst (groupByKey (fun item => wholeSecond item.timestamp) items)

/-- `_one_second_atr`. -/
def oneSecondAtr (items : List (TimedValue α)) : Option Decimal :=
  if items.length < 2 then none
  else
    match (bySecond items).filterMap fun group =>
        PriceSecondBucket.ofPrices group.1 (prices math group.2) with
    | [] => none
    | buckets => some (PriceSecondBucket.averageTrueRange buckets)

end Direct

end Cvf
