/-
# Cvf.Okx.Book — the OKX incremental `books` state machine.

`OkxLocalOrderBook` keeps raw contract levels with the texts they arrived in, because the historical
checksum is a CRC32 over those texts.  A snapshot replaces the book, an update must continue the
current sequence id exactly (`prevSeqId == seqId`), and either may be refused by the checksum.

`Accepted` is the ghost history: the last accepted snapshot and the updates accepted since it, read
off the results the book returns.  `Explained` says that a live book is that history folded together
and that a book which is not live holds nothing; it is an invariant of every call.
-/
import Cvf.Library.Run
import Cvf.Orderbook.Base

namespace Cvf

open Cvf.Library

/-! ## Instruments and payloads -/

/-- `ContractSpecification`: what converts contracts into base units. -/
structure ContractSpecification where
  exchange : Exchange
  canonicalSymbol : String
  venueSymbol : String
  contractValue : Decimal
  contractMultiplier : Decimal
  contractValue_pos : 0 < contractValue
  contractMultiplier_pos : 0 < contractMultiplier
  deriving DecidableEq

namespace ContractSpecification

def baseUnitsPerContract (spec : ContractSpecification) : Decimal :=
  spec.contractValue * spec.contractMultiplier

def contractsToBase (spec : ContractSpecification) (contracts : Decimal) : Decimal :=
  contracts * spec.baseUnitsPerContract

theorem baseUnitsPerContract_pos (spec : ContractSpecification) :
    0 < spec.baseUnitsPerContract :=
  mul_pos spec.contractValue_pos spec.contractMultiplier_pos

theorem contractsToBase_eq_zero (spec : ContractSpecification) (contracts : Decimal) :
    spec.contractsToBase contracts = 0 ↔ contracts = 0 := by
  simp [contractsToBase, spec.baseUnitsPerContract_pos.ne']

theorem contractsToBase_pos (spec : ContractSpecification) (contracts : Decimal) :
    0 < spec.contractsToBase contracts ↔ 0 < contracts :=
  mul_pos_iff_of_pos_right spec.baseUnitsPerContract_pos

end ContractSpecification

/-- `tuple[str, str, str, str]`: price, quantity, a deprecated field and the order count. -/
structure OkxBookLevelText where
  price : String
  quantity : String
  deprecated : String := "0"
  orderCount : String := "1"
  deriving DecidableEq, Repr

structure OkxBookData where
  asks : List OkxBookLevelText
  bids : List OkxBookLevelText
  timestampMs : String
  checksum : Int
  sequenceId : Int
  previousSequenceId : Int
  deriving DecidableEq, Repr

inductive OkxBookAction where
  | snapshot
  | update
  deriving DecidableEq, Repr

/-! ## Raw levels -/

/-- `_RawLevel`. -/
structure RawLevel where
  price : Decimal
  quantityContracts : Decimal
  priceText : String
  quantityText : String
  deriving DecidableEq, Repr

/-- `dict[Decimal, _RawLevel]`. -/
abbrev RawSide := Finmap fun _ : Decimal => RawLevel

/-- One level's texts, read in the order the source reads them. -/
def OkxBookLevelText.parse (level : OkxBookLevelText) : Except PayloadError RawLevel := do
  let price ← decimalFromText level.price "price"
  let quantity ← decimalFromText level.quantity "quantity_contracts"
  return { price, quantityContracts := quantity, priceText := level.price,
           quantityText := level.quantity }

namespace RawSide

/-- Store a level, or drop its price when the quantity is zero. -/
def put (side : RawSide) (level : RawLevel) : RawSide :=
  if level.quantityContracts = 0 then side.erase level.price else side.insert level.price level

theorem lookup_put (side : RawSide) (level : RawLevel) (p : Decimal) :
    (side.put level).lookup p =
      if p = level.price then (if level.quantityContracts = 0 then none else some level)
      else side.lookup p := by
  unfold put
  by_cases hp : p = level.price
  · subst hp
    by_cases hq : level.quantityContracts = 0
    · simp [hq]
    · simp [hq]
  · by_cases hq : level.quantityContracts = 0
    · simp [hq, hp, Finmap.lookup_erase_ne hp]
    · simp [hq, hp, Finmap.lookup_insert_of_ne _ hp]

/-- The levels by ascending price: `sorted(side.values(), key=price)`. -/
def ascending (side : RawSide) : List RawLevel :=
  (side.keys.sort (· ≤ ·)).filterMap fun price => side.lookup price

/-- `sorted(side.values(), key=price, reverse=True)`. -/
def descending (side : RawSide) : List RawLevel :=
  (side.keys.sort (· ≥ ·)).filterMap fun price => side.lookup price

end RawSide

/-- `_raw_side`. -/
def rawSide (levels : List OkxBookLevelText) : Except PayloadError RawSide :=
  levels.foldlM (fun side text => do
    let level ← text.parse
    return if 0 < level.quantityContracts then side.insert level.price level else side) ∅

/-- `_apply_raw_side`: a level that does not parse raises with the earlier ones already applied. -/
def applyRawSide (side : RawSide) : List OkxBookLevelText → RawSide × Option PayloadError
  | [] => (side, none)
  | text :: rest =>
    match text.parse with
    | .error e => (side, some e)
    | .ok level => applyRawSide (side.put level) rest

/-- A message all of whose texts are decimals. -/
def OkxBookData.WellFormed (data : OkxBookData) : Prop :=
  (∀ level ∈ data.bids, level.parse.isOk = true) ∧ ∀ level ∈ data.asks, level.parse.isOk = true

instance (data : OkxBookData) : Decidable data.WellFormed :=
  inferInstanceAs (Decidable (_ ∧ _))

/-! ## The historical checksum -/

/-- One bit of the reflected CRC-32 register. -/
def crc32Bit (crc : BitVec 32) : BitVec 32 :=
  if crc.getLsbD 0 then (crc >>> 1) ^^^ 0xEDB88320#32 else crc >>> 1

/-- `zlib.crc32`. -/
def crc32 (bytes : List UInt8) : BitVec 32 :=
  ~~~(bytes.foldl (fun crc byte => crc32Bit^[8] (crc ^^^ byte.toBitVec.setWidth 32)) 0xFFFFFFFF#32)

/-- `_signed_crc32`. -/
def signedCrc32 (payload : String) : Int :=
  let checksum := (crc32 payload.toUTF8.toList).toNat
  if checksum < 2 ^ 31 then checksum else checksum - 2 ^ 32

/-- The texts of the two sides, bid and ask of each rank in turn. -/
def interleave : List RawLevel → List RawLevel → List String
  | [], asks => asks.flatMap fun ask => [ask.priceText, ask.quantityText]
  | bids, [] => bids.flatMap fun bid => [bid.priceText, bid.quantityText]
  | bid :: bids, ask :: asks =>
    bid.priceText :: bid.quantityText :: ask.priceText :: ask.quantityText :: interleave bids asks

/-- `_checksum_from_sides`. -/
def checksumFromSides (bids asks : RawSide) : Int :=
  signedCrc32 (":".intercalate (interleave (bids.descending.take 25) (asks.ascending.take 25)))

/-! ## The book -/

structure OkxLocalOrderBook where
  specification : ContractSpecification
  /-- `OKX book requires an OKX contract specification` -/
  isOkx : specification.exchange = .okx
  validateNonzeroChecksum : Bool := true
  status : BookStatus := .buffering
  generation : Nat := 0
  sequenceId : Option Int := none
  bids : RawSide := ∅
  asks : RawSide := ∅
  deriving DecidableEq

namespace OkxLocalOrderBook

/-- `_result`. -/
def result (book : OkxLocalOrderBook) (transition : BookTransition) (needsSnapshot : Bool)
    (reason : Option String := none) : BookApplyResult :=
  { transition
    status := book.status
    generation := book.generation
    sequenceId := book.sequenceId
    bufferedEvents := 0
    needsSnapshot
    reason }

/-- What a resync, a gap and a checksum failure all do to the book. -/
def invalidate (book : OkxLocalOrderBook) : OkxLocalOrderBook :=
  { book with
    generation := book.generation + 1
    status := .resyncRequired
    sequenceId := none
    bids := ∅
    asks := ∅ }

def beginResync (book : OkxLocalOrderBook) (reason : String) :
    OkxLocalOrderBook × BookApplyResult :=
  let book := book.invalidate
  (book, book.result .resyncStarted true (some reason))

/-- `_checksum_valid`. -/
def checksumValid (book : OkxLocalOrderBook) (checksum : Int) : Bool :=
  checksum = 0 || !book.validateNonzeroChecksum || checksumFromSides book.bids book.asks = checksum

/-- `_checksum_failure`. -/
def checksumFailure (book : OkxLocalOrderBook) (checksum : Int) :
    OkxLocalOrderBook × BookApplyResult :=
  let actual := checksumFromSides book.bids book.asks
  let book := book.invalidate
  (book, book.result .checksumMismatch true
    (some s!"expected historical checksum={checksum}, calculated={actual}"))

/-- The `snapshot` branch of `ingest`. -/
def ingestSnapshot (book : OkxLocalOrderBook) (data : OkxBookData) :
    OkxLocalOrderBook × Except PayloadError BookApplyResult :=
  match rawSide data.bids with
  | .error e => (book, .error e)
  | .ok bids =>
    match rawSide data.asks with
    | .error e => ({ book with bids }, .error e)
    | .ok asks =>
      let book := { book with bids, asks, sequenceId := some data.sequenceId }
      if book.checksumValid data.checksum then
        let book := { book with status := .live }
        (book, .ok (book.result .snapshotApplied false))
      else ((book.checksumFailure data.checksum).1, .ok (book.checksumFailure data.checksum).2)

/-- The end of the `update` branch, once the update continues the sequence. -/
def applyUpdate (book : OkxLocalOrderBook) (data : OkxBookData) :
    OkxLocalOrderBook × Except PayloadError BookApplyResult :=
  match applyRawSide book.bids data.bids with
  | (bids, some e) => ({ book with bids }, .error e)
  | (bids, none) =>
    match applyRawSide book.asks data.asks with
    | (asks, some e) => ({ book with bids, asks }, .error e)
    | (asks, none) =>
      let book := { book with bids, asks, sequenceId := some data.sequenceId }
      if book.checksumValid data.checksum then (book, .ok (book.result .updateApplied false))
      else ((book.checksumFailure data.checksum).1, .ok (book.checksumFailure data.checksum).2)

/-- `ingest`. -/
def ingest (book : OkxLocalOrderBook) (action : OkxBookAction) (data : OkxBookData) :
    OkxLocalOrderBook × Except PayloadError BookApplyResult :=
  match action with
  | .snapshot => book.ingestSnapshot data
  | .update =>
    match book.status, book.sequenceId with
    | .live, some previous =>
      if data.previousSequenceId ≠ previous then
        let book := book.invalidate
        (book, .ok (book.result .sequenceGap true
          (some s!"expected prevSeqId={previous}, received prevSeqId={data.previousSequenceId}")))
      else book.applyUpdate data
    | _, _ =>
      let book := { book with status := .resyncRequired }
      (book, .ok (book.result .sequenceGap true
        (some "received incremental books data before a valid snapshot")))

/-! ## The ghost history -/

/-- A call on the local book. -/
inductive Call where
  | beginResync (reason : String)
  | ingest (action : OkxBookAction) (data : OkxBookData)
  deriving DecidableEq, Repr

/-- The book a call leaves behind, and what it returns. -/
def call (book : OkxLocalOrderBook) : Call → OkxLocalOrderBook × Except PayloadError BookApplyResult
  | .beginResync reason => ((book.beginResync reason).1, .ok (book.beginResync reason).2)
  | .ingest action data => book.ingest action data

/-- The last accepted snapshot, and the updates accepted since it. -/
structure Accepted where
  snapshot : OkxBookData
  updates : List OkxBookData := []
  deriving DecidableEq, Repr

/-- How one returned result extends the accepted history. -/
def Accepted.record (history : Option Accepted) (data : OkxBookData) (result : BookApplyResult) :
    Option Accepted :=
  match result.transition with
  | .snapshotApplied => some { snapshot := data }
  | .updateApplied => history.map fun h => { h with updates := h.updates ++ [data] }
  | _ => history

/-- A call together with the history its result extends. -/
def callRecorded (state : OkxLocalOrderBook × Option Accepted) (c : Call) :
    OkxLocalOrderBook × Option Accepted :=
  ((state.1.call c).1,
    match c, (state.1.call c).2 with
    | .ingest _ data, .ok result => Accepted.record state.2 data result
    | _, _ => state.2)

namespace Accepted

/-- The sequence id the history ends at. -/
def finalSequenceId (h : Accepted) : Int :=
  ((h.snapshot :: h.updates).getLast (by simp)).sequenceId

/-- Every update's `prevSeqId` is the `seqId` of the message before it. -/
def Chained (h : Accepted) : Prop :=
  (h.snapshot :: h.updates).IsChain fun before after =>
    after.previousSequenceId = before.sequenceId

/-- One side of the snapshot folded with the updates' levels. -/
def fold (h : Accepted) (levels : OkxBookData → List OkxBookLevelText) :
    Except PayloadError RawSide :=
  (rawSide (levels h.snapshot)).map fun side =>
    h.updates.foldl (fun side update => (applyRawSide side (levels update)).1) side

end Accepted

/-- The messages of a call parse. -/
def Call.WellFormed : Call → Prop
  | .beginResync _ => True
  | .ingest _ data => data.WellFormed

instance : (c : Call) → Decidable c.WellFormed
  | .beginResync _ => .isTrue trivial
  | .ingest _ data => inferInstanceAs (Decidable data.WellFormed)

/-! ## The invariant -/

theorem parse_ok {level : OkxBookLevelText} (h : level.parse.isOk = true) :
    ∃ parsed, level.parse = .ok parsed := by
  cases hp : level.parse with
  | error e => simp [hp, Except.isOk, Except.toBool] at h
  | ok parsed => exact ⟨parsed, rfl⟩

theorem rawSide_ok {levels : List OkxBookLevelText}
    (h : ∀ level ∈ levels, level.parse.isOk = true) :
    ∃ side, rawSide levels = .ok side := by
  unfold rawSide
  generalize (∅ : RawSide) = start
  induction levels generalizing start with
  | nil => exact ⟨start, rfl⟩
  | cons level rest ih =>
      obtain ⟨parsed, hparsed⟩ := parse_ok (h level (by simp))
      simp only [List.foldlM_cons, hparsed, bind, Except.bind, pure, Except.pure]
      exact ih (fun l hl => h l (by simp [hl])) _

theorem applyRawSide_ok {levels : List OkxBookLevelText}
    (h : ∀ level ∈ levels, level.parse.isOk = true) (side : RawSide) :
    (applyRawSide side levels).2 = none := by
  induction levels generalizing side with
  | nil => rfl
  | cons level rest ih =>
      obtain ⟨parsed, hparsed⟩ := parse_ok (h level (by simp))
      simp only [applyRawSide, hparsed]
      exact ih (fun l hl => h l (by simp [hl])) _

/-- A live book is its accepted history, and a book that is not live holds nothing. -/
def Explained (state : OkxLocalOrderBook × Option Accepted) : Prop :=
  if state.1.status = .live then
    ∃ h, state.2 = some h ∧ h.Chained ∧ state.1.sequenceId = some h.finalSequenceId ∧
      h.fold OkxBookData.bids = .ok state.1.bids ∧ h.fold OkxBookData.asks = .ok state.1.asks
  else state.1.bids = ∅ ∧ state.1.asks = ∅ ∧ state.1.sequenceId = none

theorem explained_invalidate (book : OkxLocalOrderBook) (history : Option Accepted) :
    Explained (book.invalidate, history) := by
  simp [Explained, invalidate]

/-- What a well-formed snapshot does: it is accepted whole, or it invalidates the book. -/
theorem ingestSnapshot_cases (book : OkxLocalOrderBook) {data : OkxBookData}
    (hdata : data.WellFormed) :
    (∃ bids asks, rawSide data.bids = .ok bids ∧ rawSide data.asks = .ok asks ∧
      book.ingestSnapshot data =
        ({ book with bids, asks, sequenceId := some data.sequenceId, status := .live },
          .ok (result { book with bids, asks, sequenceId := some data.sequenceId, status := .live }
            .snapshotApplied false))) ∨
    ∃ result, book.ingestSnapshot data = (book.invalidate, .ok result) ∧
      result.transition = .checksumMismatch := by
  obtain ⟨bids, hbids⟩ := rawSide_ok hdata.1
  obtain ⟨asks, hasks⟩ := rawSide_ok hdata.2
  simp only [ingestSnapshot, hbids, hasks]
  split
  · exact Or.inl ⟨bids, asks, rfl, rfl, rfl⟩
  · exact Or.inr ⟨_, rfl, rfl⟩

/-- What a well-formed update that continues the sequence does. -/
theorem applyUpdate_cases (book : OkxLocalOrderBook) {data : OkxBookData}
    (hdata : data.WellFormed) :
    (∃ result, book.applyUpdate data =
        ({ book with
            bids := (applyRawSide book.bids data.bids).1
            asks := (applyRawSide book.asks data.asks).1
            sequenceId := some data.sequenceId }, .ok result) ∧
      result.transition = .updateApplied) ∨
    ∃ result, book.applyUpdate data = (book.invalidate, .ok result) ∧
      result.transition = .checksumMismatch := by
  have hbids := applyRawSide_ok hdata.1 book.bids
  have hasks := applyRawSide_ok hdata.2 book.asks
  rcases hb : applyRawSide book.bids data.bids with ⟨bids, eb⟩
  rcases ha : applyRawSide book.asks data.asks with ⟨asks, ea⟩
  rw [hb] at hbids
  rw [ha] at hasks
  subst hbids
  subst hasks
  simp only [applyUpdate, hb, ha]
  split
  · exact Or.inl ⟨_, rfl, rfl⟩
  · exact Or.inr ⟨_, rfl, rfl⟩

theorem ingest_update_of_not_live {book : OkxLocalOrderBook} (hstatus : book.status ≠ .live)
    (data : OkxBookData) :
    book.ingest .update data =
      ({ book with status := .resyncRequired },
        .ok (result { book with status := .resyncRequired } .sequenceGap true
          (some "received incremental books data before a valid snapshot"))) := by
  cases hs : book.status with
  | live => exact absurd hs hstatus
  | buffering => simp only [ingest, hs]
  | resyncRequired => simp only [ingest, hs]

theorem Accepted.finalSequenceId_append (h : Accepted) (data : OkxBookData) :
    ({ h with updates := h.updates ++ [data] } : Accepted).finalSequenceId = data.sequenceId := by
  simp [finalSequenceId]

theorem Accepted.chained_append {h : Accepted} (hchain : h.Chained) {data : OkxBookData}
    (hdata : data.previousSequenceId = h.finalSequenceId) :
    ({ h with updates := h.updates ++ [data] } : Accepted).Chained := by
  unfold Chained at hchain ⊢
  rw [← List.cons_append]
  refine List.isChain_append.mpr ⟨hchain, by simp, ?_⟩
  intro last hlast next hnext
  rw [List.getLast?_eq_some_getLast (by simp), Option.mem_some_iff] at hlast
  simp only [List.head?_cons, Option.mem_some_iff] at hnext
  subst hlast
  subst hnext
  exact hdata

theorem Accepted.fold_append {h : Accepted} {levels : OkxBookData → List OkxBookLevelText}
    {side : RawSide} (hfold : h.fold levels = .ok side) (data : OkxBookData) :
    ({ h with updates := h.updates ++ [data] } : Accepted).fold levels =
      .ok (applyRawSide side (levels data)).1 := by
  unfold fold at hfold ⊢
  cases hs : rawSide (levels h.snapshot) with
  | error e => simp [hs, Except.map] at hfold
  | ok start =>
      simp only [hs, Except.map, Except.ok.injEq] at hfold
      simp [Except.map, List.foldl_append, hfold]

theorem explained_ingestSnapshot (book : OkxLocalOrderBook) (history : Option Accepted)
    {data : OkxBookData} (hdata : data.WellFormed) :
    Explained (callRecorded (book, history) (.ingest .snapshot data)) := by
  rcases ingestSnapshot_cases book hdata with ⟨bids, asks, hbids, hasks, heq⟩ | ⟨r, heq, ht⟩
  · simp only [callRecorded, call, ingest, heq, Accepted.record, result]
    rw [Explained, if_pos rfl]
    refine ⟨_, rfl, by simp [Accepted.Chained], rfl, ?_, ?_⟩
    · simp [Accepted.fold, hbids, Except.map]
    · simp [Accepted.fold, hasks, Except.map]
  · simp only [callRecorded, call, ingest, heq]
    exact explained_invalidate book _

theorem explained_ingestUpdate {book : OkxLocalOrderBook} {history : Option Accepted}
    (hinv : Explained (book, history)) {data : OkxBookData} (hdata : data.WellFormed) :
    Explained (callRecorded (book, history) (.ingest .update data)) := by
  by_cases hlive : book.status = .live
  · rw [Explained, if_pos hlive] at hinv
    obtain ⟨h, hh, hchain, hseq, hbids, hasks⟩ := hinv
    simp only at hh hseq hbids hasks
    subst hh
    by_cases hprev : data.previousSequenceId = h.finalSequenceId
    · rcases applyUpdate_cases book hdata with ⟨r, heq, ht⟩ | ⟨r, heq, ht⟩
      · simp only [callRecorded, call, ingest, hlive, hseq, hprev, ne_eq, not_true_eq_false,
          if_false, heq, Accepted.record, ht, Option.map_some]
        rw [Explained, if_pos rfl]
        exact ⟨_, rfl, Accepted.chained_append hchain hprev,
          by rw [Accepted.finalSequenceId_append], Accepted.fold_append hbids data,
          Accepted.fold_append hasks data⟩
      · simp only [callRecorded, call, ingest, hlive, hseq, hprev, ne_eq, not_true_eq_false,
          if_false, heq]
        exact explained_invalidate book _
    · simp only [callRecorded, call, ingest, hlive, hseq, ne_eq, hprev, not_false_eq_true, if_true]
      exact explained_invalidate book _
  · have hempty := hinv
    rw [Explained, if_neg hlive] at hempty
    simp only [callRecorded, call, ingest_update_of_not_live hlive]
    rw [Explained, if_neg (by simp)]
    exact hempty

theorem explained_callRecorded (state : OkxLocalOrderBook × Option Accepted) (c : Call)
    (hinv : Explained state) (hc : c.WellFormed) : Explained (callRecorded state c) := by
  cases c with
  | beginResync reason => exact explained_invalidate state.1 state.2
  | ingest action data =>
      cases action with
      | snapshot => exact explained_ingestSnapshot state.1 state.2 hc
      | update => exact explained_ingestUpdate hinv hc

/-- A call that takes a live book out of `LIVE` opens the next generation. -/
theorem generation_lt_of_leaves_live {book : OkxLocalOrderBook} {history : Option Accepted}
    (hinv : Explained (book, history)) {c : Call} (hc : c.WellFormed) (hlive : book.status = .live)
    (hleaves : (book.call c).1.status ≠ .live) :
    book.generation < (book.call c).1.generation := by
  cases c with
  | beginResync reason => exact Nat.lt_succ_self _
  | ingest action data =>
      cases action with
      | snapshot =>
          simp only [call, ingest] at hleaves ⊢
          rcases ingestSnapshot_cases book hc with ⟨bids, asks, -, -, heq⟩ | ⟨r, heq, -⟩
          · simp [heq] at hleaves
          · rw [heq]
            exact Nat.lt_succ_self _
      | update =>
          rw [Explained, if_pos hlive] at hinv
          obtain ⟨h, -, -, hseq, -⟩ := hinv
          simp only at hseq
          simp only [call, ingest, hlive, hseq] at hleaves ⊢
          split at hleaves
          · rename_i hprev
            rw [if_pos hprev]
            exact Nat.lt_succ_self _
          · rename_i hprev
            rw [if_neg hprev]
            rcases applyUpdate_cases book hc with ⟨r, heq, -⟩ | ⟨r, heq, -⟩
            · simp [heq, hlive] at hleaves
            · rw [heq]
              exact Nat.lt_succ_self _

/-! ## Runs -/

/-- A freshly constructed book, with nothing accepted yet. -/
def new (specification : ContractSpecification) (isOkx : specification.exchange = .okx)
    (validateNonzeroChecksum : Bool) : OkxLocalOrderBook :=
  { specification, isOkx, validateNonzeroChecksum }

/-- The state after a run of calls on a fresh book. -/
def run (specification : ContractSpecification) (isOkx : specification.exchange = .okx)
    (validateNonzeroChecksum : Bool) (calls : List Call) :
    OkxLocalOrderBook × Option Accepted :=
  calls.foldl callRecorded (new specification isOkx validateNonzeroChecksum, none)

theorem explained_run (specification : ContractSpecification)
    (isOkx : specification.exchange = .okx) (validateNonzeroChecksum : Bool) {calls : List Call}
    (hcalls : ∀ c ∈ calls, c.WellFormed) :
    Explained (run specification isOkx validateNonzeroChecksum calls) := by
  have hnew : Explained (new specification isOkx validateNonzeroChecksum, none) := by
    simp [Explained, new]
  have hadmitted : Admitted callRecorded (fun _ c => c.WellFormed)
      (new specification isOkx validateNonzeroChecksum, none) calls := admitted_of_forall hcalls
  exact invariant_of_admitted explained_callRecorded hnew hadmitted

/-- **State machine.**  After any run of well-formed calls: a live book is the last accepted
snapshot folded with exactly the updates accepted since, which form an unbroken chain; a book that
is not live is empty; and any further call that leaves `LIVE` strictly raises the generation. -/
theorem run_explained_by_history (specification : ContractSpecification)
    (isOkx : specification.exchange = .okx) (validateNonzeroChecksum : Bool) (calls : List Call)
    (hcalls : ∀ c ∈ calls, c.WellFormed) :
    ((run specification isOkx validateNonzeroChecksum calls).1.status = .live →
      ∃ h, (run specification isOkx validateNonzeroChecksum calls).2 = some h ∧ h.Chained ∧
        (run specification isOkx validateNonzeroChecksum calls).1.sequenceId =
          some h.finalSequenceId ∧
        h.fold OkxBookData.bids =
          .ok (run specification isOkx validateNonzeroChecksum calls).1.bids ∧
        h.fold OkxBookData.asks =
          .ok (run specification isOkx validateNonzeroChecksum calls).1.asks) ∧
    ((run specification isOkx validateNonzeroChecksum calls).1.status ≠ .live →
      (run specification isOkx validateNonzeroChecksum calls).1.bids = ∅ ∧
        (run specification isOkx validateNonzeroChecksum calls).1.asks = ∅ ∧
        (run specification isOkx validateNonzeroChecksum calls).1.sequenceId = none) ∧
    ∀ c : Call, c.WellFormed →
      (run specification isOkx validateNonzeroChecksum calls).1.status = .live →
      (run specification isOkx validateNonzeroChecksum (calls ++ [c])).1.status ≠ .live →
      (run specification isOkx validateNonzeroChecksum calls).1.generation <
        (run specification isOkx validateNonzeroChecksum (calls ++ [c])).1.generation := by
  have hinv := explained_run specification isOkx validateNonzeroChecksum hcalls
  refine ⟨fun hlive => ?_, fun hnot => ?_, fun c hc hlive hleaves => ?_⟩
  · rwa [Explained, if_pos hlive] at hinv
  · rwa [Explained, if_neg hnot] at hinv
  · have hstep : run specification isOkx validateNonzeroChecksum (calls ++ [c]) =
        callRecorded (run specification isOkx validateNonzeroChecksum calls) c := by
      simp [run]
    rw [hstep] at hleaves ⊢
    exact generation_lt_of_leaves_live hinv hc hlive hleaves

def exampleSpecification : ContractSpecification :=
  { exchange := .okx
    canonicalSymbol := "BTC-USDT-PERP"
    venueSymbol := "BTC-USDT-SWAP"
    contractValue := 1 / 100
    contractMultiplier := 1
    contractValue_pos := by norm_num
    contractMultiplier_pos := by norm_num }

theorem exampleSpecification_okx : exampleSpecification.exchange = .okx := rfl

/-- Snapshot, update, resync, an update into the resync, a new snapshot, a heartbeat and an update
that removes a level. -/
def exampleCalls : List Call :=
  [.ingest .snapshot
      { bids := [⟨"100", "2", "0", "1"⟩], asks := [⟨"101", "3", "0", "1"⟩], timestampMs := "1"
        checksum := 0, sequenceId := 10, previousSequenceId := -1 },
    .ingest .update
      { bids := [⟨"99", "1", "0", "1"⟩], asks := [], timestampMs := "2"
        checksum := 0, sequenceId := 12, previousSequenceId := 10 },
    .beginResync "connected",
    .ingest .update
      { bids := [⟨"98", "1", "0", "1"⟩], asks := [], timestampMs := "3"
        checksum := 0, sequenceId := 14, previousSequenceId := 12 },
    .ingest .snapshot
      { bids := [⟨"100", "2", "0", "1"⟩, ⟨"99", "4", "0", "1"⟩]
        asks := [⟨"101", "3", "0", "1"⟩], timestampMs := "4"
        checksum := 0, sequenceId := 20, previousSequenceId := -1 },
    .ingest .update
      { bids := [], asks := [], timestampMs := "5"
        checksum := 0, sequenceId := 20, previousSequenceId := 20 },
    .ingest .update
      { bids := [⟨"99", "0", "0", "0"⟩], asks := [], timestampMs := "6"
        checksum := 0, sequenceId := 23, previousSequenceId := 20 }]

theorem run_explained_by_history_example :
    ∃ h, (run exampleSpecification rfl true exampleCalls).2 = some h ∧ h.Chained ∧
      (run exampleSpecification rfl true exampleCalls).1.sequenceId = some h.finalSequenceId ∧
      h.fold OkxBookData.bids = .ok (run exampleSpecification rfl true exampleCalls).1.bids ∧
      h.fold OkxBookData.asks = .ok (run exampleSpecification rfl true exampleCalls).1.asks := by
  have hwf : ∀ c ∈ exampleCalls, c.WellFormed := by decide +kernel
  have hlive : (run exampleSpecification rfl true exampleCalls).1.status = .live := by
    decide +kernel
  exact (run_explained_by_history exampleSpecification rfl true exampleCalls hwf).1 hlive

end OkxLocalOrderBook

end Cvf
