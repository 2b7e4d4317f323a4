/-
# Cvf.Storage.Raw — raw market records and the rows they are stored as.

A `RawMarketRecord` carries the facts its validators check; `construct` is the validating constructor.
`row` is the Parquet row of a record and `recordFromRow` reads one back.  The columns hold text where the
record holds an enumeration, a UUID or a sequence id, so reading a written row gives the record with its
sequence id as text (`recordFromRow_row`); everything else comes back as it was.

A timestamp column holds microseconds of UTC, as an instant does throughout the development.
-/
import Cvf.Library.FixedDigits
import Cvf.Symbol
import Cvf.Models

namespace Cvf

open Cvf.Library

/-! ## `uuid.UUID` -/

structure Uuid where
  int : Nat
  lt : int < 2 ^ 128

namespace Uuid

theorem ext {u v : Uuid} (h : u.int = v.int) : u = v := by
  cases u
  cases v
  simp_all

instance : DecidableEq Uuid := fun u v =>
  decidable_of_iff (u.int = v.int) ⟨ext, fun h => congrArg int h⟩

def hex (u : Uuid) : List Char := hexText 32 u.int

/-- `str(uuid)`: 8-4-4-4-12. -/
def str (u : Uuid) : String :=
  String.ofList
    (u.hex.take 8 ++ '-' :: ((u.hex.drop 8).take 4 ++ '-' :: ((u.hex.drop 12).take 4 ++
      '-' :: ((u.hex.drop 16).take 4 ++ '-' :: u.hex.drop 20))))

/-- `text.replace(word, "")`; the number counts the characters of a match still to drop. -/
def removeWord (word : List Char) : Nat → List Char → List Char
  | _, [] => []
  | skip + 1, _ :: cs => removeWord word skip cs
  | 0, c :: cs =>
    if word.isPrefixOf (c :: cs) then removeWord word (word.length - 1) cs
    else c :: removeWord word 0 cs

/-- `text.strip("\x7b\x7d")`. -/
def stripBraces (cs : List Char) : List Char :=
  let isBrace (c : Char) : Bool := c.toNat = 0x7b || c.toNat = 0x7d
  ((cs.dropWhile isBrace).reverse.dropWhile isBrace).reverse

/-- The value of a hexadecimal digit in either case, or of any Unicode decimal digit. -/
def hexValue (c : Char) : Option Nat :=
  match digitValue c with
  | some v => some v
  | none =>
    if 'a' ≤ c ∧ c ≤ 'f' then some (c.toNat - 87)
    else if 'A' ≤ c ∧ c ≤ 'F' then some (c.toNat - 55)
    else none

/-- Digits separated by single underscores. -/
def groupedHexDigits : List Char → Option (List Nat)
  | [] => none
  | [c] => (hexValue c).map ([·])
  | c :: d :: rest => do
    let v ← hexValue c
    let vs ← if d = '_' then groupedHexDigits rest else groupedHexDigits (d :: rest)
    return v :: vs

/-- The optional prefix of base sixteen. -/
def dropHexPrefix : List Char → List Char
  | '0' :: 'x' :: '_' :: cs => cs
  | '0' :: 'X' :: '_' :: cs => cs
  | '0' :: 'x' :: cs => cs
  | '0' :: 'X' :: cs => cs
  | cs => cs

/-- `int(text, 16)`. -/
def intOfHex (cs : List Char) : Option Int :=
  let signed := splitSign (pyStrip cs)
  (groupedHexDigits (dropHexPrefix signed.2)).map fun ds =>
    if signed.1 then -(ofDigits 16 ds : Int) else ofDigits 16 ds

theorem one_lt_limit : 1 < 2 ^ 128 := by
  norm_num

theorem two_lt_limit : 2 < 2 ^ 128 := by
  norm_num

theorem toNat_lt_of_range {value : Int} (h : 0 ≤ value ∧ value < 2 ^ 128) :
    value.toNat < 2 ^ 128 := by
  omega

/-- `UUID(text)`. -/
def parse (text : String) : Except String Uuid :=
  let cs := removeWord "uuid:".toList 0 (removeWord "urn:".toList 0 text.toList)
  let cs := (stripBraces cs).filter (· ≠ '-')
  if cs.length ≠ 32 then .error "badly formed hexadecimal UUID string"
  else
    match intOfHex cs with
    | none => .error "invalid literal for int() with base 16"
    | some value =>
      if h : 0 ≤ value ∧ value < 2 ^ 128 then .ok { int := value.toNat, lt := toNat_lt_of_range h }
      else .error "int is out of range (need a 128-bit value)"

/-! ### The text of a UUID reads back -/

/-- What the text of a UUID is made of: hexadecimal digits and hyphens. -/
def IsUuidChar (c : Char) : Prop := (∃ d < 16, c = hexChar d) ∨ c = '-'

theorem hexChar_plain : ∀ d < 16, hexValue (hexChar d) = some d ∧ isPySpace (hexChar d) = false ∧
    hexChar d ≠ '-' ∧ hexChar d ≠ '+' ∧ hexChar d ≠ '_' ∧ hexChar d ≠ ':' ∧ hexChar d ≠ 'x' ∧
    hexChar d ≠ 'X' ∧ (hexChar d).toNat ≠ 0x7b ∧ (hexChar d).toNat ≠ 0x7d := by
  decide +kernel

theorem removeWord_of_notMem {word cs : List Char} (stop : Char) (hword : stop ∈ word)
    (hcs : stop ∉ cs) : removeWord word 0 cs = cs := by
  induction cs with
  | nil => rfl
  | cons c cs ih =>
      have hmiss : ¬ word.isPrefixOf (c :: cs) := by
        intro hprefix
        exact hcs ((List.isPrefixOf_iff_prefix.mp hprefix).subset hword)
      unfold removeWord
      rw [if_neg hmiss, ih fun hmem => hcs (List.mem_cons_of_mem _ hmem)]

/-- Trimming does nothing to a text none of whose characters is trimmed. -/
theorem trim_eq_self {p : Char → Bool} {cs : List Char} (h : ∀ c ∈ cs, p c = false) :
    ((cs.dropWhile p).reverse.dropWhile p).reverse = cs := by
  have hkeep : ∀ ds : List Char, (∀ c ∈ ds, p c = false) → ds.dropWhile p = ds := by
    intro ds hds
    apply List.dropWhile_eq_self_iff.mpr
    intro hlength
    simp [hds _ (List.getElem_mem hlength)]
  rw [hkeep cs h, hkeep cs.reverse fun c hc => h c (List.mem_reverse.mp hc), List.reverse_reverse]

theorem groupedHexDigits_map {ds : List Nat} (hne : ds ≠ []) (h : ∀ d ∈ ds, d < 16) :
    groupedHexDigits (ds.map hexChar) = some ds := by
  induction ds with
  | nil => exact absurd rfl hne
  | cons d ds ih =>
      have hd := hexChar_plain d (h d List.mem_cons_self)
      cases ds with
      | nil => simp [groupedHexDigits, hd.1]
      | cons e ds =>
          have he := hexChar_plain e (h e (by simp))
          have hrest := ih (by simp) fun x hx => h x (List.mem_cons_of_mem _ hx)
          simp only [List.map_cons] at hrest ⊢
          simp [groupedHexDigits, hd.1, he.2.2.2.2.1, hrest]

theorem pyStrip_hexText (width n : Nat) : pyStrip (hexText width n) = hexText width n := by
  apply trim_eq_self
  intro c hc
  obtain ⟨d, hd, rfl⟩ := exists_hexChar_of_mem hc
  exact (hexChar_plain d hd).2.1

/-- A text of hexadecimal digits has neither sign nor prefix. -/
theorem intOfHex_hexText {width : Nat} (hwidth : 0 < width) (n : Nat) :
    intOfHex (hexText width n) = some ((n % 16 ^ width : Nat) : Int) := by
  have hplain : ∀ c ∈ hexText width n, c ≠ '-' ∧ c ≠ '+' ∧ c ≠ 'x' ∧ c ≠ 'X' := by
    intro c hc
    obtain ⟨d, hd, rfl⟩ := exists_hexChar_of_mem hc
    have h := hexChar_plain d hd
    exact ⟨h.2.2.1, h.2.2.2.1, h.2.2.2.2.2.2.1, h.2.2.2.2.2.2.2.1⟩
  have hsign : splitSign (hexText width n) = (false, hexText width n) := by
    unfold splitSign
    split
    · rename_i heq
      exact absurd rfl (hplain '-' (by rw [heq]; exact List.mem_cons_self)).1
    · rename_i heq
      exact absurd rfl (hplain '+' (by rw [heq]; exact List.mem_cons_self)).2.1
    · rfl
  have hplainText : dropHexPrefix (hexText width n) = hexText width n := by
    unfold dropHexPrefix
    split
    · rename_i heq
      exact absurd rfl (hplain 'x' (by rw [heq]; simp)).2.2.1
    · rename_i heq
      exact absurd rfl (hplain 'X' (by rw [heq]; simp)).2.2.2
    · rename_i heq
      exact absurd rfl (hplain 'x' (by rw [heq]; simp)).2.2.1
    · rename_i heq
      exact absurd rfl (hplain 'X' (by rw [heq]; simp)).2.2.2
    · rfl
  have hdigits : groupedHexDigits (hexText width n) = some (fixedDigits 16 width n) := by
    apply groupedHexDigits_map
    · intro hnil
      have hlength := length_fixedDigits 16 width n
      rw [hnil, List.length_nil] at hlength
      omega
    · exact fun d hd => lt_of_mem_fixedDigits (by omega) hd
  unfold intOfHex
  rw [pyStrip_hexText, hsign]
  simp only [hplainText, hdigits, Option.map_some, Bool.false_eq_true, if_false,
    ofDigits_fixedDigits]

theorem toList_str (u : Uuid) : u.str.toList =
    u.hex.take 8 ++ '-' :: ((u.hex.drop 8).take 4 ++ '-' :: ((u.hex.drop 12).take 4 ++
      '-' :: ((u.hex.drop 16).take 4 ++ '-' :: u.hex.drop 20))) :=
  String.toList_ofList

theorem isUuidChar_of_mem_hex {u : Uuid} {c : Char} (h : c ∈ u.hex) : IsUuidChar c :=
  Or.inl (exists_hexChar_of_mem h)

theorem isUuidChar_of_mem {u : Uuid} {c : Char} (h : c ∈ u.str.toList) : IsUuidChar c := by
  rw [toList_str] at h
  simp only [List.mem_append, List.mem_cons] at h
  rcases h with h | rfl | h | rfl | h | rfl | h | rfl | h
  · exact isUuidChar_of_mem_hex (List.mem_of_mem_take h)
  · exact Or.inr rfl
  · exact isUuidChar_of_mem_hex (List.mem_of_mem_drop (List.mem_of_mem_take h))
  · exact Or.inr rfl
  · exact isUuidChar_of_mem_hex (List.mem_of_mem_drop (List.mem_of_mem_take h))
  · exact Or.inr rfl
  · exact isUuidChar_of_mem_hex (List.mem_of_mem_drop (List.mem_of_mem_take h))
  · exact Or.inr rfl
  · exact isUuidChar_of_mem_hex (List.mem_of_mem_drop h)

/-- The digits of a UUID, cut at any places, contain no hyphen. -/
theorem filter_hyphen_eq_self {cs : List Char} (h : ∀ c ∈ cs, ∃ d < 16, c = hexChar d) :
    cs.filter (· ≠ '-') = cs := by
  apply List.filter_eq_self.mpr
  intro c hc
  obtain ⟨d, hd, rfl⟩ := h c hc
  simpa using (hexChar_plain d hd).2.2.1

/-- Leaving out the hyphens leaves the thirty-two digits. -/
theorem filter_hyphen_str (u : Uuid) : u.str.toList.filter (· ≠ '-') = u.hex := by
  have hdigit : ∀ c ∈ u.hex, ∃ d < 16, c = hexChar d := fun c hc => exists_hexChar_of_mem hc
  have htake : ∀ i n, ((u.hex.drop i).take n).filter (· ≠ '-') = (u.hex.drop i).take n :=
    fun i n => filter_hyphen_eq_self fun c hc =>
      hdigit c (List.mem_of_mem_drop (List.mem_of_mem_take hc))
  have hfirst := htake 0 8
  have hlast : (u.hex.drop 20).filter (· ≠ '-') = u.hex.drop 20 :=
    filter_hyphen_eq_self fun c hc => hdigit c (List.mem_of_mem_drop hc)
  rw [List.drop_zero] at hfirst
  rw [toList_str]
  simp only [List.filter_append, List.filter_cons, ne_eq, not_true_eq_false, decide_false,
    Bool.false_eq_true, if_false] at hfirst htake hlast ⊢
  rw [hfirst, htake, htake, htake, hlast]
  have hsplit : ∀ i n, (u.hex.drop i).take n ++ u.hex.drop (i + n) = u.hex.drop i := by
    intro i n
    rw [← List.drop_drop, List.take_append_drop]
  rw [hsplit 16 4, hsplit 12 4, hsplit 8 4, List.take_append_drop]

/-- A UUID reads back from its text. -/
theorem parse_str (u : Uuid) : parse u.str = .ok u := by
  have hcolon : ':' ∉ u.str.toList := by
    intro hmem
    rcases isUuidChar_of_mem hmem with ⟨d, hd, heq⟩ | heq
    · exact (hexChar_plain d hd).2.2.2.2.2.1 heq.symm
    · cases heq
  have hbraces : stripBraces u.str.toList = u.str.toList := by
    apply trim_eq_self
    intro c hc
    rcases isUuidChar_of_mem hc with ⟨d, hd, rfl⟩ | rfl
    · simp [(hexChar_plain d hd).2.2.2.2.2.2.2.2]
    · decide
  have hlength : u.hex.length = 32 := length_hexText 32 u.int
  have hvalue : u.int % 16 ^ 32 = u.int := Nat.mod_eq_of_lt (lt_of_lt_of_eq u.lt (by norm_num))
  have hread : intOfHex u.hex = some (u.int : Int) := by
    rw [hex, intOfHex_hexText (by omega), hvalue]
  have hrange : (0 : Int) ≤ u.int ∧ (u.int : Int) < 2 ^ 128 := ⟨Int.natCast_nonneg _, by
    exact_mod_cast u.lt⟩
  unfold parse
  rw [removeWord_of_notMem ':' (by decide) hcolon, removeWord_of_notMem ':' (by decide) hcolon]
  dsimp only
  rw [hbraces, filter_hyphen_str]
  simp only [hlength, hread, hrange, ne_eq, not_true_eq_false, if_false, and_self, dite_true,
    Int.toNat_natCast]

end Uuid

/-! ## Records -/

/-- `Literal["websocket", "rest", "internal"]`. -/
inductive Transport where
  | websocket
  | rest
  | internal
  deriving DecidableEq, Repr

def Transport.value : Transport → String
  | .websocket => "websocket"
  | .rest => "rest"
  | .internal => "internal"

def Transport.ofValue (value : String) : Except String Transport :=
  if value = "websocket" then .ok .websocket
  else if value = "rest" then .ok .rest
  else if value = "internal" then .ok .internal
  else .error "Input should be 'websocket', 'rest' or 'internal'"

theorem Transport.ofValue_value (t : Transport) : ofValue t.value = .ok t := by
  cases t <;> decide +kernel

/-- `Exchange(value)`. -/
def Exchange.ofValue (value : String) : Except String Exchange :=
  if value = "BINANCE" then .ok .binance
  else if value = "OKX" then .ok .okx
  else if value = "CROSS_VENUE" then .ok .crossVenue
  else if value = "SIMULATED" then .ok .simulated
  else .error s!"'{value}' is not a valid Exchange"

theorem Exchange.ofValue_value (e : Exchange) : ofValue e.value = .ok e := by
  cases e <;> decide +kernel

def normalizedEventJournalChannel : String := "_normalized_event"

def featureTimelineEndMessageKind : String := "feature_timeline_end"

/-- One exact public payload, with receipt and routing metadata that passed the validators. -/
structure RawMarketRecord where
  recordId : Uuid
  exchange : Exchange
  symbol : String
  channel : String
  messageKind : String
  transport : Transport
  exchangeTimestamp : Option Int
  localReceiveTimestamp : Int
  normalizationTimestamp : Option Int
  sequenceId : Option SequenceId
  connectionGeneration : Nat
  rawPayload : ByteArray
  symbol_canonical : validateCanonicalSymbol symbol true = .ok symbol
  channel_not_blank : isBlank channel = false
  messageKind_not_blank : isBlank messageKind = false

namespace RawMarketRecord

def rawPayloadReference (r : RawMarketRecord) : String := s!"raw://{r.recordId.str}"

/-- `text_is_not_empty` -/
def emptyTextError : String := "raw record routing fields cannot be empty"

/-- The validating constructor, with the text of the first validator that refuses. -/
def construct (recordId : Uuid) (exchange : Exchange) (symbol channel messageKind transport : String)
    (exchangeTimestamp : Option Int) (localReceiveTimestamp : Int)
    (normalizationTimestamp : Option Int) (sequenceId : Option SequenceId)
    (connectionGeneration : Int) (rawPayload : ByteArray) : Except String RawMarketRecord :=
  match hs : validateCanonicalSymbol symbol true with
  | .error e => .error e
  | .ok canonical =>
    if hc : isBlank channel = false then
      if hm : isBlank messageKind = false then
        match Transport.ofValue transport with
        | .error e => .error e
        | .ok transport =>
          if connectionGeneration < 0 then .error "Input should be greater than or equal to 0"
          else
            .ok
              { recordId, exchange, symbol := canonical, channel, messageKind, transport
                exchangeTimestamp, localReceiveTimestamp, normalizationTimestamp, sequenceId
                connectionGeneration := connectionGeneration.toNat
                rawPayload
                symbol_canonical := validateCanonicalSymbol_idem hs
                channel_not_blank := hc
                messageKind_not_blank := hm }
      else .error emptyTextError
    else .error emptyTextError

/-- Constructing from a record's own fields gives the record, with the new sequence id. -/
theorem construct_self (r : RawMarketRecord) (sequenceId : Option SequenceId) :
    construct r.recordId r.exchange r.symbol r.channel r.messageKind r.transport.value
      r.exchangeTimestamp r.localReceiveTimestamp r.normalizationTimestamp sequenceId
      r.connectionGeneration r.rawPayload = .ok { r with sequenceId } := by
  unfold construct
  split
  · rename_i e hs
    rw [r.symbol_canonical] at hs
    cases hs
  · rename_i canonical hs
    rw [r.symbol_canonical] at hs
    obtain rfl := Except.ok.inj hs
    rw [dif_pos r.channel_not_blank, dif_pos r.messageKind_not_blank, Transport.ofValue_value]
    simp

/-- The record with its sequence id as text. -/
def withTextSequence (r : RawMarketRecord) : RawMarketRecord :=
  { r with sequenceId := r.sequenceId.map fun id => .text id.str }

theorem withTextSequence_idem (r : RawMarketRecord) :
    r.withTextSequence.withTextSequence = r.withTextSequence := by
  unfold withTextSequence
  rw [Option.map_map]
  rfl

end RawMarketRecord

/-! ## Rows -/

/-- One row under `RAW_PARQUET_SCHEMA`. -/
structure RawRow where
  schemaVersion : Int
  recordId : String
  rawPayloadReference : String
  exchange : String
  symbol : String
  channel : String
  messageKind : String
  transport : String
  exchangeTimestamp : Option Int
  localReceiveTimestamp : Int
  normalizationTimestamp : Option Int
  sequenceId : Option String
  connectionGeneration : Int
  rawPayload : ByteArray
  deriving DecidableEq

/-- `_row` -/
def row (r : RawMarketRecord) : RawRow :=
  { schemaVersion := 1
    recordId := r.recordId.str
    rawPayloadReference := r.rawPayloadReference
    exchange := r.exchange.value
    symbol := r.symbol
    channel := r.channel
    messageKind := r.messageKind
    transport := r.transport.value
    exchangeTimestamp := r.exchangeTimestamp
    localReceiveTimestamp := r.localReceiveTimestamp
    normalizationTimestamp := r.normalizationTimestamp
    sequenceId := r.sequenceId.map SequenceId.str
    connectionGeneration := r.connectionGeneration
    rawPayload := r.rawPayload }

/-- The values the integer columns hold: `int16` and `int64`. -/
def RawRow.fitsSchema (row : RawRow) : Prop :=
  (-2 ^ 15 ≤ row.schemaVersion ∧ row.schemaVersion < 2 ^ 15) ∧
    -2 ^ 63 ≤ row.connectionGeneration ∧ row.connectionGeneration < 2 ^ 63

instance (row : RawRow) : Decidable row.fitsSchema := by
  unfold RawRow.fitsSchema
  infer_instance

/-- `pa.Table.from_pylist(rows, schema=RAW_PARQUET_SCHEMA)`. -/
def tableFromRows (rows : List RawRow) : Except String (List RawRow) :=
  if ∀ row ∈ rows, row.fitsSchema then .ok rows else .error "Value too large to fit in C integer type"

/-- `_record_from_row` -/
def recordFromRow (row : RawRow) : Except String RawMarketRecord := do
  let recordId ← Uuid.parse row.recordId
  let exchange ← Exchange.ofValue row.exchange
  RawMarketRecord.construct recordId exchange row.symbol row.channel row.messageKind row.transport
    row.exchangeTimestamp row.localReceiveTimestamp row.normalizationTimestamp
    (row.sequenceId.map SequenceId.text) row.connectionGeneration row.rawPayload

/-- A record reads back from its row, its sequence id as text. -/
theorem recordFromRow_row (r : RawMarketRecord) :
    recordFromRow (row r) = .ok r.withTextSequence := by
  unfold recordFromRow row
  simp only [Uuid.parse_str, Exchange.ofValue_value, bind, Except.bind]
  rw [RawMarketRecord.construct_self]
  unfold RawMarketRecord.withTextSequence
  rw [Option.map_map]
  rfl

theorem fitsSchema_row_iff (r : RawMarketRecord) :
    (row r).fitsSchema ↔ r.connectionGeneration < 2 ^ 63 := by
  unfold RawRow.fitsSchema row
  dsimp only
  omega

end Cvf
