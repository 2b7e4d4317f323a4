/-
# Cvf.Storage.Tree — the partitioned tree of Parquet files.

A raw tree is a list of files under the hive-style directories of their partitions.  The directory of a
partition percent-encodes its four values, and two partitions never share one
(`partitionDirectory_injective`).
-/
import Cvf.Library.SortByKey
import Cvf.Library.Utf8
import Cvf.Storage.Raw

namespace Cvf

open Cvf.Library

/-! ## Partitions and paths -/

/-- The characters `quote` leaves as they are. -/
def isQuoteSafe (n : Nat) : Bool :=
  (65 ≤ n && n ≤ 90) || (97 ≤ n && n ≤ 122) || (48 ≤ n && n ≤ 57) || n = 0x5f || n = 0x2e ||
    n = 0x2d || n = 0x7e

def quoteByte (b : UInt8) : List Char :=
  if isQuoteSafe b.toNat then [Char.ofNat b.toNat]
  else '%' :: (hexText 2 b.toNat).map Char.toUpper

/-- `quote(value, safe="-_.")`: percent-encoded UTF-8. -/
def quote (value : String) : String := String.ofList ((utf8Bytes value).flatMap quoteByte)

example : quote "BTC-USDT-PERP" = "BTC-USDT-PERP" := by decide +kernel
example : quote "*" = "%2A" := by decide +kernel

/-- The proleptic Gregorian date of a day counted from the Unix epoch. -/
def civilFromDays (days : Int) : Int × Nat × Nat :=
  let z := days + 719468
  let era := z / 146097
  let doe := (z % 146097).toNat
  let yoe := (doe - doe / 1460 + doe / 36524 - doe / 146096) / 365
  let doy := doe - (365 * yoe + yoe / 4 - yoe / 100)
  let mp := (5 * doy + 2) / 153
  let day := doy - (153 * mp + 2) / 5 + 1
  let month := if mp < 10 then mp + 3 else mp - 9
  (yoe + era * 400 + (if month ≤ 2 then 1 else 0), month, day)

/-- `timestamp.astimezone(UTC).date().isoformat()`. -/
def isoDate (timestamp : Int) : String :=
  let date := civilFromDays (timestamp / 86400000000)
  let padded (width n : Nat) : List Char := (fixedDigits 10 width n).map hexChar
  String.ofList
    (padded 4 date.1.toNat ++ '-' :: (padded 2 date.2.1 ++ '-' :: padded 2 date.2.2))

example : isoDate 0 = "1970-01-01" := by decide +kernel
example : isoDate (-1) = "1969-12-31" := by decide +kernel
example : isoDate 1709164800000000 = "2024-02-29" := by decide +kernel

structure Partition where
  date : String
  exchange : String
  symbol : String
  channel : String
  deriving DecidableEq, Repr

/-- `_row_partition` -/
def rowPartition (row : RawRow) : Partition :=
  { date := isoDate row.localReceiveTimestamp
    exchange := row.exchange
    symbol := row.symbol
    channel := row.channel }

/-- `_partition_directory`, relative to the root of the tree. -/
def partitionDirectory (p : Partition) : List String :=
  ["date=" ++ quote p.date, "exchange=" ++ quote p.exchange, "symbol=" ++ quote p.symbol,
    "channel=" ++ quote p.channel]

/-- The byte a code stands for. -/
def unquoteByte : List Char → Nat
  | [c] => c.toNat
  | [_, high, low] => 16 * (Uuid.hexValue high).getD 0 + (Uuid.hexValue low).getD 0
  | _ => 0

/-- A code tells its length by its first character, and its byte. -/
theorem quoteByte_spec (b : UInt8) :
    unquoteByte (quoteByte b) = b.toNat ∧ quoteByte b ≠ [] ∧
      (quoteByte b).length = if (quoteByte b).head? = some '%' then 3 else 1 := by
  have hall : ∀ n < 256, unquoteByte (quoteByte (UInt8.ofNat n)) = n ∧
      quoteByte (UInt8.ofNat n) ≠ [] ∧ (quoteByte (UInt8.ofNat n)).length =
        if (quoteByte (UInt8.ofNat n)).head? = some '%' then 3 else 1 := by
    decide +kernel
  have hb := hall b.toNat b.toNat_lt
  rwa [UInt8.ofNat_toNat] at hb

theorem flatMap_quoteByte_injective {bs cs : List UInt8}
    (h : bs.flatMap quoteByte = cs.flatMap quoteByte) : bs = cs := by
  induction bs generalizing cs with
  | nil =>
      cases cs with
      | nil => rfl
      | cons c cs =>
          rw [List.flatMap_nil, List.flatMap_cons] at h
          exact absurd (List.append_eq_nil_iff.mp h.symm).1 (quoteByte_spec c).2.1
  | cons b bs ih =>
      obtain ⟨hbyte, hne, hlength⟩ := quoteByte_spec b
      cases cs with
      | nil =>
          rw [List.flatMap_nil, List.flatMap_cons] at h
          exact absurd (List.append_eq_nil_iff.mp h).1 hne
      | cons c cs =>
          obtain ⟨hbyte', hne', hlength'⟩ := quoteByte_spec c
          rw [List.flatMap_cons, List.flatMap_cons] at h
          have hhead := congrArg List.head? h
          rw [List.head?_append_of_ne_nil _ hne, List.head?_append_of_ne_nil _ hne'] at hhead
          rw [hhead, ← hlength'] at hlength
          obtain ⟨hcode, hrest⟩ := List.append_inj h hlength
          rw [hcode, hbyte'] at hbyte
          rw [UInt8.toNat_inj.mp hbyte, ih hrest]

theorem quote_injective {value value' : String} (h : quote value = quote value') : value = value' := by
  have hcodes : (utf8Bytes value).flatMap quoteByte = (utf8Bytes value').flatMap quoteByte := by
    have hlists := congrArg String.toList h
    simpa only [quote, String.toList_ofList] using hlists
  exact utf8Bytes_inj.mp (flatMap_quoteByte_injective hcodes)

/-- Two partitions do not share a directory. -/
theorem partitionDirectory_injective {p q : Partition}
    (h : partitionDirectory p = partitionDirectory q) : p = q := by
  have key : ∀ {label value value' : String}, label ++ quote value = label ++ quote value' →
      value = value' := fun heq => quote_injective (String.append_right_inj _ |>.mp heq)
  unfold partitionDirectory at h
  simp only [List.cons.injEq, and_true] at h
  obtain ⟨hdate, hexchange, hsymbol, hchannel⟩ := h
  cases p
  cases q
  rw [Partition.mk.injEq]
  exact ⟨key hdate, key hexchange, key hsymbol, key hchannel⟩

/-! ## Files and trees -/

/-- A Parquet file, with its parent directory relative to the root. -/
structure RawFile where
  directory : List String
  name : String
  /-- `schema_arrow == RAW_PARQUET_SCHEMA` -/
  schemaMatches : Bool := true
  rows : List RawRow

structure RawTree where
  root : String
  files : List RawFile

def RawFile.path (f : RawFile) : List String := f.directory ++ [f.name]

def RawTree.pathText (tree : RawTree) (f : RawFile) : String :=
  "/".intercalate (tree.root :: f.path)

/-- `sorted(root.rglob("*.parquet"))` -/
def RawTree.sortedFiles (tree : RawTree) : List RawFile :=
  sortByKey RawFile.path tree.files

/-- The rows of a tree. -/
def RawTree.rows (tree : RawTree) : List RawRow := tree.files.flatMap RawFile.rows

/-- `ParquetFile.iter_batches`: how the reader cuts the rows of a file into batches. -/
structure BatchReader where
  iterBatches : Nat → List RawRow → List (List RawRow)
  flatten_iterBatches : ∀ batchSize rows, (iterBatches batchSize rows).flatten = rows

/-- The rows of one row group, `batchSize` at a time; `current` is the batch being filled. -/
def cutBatches (batchSize : Nat) : List RawRow → List RawRow → List (List RawRow)
  | [], current => if current = [] then [] else [current]
  | row :: rows, current =>
    if batchSize ≤ current.length + 1 then (current ++ [row]) :: cutBatches batchSize rows []
    else cutBatches batchSize rows (current ++ [row])

theorem flatten_cutBatches (batchSize : Nat) (rows current : List RawRow) :
    (cutBatches batchSize rows current).flatten = current ++ rows := by
  induction rows generalizing current with
  | nil =>
      unfold cutBatches
      split_ifs with hcurrent
      · simp [hcurrent]
      · simp
  | cons row rows ih =>
      unfold cutBatches
      split_ifs
      · simp [ih]
      · simp [ih]

/-- The reader of files with one row group. -/
def BatchReader.oneGroup : BatchReader :=
  { iterBatches := fun batchSize rows => cutBatches batchSize rows []
    flatten_iterBatches := fun batchSize rows => flatten_cutBatches batchSize rows [] }

theorem RawTree.sortedFiles_perm (tree : RawTree) : tree.sortedFiles.Perm tree.files :=
  sortByKey_perm _ _

theorem RawTree.rows_sortedFiles (tree : RawTree) :
    (tree.sortedFiles.flatMap RawFile.rows).Perm tree.rows :=
  tree.sortedFiles_perm.flatMap_right _

end Cvf
