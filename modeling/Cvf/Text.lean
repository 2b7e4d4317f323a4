/-
# Cvf.Text — exact decimals and integers read from exchange text.

Every price and quantity of a venue payload is text, and the books turn it into `decimal.Decimal`
through `decimal_from_text`.  This module gives the numeric-string grammar of the Python `Decimal`
constructor as an executable parser: surrounding whitespace is stripped, underscores are removed,
digits may be any Unicode decimal digit, and infinities and NaNs are recognised so that
`decimal_from_text` can refuse them.  A finite decimal is its exact rational value (`Decimal`
equality and hashing are numeric, so `1.0` and `1.00` are one dictionary key).

Throughout the development a UTC instant is an `Int`, in microseconds since the Unix epoch (the
`datetime` resolution), and so is a `timedelta`.

`pyInt` is the `int(text)` conversion the feature book applies to textual sequence ids.
-/
import Mathlib

namespace Cvf

/-- Finite `decimal.Decimal` values, by their exact numeric value. -/
abbrev Decimal := Rat

/-! ## Characters -/

/-- Code points of the digit zero in every block of Unicode decimal digits. -/
def digitZeros : List Nat :=
  [0x30, 0x660, 0x6f0, 0x7c0, 0x966, 0x9e6, 0xa66, 0xae6, 0xb66, 0xbe6, 0xc66, 0xce6, 0xd66, 0xde6,
   0xe50, 0xed0, 0xf20, 0x1040, 0x1090, 0x17e0, 0x1810, 0x1946, 0x19d0, 0x1a80, 0x1a90, 0x1b50,
   0x1bb0, 0x1c40, 0x1c50, 0xa620, 0xa8d0, 0xa900, 0xa9d0, 0xa9f0, 0xaa50, 0xabf0, 0xff10, 0x104a0,
   0x10d30, 0x11066, 0x110f0, 0x11136, 0x111d0, 0x112f0, 0x11450, 0x114d0, 0x11650, 0x116c0,
   0x11730, 0x118e0, 0x11950, 0x11c50, 0x11d50, 0x11da0, 0x16a60, 0x16ac0, 0x16b50, 0x1d7ce,
   0x1d7d8, 0x1d7e2, 0x1d7ec, 0x1d7f6, 0x1e140, 0x1e2f0, 0x1e950, 0x1fbf0]

/-- The value of a decimal digit, `none` for every other character. -/
def digitValue (c : Char) : Option Nat :=
  (digitZeros.find? fun z => z ≤ c.toNat && c.toNat < z + 10).map fun z => c.toNat - z

/-- The characters `str.strip` removes. -/
def isPySpace (c : Char) : Bool :=
  let n := c.toNat
  (9 ≤ n && n ≤ 13) || (0x1c ≤ n && n ≤ 0x20) || n = 0x85 || n = 0xa0 || n = 0x1680 ||
    (0x2000 ≤ n && n ≤ 0x200a) || n = 0x2028 || n = 0x2029 || n = 0x202f || n = 0x205f || n = 0x3000

/-- `str.strip` on the list of characters. -/
def pyStrip (cs : List Char) : List Char :=
  ((cs.dropWhile isPySpace).reverse.dropWhile isPySpace).reverse

/-- The longest run of digits at the head of the text, and what follows it. -/
def spanDigits : List Char → List Nat × List Char
  | [] => ([], [])
  | c :: cs =>
    match digitValue c with
    | some v => (v :: (spanDigits cs).1, (spanDigits cs).2)
    | none => ([], c :: cs)

/-- The number a run of decimal digits spells. -/
def natOfDigits (ds : List Nat) : Nat :=
  ds.foldl (fun n d => 10 * n + d) 0

/-- An optional sign: `true` for a minus. -/
def splitSign : List Char → Bool × List Char
  | '-' :: cs => (true, cs)
  | '+' :: cs => (false, cs)
  | cs => (false, cs)

/-! ## `decimal.Decimal(text)` -/

/-- What a numeric string denotes. -/
inductive DecimalValue where
  | finite (value : Decimal)
  | nonFinite
  deriving DecidableEq, Repr

/-- `NaN`, `sNaN` (with diagnostic digits), `Inf` and `Infinity`, in any letter case. -/
def isNonFiniteText (cs : List Char) : Bool :=
  let lowered := cs.map Char.toLower
  let isNan (rest : List Char) : Bool :=
    match rest with
    | 'n' :: 'a' :: 'n' :: diag => (spanDigits diag).2.isEmpty
    | _ => false
  lowered = "inf".toList || lowered = "infinity".toList || isNan lowered ||
    (match lowered with
     | 's' :: rest => isNan rest
     | _ => false)

/-- The optional exponent part; `none` when trailing text is no exponent. -/
def parseExponent : List Char → Option Int
  | [] => some 0
  | c :: cs =>
    if c = 'e' || c = 'E' then
      let signed := splitSign cs
      let digits := spanDigits signed.2
      if digits.1.isEmpty || !digits.2.isEmpty then none
      else some (if signed.1 then -(natOfDigits digits.1 : Int) else natOfDigits digits.1)
    else none

/-- The fractional digits after an optional decimal point. -/
def parseFraction : List Char → List Nat × List Char
  | '.' :: cs => spanDigits cs
  | cs => ([], cs)

/-- Largest adjusted exponent (`MAX_EMAX`) and smallest exponent of an exactly representable value. -/
def maxEmax : Int := 999999999999999999
def minEtiny : Int := -1999999999999999997

/-- The value `coefficient * 10 ^ exponent`. -/
def scaled (negative : Bool) (coefficient : Nat) (exponent : Int) : Decimal :=
  let signed : Int := if negative then -(coefficient : Int) else coefficient
  if 0 ≤ exponent then mkRat (signed * 10 ^ exponent.toNat) 1
  else mkRat signed (10 ^ (-exponent).toNat)

/-- A finite numeric string: integer digits, fraction, exponent, with at least one digit. -/
def parseFinite (negative : Bool) (cs : List Char) : Option Decimal :=
  let whole := spanDigits cs
  let fraction := parseFraction whole.2
  let digits := whole.1 ++ fraction.1
  if digits.isEmpty then none
  else
    match parseExponent fraction.2 with
    | none => none
    | some e =>
      let exponent := e - fraction.1.length
      let adjusted := exponent + ((digits.dropWhile (· == 0)).length : Int) - 1
      if maxEmax < adjusted || exponent < minEtiny then none
      else some (scaled negative (natOfDigits digits) exponent)

/-- The `Decimal` constructor on text; `none` is `InvalidOperation`. -/
def parseDecimal (value : String) : Option DecimalValue :=
  let cs := (pyStrip value.toList).filter (· ≠ '_')
  let signed := splitSign cs
  match parseFinite signed.1 signed.2 with
  | some q => some (.finite q)
  | none => if isNonFiniteText signed.2 then some .nonFinite else none

/-- `PayloadNormalizationError`: which field failed, and how. -/
inductive PayloadError where
  /-- `{field_name} is not a decimal: {value!r}` -/
  | notDecimal (fieldName : String) (value : String)
  /-- `{field_name} must be finite` -/
  | notFinite (fieldName : String)
  /-- `invalid millisecond timestamp: {value!r}` -/
  | invalidTimestamp (value : String)
  deriving DecidableEq, Repr

/-- `decimal_from_text`: a finite decimal, or the error naming the field. -/
def decimalFromText (value : String) (fieldName : String) : Except PayloadError Decimal :=
  match parseDecimal value with
  | none => .error (.notDecimal fieldName value)
  | some .nonFinite => .error (.notFinite fieldName)
  | some (.finite parsed) => .ok parsed

example : decimalFromText "0.250" "price" = .ok (1 / 4) := by decide +kernel
example : decimalFromText " -1_000e-1 " "price" = .ok (-100) := by decide +kernel
example : decimalFromText "NaN" "quantity" = .error (.notFinite "quantity") := by decide +kernel

/-! ## `int(text)` -/

/-- Digits separated by single underscores, as `int` accepts them. -/
def groupedDigits : List Char → Option (List Nat)
  | [] => none
  | [c] => (digitValue c).map ([·])
  | c :: d :: rest => do
    let v ← digitValue c
    let vs ← if d = '_' then groupedDigits rest else groupedDigits (d :: rest)
    return v :: vs

/-- `int(text)`, `none` for `ValueError`. -/
def pyInt (value : String) : Option Int :=
  let signed := splitSign (pyStrip value.toList)
  (groupedDigits signed.2).map fun ds =>
    if signed.1 then -(natOfDigits ds : Int) else natOfDigits ds

example : pyInt " 1_024 " = some 1024 := by decide +kernel

/-- `timestamp_from_milliseconds` on text. -/
def timestampFromMilliseconds (value : String) : Except PayloadError Int :=
  match pyInt value with
  | none => .error (.invalidTimestamp value)
  | some milliseconds => .ok (1000 * milliseconds)

end Cvf
