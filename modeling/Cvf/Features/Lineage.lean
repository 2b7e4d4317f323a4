/-
# Cvf.Features.Lineage — mergeable commitments over feature sources.

A `SourceLineage` sums up a multiset of source events by count, modular sum and xor of their digests,
and the time extent.  The digest itself (SHA-256 over the canonical payload text) is a parameter of
the development.
-/
import Cvf.Models

namespace Cvf

/-- `semantic_source_digest`, as the 256-bit number its hexadecimal text spells. -/
abbrev SourceDigest := Int → NormalizedMarketEvent → BitVec 256

/-- For runs that look at no digest. -/
def noDigest : SourceDigest := fun _ _ => 0

/-- The earlier and the later of two optional instants. -/
def minOption : Option Int → Option Int → Option Int
  | none, b => b
  | a, none => a
  | some a, some b => some (min a b)

def maxOption : Option Int → Option Int → Option Int
  | none, b => b
  | a, none => a
  | some a, some b => some (max a b)

structure SourceLineage where
  count : Nat := 0
  digestSum : BitVec 256 := 0
  digestXor : BitVec 256 := 0
  oldestTimestamp : Option Int := none
  newestTimestamp : Option Int := none
  deriving DecidableEq, Repr

namespace SourceLineage

/-- `from_digest`. -/
def fromDigest (timestamp : Int) (digest : BitVec 256) : SourceLineage :=
  { count := 1
    digestSum := digest
    digestXor := digest
    oldestTimestamp := some timestamp
    newestTimestamp := some timestamp }

/-- `from_source`. -/
def fromSource (digest : SourceDigest) (timestamp : Int) (value : NormalizedMarketEvent) :
    SourceLineage :=
  fromDigest timestamp (digest timestamp value)

/-- `combine`. -/
def combine (a b : SourceLineage) : SourceLineage :=
  if a.count + b.count = 0 then {}
  else
    { count := a.count + b.count
      digestSum := a.digestSum + b.digestSum
      digestXor := a.digestXor ^^^ b.digestXor
      oldestTimestamp := minOption a.oldestTimestamp b.oldestTimestamp
      newestTimestamp := maxOption a.newestTimestamp b.newestTimestamp }

/-- Nothing combined with one source. -/
theorem empty_combine_fromDigest (timestamp : Int) (digest : BitVec 256) :
    combine {} (fromDigest timestamp digest) = fromDigest timestamp digest := by
  simp [combine, fromDigest, minOption, maxOption]

end SourceLineage

/-- A digest taken out of what it was mixed into. -/
theorem xor_cancel {w : Nat} (digest last before : BitVec w) :
    digest ^^^ (last ^^^ (before ^^^ digest)) = last ^^^ before := by
  calc digest ^^^ (last ^^^ (before ^^^ digest))
      = last ^^^ before ^^^ (digest ^^^ digest) := by ac_rfl
    _ = last ^^^ before := by rw [BitVec.xor_self, BitVec.xor_zero]

end Cvf
