/-
# Cvf.Features.LineageMonoid — source lineages are a commutative monoid.

`LineageFields` is the dataclass before its checks: unbounded integers and optional instants.  Its
constructor raises on fields that fail `__post_init__`, and `combine` ends in that constructor.

Whatever is built of single sources by `combine` is the `summary` of its sources (`Built.eq_summary`):
their number, the sum and the xor of their digests, the first and the last instant.  So no combination
raises, and order and grouping do not show.  `SourceLineage` of the feature book and the price cache is
the form with the ranges in its types (`combine_fields`).
-/
import Cvf.Features.Lineage
import Cvf.Library.FirstMax
import Cvf.Storage.Raw

namespace Cvf

/-! ## The checked dataclass -/

structure LineageFields where
  count : Int := 0
  digestSum : Int := 0
  digestXor : Int := 0
  oldestTimestamp : Option Int := none
  newestTimestamp : Option Int := none
  deriving DecidableEq, Repr

namespace LineageFields

/-- `_DIGEST_MODULUS` -/
def digestModulus : Int := 2 ^ 256

/-- `__post_init__`.  Instants are UTC throughout. -/
def postInit (fields : LineageFields) : Except String Unit :=
  if fields.count < 0 then .error "source-lineage count cannot be negative"
  else if ¬ (0 ≤ fields.digestSum ∧ fields.digestSum < digestModulus) then
    .error "source-lineage digest sum is outside uint256"
  else if ¬ (0 ≤ fields.digestXor ∧ fields.digestXor < digestModulus) then
    .error "source-lineage digest xor is outside uint256"
  else if fields.count = 0 then
    if fields.digestSum ≠ 0 ∨ fields.digestXor ≠ 0 ∨ fields.oldestTimestamp ≠ none ∨
        fields.newestTimestamp ≠ none then
      .error "empty source lineage cannot contain metadata"
    else .ok ()
  else
    match fields.oldestTimestamp, fields.newestTimestamp with
    | some oldest, some newest =>
      if newest < oldest then .error "source-lineage timestamps are reversed" else .ok ()
    | _, _ => .error "nonempty source lineage requires timestamp bounds"

/-- `SourceLineage(…)` -/
def construct (fields : LineageFields) : Except String LineageFields :=
  match fields.postInit with
  | .error text => .error text
  | .ok _ => .ok fields

/-- `from_digest` -/
def fromDigest (timestamp : Int) (digest : String) : Except String LineageFields :=
  if digest.toList.length ≠ 64 then .error "source-lineage item digest must be SHA-256"
  else
    match Uuid.intOfHex digest.toList with
    | none => .error "source-lineage item digest must be hexadecimal"
    | some value =>
      construct
        { count := 1
          digestSum := value
          digestXor := value
          oldestTimestamp := some timestamp
          newestTimestamp := some timestamp }

/-- The bounds that are there. -/
def timestamps (fields : LineageFields) : List Int :=
  fields.oldestTimestamp.toList ++ fields.newestTimestamp.toList

/-- The local variables of `combine`. -/
structure Combination where
  count : Int
  digestSum : Int
  digestXor : Int
  timestamps : List Int

def Combination.add (c : Combination) (other : LineageFields) : Combination :=
  { count := c.count + other.count
    digestSum := (c.digestSum + other.digestSum) % digestModulus
    digestXor := Int.xor c.digestXor other.digestXor
    timestamps := c.timestamps ++ other.timestamps }

/-- `combine` -/
def combine (self : LineageFields) (others : List LineageFields) : Except String LineageFields :=
  let c := others.foldl Combination.add
    { count := self.count
      digestSum := self.digestSum
      digestXor := self.digestXor
      timestamps := self.timestamps }
  if c.count = 0 then construct {}
  else
    match c.timestamps.min?, c.timestamps.max? with
    | some oldest, some newest =>
      construct
        { count := c.count
          digestSum := c.digestSum
          digestXor := c.digestXor
          oldestTimestamp := some oldest
          newestTimestamp := some newest }
    | _, _ => .error "min() iterable argument is empty"

/-- `fingerprint`; `isoformat` is the text of an instant. -/
def fingerprint (sha256Text : String → String) (isoformat : Int → String) (fields : LineageFields) :
    String :=
  let timestamp (instant : Option Int) : String :=
    (instant.map fun value => "\"" ++ isoformat value ++ "\"").getD "null"
  sha256Text ("\x7b\"algorithm\":\"sha256-sum-xor-v1\",\"count\":" ++ toString fields.count ++
    ",\"digest_sum\":\"" ++ String.ofList (Library.hexText 64 fields.digestSum.toNat) ++
    "\",\"digest_xor\":\"" ++ String.ofList (Library.hexText 64 fields.digestXor.toNat) ++
    "\",\"newest_timestamp\":" ++ timestamp fields.newestTimestamp ++
    ",\"oldest_timestamp\":" ++ timestamp fields.oldestTimestamp ++ "\x7d")

/-- What is built of sources by `combine`, with the instants and digests of its sources. -/
inductive Built : List (Int × BitVec 256) → LineageFields → Prop where
  | empty : Built [] {}
  | leaf (timestamp : Int) (digest : String) (fields : LineageFields)
      (h : fromDigest timestamp digest = .ok fields) :
      Built [(timestamp, BitVec.ofInt 256 fields.digestSum)] fields
  | combine (leaves : List (Int × BitVec 256)) (self : LineageFields)
      (others : List (List (Int × BitVec 256) × LineageFields)) (fields : LineageFields)
      (hself : Built leaves self) (hothers : ∀ other ∈ others, Built other.1 other.2)
      (h : self.combine (others.map Prod.snd) = .ok fields) :
      Built (leaves ++ others.flatMap Prod.fst) fields

/-! ## The summary of sources -/

/-- Number, sum and xor of the digests, and the extent of some sources. -/
def summary (leaves : List (Int × BitVec 256)) : LineageFields :=
  { count := leaves.length
    digestSum := ((leaves.map Prod.snd).sum).toNat
    digestXor := ((leaves.map Prod.snd).foldr (· ^^^ ·) 0).toNat
    oldestTimestamp := (leaves.map Prod.fst).min?
    newestTimestamp := (leaves.map Prod.fst).max? }

theorem toNat_mem_modulus (value : BitVec 256) :
    0 ≤ (value.toNat : Int) ∧ (value.toNat : Int) < digestModulus := by
  have hlt := value.isLt
  unfold digestModulus
  omega

theorem summary_nil : summary [] = {} := by
  simp [summary]

theorem postInit_empty : postInit {} = .ok () := by
  have hmodulus : 0 < digestModulus := by norm_num [digestModulus]
  unfold postInit
  simp [hmodulus]

theorem digestSum_summary (leaves : List (Int × BitVec 256)) :
    0 ≤ (summary leaves).digestSum ∧ (summary leaves).digestSum < digestModulus :=
  toNat_mem_modulus _

theorem digestXor_summary (leaves : List (Int × BitVec 256)) :
    0 ≤ (summary leaves).digestXor ∧ (summary leaves).digestXor < digestModulus :=
  toNat_mem_modulus _

theorem construct_of_postInit {fields : LineageFields} (h : fields.postInit = .ok ()) :
    construct fields = .ok fields := by
  unfold construct
  rw [h]

/-- Fields in range with bounds in order pass the checks. -/
theorem postInit_of_bounds {fields : LineageFields} {oldest newest : Int} (hcount : 0 < fields.count)
    (hsum : 0 ≤ fields.digestSum ∧ fields.digestSum < digestModulus)
    (hxor : 0 ≤ fields.digestXor ∧ fields.digestXor < digestModulus)
    (holdest : fields.oldestTimestamp = some oldest) (hnewest : fields.newestTimestamp = some newest)
    (hle : oldest ≤ newest) : fields.postInit = .ok () := by
  unfold postInit
  rw [if_neg (not_lt.mpr hcount.le), if_neg (not_not.mpr hsum), if_neg (not_not.mpr hxor),
    if_neg hcount.ne', holdest, hnewest]
  exact if_neg (not_lt.mpr hle)

/-- A summary passes every check. -/
theorem construct_summary (leaves : List (Int × BitVec 256)) :
    construct (summary leaves) = .ok (summary leaves) := by
  have hcheck : (summary leaves).postInit = .ok () := by
    cases leaves with
    | nil =>
      rw [summary_nil]
      exact postInit_empty
    | cons leaf leaves =>
      obtain ⟨oldest, holdest⟩ := Option.ne_none_iff_exists'.mp
        (mt List.min?_eq_none_iff.mp (List.cons_ne_nil leaf.1 (leaves.map Prod.fst)))
      obtain ⟨newest, hnewest⟩ := Option.ne_none_iff_exists'.mp
        (mt List.max?_eq_none_iff.mp (List.cons_ne_nil leaf.1 (leaves.map Prod.fst)))
      have hmem := (List.min?_eq_some_iff.mp holdest).1
      have hle := (List.max?_eq_some_iff.mp hnewest).2 oldest hmem
      have hcount : 0 < (summary (leaf :: leaves)).count := Int.natCast_pos.mpr (Nat.succ_pos leaves.length)
      exact postInit_of_bounds hcount (digestSum_summary _) (digestXor_summary _) holdest hnewest hle
  exact construct_of_postInit hcheck

/-- Some instants that reach as far as others, among which they are. -/
structure Spans (bounds times : List Int) : Prop where
  mem : ∀ t ∈ bounds, t ∈ times
  below : ∀ t ∈ times, ∃ b ∈ bounds, b ≤ t
  above : ∀ t ∈ times, ∃ b ∈ bounds, t ≤ b

theorem Spans.append {bounds bounds' times times' : List Int} (h : Spans bounds times)
    (h' : Spans bounds' times') : Spans (bounds ++ bounds') (times ++ times') where
  mem := by
    intro t ht
    rcases List.mem_append.mp ht with ht | ht
    · exact List.mem_append_left _ (h.mem t ht)
    · exact List.mem_append_right _ (h'.mem t ht)
  below := by
    intro t ht
    rcases List.mem_append.mp ht with ht | ht
    · obtain ⟨b, hb, hle⟩ := h.below t ht
      exact ⟨b, List.mem_append_left _ hb, hle⟩
    · obtain ⟨b, hb, hle⟩ := h'.below t ht
      exact ⟨b, List.mem_append_right _ hb, hle⟩
  above := by
    intro t ht
    rcases List.mem_append.mp ht with ht | ht
    · obtain ⟨b, hb, hle⟩ := h.above t ht
      exact ⟨b, List.mem_append_left _ hb, hle⟩
    · obtain ⟨b, hb, hle⟩ := h'.above t ht
      exact ⟨b, List.mem_append_right _ hb, hle⟩

theorem Spans.min?_eq {bounds times : List Int} (h : Spans bounds times) : bounds.min? = times.min? := by
  cases hmin : times.min? with
  | none =>
    have hempty : times = [] := List.min?_eq_none_iff.mp hmin
    apply List.min?_eq_none_iff.mpr
    apply List.eq_nil_iff_forall_not_mem.mpr
    intro t ht
    exact absurd (h.mem t ht) (hempty ▸ List.not_mem_nil)
  | some first =>
    obtain ⟨hmem, hle⟩ := List.min?_eq_some_iff.mp hmin
    obtain ⟨b, hb, hbelow⟩ := h.below first hmem
    have heq : b = first := le_antisymm hbelow (hle b (h.mem b hb))
    exact List.min?_eq_some_iff.mpr ⟨heq ▸ hb, fun t ht => hle t (h.mem t ht)⟩

theorem Spans.max?_eq {bounds times : List Int} (h : Spans bounds times) : bounds.max? = times.max? := by
  cases hmax : times.max? with
  | none =>
    have hempty : times = [] := List.max?_eq_none_iff.mp hmax
    apply List.max?_eq_none_iff.mpr
    apply List.eq_nil_iff_forall_not_mem.mpr
    intro t ht
    exact absurd (h.mem t ht) (hempty ▸ List.not_mem_nil)
  | some last =>
    obtain ⟨hmem, hle⟩ := List.max?_eq_some_iff.mp hmax
    obtain ⟨b, hb, habove⟩ := h.above last hmem
    have heq : b = last := le_antisymm (hle b (h.mem b hb)) habove
    exact List.max?_eq_some_iff.mpr ⟨heq ▸ hb, fun t ht => hle t (h.mem t ht)⟩

/-- The bounds of a summary span its sources. -/
theorem spans_timestamps (leaves : List (Int × BitVec 256)) :
    Spans (summary leaves).timestamps (leaves.map Prod.fst) := by
  unfold timestamps summary
  dsimp only
  cases hmin : (leaves.map Prod.fst).min? with
  | none =>
    rw [List.min?_eq_none_iff.mp hmin]
    exact ⟨fun t ht => absurd ht List.not_mem_nil, fun t ht => absurd ht List.not_mem_nil,
      fun t ht => absurd ht List.not_mem_nil⟩
  | some oldest =>
    obtain ⟨holdest, hle⟩ := List.min?_eq_some_iff.mp hmin
    cases hmax : (leaves.map Prod.fst).max? with
    | none =>
      rw [List.max?_eq_none_iff.mp hmax] at holdest
      exact absurd holdest List.not_mem_nil
    | some newest =>
      obtain ⟨hnewest, hge⟩ := List.max?_eq_some_iff.mp hmax
      refine ⟨?_, fun t ht => ⟨oldest, by simp, hle t ht⟩, fun t ht => ⟨newest, by simp, hge t ht⟩⟩
      intro t ht
      have hcases : t = oldest ∨ t = newest := by simpa using ht
      rcases hcases with rfl | rfl
      · exact holdest
      · exact hnewest

/-! ## Combining summaries -/

theorem foldr_xor_append (values values' : List (BitVec 256)) :
    (values ++ values').foldr (· ^^^ ·) 0 =
      values.foldr (· ^^^ ·) 0 ^^^ values'.foldr (· ^^^ ·) 0 := by
  induction values with
  | nil => exact (BitVec.zero_xor).symm
  | cons value values ih =>
    rw [List.cons_append, List.foldr_cons, ih, List.foldr_cons, BitVec.xor_assoc]

/-- The local variables stand for some sources. -/
structure Combination.StandsFor (c : Combination) (leaves : List (Int × BitVec 256)) : Prop where
  count : c.count = (summary leaves).count
  digestSum : c.digestSum = (summary leaves).digestSum
  digestXor : c.digestXor = (summary leaves).digestXor
  timestamps : Spans c.timestamps (leaves.map Prod.fst)

theorem Combination.StandsFor.add {c : Combination} {leaves leaves' : List (Int × BitVec 256)}
    (h : c.StandsFor leaves) : (c.add (summary leaves')).StandsFor (leaves ++ leaves') where
  count := by
    show c.count + (summary leaves').count = ((leaves ++ leaves').length : Int)
    rw [h.count, List.length_append, Nat.cast_add]
    rfl
  digestSum := by
    show (c.digestSum + (summary leaves').digestSum) % digestModulus =
      (((leaves ++ leaves').map Prod.snd).sum.toNat : Int)
    rw [h.digestSum, List.map_append, List.sum_append, BitVec.toNat_add, Int.natCast_emod, Nat.cast_add]
    rfl
  digestXor := by
    show Int.xor c.digestXor (summary leaves').digestXor =
      (((leaves ++ leaves').map Prod.snd).foldr (· ^^^ ·) 0).toNat
    rw [h.digestXor, List.map_append, foldr_xor_append, BitVec.toNat_xor]
    rfl
  timestamps := by
    rw [List.map_append]
    exact h.timestamps.append (spans_timestamps leaves')

theorem Combination.StandsFor.foldl {c : Combination} {leaves : List (Int × BitVec 256)}
    (h : c.StandsFor leaves) (others : List (List (Int × BitVec 256))) :
    ((others.map summary).foldl Combination.add c).StandsFor (leaves ++ others.flatten) := by
  induction others generalizing c leaves with
  | nil =>
    rw [List.flatten_nil, List.append_nil]
    exact h
  | cons other others ih =>
    rw [List.flatten_cons, ← List.append_assoc]
    exact ih h.add

/-- Combined summaries are the summary of all sources. -/
theorem combine_summary (leaves : List (Int × BitVec 256)) (others : List (List (Int × BitVec 256))) :
    (summary leaves).combine (others.map summary) = .ok (summary (leaves ++ others.flatten)) := by
  have hstart : Combination.StandsFor
      { count := (summary leaves).count
        digestSum := (summary leaves).digestSum
        digestXor := (summary leaves).digestXor
        timestamps := (summary leaves).timestamps } leaves :=
    ⟨rfl, rfl, rfl, spans_timestamps leaves⟩
  have hall := hstart.foldl others
  generalize leaves ++ others.flatten = all at hall ⊢
  unfold combine
  dsimp only
  generalize (others.map summary).foldl Combination.add _ = c at hall ⊢
  by_cases hempty : all = []
  · have hcount : c.count = 0 := by
      rw [hall.count, hempty]
      rfl
    rw [if_pos hcount, hempty, summary_nil]
    exact construct_of_postInit postInit_empty
  · have hcount : c.count ≠ 0 := by
      rw [hall.count]
      exact Int.natCast_ne_zero.mpr (mt List.length_eq_zero_iff.mp hempty)
    have htimes : all.map Prod.fst ≠ [] := mt List.map_eq_nil_iff.mp hempty
    obtain ⟨oldest, holdest⟩ := Option.ne_none_iff_exists'.mp (mt List.min?_eq_none_iff.mp htimes)
    obtain ⟨newest, hnewest⟩ := Option.ne_none_iff_exists'.mp (mt List.max?_eq_none_iff.mp htimes)
    rw [if_neg hcount, hall.timestamps.min?_eq, hall.timestamps.max?_eq, holdest, hnewest]
    have hfields : summary all =
        { count := c.count
          digestSum := c.digestSum
          digestXor := c.digestXor
          oldestTimestamp := some oldest
          newestTimestamp := some newest } := by
      rw [hall.count, hall.digestSum, hall.digestXor, ← holdest, ← hnewest]
      rfl
    have hconstruct := construct_summary all
    rw [hfields] at hconstruct ⊢
    exact hconstruct

theorem summary_perm {leaves leaves' : List (Int × BitVec 256)} (h : leaves.Perm leaves') :
    summary leaves = summary leaves' := by
  have hsum : (leaves.map Prod.snd).sum = (leaves'.map Prod.snd).sum := (h.map Prod.snd).sum_eq
  have hxor : (leaves.map Prod.snd).foldr (· ^^^ ·) 0 = (leaves'.map Prod.snd).foldr (· ^^^ ·) 0 := by
    apply (h.map Prod.snd).foldr_eq'
    intro x _ y _ z
    rw [← BitVec.xor_assoc, ← BitVec.xor_assoc, BitVec.xor_comm x y]
  unfold summary
  rw [h.length_eq, hsum, hxor, Library.min?_perm (h.map Prod.fst), Library.max?_perm (h.map Prod.fst)]

/-! ## What is built of sources -/

theorem construct_eq_ok {fields built : LineageFields} (h : construct fields = .ok built) :
    built = fields ∧ fields.postInit = .ok () := by
  unfold construct at h
  cases hcheck : fields.postInit with
  | error text =>
    rw [hcheck] at h
    cases h
  | ok u =>
    rw [hcheck] at h
    exact ⟨(Except.ok.inj h).symm, rfl⟩

theorem digestSum_of_postInit {fields : LineageFields} (h : fields.postInit = .ok ()) :
    0 ≤ fields.digestSum ∧ fields.digestSum < digestModulus := by
  by_contra hout
  unfold postInit at h
  rw [if_pos hout] at h
  split_ifs at h

/-- A single source is its own summary. -/
theorem fromDigest_eq_summary {timestamp : Int} {digest : String} {fields : LineageFields}
    (h : fromDigest timestamp digest = .ok fields) :
    fields = summary [(timestamp, BitVec.ofInt 256 fields.digestSum)] := by
  unfold fromDigest at h
  split_ifs at h
  cases hvalue : Uuid.intOfHex digest.toList with
  | none =>
    rw [hvalue] at h
    cases h
  | some value =>
    rw [hvalue] at h
    obtain ⟨rfl, hcheck⟩ := construct_eq_ok h
    obtain ⟨hnonneg, hlt⟩ := digestSum_of_postInit hcheck
    have hmod : value % ((2 ^ 256 : Nat) : Int) = value := by
      rw [Nat.cast_pow]
      exact Int.emod_eq_of_lt hnonneg hlt
    have hread : ((BitVec.ofInt 256 value).toNat : Int) = value := by
      rw [BitVec.toNat_ofInt, hmod]
      exact Int.toNat_of_nonneg hnonneg
    have hsum : (((BitVec.ofInt 256 value + 0).toNat : Nat) : Int) = value := by
      rw [add_zero, hread]
    have hxor : (((BitVec.ofInt 256 value ^^^ 0).toNat : Nat) : Int) = value := by
      have hzero : BitVec.ofInt 256 value ^^^ (0 : BitVec 256) = BitVec.ofInt 256 value := BitVec.xor_zero
      rw [hzero, hread]
    show _ = ({ count := 1
                digestSum := (BitVec.ofInt 256 value + 0).toNat
                digestXor := (BitVec.ofInt 256 value ^^^ 0).toNat
                oldestTimestamp := some timestamp
                newestTimestamp := some timestamp } : LineageFields)
    rw [hsum, hxor]

/-- Every 256-bit digest is one, spelled in hexadecimal. -/
theorem fromDigest_hexText (timestamp : Int) (digest : BitVec 256) :
    fromDigest timestamp (String.ofList (Library.hexText 64 digest.toNat)) =
      .ok (summary [(timestamp, digest)]) := by
  have hlength : (String.ofList (Library.hexText 64 digest.toNat)).toList.length = 64 := by
    rw [String.toList_ofList, Library.length_hexText]
  have hsmall : digest.toNat % 16 ^ 64 = digest.toNat := by
    apply Nat.mod_eq_of_lt
    calc digest.toNat < 2 ^ 256 := digest.isLt
      _ = 16 ^ 64 := by norm_num
  have hsum : (digest + 0).toNat = digest.toNat := by rw [add_zero]
  have hxor : (digest ^^^ 0).toNat = digest.toNat := by
    rw [show digest ^^^ 0 = digest from BitVec.xor_zero]
  have hfields : summary [(timestamp, digest)] =
      { count := 1
        digestSum := (digest.toNat : Int)
        digestXor := (digest.toNat : Int)
        oldestTimestamp := some timestamp
        newestTimestamp := some timestamp } := by
    show ({ count := 1
            digestSum := (digest + 0).toNat
            digestXor := (digest ^^^ 0).toNat
            oldestTimestamp := some timestamp
            newestTimestamp := some timestamp } : LineageFields) = _
    rw [hsum, hxor]
  have hconstruct := construct_summary [(timestamp, digest)]
  unfold fromDigest
  rw [if_neg (not_not.mpr hlength), String.toList_ofList, Uuid.intOfHex_hexText (by norm_num), hsmall,
    hfields]
  rw [hfields] at hconstruct
  exact hconstruct

theorem built_single (timestamp : Int) (digest : BitVec 256) :
    Built [(timestamp, digest)] (summary [(timestamp, digest)]) := by
  have hbuilt := Built.leaf timestamp _ _ (fromDigest_hexText timestamp digest)
  have hread : BitVec.ofInt 256 (summary [(timestamp, digest)]).digestSum = digest := by
    show BitVec.ofInt 256 ((digest + 0).toNat : Int) = digest
    rw [add_zero, BitVec.ofInt_natCast, BitVec.ofNat_toNat, BitVec.setWidth_eq]
  rw [hread] at hbuilt
  exact hbuilt

/-- Whatever is built of sources is their summary. -/
theorem Built.eq_summary {leaves : List (Int × BitVec 256)} {fields : LineageFields}
    (h : Built leaves fields) : fields = summary leaves := by
  induction h with
  | empty => exact summary_nil.symm
  | leaf timestamp digest fields h => exact fromDigest_eq_summary h
  | combine leaves self others fields _ _ h ihself ihothers =>
    have hothers : others.map Prod.snd = (others.map Prod.fst).map summary := by
      rw [List.map_map]
      exact List.map_congr_left ihothers
    rw [ihself, hothers, combine_summary] at h
    exact (Except.ok.inj h).symm

/-- Built lineages combine to a built one. -/
theorem Built.exists_combine {leaves : List (Int × BitVec 256)} {self : LineageFields}
    (hself : Built leaves self) {others : List (List (Int × BitVec 256) × LineageFields)}
    (hothers : ∀ other ∈ others, Built other.1 other.2) :
    self.combine (others.map Prod.snd) = .ok (summary (leaves ++ others.flatMap Prod.fst)) := by
  have hmap : others.map Prod.snd = (others.map Prod.fst).map summary := by
    rw [List.map_map]
    exact List.map_congr_left fun other hother => (hothers other hother).eq_summary
  rw [hself.eq_summary, hmap, combine_summary]
  rfl

/-! ## The typed form -/

/-- The fields of a lineage with its ranges in its types. -/
def ofLineage (lineage : SourceLineage) : LineageFields :=
  { count := lineage.count
    digestSum := lineage.digestSum.toNat
    digestXor := lineage.digestXor.toNat
    oldestTimestamp := lineage.oldestTimestamp
    newestTimestamp := lineage.newestTimestamp }

/-- The summary of sources, with the ranges in its types. -/
def typedSummary (leaves : List (Int × BitVec 256)) : SourceLineage :=
  { count := leaves.length
    digestSum := (leaves.map Prod.snd).sum
    digestXor := (leaves.map Prod.snd).foldr (· ^^^ ·) 0
    oldestTimestamp := (leaves.map Prod.fst).min?
    newestTimestamp := (leaves.map Prod.fst).max? }

theorem min?_append (xs ys : List Int) : (xs ++ ys).min? = minOption xs.min? ys.min? := by
  cases hx : xs.min? with
  | none =>
    rw [List.min?_eq_none_iff.mp hx]
    rfl
  | some x =>
    obtain ⟨hxmem, hxle⟩ := List.min?_eq_some_iff.mp hx
    cases hy : ys.min? with
    | none =>
      rw [List.min?_eq_none_iff.mp hy, List.append_nil, hx]
      rfl
    | some y =>
      obtain ⟨hymem, hyle⟩ := List.min?_eq_some_iff.mp hy
      refine List.min?_eq_some_iff.mpr ⟨?_, ?_⟩
      · rcases min_choice x y with h | h
        · rw [h]
          exact List.mem_append_left _ hxmem
        · rw [h]
          exact List.mem_append_right _ hymem
      · intro z hz
        rcases List.mem_append.mp hz with hz | hz
        · exact (min_le_left _ _).trans (hxle z hz)
        · exact (min_le_right _ _).trans (hyle z hz)

theorem max?_append (xs ys : List Int) : (xs ++ ys).max? = maxOption xs.max? ys.max? := by
  cases hx : xs.max? with
  | none =>
    rw [List.max?_eq_none_iff.mp hx]
    rfl
  | some x =>
    obtain ⟨hxmem, hxge⟩ := List.max?_eq_some_iff.mp hx
    cases hy : ys.max? with
    | none =>
      rw [List.max?_eq_none_iff.mp hy, List.append_nil, hx]
      rfl
    | some y =>
      obtain ⟨hymem, hyge⟩ := List.max?_eq_some_iff.mp hy
      refine List.max?_eq_some_iff.mpr ⟨?_, ?_⟩
      · rcases max_choice x y with h | h
        · rw [h]
          exact List.mem_append_left _ hxmem
        · rw [h]
          exact List.mem_append_right _ hymem
      · intro z hz
        rcases List.mem_append.mp hz with hz | hz
        · exact (hxge z hz).trans (le_max_left _ _)
        · exact (hyge z hz).trans (le_max_right _ _)

/-- The combination of the feature book and the price cache is that of the checked dataclass. -/
theorem typedSummary_append (leaves leaves' : List (Int × BitVec 256)) :
    (typedSummary leaves).combine (typedSummary leaves') = typedSummary (leaves ++ leaves') := by
  unfold SourceLineage.combine
  split_ifs with hcount
  · have hempty : leaves.length + leaves'.length = 0 := hcount
    rw [List.length_eq_zero_iff.mp (Nat.eq_zero_of_add_eq_zero_right hempty),
      List.length_eq_zero_iff.mp (Nat.eq_zero_of_add_eq_zero_left hempty)]
    rfl
  · unfold typedSummary
    simp only [List.map_append, List.length_append, List.sum_append, foldr_xor_append, min?_append,
      max?_append]

end LineageFields

end Cvf
