/-
# Cvf.Storage.FeatureCompare — two feature trees with the same records.

An audit is a function of the multiset of (snapshot, code version, config hash) its tree holds
(`identicalAudits_of_perm`), so file boundaries do not show.  The other way round the digest alone decides:
where sums of SHA-256 digests do not collide, equal digests mean equal records
(`logical_subset_of_digest`).
-/
import Cvf.Storage.FeatureAudit

namespace Cvf

open Cvf.Library

variable {F : Type}

/-- What a record says, wherever it lies. -/
def PersistedFeatureRecord.logical (record : PersistedFeatureRecord F) :
    PersistableFeatureSnapshot F × String × String :=
  (record.snapshot, record.codeVersion, record.configHash)

/-! ## The digest of a list of records -/

section Digest

variable {rowDigest : String × String × String → Nat} {records others : List (PersistedFeatureRecord F)}

theorem digestSum_lt : digestSum rowDigest records < 16 ^ 64 := by
  have hmodulus : digestModulus = 16 ^ 64 := by norm_num [digestModulus]
  rw [← hmodulus]
  unfold digestSum
  induction records using List.reverseRecOn with
  | nil => exact Nat.two_pow_pos 256
  | append_singleton records record _ =>
    rw [List.foldl_append]
    exact Nat.mod_lt _ (Nat.two_pow_pos 256)

/-- Digests are added up in any order. -/
theorem digestSum_perm
    (h : (records.map (·.contentIdentity)).Perm (others.map (·.contentIdentity))) :
    digestSum rowDigest records = digestSum rowDigest others := by
  have hfold : ∀ list : List (PersistedFeatureRecord F), digestSum rowDigest list =
      (list.map (·.contentIdentity)).foldl
        (fun sum identity => (sum + rowDigest identity) % digestModulus) 0 := by
    intro list
    rw [List.foldl_map]
    rfl
  rw [hfold, hfold]
  apply h.foldl_eq'
  intro a _ b _ sum
  rw [Nat.mod_add_mod, Nat.mod_add_mod, Nat.add_right_comm]

end Digest

/-! ## Equal records have equal audits -/

theorem sortedSet_perm {texts texts' : List String} (h : texts.Perm texts') :
    sortedSet texts = sortedSet texts' :=
  sortByKey_perm_eq h.dedup fun _ _ _ _ heq => heq

section Compare

variable {codec : FeatureCodec F} {rowDigest : String × String × String → Nat}
  {records others : List (PersistedFeatureRecord F)}

/-- The payload digest is a function of the rest. -/
theorem contentIdentity_perm (hrecords : ∀ record ∈ records, record.WellFormed codec)
    (hothers : ∀ record ∈ others, record.WellFormed codec)
    (h : (records.map (·.logical)).Perm (others.map (·.logical))) :
    (records.map (·.contentIdentity)).Perm (others.map (·.contentIdentity)) := by
  have hmap : ∀ list : List (PersistedFeatureRecord F), (∀ record ∈ list, record.WellFormed codec) →
      list.map (·.contentIdentity) = (list.map (·.logical)).map fun logical =>
        (codec.sha256Text (codec.modelPayloadJson logical.1), logical.2) := by
    intro list hlist
    rw [List.map_map]
    apply List.map_congr_left
    intro record hrecord
    show (record.payloadSha256, record.codeVersion, record.configHash) = (codec.sha256Text _, _)
    rw [(hlist record hrecord).digest]
    rfl
  rw [hmap records hrecords, hmap others hothers]
  exact h.map _

/-- No summary that is compared depends on more than the records as a multiset. -/
theorem identicalAudits_of_perm (hrecords : ∀ record ∈ records, record.WellFormed codec)
    (hothers : ∀ record ∈ others, record.WellFormed codec)
    (h : (records.map (·.logical)).Perm (others.map (·.logical))) :
    identicalAudits (auditRecords rowDigest records) (auditRecords rowDigest others) = true := by
  have hof : ∀ {β : Type} (g : PersistableFeatureSnapshot F × String × String → β),
      (records.map fun record => g record.logical).Perm (others.map fun record => g record.logical) := by
    intro β g
    have := h.map g
    rwa [List.map_map, List.map_map] at this
  have hrows : records.length = others.length := by
    have := h.length_eq
    rwa [List.length_map, List.length_map] at this
  unfold identicalAudits auditRecords
  simp only [Bool.and_eq_true, decide_eq_true_eq]
  refine ⟨⟨⟨⟨⟨⟨⟨⟨hrows, ?_⟩, ?_⟩, ?_⟩, ?_⟩, ?_⟩, ?_⟩, ?_⟩, ?_⟩
  · exact (hof fun logical => logical.1.featureSnapshotId).dedup.length_eq
  · exact (hof fun logical => featurePartition logical.1).dedup.length_eq
  · rw [digestSum_perm (contentIdentity_perm hrecords hothers h)]
  · exact sortedSet_perm (hof fun logical => logical.1.exchange.value)
  · exact sortedSet_perm (hof fun logical => logical.2.1)
  · exact sortedSet_perm (hof fun logical => logical.2.2)
  · exact min?_perm (hof fun logical => logical.1.decisionTimestamp)
  · exact max?_perm (hof fun logical => logical.1.decisionTimestamp)

/-! ## Equal digests have equal records -/

/-- SHA-256 tells apart what the records of two lists say: their payloads by the payload digests, and
their identities by the sums of digests modulo `2 ^ 256`. -/
structure NoCollision (codec : FeatureCodec F) (rowDigest : String × String × String → Nat)
    (records others : List (PersistedFeatureRecord F)) : Prop where
  payload : ∀ record ∈ records, ∀ other ∈ others,
    codec.sha256Text (codec.modelPayloadJson record.snapshot) =
      codec.sha256Text (codec.modelPayloadJson other.snapshot) →
    codec.modelPayloadJson record.snapshot = codec.modelPayloadJson other.snapshot
  sums : digestSum rowDigest records = digestSum rowDigest others →
    (records.map (·.contentIdentity)).Perm (others.map (·.contentIdentity))

theorem NoCollision.symm (h : NoCollision codec rowDigest records others) :
    NoCollision codec rowDigest others records where
  payload := fun other hother record hrecord heq =>
    (h.payload record hrecord other hother heq.symm).symm
  sums := fun heq => (h.sums heq.symm).symm

theorem logical_mem_of_digest (hrecords : ∀ record ∈ records, record.WellFormed codec)
    (hothers : ∀ record ∈ others, record.WellFormed codec)
    (hcollision : NoCollision codec rowDigest records others)
    (h : digestSum rowDigest records = digestSum rowDigest others) :
    ∀ logical ∈ records.map (·.logical), logical ∈ others.map (·.logical) := by
  intro logical hlogical
  obtain ⟨record, hrecord, rfl⟩ := List.mem_map.mp hlogical
  have hidentity := (hcollision.sums h).mem_iff.mp (List.mem_map.mpr ⟨record, hrecord, rfl⟩)
  obtain ⟨other, hother, heq⟩ := List.mem_map.mp hidentity
  obtain ⟨hdigest, hversions⟩ := Prod.mk.inj heq
  rw [(hrecords record hrecord).digest, (hothers other hother).digest] at hdigest
  have hpayload := hcollision.payload record hrecord other hother hdigest.symm
  have hsnapshot := (hrecords record hrecord).snapshot_eq (hothers other hother) hpayload
  refine List.mem_map.mpr ⟨other, hother, ?_⟩
  show (other.snapshot, other.codeVersion, other.configHash) =
    (record.snapshot, record.codeVersion, record.configHash)
  rw [hsnapshot, hversions]

theorem digestSum_of_identicalAudits
    (h : identicalAudits (auditRecords rowDigest records) (auditRecords rowDigest others) = true) :
    digestSum rowDigest records = digestSum rowDigest others := by
  unfold identicalAudits at h
  simp only [Bool.and_eq_true, decide_eq_true_eq] at h
  obtain ⟨⟨⟨⟨⟨⟨-, hdigest⟩, -⟩, -⟩, -⟩, -⟩, -⟩ := h
  exact hexText_inj digestSum_lt digestSum_lt (String.ofList_injective hdigest)

end Compare

/-! ## Trees -/

section Trees

variable [DecidableEq F] {reader : FeatureParquetReader F} {rowDigest : String × String × String → Nat}
  {tree : FeatureTree F} {filters : FeatureScanFilter}

theorem wellFormed_of_matching (hvalid : tree.Valid reader.codec) :
    ∀ record ∈ tree.matching reader.codec filters, record.WellFormed reader.codec := by
  intro record hrecord
  obtain ⟨hrecord, -⟩ := List.mem_filter.mp hrecord
  obtain ⟨file, hfile, hrecord⟩ := List.mem_flatMap.mp hrecord
  obtain ⟨row, -, hread⟩ := exists_of_mem_mapM (hvalid.holds file hfile).decoded hrecord
  exact wellFormed_of_featureRecordFromRow hread

/-- A valid tree is audited when its ids differ; the audit is of its records. -/
theorem auditFeatureTree_eq_ok_iff (hvalid : tree.Valid reader.codec) {audit : FeatureAudit} :
    auditFeatureTree reader rowDigest tree filters = .ok audit ↔
      ((tree.matching reader.codec filters).map (·.snapshot.featureSnapshotId)).Nodup ∧
        audit = auditRecords rowDigest (sortByKey stableKey (tree.matching reader.codec filters)) := by
  obtain ⟨yielded, raised, hread, hraised, hyielded, -⟩ := iterRecords_spec hvalid filters
  unfold auditFeatureTree
  rw [hread]
  cases raised with
  | some text =>
    refine iff_of_false (fun h => by cases h) ?_
    rintro ⟨hnodup, -⟩
    cases hraised.mpr hnodup
  | none =>
    rw [hyielded rfl]
    show Except.ok _ = Except.ok audit ↔ _
    rw [Except.ok.injEq, and_iff_right (hraised.mp rfl)]
    exact eq_comm

/-- Two audits of valid trees are identical when the trees hold the same records, and, short of a collision,
only then. -/
theorem identicalAudits_iff {left right : FeatureTree F} (hleft : left.Valid reader.codec)
    (hright : right.Valid reader.codec)
    (hleftIds : ((left.matching reader.codec filters).map (·.snapshot.featureSnapshotId)).Nodup)
    (hrightIds : ((right.matching reader.codec filters).map (·.snapshot.featureSnapshotId)).Nodup) :
    let same := ∀ logical, logical ∈ (left.matching reader.codec filters).map (·.logical) ↔
      logical ∈ (right.matching reader.codec filters).map (·.logical)
    let identical := identicalAudits
      (auditRecords rowDigest (sortByKey stableKey (left.matching reader.codec filters)))
      (auditRecords rowDigest (sortByKey stableKey (right.matching reader.codec filters)))
    (same → identical = true) ∧
      (NoCollision reader.codec rowDigest (left.matching reader.codec filters)
        (right.matching reader.codec filters) → identical = true → same) := by
  have hsorted : ∀ tree : FeatureTree F,
      (sortByKey stableKey (tree.matching reader.codec filters)).Perm
        (tree.matching reader.codec filters) := fun tree => sortByKey_perm _ _
  have hwell : ∀ tree : FeatureTree F, tree.Valid reader.codec →
      ∀ record ∈ sortByKey stableKey (tree.matching reader.codec filters),
        record.WellFormed reader.codec := fun tree hvalid record hrecord =>
    wellFormed_of_matching hvalid record ((hsorted tree).mem_iff.mp hrecord)
  -- different ids make different records
  have hnodup : ∀ tree : FeatureTree F,
      ((tree.matching reader.codec filters).map (·.snapshot.featureSnapshotId)).Nodup →
        ((tree.matching reader.codec filters).map (·.logical)).Nodup := by
    intro tree hids
    apply List.Nodup.of_map fun logical => logical.1.featureSnapshotId
    rwa [List.map_map]
  constructor
  · intro hsame
    have hperm := (List.perm_ext_iff_of_nodup (hnodup left hleftIds) (hnodup right hrightIds)).mpr hsame
    apply identicalAudits_of_perm (hwell left hleft) (hwell right hright)
    exact ((hsorted left).map _).trans (hperm.trans ((hsorted right).map _).symm)
  · intro hcollision hidentical logical
    have hdigest := digestSum_of_identicalAudits hidentical
    rw [digestSum_perm ((hsorted left).map _), digestSum_perm ((hsorted right).map _)] at hdigest
    exact ⟨logical_mem_of_digest (wellFormed_of_matching hleft) (wellFormed_of_matching hright) hcollision
        hdigest logical,
      logical_mem_of_digest (wellFormed_of_matching hright) (wellFormed_of_matching hleft) hcollision.symm
        hdigest.symm logical⟩

/-- The stream of a valid tree is the sort of its matching rows, up to an id that comes twice; a comparison
of two trees says whether they hold the same records. -/
theorem featureTrees_compared (reader : FeatureParquetReader F)
    (rowDigest : String × String × String → Nat) (filters : FeatureScanFilter) :
    (∀ tree : FeatureTree F, tree.Valid reader.codec →
      ∃ yielded raised, reader.iterRecords tree filters = .ok (yielded, raised) ∧
        (raised = none ↔
          ((tree.matching reader.codec filters).map (·.snapshot.featureSnapshotId)).Nodup) ∧
        (raised = none → yielded = sortByKey stableKey (tree.matching reader.codec filters)) ∧
        ∃ merged : List (PersistedFeatureRecord F), merged.Perm (tree.matching reader.codec filters) ∧
          merged.Pairwise (fun a b => stableKey a ≤ stableKey b) ∧ yielded <+: merged) ∧
    (∀ left right : FeatureTree F, left.Valid reader.codec → right.Valid reader.codec →
      ((∃ report, compareFeatureTrees reader rowDigest left right filters = .ok report) ↔
        ((left.matching reader.codec filters).map (·.snapshot.featureSnapshotId)).Nodup ∧
          ((right.matching reader.codec filters).map (·.snapshot.featureSnapshotId)).Nodup) ∧
      ∀ report, compareFeatureTrees reader rowDigest left right filters = .ok report →
        ((∀ logical, logical ∈ (left.matching reader.codec filters).map (·.logical) ↔
            logical ∈ (right.matching reader.codec filters).map (·.logical)) →
          report.identical = true) ∧
        (NoCollision reader.codec rowDigest (left.matching reader.codec filters)
            (right.matching reader.codec filters) → report.identical = true →
          ∀ logical, logical ∈ (left.matching reader.codec filters).map (·.logical) ↔
            logical ∈ (right.matching reader.codec filters).map (·.logical))) := by
  refine ⟨fun tree hvalid => iterRecords_spec hvalid filters, ?_⟩
  intro left right hleft hright
  constructor
  · constructor
    · rintro ⟨report, h⟩
      obtain ⟨leftAudit, hleftAudit, h⟩ := bind_eq_ok_iff.mp h
      obtain ⟨rightAudit, hrightAudit, -⟩ := bind_eq_ok_iff.mp h
      exact ⟨((auditFeatureTree_eq_ok_iff hleft).mp hleftAudit).1,
        ((auditFeatureTree_eq_ok_iff hright).mp hrightAudit).1⟩
    · rintro ⟨hleftIds, hrightIds⟩
      have hleftAudit : auditFeatureTree reader rowDigest left filters = .ok _ :=
        (auditFeatureTree_eq_ok_iff hleft).mpr ⟨hleftIds, rfl⟩
      have hrightAudit : auditFeatureTree reader rowDigest right filters = .ok _ :=
        (auditFeatureTree_eq_ok_iff hright).mpr ⟨hrightIds, rfl⟩
      exact ⟨_, bind_eq_ok_iff.mpr ⟨_, hleftAudit, bind_eq_ok_iff.mpr ⟨_, hrightAudit, rfl⟩⟩⟩
  · intro report h
    obtain ⟨leftAudit, hleftAudit, h⟩ := bind_eq_ok_iff.mp h
    obtain ⟨rightAudit, hrightAudit, h⟩ := bind_eq_ok_iff.mp h
    obtain rfl := Except.ok.inj h
    obtain ⟨hleftIds, rfl⟩ := (auditFeatureTree_eq_ok_iff hleft).mp hleftAudit
    obtain ⟨hrightIds, rfl⟩ := (auditFeatureTree_eq_ok_iff hright).mp hrightAudit
    exact identicalAudits_iff hleft hright hleftIds hrightIds

end Trees

/-! ### Two rows in one file and in two -/

/-- A file of the example partition. -/
def exampleFilePath (name : String) : FeaturePath := { parent := exampleFeaturePath.parent, name }

def exampleFeatureFile (name : String) (envelopes : List (FeatureEnvelope ℚ)) : FeatureFile ℚ :=
  { path := exampleFilePath name, rows := envelopes.map featureRow }

/-- Both rows in one file. -/
def exampleOneFile : FeatureTree ℚ :=
  { schemaRoot := "/data/feature_schema=v1"
    files := [exampleFeatureFile "part-0.parquet" [exampleFeatureEnvelope, exampleLaterEnvelope]] }

/-- The later row in the first file, a file without rows, and the other row in the last. -/
def exampleThreeFiles : FeatureTree ℚ :=
  { schemaRoot := "/data/feature_schema=v1"
    files :=
      [exampleFeatureFile "part-0.parquet" [exampleLaterEnvelope], exampleFeatureFile "part-1.parquet" [],
        exampleFeatureFile "part-2.parquet" [exampleFeatureEnvelope]] }

theorem fileHolds_exampleFeatureFile (name : String) {envelopes : List (FeatureEnvelope ℚ)}
    (h : envelopes.Sublist [exampleFeatureEnvelope, exampleLaterEnvelope]) :
    FileHolds exampleFeatureReader.codec (exampleFeatureFile name envelopes)
      (envelopes.map (·.record (exampleFilePath name))) where
  schemaMatches := rfl
  decoded := by
    refine mapM_map_eq_ok fun e he => ?_
    rcases List.mem_pair.mp (h.subset he) with rfl | rfl
    · exact featureRecordFromRow_featureRow List.mem_cons_self envelope_example.1 rfl
    · exact featureRecordFromRow_featureRow (List.mem_cons_of_mem _ List.mem_cons_self)
        envelope_example.2 (congrArg featurePartitionDirectory exampleLater_partition.symm)
  monotonic := by
    have hpair : [exampleFeatureEnvelope, exampleLaterEnvelope].Pairwise fun e e' =>
        stableKey (e.record (exampleFilePath name)) ≤ stableKey (e'.record (exampleFilePath name)) :=
      List.pairwise_pair.mpr (Prod.Lex.toLex_le_toLex.mpr (.inl (show (1000000 : Int) < 2000000 by decide)))
    exact List.pairwise_map.mpr (hpair.sublist h)

theorem exampleOneFile_valid : exampleOneFile.Valid exampleFeatureReader.codec where
  nonempty := ⟨_, List.mem_cons_self, List.cons_ne_nil _ _⟩
  holds := by
    intro file hfile
    obtain rfl := List.mem_singleton.mp hfile
    have hholds := fileHolds_exampleFeatureFile "part-0.parquet" (List.Sublist.refl _)
    rwa [← hholds.records_eq] at hholds

theorem exampleThreeFiles_valid : exampleThreeFiles.Valid exampleFeatureReader.codec where
  nonempty := ⟨_, List.mem_cons_self, List.cons_ne_nil _ _⟩
  holds := by
    intro file hfile
    obtain ⟨name, envelopes, hsublist, rfl⟩ : ∃ name envelopes,
        List.Sublist envelopes [exampleFeatureEnvelope, exampleLaterEnvelope] ∧
          file = exampleFeatureFile name envelopes := by
      simp only [exampleThreeFiles, List.mem_cons, List.not_mem_nil, or_false] at hfile
      rcases hfile with rfl | rfl | rfl
      · exact ⟨_, _, List.sublist_cons_self _ _, rfl⟩
      · exact ⟨_, _, List.nil_sublist _, rfl⟩
      · exact ⟨_, _, List.singleton_sublist.mpr List.mem_cons_self, rfl⟩
    have hholds := fileHolds_exampleFeatureFile name hsublist
    rwa [← hholds.records_eq] at hholds

theorem exampleOneFile_matching : exampleOneFile.matching exampleFeatureReader.codec {} =
    [exampleFeatureEnvelope, exampleLaterEnvelope].map
      (·.record (exampleFilePath "part-0.parquet")) := by
  have hholds := fileHolds_exampleFeatureFile "part-0.parquet" (List.Sublist.refl _)
  show (FeatureFile.records _ _ ++ []).filter _ = _
  rw [List.append_nil, hholds.records_eq]
  rfl

theorem exampleThreeFiles_matching : exampleThreeFiles.matching exampleFeatureReader.codec {} =
    [exampleLaterEnvelope.record (exampleFilePath "part-0.parquet"),
      exampleFeatureEnvelope.record (exampleFilePath "part-2.parquet")] := by
  have hlater := fileHolds_exampleFeatureFile "part-0.parquet"
    (List.sublist_cons_self exampleFeatureEnvelope [exampleLaterEnvelope])
  have hempty := fileHolds_exampleFeatureFile "part-1.parquet" (List.nil_sublist _)
  have hfeature := fileHolds_exampleFeatureFile "part-2.parquet"
    (List.singleton_sublist.mpr (List.mem_cons_self (a := exampleFeatureEnvelope)))
  show (FeatureFile.records _ _ ++ (FeatureFile.records _ _ ++ (FeatureFile.records _ _ ++ []))).filter _ = _
  rw [List.append_nil, hlater.records_eq, hempty.records_eq, hfeature.records_eq]
  rfl

/-- The digests of the two rows. -/
def exampleRowDigest (identity : String × String × String) : Nat :=
  if identity.1 = exampleFeatureEnvelope.payloadSha256 then
    0xd0bf478d098942d82f81ccdf6bef7f2a503862e2904493d6c6054dff0485b1e2
  else 0xed555e7417f989de788eb18e4afd0ab1323f0b34f6662f8d66f25aace8a89b3b

theorem featureTrees_compared_two_rows :
    ∃ report, compareFeatureTrees exampleFeatureReader exampleRowDigest exampleOneFile exampleThreeFiles {} =
      .ok report ∧ report.identical = true := by
  obtain ⟨hreport, hcompared⟩ := (featureTrees_compared exampleFeatureReader exampleRowDigest {}).2 _ _
    exampleOneFile_valid exampleThreeFiles_valid
  rw [exampleOneFile_matching, exampleThreeFiles_matching] at hreport hcompared
  obtain ⟨report, heq⟩ := hreport.mpr ⟨by decide +kernel, by decide +kernel⟩
  refine ⟨report, heq, (hcompared report heq).1 fun logical => ?_⟩
  exact List.Perm.mem_iff (List.Perm.swap _ _ [])

end Cvf
